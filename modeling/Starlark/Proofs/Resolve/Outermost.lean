import Mathlib.Data.List.Nodup
import Mathlib.Data.List.Pairwise
import Starlark.Proofs.Resolve.Sites

/-! # The outermost block

What a file finds depends on the predeclared names in one way only: they are the outermost block
around every site. So the scope of an identifier inside a file, if it has one, is determined by
the statements of the file.
-/
namespace Starlark

/-- The same finding inside more blocks. -/
def Finding.under (outer : List Frame) : Finding → Finding
  | .name x frames => .name x (frames ++ outer)
  | .misplaced m loc => .misplaced m loc
  | .noted d => .noted d
  | .unwritable => .unwritable

theorem Finding.stops_under (outer : List Frame) (e : Finding) :
    (e.under outer).stops = e.stops := by
  cases e <;> rfl

/-- A visit comes to the same findings inside any blocks. -/
theorem Finding.reached_under (outer : List Frame) (found : List Finding) :
    reached (found.map (under outer)) = (reached found).map (under outer) := by
  simp only [reached, List.takeWhile_map, Function.comp_def, stops_under]

theorem Finding.under_refusal (outer : List Frame) (e : Expr) :
    (refusal e).under outer = refusal e :=
  refusal_cases (P := fun d => d.under outer = d) (fun _ => rfl) rfl

theorem Finding.map_under_misplacedIf (outer : List Frame) (c : Prop) [Decidable c]
    (m : Misplacement) (loc : Option Location) :
    (misplacedIf c m loc).map (under outer) = misplacedIf c m loc := by
  unfold misplacedIf
  split
  · rfl
  · rfl


mutual

theorem Expr.findings_under (fs outer : List Frame) :
    ∀ e : Expr, e.findings (fs ++ outer) = (e.findings fs).map (Finding.under outer)
  | .ident _ => rfl
  | .int _ _ => rfl
  | .str _ => rfl
  | .list es _ _ => by
    simp only [Expr.findings, Expr.findingsAll_under fs outer es]
  | .dict ds _ => by
    simp only [Expr.findings, Entry.findingsAll_under fs outer ds]
  | .binary x _ y _ => by
    simp only [Expr.findings, List.map_append, Expr.findings_under fs outer x,
      Expr.findings_under fs outer y]
  | .unary _ x _ => by
    simp only [Expr.findings, Expr.findings_under fs outer x]
  | .conditional t c e _ => by
    simp only [Expr.findings, List.map_append, Expr.findings_under fs outer t,
      Expr.findings_under fs outer c, Expr.findings_under fs outer e]
  | .dot o _ _ => by
    simp only [Expr.findings, Expr.findings_under fs outer o]
  | .index o k _ => by
    simp only [Expr.findings, List.map_append, Expr.findings_under fs outer o,
      Expr.findings_under fs outer k]
  | .slice o a b c _ => by
    simp only [Expr.findings, List.map_append, Expr.findings_under fs outer o,
      Expr.findingsOpt_under fs outer a, Expr.findingsOpt_under fs outer b,
      Expr.findingsOpt_under fs outer c]
  | .call f as _ => by
    simp only [Expr.findings, List.map_append, Expr.findings_under fs outer f,
      Argument.findingsAll_under fs outer as]
  | .comprehension b cs _ _ => by
    simp only [Expr.findings, List.map_append, ← List.cons_append,
      Clause.findingsAll_under (Clause.frame cs :: fs) outer cs,
      Body.findings_under (Clause.frame cs :: fs) outer b]

theorem Expr.findingsAll_under (fs outer : List Frame) : ∀ es : List Expr,
    Expr.findingsAll (fs ++ outer) es = (Expr.findingsAll fs es).map (Finding.under outer)
  | [] => rfl
  | e :: es => by
    simp only [Expr.findingsAll, List.map_append, Expr.findings_under fs outer e,
      Expr.findingsAll_under fs outer es]

theorem Expr.findingsOpt_under (fs outer : List Frame) : ∀ e : Option Expr,
    Expr.findingsOpt (fs ++ outer) e = (Expr.findingsOpt fs e).map (Finding.under outer)
  | none => rfl
  | some e => by
    simp only [Expr.findingsOpt, Expr.findings_under fs outer e]

theorem Entry.findings_under (fs outer : List Frame) :
    ∀ d : Entry, d.findings (fs ++ outer) = (d.findings fs).map (Finding.under outer)
  | .mk k v _ => by
    simp only [Entry.findings, List.map_append, Expr.findings_under fs outer k,
      Expr.findings_under fs outer v]

theorem Entry.findingsAll_under (fs outer : List Frame) : ∀ ds : List Entry,
    Entry.findingsAll (fs ++ outer) ds = (Entry.findingsAll fs ds).map (Finding.under outer)
  | [] => rfl
  | d :: ds => by
    simp only [Entry.findingsAll, List.map_append, Entry.findings_under fs outer d,
      Entry.findingsAll_under fs outer ds]

theorem Argument.findings_under (fs outer : List Frame) :
    ∀ a : Argument, a.findings (fs ++ outer) = (a.findings fs).map (Finding.under outer)
  | .mk _ v _ _ => by
    simp only [Argument.findings, Expr.findings_under fs outer v]

theorem Argument.findingsAll_under (fs outer : List Frame) : ∀ as : List Argument,
    Argument.findingsAll (fs ++ outer) as =
      (Argument.findingsAll fs as).map (Finding.under outer)
  | [] => rfl
  | a :: as => by
    simp only [Argument.findingsAll, List.map_append, Argument.findings_under fs outer a,
      Argument.findingsAll_under fs outer as]

theorem Clause.findings_under (fs outer : List Frame) :
    ∀ c : Clause, c.findings (fs ++ outer) = (c.findings fs).map (Finding.under outer)
  | .each vars iterable _ => by
    simp only [Clause.findings, List.map_append, Expr.findings_under fs outer iterable,
      Expr.targetFindings_under fs outer vars]
  | .guard c _ => by
    simp only [Clause.findings, Expr.findings_under fs outer c]

theorem Clause.findingsAll_under (fs outer : List Frame) : ∀ cs : List Clause,
    Clause.findingsAll (fs ++ outer) cs = (Clause.findingsAll fs cs).map (Finding.under outer)
  | [] => rfl
  | c :: cs => by
    simp only [Clause.findingsAll, List.map_append, Clause.findings_under fs outer c,
      Clause.findingsAll_under fs outer cs]

theorem Body.findings_under (fs outer : List Frame) :
    ∀ b : Body, b.findings (fs ++ outer) = (b.findings fs).map (Finding.under outer)
  | .item e => by
    simp only [Body.findings, Expr.findings_under fs outer e]
  | .entry d => by
    simp only [Body.findings, Entry.findings_under fs outer d]

theorem Expr.targetFindings_under (fs outer : List Frame) : ∀ e : Expr,
    e.targetFindings (fs ++ outer) = (e.targetFindings fs).map (Finding.under outer)
  | .ident _ => rfl
  | .index o k _ => by
    simp only [Expr.targetFindings, List.map_append, Expr.findings_under fs outer o,
      Expr.findings_under fs outer k]
  | .list es _ _ => by
    simp only [Expr.targetFindings, Expr.targetFindingsAll_under fs outer es]
  | .int _ _ | .str _ | .dict _ _ | .binary _ _ _ _ | .unary _ _ _ | .conditional _ _ _ _
  | .dot _ _ _ | .slice _ _ _ _ _ | .call _ _ _ | .comprehension _ _ _ _ => by
    simp only [Expr.targetFindings, List.map_cons, List.map_nil, Finding.under_refusal]

theorem Expr.targetFindingsAll_under (fs outer : List Frame) : ∀ es : List Expr,
    Expr.targetFindingsAll (fs ++ outer) es =
      (Expr.targetFindingsAll fs es).map (Finding.under outer)
  | [] => rfl
  | e :: es => by
    simp only [Expr.targetFindingsAll, List.map_append, Expr.targetFindings_under fs outer e,
      Expr.targetFindingsAll_under fs outer es]

end

theorem Parameter.defaultFindings_under (fs outer : List Frame) (ps : List Parameter) :
    Parameter.defaultFindings (fs ++ outer) ps =
      (Parameter.defaultFindings fs ps).map (Finding.under outer) := by
  induction ps with
  | nil => rfl
  | cons p ps ih =>
    simp only [Parameter.defaultFindings, List.map_append, ih, Expr.findingsOpt_under]
    split
    · rfl
    · rfl


mutual

/-- Whether a place is inside a function is for the innermost block to say. -/
theorem Stmt.findings_under (f : Frame) (fs outer : List Frame) (n : Nat) : ∀ s : Stmt,
    s.findings (f :: fs ++ outer) n = (s.findings (f :: fs) n).map (Finding.under outer)
  | .expr e _ => by
    simp only [Stmt.findings, Expr.findings_under]
  | .assign lhs rhs _ => by
    simp only [Stmt.findings, List.map_append, Expr.findings_under, Expr.targetFindings_under]
  | .augmentedAssign _ lhs rhs _ => by
    unfold Stmt.findings
    simp only [List.map_append, Finding.map_under_misplacedIf, Expr.findings_under,
      Expr.targetFindings_under]
  | .ifElse c a b _ => by
    simp only [Stmt.findings, List.map_append, Finding.map_under_misplacedIf,
      Expr.findings_under, Stmt.findingsAll_under f fs outer n a,
      Stmt.findingsAll_under f fs outer n b]
    rfl
  | .forLoop lhs collection b _ => by
    simp only [Stmt.findings, List.map_append, Finding.map_under_misplacedIf,
      Expr.findings_under, Expr.targetFindings_under,
      Stmt.findingsAll_under f fs outer (n + 1) b]
    rfl
  | .define _ ps b _ => by
    have hbody := Stmt.findingsAll_under (Stmt.functionFrame ps b) (f :: fs) outer n b
    rw [List.cons_append] at hbody
    simp only [Stmt.findings, List.map_append, Finding.map_under_misplacedIf,
      Parameter.defaultFindings_under, hbody, List.map_map]
    rfl
  | .returns result _ => by
    simp only [Stmt.findings, List.map_append, Finding.map_under_misplacedIf,
      Expr.findingsOpt_under]
    rfl
  | .flow _ _ => by
    simp only [Stmt.findings, Finding.map_under_misplacedIf]
  | .load _ bs _ => by
    simp only [Stmt.findings, List.map_append, Finding.map_under_misplacedIf, List.map_map]
    rfl

theorem Stmt.findingsAll_under (f : Frame) (fs outer : List Frame) (n : Nat) :
    ∀ ss : List Stmt, Stmt.findingsAll (f :: fs ++ outer) n ss =
      (Stmt.findingsAll (f :: fs) n ss).map (Finding.under outer)
  | [] => rfl
  | s :: ss => by
    simp only [Stmt.findingsAll, List.map_append, Stmt.findings_under f fs outer n s,
      Stmt.findingsAll_under f fs outer n ss]

end

/-- The identifiers that are looked up in a file, with the blocks around them but for the
outermost one. -/
def Stmt.innerSites (ss : List Stmt) : List (Identifier × List Frame) :=
  (Stmt.findingsAll [Stmt.moduleFrame ss] 0 ss).filterMap Finding.site?

/-- The scope of a site: that of the innermost block that binds the name, or else of the
outermost one, if it binds the name at all. -/
def siteScope (site : Identifier × List Frame) : Scope :=
  ((Frame.find? site.2 site.1.name).map (·.scope)).getD .builtin

namespace Stmt
variable {ss : List Stmt}

theorem sites_eq (predeclared : List String) (ss : List Stmt) :
    sites predeclared ss =
      (innerSites ss).map fun site => (site.1, site.2 ++ [⟨.builtin, predeclared⟩]) := by
  have h := findingsAll_under (moduleFrame ss) [] [⟨.builtin, predeclared⟩] 0 ss
  rw [sites, innerSites, topFrames, List.map_filterMap]
  rw [List.singleton_append] at h
  rw [h, List.filterMap_map]
  refine congrFun (congrArg _ (funext fun e => ?_)) _
  cases e <;> rfl

/-- No two sites share a number, unless they are the same. -/
def Consistent (ss : List Stmt) : Prop :=
  ∀ a ∈ innerSites ss, ∀ b ∈ innerSites ss, a.1.id = b.1.id → a = b

/-- The scope that the statements of a file give to a number. -/
def scopeOf (ss : List Stmt) (i : Nat) : Option Scope :=
  ((innerSites ss).find? (·.1.id == i)).map siteScope

theorem scopeOf_site (h : Consistent ss) {site : Identifier × List Frame}
    (hs : site ∈ innerSites ss) : scopeOf ss site.1.id = some (siteScope site) := by
  rw [scopeOf]
  cases hf : (innerSites ss).find? (·.1.id == site.1.id) with
  | none =>
    have := List.find?_eq_none.mp hf site hs
    simp at this
  | some other =>
    have hid : other.1.id = site.1.id := by simpa using List.find?_some hf
    rw [h other (List.mem_of_find?_eq_some hf) site hs hid, Option.map_some]

/-- Whatever is predeclared, a tag of a site has the scope that the statements give. -/
theorem siteTag?_scope {x : Identifier} {frames : List Frame} {predeclared : List String}
    {p : Identifier × Scope}
    (hp : siteTag? (x, frames ++ [⟨.builtin, predeclared⟩]) = some p) :
    p.1 = x ∧ p.2 = siteScope (x, frames) := by
  obtain ⟨f, hf, rfl⟩ := Option.map_eq_some_iff.mp hp
  refine ⟨rfl, ?_⟩
  rw [Frame.find?, List.find?_append] at hf
  rw [siteScope, Frame.find?]
  cases hin : frames.find? (·.binds x.name) with
  | some g =>
    simp only [hin, Option.some_or, Option.some.injEq] at hf
    rw [hf, Option.map_some, Option.getD_some]
  | none =>
    simp only [hin, Option.none_or] at hf
    rw [List.mem_singleton.mp (List.mem_of_find?_eq_some hf)]
    rfl

/-- The tags that a validation calls for agree with the statements of the file, in either mode
and under every environment. -/
theorem scopeOf_tags (h : Consistent ss) (settings : Settings) (predeclared : List String) :
    ∀ p ∈ settings.tags (settings.findings predeclared ss), scopeOf ss p.1.id = some p.2 := by
  intro p hp
  cases hb : settings.buildFile with
  | true =>
    rw [Settings.tags, hb, if_pos rfl] at hp
    cases hp
  | false =>
    rw [Settings.tags_findings hb] at hp
    obtain ⟨site, hreached, htag⟩ := List.mem_filterMap.mp hp
    have hsite := (reachedSites_isPrefix predeclared ss).subset hreached
    rw [sites_eq] at hsite
    obtain ⟨inner, hinner, rfl⟩ := List.mem_map.mp hsite
    obtain ⟨h₁, h₂⟩ := siteTag?_scope htag
    rw [h₁, h₂]
    exact scopeOf_site h hinner

/-- The numbers of the sites of a block are among those of its occurrences. -/
theorem sites_numbers (fs : List Frame) (ss : List Stmt) :
    (((findingsAll fs 0 ss).filterMap Finding.site?).map (·.1.id)).Sublist
      (numbers (occurrencesAll ss)) := by
  have hsub := (findingsAll_names fs 0 ss).map Identifier.id
  refine cast (congrArg (List.Sublist · _) ?_) hsub
  rw [Finding.names, List.map_filterMap, List.map_filterMap]
  refine congrFun (congrArg _ (funext fun e => ?_)) _
  cases e <;> rfl

theorem findingsAll_eq (fs : List Frame) (n : Nat) (ss : List Stmt) :
    findingsAll fs n ss = ss.flatMap (findings fs n) := by
  induction ss with
  | nil => rfl
  | cons s ss ih => rw [findingsAll, ih, List.flatMap_cons]

/-- A file made of statements whose occurrences have different numbers is consistent, also if
it repeats or omits some of them. -/
theorem Consistent.of_subset {pool : List Stmt} (h : (numbers (occurrencesAll pool)).Nodup)
    (hss : ∀ s ∈ ss, s ∈ pool) : Consistent ss := by
  have hnumbers : numbers (occurrencesAll pool) =
      pool.flatMap fun s => numbers s.occurrences := by
    rw [numbers, occurrencesAll_eq, List.map_flatMap]
    rfl
  obtain ⟨hone, hpair⟩ := List.nodup_flatMap.mp (hnumbers ▸ h)
  -- A site lies in some statement and has the number of an occurrence of it.
  have hmem : ∀ a ∈ innerSites ss, ∃ s ∈ pool,
      a ∈ (findingsAll [moduleFrame ss] 0 [s]).filterMap Finding.site? ∧
        a.1.id ∈ numbers s.occurrences := by
    intro a ha
    obtain ⟨e, he, hea⟩ := List.mem_filterMap.mp ha
    rw [findingsAll_eq] at he
    obtain ⟨s, hs, hes⟩ := List.mem_flatMap.mp he
    have hin : a ∈ (findingsAll [moduleFrame ss] 0 [s]).filterMap Finding.site? := by
      refine List.mem_filterMap.mpr ⟨e, ?_, hea⟩
      rwa [findingsAll_eq, List.flatMap_singleton]
    refine ⟨s, hss s hs, hin, ?_⟩
    have hid := (sites_numbers [moduleFrame ss] [s]).subset (List.mem_map_of_mem hin)
    rwa [occurrencesAll_eq, List.flatMap_singleton] at hid
  intro a ha b hb hid
  obtain ⟨s, hs, has, hsid⟩ := hmem a ha
  obtain ⟨t, ht, hbt, htid⟩ := hmem b hb
  have hst : s = t := by
    by_contra hne
    have : Std.Symm (Function.onFun List.Disjoint fun s : Stmt => numbers s.occurrences) :=
      ⟨fun _ _ hd _ h₁ h₂ => hd h₂ h₁⟩
    exact hpair.forall hs ht hne hsid (hid ▸ htid)
  subst hst
  have hnodup := (sites_numbers [moduleFrame ss] [s]).nodup
    (by simpa [occurrencesAll_eq] using hone s hs)
  exact List.inj_on_of_nodup_map hnodup has hbt hid

end Stmt
end Starlark
