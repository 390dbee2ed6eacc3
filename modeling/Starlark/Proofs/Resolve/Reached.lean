import Starlark.Proofs.Grammar.Defaults
import Starlark.Proofs.Resolve.WellFormed

/-! # What a visit without errors reaches

A visit that finds nothing but names looks up every occurrence of an expression. In a statement
whose parameters are proper it looks up every occurrence but the names of functions and of their
parameters, as often as it occurs.
-/
namespace Starlark

open Finding

mutual

/-- Every occurrence is looked up, and in order. -/
theorem Expr.names_of_settled (fs : List Frame) : ∀ e : Expr,
    Settled (e.findings fs) → names (e.findings fs) = e.occurrences
  | .ident _, _ => rfl
  | .int _ _, _ => rfl
  | .str _, _ => rfl
  | .list es _ _, h => by
    rw [Expr.findings] at h ⊢
    rw [Expr.occurrences, Expr.namesAll_of_settled fs es h]
  | .dict ds _, h => by
    rw [Expr.findings] at h ⊢
    rw [Expr.occurrences, Entry.namesAll_of_settled fs ds h]
  | .binary x _ y _, h => by
    rw [Expr.findings, settled_append] at h
    rw [Expr.findings, Expr.occurrences, names_append, Expr.names_of_settled fs x h.1,
      Expr.names_of_settled fs y h.2]
  | .unary _ x _, h => by
    rw [Expr.findings] at h ⊢
    rw [Expr.occurrences, Expr.names_of_settled fs x h]
  | .conditional t c e _, h => by
    rw [Expr.findings, settled_append, settled_append] at h
    rw [Expr.findings, Expr.occurrences, names_append, names_append,
      Expr.names_of_settled fs c h.1.1, Expr.names_of_settled fs t h.1.2,
      Expr.names_of_settled fs e h.2]
  | .dot o _ _, h => by
    rw [Expr.findings] at h ⊢
    rw [Expr.occurrences, Expr.names_of_settled fs o h]
  | .index o k _, h => by
    rw [Expr.findings, settled_append] at h
    rw [Expr.findings, Expr.occurrences, names_append, Expr.names_of_settled fs o h.1,
      Expr.names_of_settled fs k h.2]
  | .slice o a b c _, h => by
    rw [Expr.findings, settled_append, settled_append, settled_append] at h
    rw [Expr.findings, Expr.occurrences, names_append, names_append, names_append,
      Expr.names_of_settled fs o h.1.1.1, Expr.namesOpt_of_settled fs a h.1.1.2,
      Expr.namesOpt_of_settled fs b h.1.2, Expr.namesOpt_of_settled fs c h.2]
  | .call f as _, h => by
    rw [Expr.findings, settled_append] at h
    rw [Expr.findings, Expr.occurrences, names_append, Expr.names_of_settled fs f h.1,
      Argument.namesAll_of_settled fs as h.2]
  | .comprehension b cs _ _, h => by
    rw [Expr.findings, settled_append] at h
    rw [Expr.findings, Expr.occurrences, names_append,
      Clause.namesAll_of_settled (Clause.frame cs :: fs) cs h.1,
      Body.names_of_settled (Clause.frame cs :: fs) b h.2]

theorem Expr.namesAll_of_settled (fs : List Frame) : ∀ es : List Expr,
    Settled (Expr.findingsAll fs es) → names (Expr.findingsAll fs es) = Expr.occurrencesAll es
  | [], _ => rfl
  | e :: es, h => by
    rw [Expr.findingsAll, settled_append] at h
    rw [Expr.findingsAll, Expr.occurrencesAll, names_append, Expr.names_of_settled fs e h.1,
      Expr.namesAll_of_settled fs es h.2]

theorem Expr.namesOpt_of_settled (fs : List Frame) : ∀ e : Option Expr,
    Settled (Expr.findingsOpt fs e) → names (Expr.findingsOpt fs e) = Expr.occurrencesOpt e
  | none, _ => rfl
  | some e, h => Expr.names_of_settled fs e h

theorem Entry.names_of_settled (fs : List Frame) : ∀ d : Entry,
    Settled (d.findings fs) → names (d.findings fs) = d.occurrences
  | .mk k v _, h => by
    rw [Entry.findings, settled_append] at h
    rw [Entry.findings, Entry.occurrences, names_append, Expr.names_of_settled fs k h.1,
      Expr.names_of_settled fs v h.2]

theorem Entry.namesAll_of_settled (fs : List Frame) : ∀ ds : List Entry,
    Settled (Entry.findingsAll fs ds) → names (Entry.findingsAll fs ds) = Entry.occurrencesAll ds
  | [], _ => rfl
  | d :: ds, h => by
    rw [Entry.findingsAll, settled_append] at h
    rw [Entry.findingsAll, Entry.occurrencesAll, names_append, Entry.names_of_settled fs d h.1,
      Entry.namesAll_of_settled fs ds h.2]

theorem Argument.names_of_settled (fs : List Frame) : ∀ a : Argument,
    Settled (a.findings fs) → names (a.findings fs) = a.occurrences
  | .mk _ v _ _, h => Expr.names_of_settled fs v h

theorem Argument.namesAll_of_settled (fs : List Frame) : ∀ as : List Argument,
    Settled (Argument.findingsAll fs as) →
      names (Argument.findingsAll fs as) = Argument.occurrencesAll as
  | [], _ => rfl
  | a :: as, h => by
    rw [Argument.findingsAll, settled_append] at h
    rw [Argument.findingsAll, Argument.occurrencesAll, names_append,
      Argument.names_of_settled fs a h.1, Argument.namesAll_of_settled fs as h.2]

theorem Clause.names_of_settled (fs : List Frame) : ∀ c : Clause,
    Settled (c.findings fs) → names (c.findings fs) = c.occurrences
  | .each vars iterable _, h => by
    rw [Clause.findings, settled_append] at h
    rw [Clause.findings, Clause.occurrences, names_append,
      Expr.names_of_settled fs iterable h.1, Expr.names_of_settledTarget fs vars h.2]
  | .guard c _, h => Expr.names_of_settled fs c h

theorem Clause.namesAll_of_settled (fs : List Frame) : ∀ cs : List Clause,
    Settled (Clause.findingsAll fs cs) →
      names (Clause.findingsAll fs cs) = Clause.occurrencesAll cs
  | [], _ => rfl
  | c :: cs, h => by
    rw [Clause.findingsAll, settled_append] at h
    rw [Clause.findingsAll, Clause.occurrencesAll, names_append,
      Clause.names_of_settled fs c h.1, Clause.namesAll_of_settled fs cs h.2]

theorem Body.names_of_settled (fs : List Frame) : ∀ b : Body,
    Settled (b.findings fs) → names (b.findings fs) = b.occurrences
  | .item e, h => Expr.names_of_settled fs e h
  | .entry d, h => Entry.names_of_settled fs d h

/-- What is no target makes a finding, so there is none. -/
theorem Expr.names_of_settledTarget (fs : List Frame) : ∀ e : Expr,
    Settled (e.targetFindings fs) → names (e.targetFindings fs) = e.occurrences
  | .ident _, _ => rfl
  | .index o k _, h => by
    rw [Expr.targetFindings, settled_append] at h
    rw [Expr.targetFindings, Expr.occurrences, names_append, Expr.names_of_settled fs o h.1,
      Expr.names_of_settled fs k h.2]
  | .list es _ _, h => by
    rw [Expr.targetFindings] at h ⊢
    rw [Expr.occurrences, Expr.namesAll_of_settledTarget fs es h]
  | .int _ _, h => absurd h (not_settled_refusal _)
  | .str _, h => absurd h (not_settled_refusal _)
  | .dict _ _, h => absurd h (not_settled_refusal _)
  | .binary _ _ _ _, h => absurd h (not_settled_refusal _)
  | .unary _ _ _, h => absurd h (not_settled_refusal _)
  | .conditional _ _ _ _, h => absurd h (not_settled_refusal _)
  | .dot _ _ _, h => absurd h (not_settled_refusal _)
  | .slice _ _ _ _ _, h => absurd h (not_settled_refusal _)
  | .call _ _ _, h => absurd h (not_settled_refusal _)
  | .comprehension _ _ _ _, h => absurd h (not_settled_refusal _)

theorem Expr.namesAll_of_settledTarget (fs : List Frame) : ∀ es : List Expr,
    Settled (Expr.targetFindingsAll fs es) →
      names (Expr.targetFindingsAll fs es) = Expr.occurrencesAll es
  | [], _ => rfl
  | e :: es, h => by
    rw [Expr.targetFindingsAll, settled_append] at h
    rw [Expr.targetFindingsAll, Expr.occurrencesAll, names_append,
      Expr.names_of_settledTarget fs e h.1, Expr.namesAll_of_settledTarget fs es h.2]

end

mutual

/-- The names of the functions in a statement, at any depth, and of their parameters. -/
def Stmt.functionNames : Stmt → List Identifier
  | .define f ps b _ => f :: Parameter.bindings ps ++ Stmt.functionNamesAll b
  | .ifElse _ a b _ => Stmt.functionNamesAll a ++ Stmt.functionNamesAll b
  | .forLoop _ _ b _ => Stmt.functionNamesAll b
  | .expr _ _ => []
  | .assign _ _ _ => []
  | .augmentedAssign _ _ _ _ => []
  | .returns _ _ => []
  | .flow _ _ => []
  | .load _ _ _ => []

def Stmt.functionNamesAll : List Stmt → List Identifier
  | [] => []
  | s :: ss => s.functionNames ++ Stmt.functionNamesAll ss

end

/-- What occurs in proper parameters is a default value, which is looked up, or the name of a
parameter. -/
theorem Parameter.count_occurrences (fs : List Frame) {ps : List Parameter}
    (hproper : ∀ p ∈ ps, p.Proper) (h : Settled (Parameter.defaultFindings fs ps))
    (x : Identifier) :
    (ps.flatMap Parameter.occurrences).count x =
      (names (Parameter.defaultFindings fs ps)).count x + (Parameter.bindings ps).count x := by
  induction ps with
  | nil => rfl
  | cons p ps ih =>
    rw [Parameter.defaultFindings, settled_append] at h
    have hrest := ih (fun q hq => hproper q (List.mem_cons_of_mem p hq)) h.2
    have hdefault : names (if p.kind = .optional then Expr.findingsOpt fs p.default else []) =
        Expr.occurrencesOpt p.default := by
      by_cases hp : p.kind = .optional
      · rw [if_pos hp] at h ⊢
        exact Expr.namesOpt_of_settled fs p.default h.1
      · rcases hproper p List.mem_cons_self with hkind | hnone
        · exact absurd hkind hp
        · rw [if_neg hp, hnone]
          rfl
    have hbindings : (Parameter.bindings (p :: ps)).count x =
        p.identifier.toList.count x + (Parameter.bindings ps).count x := by
      rw [← List.count_append]
      cases hp : p.identifier <;> simp [Parameter.bindings, hp]
    rw [List.flatMap_cons, List.count_append, Parameter.occurrences, List.count_append, hrest,
      Parameter.defaultFindings, names_append, hdefault, List.count_append, hbindings]
    omega

mutual

/-- An occurrence is looked up or names a function or a parameter, and never both. -/
theorem Stmt.count_occurrences (fs : List Frame) (n : Nat) (x : Identifier) : ∀ s : Stmt,
    s.Proper → Settled (s.findings fs n) →
      s.occurrences.count x = (names (s.findings fs n)).count x + s.functionNames.count x
  | .expr e _, _, h => by
    rw [Stmt.findings] at h ⊢
    rw [Stmt.occurrences, Stmt.functionNames, Expr.names_of_settled fs e h, List.count_nil,
      Nat.add_zero]
  | .assign lhs rhs _, _, h => by
    rw [Stmt.findings, settled_append] at h
    rw [Stmt.findings, Stmt.occurrences, Stmt.functionNames, names_append,
      Expr.names_of_settled fs rhs h.1, Expr.names_of_settledTarget fs lhs h.2, List.count_nil,
      Nat.add_zero]
  | .augmentedAssign _ lhs rhs _, _, h => by
    unfold Stmt.findings at h ⊢
    rw [settled_append, settled_append] at h
    rw [Stmt.occurrences, Stmt.functionNames, names_append, names_append, names_misplacedIf,
      Expr.names_of_settled fs rhs h.1.2, Expr.names_of_settledTarget fs lhs h.2, List.nil_append,
      List.count_nil, Nat.add_zero]
  | .ifElse c a b _, hproper, h => by
    rw [Stmt.findings, settled_append, settled_append, settled_append] at h
    have ha := Stmt.count_occurrencesAll fs n x a hproper.1 h.1.2
    have hb := Stmt.count_occurrencesAll fs n x b hproper.2 h.2
    simp only [Stmt.findings, Stmt.occurrences, Stmt.functionNames, names_append,
      names_misplacedIf, Expr.names_of_settled fs c h.1.1.2, List.nil_append, List.count_append]
    omega
  | .forLoop lhs collection b _, hproper, h => by
    rw [Stmt.findings, settled_append, settled_append, settled_append] at h
    have hb := Stmt.count_occurrencesAll fs (n + 1) x b hproper h.2
    simp only [Stmt.findings, Stmt.occurrences, Stmt.functionNames, names_append,
      names_misplacedIf, Expr.names_of_settled fs collection h.1.1.2,
      Expr.names_of_settledTarget fs lhs h.1.2, List.nil_append, List.count_append]
    omega
  | .define f ps b _, hproper, h => by
    rw [Stmt.findings, settled_append, settled_append, settled_append] at h
    -- Collecting the body only adds notes: the names are those of the defaults and the body.
    have hps := Parameter.count_occurrences fs hproper.1 h.1.1.2 x
    have hb := Stmt.count_occurrencesAll _ n x b hproper.2 h.2
    simp only [Stmt.findings, Stmt.occurrences, Stmt.functionNames, names_append,
      names_misplacedIf, names_noted, List.nil_append, List.append_nil, List.count_append,
      List.cons_append, List.count_cons]
    omega
  | .returns result _, _, h => by
    rw [Stmt.findings, settled_append] at h
    rw [Stmt.findings, Stmt.occurrences, Stmt.functionNames, names_append, names_misplacedIf,
      Expr.namesOpt_of_settled fs result h.2, List.nil_append, List.count_nil, Nat.add_zero]
  | .flow _ _, _, _ => by
    rw [Stmt.findings, names_misplacedIf]
    rfl
  | .load _ bs _, _, _ => by
    have hnames : names (bs.map fun b => .name b.localName fs) = bs.map (·.localName) := by
      simp [names, List.filterMap_map, Function.comp_def, name?]
    rw [Stmt.findings, Stmt.occurrences, Stmt.functionNames, names_append, names_misplacedIf,
      hnames, List.nil_append, List.count_nil, Nat.add_zero]

theorem Stmt.count_occurrencesAll (fs : List Frame) (n : Nat) (x : Identifier) :
    ∀ ss : List Stmt, Stmt.ProperAll ss → Settled (Stmt.findingsAll fs n ss) →
      (Stmt.occurrencesAll ss).count x =
        (names (Stmt.findingsAll fs n ss)).count x + (Stmt.functionNamesAll ss).count x
  | [], _, _ => rfl
  | s :: ss, hproper, h => by
    rw [Stmt.findingsAll, settled_append] at h
    have hs := Stmt.count_occurrences fs n x s hproper.1 h.1
    have hss := Stmt.count_occurrencesAll fs n x ss hproper.2 h.2
    rw [Stmt.occurrencesAll, Stmt.findingsAll, Stmt.functionNamesAll, names_append,
      List.count_append, List.count_append, List.count_append, hs, hss]
    omega

end

/-- The occurrences of a block are those that are looked up and the names of functions and
parameters. -/
theorem Stmt.occurrencesAll_perm {fs : List Frame} {n : Nat} {ss : List Stmt}
    (hproper : Stmt.ProperAll ss) (h : Settled (Stmt.findingsAll fs n ss)) :
    (Stmt.occurrencesAll ss).Perm
      (names (Stmt.findingsAll fs n ss) ++ Stmt.functionNamesAll ss) := by
  rw [List.perm_iff_count]
  intro x
  rw [List.count_append]
  exact Stmt.count_occurrencesAll fs n x ss hproper h

/-- Where numbers are different, a number is looked up exactly if it occurs and is not that of a
function or a parameter. -/
theorem Stmt.mem_numbers_names {fs : List Frame} {n : Nat} {ss : List Stmt}
    (hproper : Stmt.ProperAll ss) (h : Settled (Stmt.findingsAll fs n ss))
    (hnodup : (numbers (Stmt.occurrencesAll ss)).Nodup) (i : Nat) :
    i ∈ numbers (names (Stmt.findingsAll fs n ss)) ↔
      i ∈ numbers (Stmt.occurrencesAll ss) ∧ i ∉ numbers (Stmt.functionNamesAll ss) := by
  have hperm := (Stmt.occurrencesAll_perm hproper h).map (·.id)
  rw [List.map_append] at hperm
  have hdifferent := (List.nodup_append.mp (hperm.nodup_iff.mp hnodup)).2.2
  rw [numbers, numbers, numbers, hperm.mem_iff, List.mem_append]
  constructor
  · intro hi
    exact ⟨.inl hi, fun hi' => hdifferent i hi i hi' rfl⟩
  · rintro ⟨hi | hi, hnot⟩
    · exact hi
    · exact absurd hi hnot

end Starlark
