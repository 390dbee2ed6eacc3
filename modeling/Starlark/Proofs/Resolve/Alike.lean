import Starlark.Proofs.Resolve.Outermost

/-! # Blocks that bind the same names

The blocks around a statement matter only by their scopes and the sets of their names. So what a
top-level statement finds is found by the statement alone, and the blocks of the file come in
where its names are resolved; two files that bind the same names resolve it in the same way.
-/
namespace Starlark

/-- Frames of one scope that bind the same names, in any order and number. -/
def Frame.Alike (f g : Frame) : Prop := f.scope = g.scope ∧ ∀ x, x ∈ f.names ↔ x ∈ g.names

theorem Frame.Alike.refl (f : Frame) : f.Alike f := ⟨rfl, fun _ => Iff.rfl⟩

section
variable {fs gs : List Frame}

theorem Frame.find?_scope_congr (h : List.Forall₂ Frame.Alike fs gs) (x : String) :
    (Frame.find? fs x).map (·.scope) = (Frame.find? gs x).map (·.scope) := by
  induction h with
  | nil => rfl
  | @cons f g fs gs hfg _ ih =>
    have hbinds : f.binds x = g.binds x := by
      rw [Bool.eq_iff_iff, Frame.binds, Frame.binds]
      simpa using hfg.2 x
    rw [Frame.find?, Frame.find?, List.find?_cons, List.find?_cons, hbinds]
    cases g.binds x with
    | true => exact congrArg some hfg.1
    | false => exact ih

theorem Frame.mem_names_congr (h : List.Forall₂ Frame.Alike fs gs) (x : String) :
    x ∈ fs.flatMap (·.names) ↔ x ∈ gs.flatMap (·.names) := by
  induction h with
  | nil => exact Iff.rfl
  | cons hfg _ ih => simp only [List.flatMap_cons, List.mem_append, hfg.2 x, ih]

theorem Frame.alike_append (h : List.Forall₂ Frame.Alike fs gs) (inner : List Frame) :
    List.Forall₂ Frame.Alike (inner ++ fs) (inner ++ gs) := by
  induction inner with
  | nil => exact h
  | cons f inner ih => exact .cons (.refl f) ih

theorem Finding.tag?_under_congr (h : List.Forall₂ Frame.Alike fs gs) (e : Finding) :
    (e.under fs).tag? = (e.under gs).tag? := by
  cases e with
  | name x inner =>
    have hscope := Frame.find?_scope_congr (Frame.alike_append h inner) x.name
    have hmap := congrArg (Option.map fun scope => (x, scope)) hscope
    rw [Option.map_map, Option.map_map] at hmap
    exact hmap
  | misplaced _ _ | noted _ | unwritable => rfl

/-- A message about an unknown name lists no candidates twice and in no order of its own. -/
theorem Finding.diagnostic?_under_congr (env : Environment)
    (h : List.Forall₂ Frame.Alike fs gs) (e : Finding) :
    (e.under fs).diagnostic? env = (e.under gs).diagnostic? env := by
  cases e with
  | name x inner =>
    have happend := Frame.alike_append h inner
    have hscope := Frame.find?_scope_congr happend x.name
    have hmessage := unknownNameMessage_congr x.name (Frame.mem_names_congr happend)
    simp only [Finding.under, Finding.diagnostic?, unresolvedError, hmessage]
    cases hf : Frame.find? (inner ++ fs) x.name with
    | none =>
      have hg : Frame.find? (inner ++ gs) x.name = none := by
        rw [hf, Option.map_none] at hscope
        exact Option.map_eq_none_iff.mp hscope.symm
      rw [hg]
    | some f =>
      obtain ⟨g, hg, -⟩ : ∃ g, Frame.find? (inner ++ gs) x.name = some g ∧ g.scope = f.scope := by
        rw [hf, Option.map_some] at hscope
        exact Option.map_eq_some_iff.mp hscope.symm
      rw [hg]
  | misplaced _ _ | noted _ | unwritable => rfl

end

mutual

/-- Outside functions the blocks around a statement only resolve its names. -/
theorem Stmt.findings_outside {outer : List Frame} (h : Frame.inFunction outer = false) (n : Nat) :
    ∀ s : Stmt, s.findings outer n = (s.findings [] n).map (Finding.under outer)
  | .expr e _ => by
    simp only [Stmt.findings, ← Expr.findings_under, List.nil_append]
  | .assign lhs rhs _ => by
    simp only [Stmt.findings, List.map_append, ← Expr.findings_under,
      ← Expr.targetFindings_under, List.nil_append]
  | .augmentedAssign _ lhs rhs _ => by
    unfold Stmt.findings
    simp only [List.map_append, Finding.map_under_misplacedIf, ← Expr.findings_under,
      ← Expr.targetFindings_under, List.nil_append]
  | .ifElse c a b _ => by
    simp only [Stmt.findings, List.map_append, Finding.map_under_misplacedIf,
      ← Expr.findings_under, List.nil_append, h, Stmt.findingsAll_outside h n a,
      Stmt.findingsAll_outside h n b]
    rfl
  | .forLoop lhs collection b _ => by
    simp only [Stmt.findings, List.map_append, Finding.map_under_misplacedIf,
      ← Expr.findings_under, ← Expr.targetFindings_under, List.nil_append, h,
      Stmt.findingsAll_outside h (n + 1) b]
    rfl
  | .define _ ps b _ => by
    have hbody := Stmt.findingsAll_under (Stmt.functionFrame ps b) [] outer n b
    simp only [Stmt.findings, List.map_append, Finding.map_under_misplacedIf,
      ← Parameter.defaultFindings_under, ← hbody, List.nil_append, List.singleton_append, h,
      List.map_map]
    rfl
  | .returns result _ => by
    simp only [Stmt.findings, List.map_append, Finding.map_under_misplacedIf,
      ← Expr.findingsOpt_under, List.nil_append, h]
    rfl
  | .flow _ _ => by
    simp only [Stmt.findings, Finding.map_under_misplacedIf]
  | .load _ bs _ => by
    simp only [Stmt.findings, List.map_append, Finding.map_under_misplacedIf, List.map_map, h]
    rfl

theorem Stmt.findingsAll_outside {outer : List Frame} (h : Frame.inFunction outer = false)
    (n : Nat) : ∀ ss : List Stmt,
    Stmt.findingsAll outer n ss = (Stmt.findingsAll [] n ss).map (Finding.under outer)
  | [] => rfl
  | s :: ss => by
    simp only [Stmt.findingsAll, List.map_append, Stmt.findings_outside h n s,
      Stmt.findingsAll_outside h n ss]

end

namespace Stmt
variable {ss ts : List Stmt} {predeclared : List String}

theorem findings_topFrames (predeclared : List String) (ss : List Stmt) (s : Stmt) :
    s.findings (topFrames predeclared ss) 0 =
      (s.findings [] 0).map (Finding.under (topFrames predeclared ss)) :=
  findings_outside rfl 0 s

/-- Whether a visit stops is for the statements alone to say. -/
theorem any_stops_findings (predeclared : List String) (us : List Stmt) (s : Stmt) :
    (s.findings (topFrames predeclared us) 0).any Finding.stops = s.halts := by
  have hstops : Finding.stops ∘ Finding.under (topFrames predeclared us) = Finding.stops :=
    funext (Finding.stops_under _)
  rw [findings_topFrames, List.any_map, hstops, halts]

theorem any_stops_findingsAll (predeclared : List String) (us ss : List Stmt) :
    (findingsAll (topFrames predeclared us) 0 ss).any Finding.stops = ss.any halts := by
  rw [findingsAll_eq, List.any_flatMap]
  exact congrArg _ (funext (any_stops_findings predeclared us))

/-- A file comes to its statements one after the other, until one of them halts. -/
theorem visited_append (predeclared : List String) (pre post : List Stmt) (s : Stmt) :
    visited predeclared (pre ++ s :: post) =
      Finding.reached (findingsAll (topFrames predeclared (pre ++ s :: post)) 0 pre)
        ++ if pre.any halts then [] else
          Finding.reached (s.findings (topFrames predeclared (pre ++ s :: post)) 0)
            ++ if s.halts then [] else
              Finding.reached (findingsAll (topFrames predeclared (pre ++ s :: post)) 0 post) := by
  have hsplit : ∀ fs : List Frame, findingsAll fs 0 (pre ++ s :: post) =
      findingsAll fs 0 pre ++ (s.findings fs 0 ++ findingsAll fs 0 post) := by
    intro fs
    rw [findingsAll_eq, List.flatMap_append, List.flatMap_cons, ← findingsAll_eq, ← findingsAll_eq]
  rw [visited, hsplit, Finding.reached_append_eq, Finding.reached_append_eq, any_stops_findings,
    any_stops_findingsAll]

/-- A visit that never stops comes to everything. -/
theorem visited_eq (h : ss.any halts = false) :
    visited predeclared ss = findingsAll (topFrames predeclared ss) 0 ss :=
  Finding.reached_eq_self ((any_stops_findingsAll predeclared ss ss).trans h)

theorem reachedSites_eq (h : ss.any halts = false) :
    reachedSites predeclared ss = sites predeclared ss := by
  rw [reachedSites, visited_eq h, sites]

/-- Files that bind the same names at top level have alike blocks around it. -/
theorem topFrames_alike
    (same : ∀ x, x ∈ (bindings ss).map (·.name) ↔ x ∈ (bindings ts).map (·.name)) :
    List.Forall₂ Frame.Alike (topFrames predeclared ss) (topFrames predeclared ts) :=
  .cons ⟨rfl, same⟩ (.cons (.refl _) .nil)

/-- Inside files that bind the same names, findings call for the same tags. -/
theorem tags_congr (settings : Settings)
    (same : ∀ x, x ∈ (bindings ss).map (·.name) ↔ x ∈ (bindings ts).map (·.name))
    (found : List Finding) :
    settings.tags (found.map (Finding.under (topFrames predeclared ss))) =
      settings.tags (found.map (Finding.under (topFrames predeclared ts))) := by
  rw [Settings.tags, Settings.tags, List.filterMap_map, List.filterMap_map]
  refine congrArg (ite _ _) (congrFun (congrArg _ (funext fun e => ?_)) _)
  exact Finding.tag?_under_congr (topFrames_alike same) e

/-- Inside files that bind the same names, findings have the same diagnostics. -/
theorem diagnostics_congr (env : Environment)
    (same : ∀ x, x ∈ (bindings ss).map (·.name) ↔ x ∈ (bindings ts).map (·.name))
    (found : List Finding) :
    (found.map (Finding.under (topFrames predeclared ss))).filterMap (Finding.diagnostic? env) =
      (found.map (Finding.under (topFrames predeclared ts))).filterMap
        (Finding.diagnostic? env) := by
  rw [List.filterMap_map, List.filterMap_map]
  refine congrFun (congrArg _ (funext fun e => ?_)) _
  exact Finding.diagnostic?_under_congr env (topFrames_alike same) e

end Stmt
end Starlark
