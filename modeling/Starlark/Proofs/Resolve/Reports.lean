import Mathlib.Data.List.Forall2
import Starlark.Proofs.Resolve.Order

/-! # Reports under more predeclared names

A diagnostic is either about a name that no block binds or independent of what is predeclared. So
more predeclared names take away the diagnostics for these names, tag their identifiers, and can
change no other diagnostic but in its text.
-/
namespace Starlark

/-- A diagnostic, together with the identifier if it is for a name that no block binds. -/
structure Report where
  unbound : Option Identifier
  diagnostic : Diagnostic

namespace Report

/-- Is it a report for one of these names? -/
def isFor (names : List String) (r : Report) : Bool := r.unbound.any fun x => names.contains x.name

/-- The same report, except that another text may stand in one for an unbound name. -/
structure Alike (r r' : Report) : Prop where
  unbound : r'.unbound = r.unbound
  diagnostic : r'.diagnostic = { r.diagnostic with message := r'.diagnostic.message }
  bound : r.unbound = none → r'.diagnostic = r.diagnostic

theorem Alike.refl (r : Report) : r.Alike r := ⟨rfl, rfl, fun _ => rfl⟩

end Report

theorem unresolvedError_eq (env : Environment) (x : Identifier) (frames : List Frame) :
    ∃ message, unresolvedError env x frames = { message, loc := x.loc } := by
  unfold unresolvedError
  split
  · exact ⟨_, rfl⟩
  · exact ⟨_, rfl⟩

theorem Frame.find?_append_builtin (frames : List Frame) (predeclared : List String)
    (name : String) : Frame.find? (frames ++ [⟨.builtin, predeclared⟩]) name =
      (Frame.find? frames name).or
        (if name ∈ predeclared then some ⟨.builtin, predeclared⟩ else none) := by
  rw [Frame.find?, List.find?_append, List.find?_singleton]
  simp only [Frame.binds, List.contains_iff_mem]
  rfl

namespace Finding

def report? (env : Environment) : Finding → Option Report
  | .name x frames =>
    match Frame.find? frames x.name with
    | some _ => none
    | none => some ⟨some x, unresolvedError env x frames⟩
  | .misplaced m loc => some ⟨none, { message := m.message, loc }⟩
  | .noted d => some ⟨none, d⟩
  | .unwritable => none

theorem map_report? (env : Environment) (e : Finding) :
    (e.report? env).map (·.diagnostic) = e.diagnostic? env := by
  cases e with
  | name x frames =>
    rw [report?, diagnostic?]
    cases Frame.find? frames x.name <;> rfl
  | misplaced _ _ | noted _ | unwritable => rfl

variable {predeclared predeclared' : List String}

/-- Under more predeclared names a finding is reported alike, unless it was reported for one of
the new names. -/
theorem report?_alike (hsub : ∀ x ∈ predeclared, x ∈ predeclared') (env env' : Environment)
    (e : Finding) :
    Option.Rel Report.Alike
      (((e.under [⟨.builtin, predeclared⟩]).report? env).filter
        (!·.isFor (predeclared'.removeAll predeclared)))
      ((e.under [⟨.builtin, predeclared'⟩]).report? env') := by
  cases e with
  | misplaced m loc => exact .some (Report.Alike.refl _)
  | noted d => exact .some (Report.Alike.refl _)
  | unwritable => exact .none
  | name x frames =>
    simp only [under, report?, Frame.find?_append_builtin]
    cases Frame.find? frames x.name with
    | some f => exact .none
    | none =>
      by_cases hold : x.name ∈ predeclared
      · have hnew := hsub x.name hold
        simp only [hold, hnew, ↓reduceIte, Option.none_or, Option.filter_none]
        exact .none
      · by_cases hnew : x.name ∈ predeclared'
        · have hdropped : ∀ d, (!Report.isFor (predeclared'.removeAll predeclared)
              ⟨some x, d⟩) = false := by
            intro d
            simp [Report.isFor, List.removeAll, hold, hnew]
          simp only [hold, hnew, ↓reduceIte, Option.none_or, Option.filter_some, hdropped,
            Bool.false_eq_true]
          exact .none
        · obtain ⟨text, ht⟩ := unresolvedError_eq env x (frames ++ [⟨.builtin, predeclared⟩])
          obtain ⟨text', ht'⟩ := unresolvedError_eq env' x (frames ++ [⟨.builtin, predeclared'⟩])
          have hkept : (!Report.isFor (predeclared'.removeAll predeclared)
              ⟨some x, { message := text, loc := x.loc }⟩) = true := by
            simp [Report.isFor, List.removeAll, hnew]
          simp only [hold, hnew, ↓reduceIte, Option.none_or, ht, ht',
            Option.filter_some, hkept]
          exact .some ⟨rfl, rfl, fun h => absurd h (Option.some_ne_none x)⟩

/-- Under more predeclared names a finding has the tag that it had, or, if it was reported for one
of the new names, that of a predeclared name. -/
theorem tag?_under_iff (hsub : ∀ x ∈ predeclared, x ∈ predeclared') (env : Environment)
    (e : Finding) (p : Identifier × Scope) :
    (e.under [⟨.builtin, predeclared'⟩]).tag? = some p ↔
      (e.under [⟨.builtin, predeclared⟩]).tag? = some p ∨
      p.2 = .builtin ∧ p.1.name ∈ predeclared'.removeAll predeclared ∧
        ∃ d, (e.under [⟨.builtin, predeclared⟩]).report? env = some ⟨some p.1, d⟩ := by
  cases e with
  | misplaced _ _ | noted _ | unwritable => simp [under, tag?, report?]
  | name x frames =>
    simp only [under, tag?, report?, Frame.find?_append_builtin]
    cases Frame.find? frames x.name with
    | some f => simp
    | none =>
      by_cases hold : x.name ∈ predeclared
      · simp [hold, hsub x.name hold]
      · by_cases hnew : x.name ∈ predeclared'
        · obtain ⟨y, scope⟩ := p
          simp only [hold, hnew, ↓reduceIte, Option.none_or, Option.map_some, Option.map_none,
            Option.some.injEq, Prod.mk.injEq, Report.mk.injEq, exists_and_left, exists_eq',
            and_true, false_or, reduceCtorEq]
          constructor
          · rintro ⟨rfl, rfl⟩
            simp [List.removeAll, hold, hnew]
          · rintro ⟨rfl, -, rfl⟩
            exact ⟨rfl, rfl⟩
        · simp only [hold, hnew, ↓reduceIte, Option.none_or, Option.map_none, reduceCtorEq,
            false_or, false_iff, Option.some.injEq, Report.mk.injEq, not_and, not_exists]
          rintro - hp _ rfl
          simp [List.removeAll, hnew] at hp

end Finding

/-- What a file finds inside its own blocks, whatever is predeclared. -/
def Stmt.innerFindings (loads strict : Bool) (ss : List Stmt) : List Finding :=
  (if loads then (loadOrderErrors none ss).map .noted else [])
    ++ (Declared.errors strict [] (Stmt.declaredAll ss)).map .noted
    ++ Finding.reached (Stmt.findingsAll [Stmt.moduleFrame ss] 0 ss)

theorem Settings.findings_under (settings : Settings) (predeclared : List String)
    (ss : List Stmt) :
    settings.findings predeclared ss =
      (Stmt.innerFindings settings.checksLoadOrder (!settings.buildFile) ss).map
        (Finding.under [⟨.builtin, predeclared⟩]) := by
  have hnoted : ∀ ds : List Diagnostic,
      (ds.map Finding.noted).map (Finding.under [⟨.builtin, predeclared⟩]) =
        ds.map Finding.noted := by
    intro ds
    rw [List.map_map]
    rfl
  have hvisit := Stmt.findingsAll_under (Stmt.moduleFrame ss) [] [⟨.builtin, predeclared⟩] 0 ss
  rw [List.singleton_append] at hvisit
  rw [findings, noted, Stmt.innerFindings, List.map_append, List.map_append, hnoted,
    ← Finding.reached_under, ← hvisit]
  unfold checksLoadOrder
  split
  · rw [hnoted]
    rfl
  · rfl

end Starlark
