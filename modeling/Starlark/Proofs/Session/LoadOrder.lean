import Starlark.Proofs.Resolve.Preceding
import Starlark.Proofs.Session.Validate

/-! # The check of the order of loads

A check appends one report for each load that comes after another statement, unless the statements
before it have no location: the place of the first of them is also what tells that there is one.
-/
namespace Starlark

namespace Workspace
variable {w : Workspace} {f : SourceFile}

/-- A check reports the loads before which a statement with a location ended the loads, in order,
each at its own place, and each cites the first such location. If the first statement that ends
the loads has a location, these are all the late loads, and it is the one that is cited. -/
theorem checkLoadOrder_reports (hr : f.reporter < w.reporters.length) :
    ∃ own, (w.checkLoadOrder f).errors f = w.errors f ++ own ∧
      own = ((preceded f.statements).filterMap fun p =>
        if p.2.isLoad then (Stmt.endOfLoads? p.1).map (loadOrderError · p.2.loc) else none) ∧
      ((∀ s, f.statements.find? (·.endsLoads) = some s → s.loc ≠ none) →
        List.Forall₂ Stmt.ReportedLate (Stmt.lateLoads f.statements) own) := by
  refine ⟨loadOrderErrors none f.statements, errors_extend hr rfl _, ?_, loadOrderErrors_complete⟩
  rw [loadOrderErrors_eq]
  rfl

/-- A load after an assignment and a docstring. -/
def loadAfterAssignment : List Stmt :=
  [.assign (.ident ⟨"x", 0, none⟩) (.int 1 none) (some ⟨"f.bzl", 1, 1, 0, 0⟩),
    .expr (.str ⟨"doc", none⟩) none,
    .load ⟨"//a:a.bzl", none⟩ [] (some ⟨"f.bzl", 3, 1, 0, 0⟩)]

theorem checkLoadOrder_reports_of_assignment :
    ∃ f w own, empty.build loadAfterAssignment "f.bzl" = (f, w) ∧
      f.reporter < w.reporters.length ∧
      (w.checkLoadOrder f).errors f = w.errors f ++ own ∧
      own = ((preceded f.statements).filterMap fun p =>
        if p.2.isLoad then (Stmt.endOfLoads? p.1).map (loadOrderError · p.2.loc) else none) ∧
      List.Forall₂ Stmt.ReportedLate (Stmt.lateLoads f.statements) own := by
  have hr : (empty.build loadAfterAssignment "f.bzl").1.reporter <
      (empty.build loadAfterAssignment "f.bzl").2.reporters.length := Nat.zero_lt_one
  obtain ⟨own, herrors, hown, hlate⟩ := checkLoadOrder_reports hr
  refine ⟨_, _, own, rfl, hr, herrors, hown, hlate ?_⟩
  rintro s ⟨⟩
  exact Option.some_ne_none _

/-- A load after a statement without a location comes too late, and it is not reported. -/
theorem checkLoadOrder_misses_unlocated :
    ∃ w f, empty.build
        [.assign (.ident ⟨"x", 0, none⟩) (.int 1 none) none,
          .load ⟨"//a:a.bzl", none⟩ [] (some ⟨"f.bzl", 2, 1, 0, 0⟩)] "f.bzl" = (f, w) ∧
      (Stmt.lateLoads f.statements).length = 1 ∧ (w.checkLoadOrder f).errors f = [] :=
  ⟨_, _, rfl, rfl, rfl⟩

end Workspace
end Starlark
