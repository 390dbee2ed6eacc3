import Starlark.Proofs.Grammar.Located
import Starlark.Proofs.Resolve.Outermost
import Starlark.Proofs.Resolve.WellFormed
import Starlark.Proofs.Session.Parse
import Starlark.Proofs.Session.Validate

/-! # Acceptance

A parsed file without errors is accepted exactly if it is well-formed and, where escapes are
restricted, has no notes about them.
-/
namespace Starlark

namespace Workspace

theorem located_of_parse {w w₁ : Workspace} {text name : String} {f : SourceFile}
    (hparse : w.parse text name = (f, w₁)) : ∀ s ∈ f.statements, s.loc ≠ none := by
  rcases w.statements_of_parse text name with hnone | ⟨notes, hstatements⟩
  · rw [hparse] at hnone
    rw [hnone]
    exact List.forall_mem_nil _
  · rw [hparse] at hstatements
    exact parseStatements_located hstatements

/-- Acceptance is well-formedness, in strict and in build mode. A file that is not accepted is either
rejected or halts, at a target that is none and cannot be reported. -/
theorem validate_accepts_iff {w w₁ : Workspace} {text name : String} {f : SourceFile}
    (hparse : w.parse text name = (f, w₁)) (fine : w₁.isFine f = true) {settings : Settings}
    (known : settings.env.KnownFlags) :
    ∃ predeclared accepted f' w', settings.env.variableNames = .ok predeclared ∧
      w₁.validate f settings =
        (if f.statements.any Stmt.halts then .error .unwritable else .ok accepted, f', w') ∧
      ((w₁.validate f settings).1 = .ok true ↔
        Stmt.WellFormed (!settings.buildFile)
          (!settings.buildFile && settings.env.semantics.disallowLoadAfterStatement)
          predeclared f.statements ∧
        (settings.env.semantics.restrictStringEscapes = true → f.escapes = [])) := by
  have hp := parsed_of_parse hparse
  have hcons : Stmt.Consistent f.statements := .of_subset hp.nodup fun _ hs => hs
  obtain ⟨t, ht, -, -⟩ := (ScopeTable.agrees_empty _).recordAll
    (Stmt.scopeOf_tags hcons settings settings.env.predeclared)
  rw [← hp.tags_eq] at ht
  have hv := validate_eq (w := w₁) known hp.reporter_lt ht
  refine ⟨_, _, _, _, Environment.variableNames_eq known, hv, ?_⟩
  rw [hv]
  have hwell := Settings.diagnostics_eq_nil settings settings.env.predeclared
    (located_of_parse hparse)
  cases hhalts : f.statements.any Stmt.halts with
  | true =>
    refine ⟨nofun, fun h => ?_⟩
    -- A well-formed file does not halt.
    have hnot := (hwell.mpr h.1).1
    rw [hhalts] at hnot
    cases hnot
  | false =>
    have hnone : w₁.errors f = [] := by
      simpa [isFine, errors, Reporter.hasErrors] using fine
    rw [hhalts] at hwell
    simp only [Bool.false_eq_true, ↓reduceIte, Except.ok.injEq]
    rw [hnone, List.nil_append, List.isEmpty_iff, SourceFile.newErrors, List.append_eq_nil_iff,
      ← hwell, SourceFile.findings, SourceFile.pendingEscapes, hp.escapesAdded_eq, and_comm]
    simp only [true_and]
    refine and_congr_right fun _ => ?_
    split <;> simp_all

theorem validate_accepts_iff_of_function :
    ∃ f w₁ predeclared accepted f' w',
      empty.parse "def f(x):\n  for y in x:\n    break\n" "f.bzl" = (f, w₁) ∧
      w₁.isFine f = true ∧ (Environment.standard {} []).KnownFlags ∧
      (Environment.standard {} []).variableNames = .ok predeclared ∧
      w₁.validate f ⟨.standard {} [], false⟩ =
        (if f.statements.any Stmt.halts then .error .unwritable else .ok accepted, f', w') ∧
      ((w₁.validate f ⟨.standard {} [], false⟩).1 = .ok true ↔
        Stmt.WellFormed true true predeclared f.statements ∧ (false = true → f.escapes = [])) := by
  have known : (Environment.standard {} []).KnownFlags := by
    intro g hg
    cases hg
  have fine : (empty.parse "def f(x):\n  for y in x:\n    break\n" "f.bzl").2.isFine
      (empty.parse "def f(x):\n  for y in x:\n    break\n" "f.bzl").1 = true := by
    decide +kernel
  cases hparse : empty.parse "def f(x):\n  for y in x:\n    break\n" "f.bzl" with
  | mk f w₁ =>
    rw [hparse] at fine
    obtain ⟨predeclared, accepted, f', w', h⟩ :=
      @validate_accepts_iff _ _ _ _ _ hparse fine ⟨.standard {} [], false⟩ known
    exact ⟨f, w₁, predeclared, accepted, f', w', rfl, fine, known, h⟩

end Workspace
end Starlark
