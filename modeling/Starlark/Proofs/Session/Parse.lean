import Starlark.Proofs.Grammar.Numbering
import Starlark.Session.Workspace

/-! # The outcome of a parse

A parse makes a file without tags, with a reporter of its own behind those of the workspace, and
with identifiers whose numbers were not used before.
-/
namespace Starlark

structure Workspace.Parsed (w : Workspace) (f : SourceFile) (w₁ : Workspace) : Prop where
  tags_eq : f.tags = .empty
  escapesAdded_eq : f.escapesAdded = false
  reporter_eq : f.reporter = w.reporters.length
  reporters_eq : ∃ r, w₁.reporters = w.reporters ++ [r]
  nextId_le : w.nextId ≤ w₁.nextId
  nodup : (numbers (Stmt.occurrencesAll f.statements)).Nodup
  fresh : ∀ i ∈ numbers (Stmt.occurrencesAll f.statements), w.nextId ≤ i ∧ i < w₁.nextId

namespace Workspace

/-- The statements of a file are those of its source, or there are none. -/
theorem statements_of_parse (w : Workspace) (text name : String) :
    (w.parse text name).1.statements = [] ∨ ∃ notes,
      parseStatements text name w.nextId = (.ok (w.parse text name).1.statements, notes) := by
  rw [parse]
  rcases parseStatements text name w.nextId with ⟨e | ss, notes⟩
  · exact .inl rfl
  · exact .inr ⟨notes, rfl⟩

theorem parsed_of_parse {w w₁ : Workspace} {text name : String} {f : SourceFile}
    (hparse : w.parse text name = (f, w₁)) : w.Parsed f w₁ := by
  have hle := (parseStatements_numbers text name w.nextId).1
  rw [parse] at hparse
  cases hp : parseStatements text name w.nextId with
  | mk result notes =>
    rw [hp] at hle
    cases result with
    | ok ss =>
      simp only [hp, Prod.mk.injEq] at hparse
      obtain ⟨rfl, rfl⟩ := hparse
      obtain ⟨hnodup, hfresh⟩ := parseStatements_nodup hp
      exact ⟨rfl, rfl, rfl, ⟨_, rfl⟩, hle, hnodup, hfresh⟩
    | error e =>
      simp only [hp, Prod.mk.injEq] at hparse
      obtain ⟨rfl, rfl⟩ := hparse
      refine ⟨rfl, rfl, rfl, ⟨_, rfl⟩, hle, List.nodup_nil, ?_⟩
      intro i hi
      cases hi

theorem Parsed.reporter_lt {w w₁ : Workspace} {f : SourceFile} (h : w.Parsed f w₁) :
    f.reporter < w₁.reporters.length := by
  obtain ⟨r, hr⟩ := h.reporters_eq
  rw [h.reporter_eq, hr, List.length_append]
  exact Nat.lt_succ_self _

end Workspace
end Starlark
