import Mathlib.Data.List.Induction
import Starlark.Proofs.Lexer.Lines

/-! # Characters at points

The lines of a text are what stands between its line feeds. The point after a beginning of the
text is that of the next character in these lines.
-/
namespace Starlark

/-- The character of a text at a point: one of a line, both counted from one. -/
def charAt? (text : List Char) (p : Point) : Option Char :=
  if 1 ≤ p.line ∧ 1 ≤ p.column then
    (text.splitOn '\n')[(p.line - 1).toNat]?.bind (·[(p.column - 1).toNat]?)
  else none

/-- What follows a beginning of a text goes on with the last line of the beginning. -/
theorem splitOn_append (before : List Char) :
    ∃ front line, Point.after ⟨1, 1⟩ before = ⟨front.length + 1, line.length + 1⟩ ∧
      ∀ rest next others, rest.splitOn '\n' = next :: others →
        (before ++ rest).splitOn '\n' = front ++ (line ++ next) :: others := by
  induction before using List.reverseRecOn with
  | nil => exact ⟨[], [], rfl, fun _ _ _ h => h⟩
  | append_singleton before c ih =>
    obtain ⟨front, line, hpoint, hlines⟩ := ih
    rw [Point.after_append, hpoint]
    by_cases hc : c = '\n'
    · refine ⟨front ++ [line], [], ?_, fun rest next others h => ?_⟩
      · simp [Point.after, Point.next, hc]
      · have hrest : (c :: rest).splitOn '\n' = [] :: next :: others := by
          simp [List.splitOn_cons_eq_if_modifyHead, hc, h]
        rw [List.append_assoc, List.singleton_append, hlines _ _ _ hrest]
        simp
    · refine ⟨front, line ++ [c], ?_, fun rest next others h => ?_⟩
      · simp [Point.after, Point.next, hc]
      · have hrest : (c :: rest).splitOn '\n' = (c :: next) :: others := by
          simp [List.splitOn_cons_eq_if_modifyHead, hc, h]
        rw [List.append_assoc, List.singleton_append, hlines _ _ _ hrest]
        simp

/-- The character after a beginning of a text stands at the point after it. -/
theorem charAt?_after {c : Char} (hc : c ≠ '\n') (before rest : List Char) :
    charAt? (before ++ c :: rest) (Point.after ⟨1, 1⟩ before) = some c := by
  obtain ⟨front, line, hpoint, hlines⟩ := splitOn_append before
  obtain ⟨next, others, hrest⟩ := List.exists_cons_of_ne_nil (List.splitOn_ne_nil '\n' rest)
  have hnext : (c :: rest).splitOn '\n' = (c :: next) :: others := by
    simp [List.splitOn_cons_eq_if_modifyHead, hc, hrest]
  rw [hpoint, charAt?, hlines _ _ _ hnext, if_pos (by constructor <;> dsimp only <;> omega)]
  simp

namespace Point

/-- Earlier in a text: on an earlier line, or before on the same one. -/
def Before (p q : Point) : Prop := p.line < q.line ∨ p.line = q.line ∧ p.column < q.column

theorem before_after (p : Point) {text : List Char} (h : text ≠ []) : p.Before (p.after text) := by
  have hlength := List.length_pos_iff.mpr h
  rcases p.after_cases text with hline | ⟨hline, hcolumn⟩
  · exact .inl hline
  · exact .inr ⟨hline.symm, by omega⟩

end Point

/-- The character after a hidden line break is in the first column of the next line. -/
example : charAt? "x = \\\n\"\\d\"\n".toList ⟨2, 2⟩ = some '\\' := by decide

end Starlark
