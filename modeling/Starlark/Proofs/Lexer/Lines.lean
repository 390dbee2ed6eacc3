import Starlark.Lexer.Layout
import Starlark.Lexer.Pattern

/-! # Logical lines

What belongs to one line, told from the characters alone: brackets, a backslash before a line break
and long strings join lines, and nothing in a comment or a string counts as a bracket or a quote.
The margin of a logical line is made of the spaces and tabs right after the line break before it;
the first line has no margin.
-/
namespace Starlark

/-- What a place in a text is part of. -/
inductive Mode
  | code
  /-- The blanks at the beginning of a logical line. -/
  | margin
  | comment
  /-- After a backslash, up to the line break that it hides. -/
  | joined
  /-- After one quote, and after two of them. -/
  | opened (quote : Char)
  | twice (quote : Char)
  | short (quote : Char) (escaped : Bool)
  /-- A long string, after some of the quotes that may close it. -/
  | long (quote : Char) (quotes : Nat) (escaped : Bool)

/-- A place in a text. -/
structure Cursor where
  mode : Mode
  /-- The number of open brackets. -/
  depth : Nat
  /-- The width of the margin of the logical line, as far as it was read. -/
  width : Nat

namespace Cursor

def start : Cursor := ⟨.code, 0, 0⟩

/-- A line break outside of strings. Inside brackets the logical line goes on. -/
def endLine (k : Cursor) : Cursor :=
  if k.depth = 0 then ⟨.margin, 0, 0⟩ else { k with mode := .code }

/-- A character outside of comments and strings. -/
def code (k : Cursor) (c : Char) : Cursor :=
  if c = '\n' then k.endLine
  else if c = '#' then { k with mode := .comment }
  else if c = '\\' then { k with mode := .joined }
  else if c = '"' ∨ c = '\'' then { k with mode := .opened c }
  else if c ∈ ['(', '[', '{'] then { k with mode := .code, depth := k.depth + 1 }
  else if c ∈ [')', ']', '}'] then { k with mode := .code, depth := k.depth - 1 }
  else { k with mode := .code }

/-- One more character of the text. -/
def next (k : Cursor) (c : Char) : Cursor :=
  match k.mode with
  | .code => k.code c
  | .margin =>
    if c = ' ' then { k with width := k.width + 1 }
    else if c = '\t' then { k with width := k.width + tabWidth }
    else k.code c
  | .comment => if c = '\n' then k.endLine else k
  | .joined =>
    if c = '\n' then { k with mode := .code }
    else if Pattern.isBlank c ∨ c = '\r' then k
    else k.code c
  | .opened quote =>
    if c = quote then { k with mode := .twice quote }
    else { k with mode := .short quote (c == '\\') }
  | .twice quote => if c = quote then { k with mode := .long quote 0 false } else k.code c
  | .short quote escaped =>
    if c = quote ∧ !escaped then { k with mode := .code }
    else { k with mode := .short quote (c == '\\' && !escaped) }
  | .long quote quotes escaped =>
    if c = quote ∧ !escaped then
      if quotes = 2 then { k with mode := .code }
      else { k with mode := .long quote (quotes + 1) false }
    else { k with mode := .long quote 0 (c == '\\' && !escaped) }

def after (k : Cursor) (text : List Char) : Cursor := text.foldl next k

end Cursor

/-- The width of the logical line at a point, for a text that begins at `here`. -/
def widthFrom? (p here : Point) (k : Cursor) (text : List Char) : Option Nat :=
  if here = p then some k.width
  else match text with
    | [] => none
    | c :: cs => widthFrom? p (here.next c) (k.next c) cs

/-- The width of the margin of the logical line at a point of a text: a tab counts as eight
spaces. -/
def lineWidth? (text : List Char) (p : Point) : Option Nat := widthFrom? p ⟨1, 1⟩ .start text

namespace Point

theorem after_append (p : Point) (as bs : List Char) :
    p.after (as ++ bs) = (p.after as).after bs := List.foldl_append

theorem line_after (p : Point) (text : List Char) :
    (p.after text).line = p.line + text.count '\n' := by
  induction text generalizing p with
  | nil => exact (Int.add_zero _).symm
  | cons c cs ih =>
    change ((p.next c).after cs).line = _
    rw [ih, next, List.count_cons]
    by_cases hc : c = '\n'
    · simp only [hc, if_true, beq_self_eq_true]
      omega
    · simp [hc]

/-- What follows a point is on a later line, or later on its line. -/
theorem after_cases (p : Point) (text : List Char) :
    p.line < (p.after text).line ∨
      (p.after text).line = p.line ∧ (p.after text).column = p.column + text.length := by
  induction text generalizing p with
  | nil => exact .inr ⟨rfl, (Int.add_zero _).symm⟩
  | cons c cs ih =>
    have hnext : p.line < (p.next c).line ∨
        (p.next c).line = p.line ∧ (p.next c).column = p.column + 1 := by
      unfold next
      split
      · exact .inl (Int.lt_succ _)
      · exact .inr ⟨rfl, rfl⟩
    have hstep : p.after (c :: cs) = (p.next c).after cs := rfl
    rw [hstep, List.length_cons]
    rcases hnext, ih (p.next c) with ⟨hline | ⟨hline, hcolumn⟩, hline' | ⟨hline', hcolumn'⟩⟩
    · exact .inl (Int.lt_trans hline hline')
    · exact .inl (hline' ▸ hline)
    · exact .inl (hline ▸ hline')
    · refine .inr ⟨hline'.trans hline, ?_⟩
      rw [hcolumn', hcolumn]
      omega

theorem ne_after {p : Point} {text : List Char} (h : text ≠ []) : p ≠ p.after text := by
  intro heq
  have hlength := List.length_pos_iff.mpr h
  rcases p.after_cases text with hline | ⟨-, hcolumn⟩
  · rw [← heq] at hline
    exact Int.lt_irrefl _ hline
  · rw [← heq] at hcolumn
    omega

end Point

/-- The width at a point is that of a cursor that has read the text before it. -/
theorem widthFrom?_append (here : Point) (k : Cursor) (before rest : List Char) :
    widthFrom? (here.after before) here k (before ++ rest) = some (k.after before).width := by
  induction before generalizing here k with
  | nil =>
    have hhere : here = here.after [] := rfl
    rw [widthFrom?.eq_def, if_pos hhere]
    rfl
  | cons c cs ih =>
    rw [widthFrom?.eq_def, if_neg (Point.ne_after (List.cons_ne_nil c cs))]
    exact ih (here.next c) (k.next c)

theorem lineWidth?_append (before rest : List Char) :
    lineWidth? (before ++ rest) (Point.after ⟨1, 1⟩ before) =
      some (Cursor.start.after before).width :=
  widthFrom?_append ⟨1, 1⟩ .start before rest

/-- Brackets and hidden line breaks go on with the line of the statement. -/
example : lineWidth? "if x:\n\t f(a,\n  b)\n".toList ⟨3, 3⟩ = some 9 := by decide +kernel

end Starlark
