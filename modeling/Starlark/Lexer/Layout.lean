import Starlark.Grammar.Derivation

/-! # Layout

Indentation becomes tokens. A line break outside brackets compares the width of the next line
with the open levels: a wider line opens a level, a narrower one closes levels until its width
is met.
-/
namespace Starlark

/-- The open indentation levels, innermost first, and the number of open brackets. -/
structure Layout where
  levels : List Nat
  brackets : Nat

def Layout.initial : Layout := ⟨[0], 0⟩

def tabWidth : Nat := 8

/-- The text after the last line feed. -/
def lastLine (text : List Char) : List Char :=
  (text.reverse.takeWhile (· != '\n')).reverse

/-- The width of the blanks that follow a line break: a tab counts as eight spaces. -/
def indentWidth (text : List Char) : Nat :=
  (lastLine text).count ' ' + (lastLine text).count '\t' * tabWidth

/-- A mark that borrows the span of another token. -/
def Token.mark (t : Token) (kind : Terminal) : Token := ⟨kind, lastLine t.text, t.span⟩

/-- The marks for a line of some width, the levels then open, and whether the width is one of
them. -/
def Layout.enter (levels : List Nat) (width : Nat) (t : Token) : List Token × List Nat × Bool :=
  if levels.headD 0 < width then ([t.mark .indent], width :: levels, true)
  else
    let closed := levels.takeWhile (width < ·)
    let kept := levels.dropWhile (width < ·)
    (closed.map fun _ => t.mark .dedent, kept, kept.headD 0 == width)

/-- Follows the opening and closing of brackets. -/
def Layout.track (l : Layout) : Terminal → Layout
  | .lparen | .lbracket | .lbrace => { l with brackets := l.brackets + 1 }
  | .rparen | .rbracket | .rbrace => { l with brackets := l.brackets - 1 }
  | _ => l

/-- The marks that close every open level at the end of input. -/
def Layout.finish (l : Layout) (t : Token) : List Token :=
  l.levels.dropLast.map fun _ => t.mark .dedent

end Starlark
