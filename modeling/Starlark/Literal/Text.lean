import Starlark.Literal.Escape

/-! # String literals -/
namespace Starlark

/-- The parts of a string token. -/
structure StringToken where
  raw : Bool
  /-- The raw mark, if any, and the opening quotes. -/
  opening : List Char
  body : List Char
deriving DecidableEq

def StringToken.ofText (text : List Char) : StringToken :=
  let raw := match text with
    | c :: _ => c == 'r' || c == 'R'
    | [] => false
  let mark := if raw then 1 else 0
  let quotes := (text.drop mark).take 3
  let width := if quotes = ['"', '"', '"'] ∨ quotes = ['\'', '\'', '\''] then 3 else 1
  { raw
    opening := text.take (mark + width)
    body := (text.take (text.length - width)).drop (mark + width) }

/-- A decoded string literal and what was noted on the way. -/
structure DecodedString where
  value : List Char
  errors : List Diagnostic
  events : List Diagnostic

/-- Decodes a string token that begins at a point of a file. -/
def decodeString (file : String) (start : Point) (text : List Char) : DecodedString :=
  let s := StringToken.ofText text
  if s.raw then ⟨s.body, [], []⟩
  else
    let pieces := Piece.split s.body
    let placed := Piece.place (start.after s.opening) pieces
    ⟨pieces.flatMap Piece.value, placed.filterMap (Piece.error? file),
      placed.filterMap (Piece.event? file)⟩

end Starlark
