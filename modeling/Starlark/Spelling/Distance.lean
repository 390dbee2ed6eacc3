/-! # Edit distance

The least number of insertions, deletions and substitutions of one character that turn one text
into another, computed row by row and given up once it must exceed a bound.
-/
namespace Starlark.Spelling

/-- The rest of a row: `left` is the entry before it and `previous` the row above, from the
entry above `left` on. -/
def rowFrom (c : Char) (left : Nat) : List Char → List Nat → List Nat
  | d :: ds, diagonal :: above :: previous =>
    let entry := min (min (above + 1) (left + 1)) (diagonal + if c = d then 0 else 1)
    entry :: rowFrom c entry ds (above :: previous)
  | _, _ => []

/-- The row for one more character of the first text, the `i`-th. -/
def nextRow (t : List Char) (c : Char) (i : Nat) (previous : List Nat) : List Nat :=
  i :: rowFrom c i t previous

/-- The last row, unless all entries of some row exceed the bound. -/
def lastRow? (t : List Char) (bound : Int) : Nat → List Nat → List Char → Option (List Nat)
  | _, row, [] => some row
  | i, row, c :: cs =>
    let row' := nextRow t c (i + 1) row
    if row'.any (fun n => (n : Int) ≤ bound) then lastRow? t bound (i + 1) row' cs else none

/-- The edit distance of two texts if it is within the bound. -/
def distance? (s t : List Char) (bound : Int) : Option Nat :=
  if bound < (max s.length t.length - min s.length t.length : Nat) then none
  else match lastRow? t bound 0 (List.range (t.length + 1)) s with
    | none => none
    | some row => row.getLast?.filter fun n => (n : Int) ≤ bound

end Starlark.Spelling
