import Starlark.Spelling.Distance
import Starlark.Text.Lowercase

/-! # Spelling suggestions

The name that a misspelt word most likely stands for: the nearest candidate, compared without
regard to case. Shorter words tolerate fewer typing errors. Among equally near candidates the
first in code point order is taken, so neither the order of the candidates nor their number of
occurrences matters.
-/
namespace Starlark.Spelling

/-- The longest edit distance ever suggested. -/
def maxDistance : Nat := 5

def limit (word : String) : Nat := min maxDistance ((word.length + 1) / 2)

/-- A candidate and its distance from the word, if it is near and not the word itself. -/
def near? (word candidate : String) : Option (Nat × String) :=
  if candidate = word then none
  else (distance? (Text.lower word).toList (Text.lower candidate).toList (limit word)).map
    fun d => (d, candidate)

/-- The nearer of two candidates, or the first in code point order. -/
def nearer (a b : Nat × String) : Nat × String :=
  if a.1 < b.1 ∨ a.1 = b.1 ∧ a.2 ≤ b.2 then a else b

/-- The nearest of some candidates. -/
def nearest? : List (Nat × String) → Option (Nat × String)
  | [] => none
  | a :: as =>
    match nearest? as with
    | none => some a
    | some b => some (nearer a b)

def suggest? (word : String) (candidates : List String) : Option String :=
  (nearest? (candidates.filterMap (near? word))).map Prod.snd

/-- The end of a message about an unknown name. -/
def didYouMean (word : String) (candidates : List String) : String :=
  match suggest? word candidates with
  | none => ""
  | some x => " (did you mean '" ++ x ++ "'?)"

end Starlark.Spelling
