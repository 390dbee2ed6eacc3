import Starlark.Text.CaseTable
import Starlark.Text.Class

/-! # Lower case

The lower-case form of a text. Each code point is mapped on its own, apart from two: the dotted
capital I becomes two code points, and a capital sigma that ends a word becomes the final sigma.
-/
namespace Starlark.Text

def CaseRun.maps (r : CaseRun) (n : Nat) : Bool :=
  r.first ≤ n && n ≤ r.last && (n - r.first) % r.step == 0

/-- The lower-case form of one code point, without regard to its neighbours. -/
def lowerChar (c : Char) : Char :=
  if c.toNat < 0x80 then c.toLower
  else match lowerRuns.find? (·.maps c.toNat) with
    | some r => Char.ofNat (Int.toNat (c.toNat + r.offset))
    | none => c

def capitalSigma : Char := 'Σ'

/-- Does the nearest code point that is not skipped belong to a word? -/
def touchesWord (cs : List Char) : Bool :=
  match cs.dropWhile (inRanges caseIgnorableRanges) with
  | [] => false
  | c :: _ => inRanges casedRanges c

/-- Lower-cases `rest`, which follows the reversed text `before`. -/
def lowerFrom (before : List Char) : List Char → List Char
  | [] => []
  | c :: rest =>
    let tail := lowerFrom (c :: before) rest
    if c = capitalSigma then
      (if touchesWord before && !touchesWord rest then 'ς' else 'σ') :: tail
    else if c = 'İ' then 'i' :: '\u0307' :: tail
    else lowerChar c :: tail

def lower (s : String) : String := String.ofList (lowerFrom [] s.toList)

end Starlark.Text
