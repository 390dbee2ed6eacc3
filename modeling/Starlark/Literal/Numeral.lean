import Starlark.Text.Lowercase

/-! # Integer literals

A numeral is decimal unless it begins with `0x` or `0o`. The digits of any script count, single
underscores may stand between digits, and blanks may surround the numeral.
-/
namespace Starlark

/-- The most digits that a decimal numeral may have. -/
def maxDecimalDigits : Nat := 4300

/-- Why a text is no integer, or an integer has no text. -/
inductive NumeralFault
  | malformed
  | tooLong (digits : Nat)
  /-- The decimal numeral of a value would be too long. -/
  | unwritable
deriving DecidableEq

/-- The message about an integer that has no text. -/
def unwritableMessage : String :=
  s!"Exceeds the limit ({maxDecimalDigits} digits) for integer string conversion; "
    ++ "use sys.set_int_max_str_digits() to increase the limit"

inductive Radix
  | octal | decimal | hexadecimal
deriving DecidableEq

namespace Radix

def base : Radix → Nat
  | .octal => 8
  | .decimal => 10
  | .hexadecimal => 16

/-- The value of a digit, letters standing for ten and more. -/
def digit? (r : Radix) (c : Char) : Option Nat :=
  let value := match Text.decimalValue? c with
    | some v => some v
    | none => if 'a' ≤ c && c ≤ 'f' then some (c.toNat - 'a'.toNat + 10) else none
  value.filter (· < r.base)

/-- The letter after a zero that marks a radix. -/
def mark? : Radix → Option Char
  | .octal => some 'o'
  | .decimal => none
  | .hexadecimal => some 'x'

/-- Drops the mark of a radix, and one underscore after it. -/
def dropMark (r : Radix) : List Char → List Char
  | z :: c :: cs =>
    if Text.decimalValue? z = some 0 ∧ r.mark? = some c then
      match cs with
      | '_' :: ds => ds
      | ds => ds
    else z :: c :: cs
  | cs => cs

/-- The digits of a numeral whose underscores each stand between two digits. -/
def digits? (r : Radix) : List Char → Option (List Nat)
  | [] => none
  | [c] => (r.digit? c).map fun d => [d]
  | c :: '_' :: cs => do return (← r.digit? c) :: (← r.digits? cs)
  | c :: cs => do return (← r.digit? c) :: (← r.digits? cs)

def ofDigits (r : Radix) (ds : List Nat) : Nat := ds.foldl (fun n d => r.base * n + d) 0

end Radix

def trimBlanks (cs : List Char) : List Char :=
  ((cs.dropWhile Text.isNumeralBlank).reverse.dropWhile Text.isNumeralBlank).reverse

/-- Reads a numeral without the mark of its radix, though the mark may be repeated. -/
def readNumeral (r : Radix) (cs : List Char) : Except NumeralFault Int :=
  let (negative, body) : Bool × List Char := match trimBlanks cs with
    | '-' :: ds => (true, ds)
    | '+' :: ds => (false, ds)
    | ds => (false, ds)
  match r.digits? (r.dropMark body) with
  | none => .error .malformed
  | some ds =>
    if r = .decimal ∧ maxDecimalDigits < ds.length then .error (.tooLong ds.length)
    else
      let n : Int := r.ofDigits ds
      .ok (if negative then -n else n)

/-- The value of an integer literal. -/
def decodeInteger (text : List Char) : Except NumeralFault Int :=
  match Text.lowerFrom [] text with
  | '0' :: 'o' :: cs => readNumeral .octal cs
  | '0' :: 'x' :: cs => readNumeral .hexadecimal cs
  | cs => readNumeral .decimal cs

end Starlark
