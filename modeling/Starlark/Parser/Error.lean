import Starlark.Diagnostic.Reporter
import Starlark.Grammar.Derivation
import Starlark.Literal.Numeral

/-! # Syntax errors -/
namespace Starlark

/-- Why a source has no syntax tree. -/
inductive SyntaxError
  | invalidCharacter (c : Char) (place : Point)
  | unexpected (token : Token) (expected : List Terminal)
  | indentation
  | numeral (fault : NumeralFault)

/-- A token as a message shows it: marks and line breaks by title, the rest by its text. -/
def Token.display (t : Token) : String :=
  match t.kind with
  | .newline | .indent | .dedent | .endOfInput => t.kind.title
  | _ => t.string

/-- The titles of the expected terminals, if there are at most five. -/
def expectation (expected : List Terminal) : String :=
  let titles := (expected.map Terminal.title).eraseDups.mergeSort (fun a b => decide (a ≤ b))
  if 1 ≤ titles.length ∧ titles.length ≤ 5 then ": expected " ++ ", ".intercalate titles else ""

def SyntaxError.message : SyntaxError → String
  | .invalidCharacter c _ => "invalid character: '" ++ c.toString ++ "'"
  | .unexpected t expected => "syntax error at '" ++ t.display ++ "'" ++ expectation expected
  | .indentation => "indentation error"
  | .numeral .malformed => "syntax error: malformed numeral"
  | .numeral (.tooLong digits) =>
    s!"syntax error: Exceeds the limit ({maxDecimalDigits} digits) for integer string conversion: "
    ++ s!"value has {digits} digits; use sys.set_int_max_str_digits() to increase the limit"
  | .numeral .unwritable => "syntax error: " ++ unwritableMessage

/-- The message together with the name of the file. -/
def SyntaxError.messageIn (e : SyntaxError) (file : String) : String := e.message ++ " in " ++ file

def SyntaxError.place? : SyntaxError → Option Point
  | .invalidCharacter _ p => some p
  | .unexpected t _ => some t.span.start
  | .indentation | .numeral _ => none

def SyntaxError.diagnostic (e : SyntaxError) (file : String) : Diagnostic :=
  { message := e.message, loc := e.place?.map (·.inFile file) }

end Starlark
