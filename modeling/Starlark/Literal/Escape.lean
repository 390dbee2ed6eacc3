import Starlark.Diagnostic.Reporter

/-! # Escapes in string literals

The body of a string literal that is not raw is a sequence of pieces: plain characters and
escapes. An escape that the language lacks is an error. One that means nothing is kept as it
stands and noted, and only counts as an error where escapes are restricted.
-/
namespace Starlark

inductive Piece
  | plain (c : Char)
  /-- A backslash before a line feed: both vanish. -/
  | joined
  /-- A backslash before one of `n r t \ ' "`. -/
  | simple (c : Char)
  /-- A backslash before one to three octal digits. -/
  | octal (digits : List Char)
  /-- A backslash before one of `a b f N u U v x`. -/
  | unsupported (c : Char)
  /-- A backslash before any other character. -/
  | unknown (c : Char)
deriving DecidableEq

namespace Piece

def simpleValue? : Char → Option Char
  | 'n' => some '\n'
  | 'r' => some '\r'
  | 't' => some '\t'
  | '\\' => some '\\'
  | '\'' => some '\''
  | '"' => some '"'
  | _ => none

def isOctal (c : Char) : Bool := '0' ≤ c && c ≤ '7'

def isUnsupported (c : Char) : Bool := c ∈ ['a', 'b', 'f', 'N', 'u', 'U', 'v', 'x']

/-- The escape for a character after a backslash that is not an octal digit. -/
def ofEscaped (c : Char) : Piece :=
  if c = '\n' then .joined
  else if (simpleValue? c).isSome then .simple c
  else if isUnsupported c then .unsupported c
  else .unknown c

/-- Splits a body into pieces. An octal escape takes as many digits as it can, up to three. -/
def split : List Char → List Piece
  | [] => []
  | '\\' :: c :: rest =>
    if isOctal c then
      match rest with
      | [] => [.octal [c]]
      | d :: rest₁ =>
        if isOctal d then
          match rest₁ with
          | [] => [.octal [c, d]]
          | e :: rest₂ =>
            if isOctal e then .octal [c, d, e] :: split rest₂
            else .octal [c, d] :: split (e :: rest₂)
        else .octal [c] :: split (d :: rest₁)
    else ofEscaped c :: split rest
  | c :: rest => .plain c :: split rest

/-- The source text of a piece. -/
def source : Piece → List Char
  | .plain c => [c]
  | .joined => ['\\', '\n']
  | .simple c | .unsupported c | .unknown c => ['\\', c]
  | .octal ds => '\\' :: ds

def octalValue (digits : List Char) : Nat :=
  digits.foldl (fun n d => 8 * n + (d.toNat - '0'.toNat)) 0

/-- What a piece stands for. -/
def value : Piece → List Char
  | .plain c => [c]
  | .joined => []
  | .simple c => (simpleValue? c).toList
  | .octal ds => [Char.ofNat (octalValue ds)]
  | .unsupported c | .unknown c => ['\\', c]

/-- The pieces of a body that begins at a point, each with its own point. -/
def place : Point → List Piece → List (Point × Piece)
  | _, [] => []
  | p, x :: xs => (p, x) :: place (p.after x.source) xs

def restrictStringEscapes : String := "incompatible_restrict_string_escapes"

/-- The error for an escape that the language lacks. -/
def error? (file : String) : Point × Piece → Option Diagnostic
  | (p, .unsupported c) =>
    some { message := "escape sequence not implemented: \\" ++ c.toString, loc := p.inFile file }
  | _ => none

/-- The note of an escape that means nothing. -/
def event? (file : String) : Point × Piece → Option Diagnostic
  | (p, .unknown c) =>
    some { message := "invalid escape sequence: \\" ++ c.toString
             ++ ". You can enable unknown escape sequences by passing the flag --"
             ++ restrictStringEscapes ++ "=false"
           loc := p.inFile file }
  | _ => none

end Piece
end Starlark
