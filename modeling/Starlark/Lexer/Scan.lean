import Starlark.Lexer.Pattern
import Starlark.Grammar.Derivation

/-! # Scanning in context

Which tokens are looked for depends on what the parser can use next. The candidates are tried in
a fixed order and the first that matches is taken. A line break is always a candidate. A word
that the parser could use as a keyword is recognised as a name first, when a name is a candidate
too; otherwise it is found at the start of whatever follows.
-/
namespace Starlark.Scan

/-- What was matched: a token, or text between tokens. -/
inductive Lexeme
  | token (kind : Terminal)
  | between
deriving DecidableEq

abbrev Match := Lexeme × Pattern.Split

def keywords : List Terminal :=
  [.kwAnd, .kwBreak, .kwContinue, .kwDef, .kwElif, .kwElse, .kwFor, .kwIf, .kwIn, .kwLoad, .kwNot,
   .kwOr, .kwPass, .kwReturn]

def spelling (t : Terminal) : List Char := (t.spelling?.getD "").toList

/-- The kind of a word: a candidate keyword, or else a name. -/
def wordKind (candidates : List Terminal) (text : List Char) : Terminal :=
  ((keywords.filter (· ∈ candidates)).find? fun t => spelling t = text).getD .name

def attempt (candidates : List Terminal) (t : Terminal) (p : List Char → Option Pattern.Split)
    (cs : List Char) : Option Match :=
  if t ∈ candidates then (p cs).map fun s => (.token t, s) else none

def word (candidates : List Terminal) (cs : List Char) : Option Match :=
  if .name ∈ candidates then
    (Pattern.name cs).map fun s => (.token (wordKind candidates s.1), s)
  else none

/-- The candidate words and signs, without the words that are names first. -/
def spelledCandidates (candidates : List Terminal) : List Terminal :=
  Terminal.spelled.filter fun t =>
    t ∈ candidates && !(Terminal.name ∈ candidates && t ∈ keywords)

def sign (candidates : List Terminal) (cs : List Char) : Option Match :=
  (spelledCandidates candidates).findSome? fun t =>
    (Pattern.literal (spelling t) cs).map fun s => (.token t, s)

/-- The first candidate that matches at the start of a text. -/
def match? (candidates : List Terminal) (cs : List Char) : Option Match :=
  attempt candidates .hexadecimal Pattern.hexadecimal cs
  <|> attempt candidates .octal Pattern.octal cs
  <|> attempt candidates .string Pattern.string cs
  <|> attempt candidates .longString Pattern.longString cs
  <|> (Pattern.newline cs).map (fun s => (.token .newline, s))
  <|> word candidates cs
  <|> (Pattern.continuation cs).map (fun s => (.between, s))
  <|> attempt candidates .decimal Pattern.decimal cs
  <|> (Pattern.blank cs).map (fun s => (.between, s))
  <|> sign candidates cs

inductive Result
  | token (t : Token) (rest : List Char)
  | stuck (start : Point) (rest : List Char)
  | finished

/-- The next token of a text that begins at a point; text between tokens is passed over. -/
def next (candidates : List Terminal) : Nat → Point → List Char → Result
  | 0, _, _ => .finished
  | fuel + 1, start, cs =>
    if cs.isEmpty then .finished
    else match match? candidates cs with
      | none => .stuck start cs
      | some (.token kind, text, rest) => .token ⟨kind, text, ⟨start, start.after text⟩⟩ rest
      | some (.between, text, rest) => next candidates fuel (start.after text) rest

/-- Every kind of token that has a spelling or a pattern of its own. -/
def everyKind : List Terminal :=
  [.hexadecimal, .octal, .decimal, .string, .longString, .newline, .name] ++ Terminal.spelled

end Starlark.Scan
