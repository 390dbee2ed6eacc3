import Starlark.Grammar.Automaton
import Starlark.Grammar.Meaning
import Starlark.Lexer.Layout
import Starlark.Lexer.Scan
import Starlark.Parser.Error

/-! # Parsing a source

The automaton, the scanner and the layout rule run in step: the state of the automaton decides
which tokens the scanner looks for, and line breaks outside brackets bring their marks with them.
The derivation that they give is then turned into statements.
-/
namespace Starlark
namespace Parser
open Automaton

/-- Feeds a token that is not the end of input. -/
def shift (stack : Stack) (t : Token) : Except SyntaxError Stack :=
  match feed stack t with
  | .shifted stack' => .ok stack'
  | .accepted _ => .error (.unexpected t [])
  | .refused state => .error (.unexpected t (expected state))

/-- Feeds the end of input. -/
def accept (stack : Stack) (t : Token) : Except SyntaxError (Tree (.n .file)) :=
  match feed stack t with
  | .accepted tree => .ok tree
  | .shifted _ => .error (.unexpected t [])
  | .refused state => .error (.unexpected t (expected state))

/-- The candidates of the scanner among the terminals that a state expects. -/
def candidates (stack : Stack) : List Terminal := expected (top stack)

/-- What the scanner could have used: line breaks, and the other candidates without the marks and
without the keywords that a name stands for. -/
def usable (candidates : List Terminal) : List Terminal :=
  .newline :: candidates.filter fun t =>
    t ∉ [.newline, .indent, .dedent, .endOfInput]
      && !(Terminal.name ∈ candidates && t ∈ Scan.keywords)

/-- The error where no candidate matches: a token out of place, or no token at all. -/
def stuckError (candidates : List Terminal) (start : Point) (cs : List Char) : SyntaxError :=
  match Scan.match? Scan.everyKind cs with
  | some (.token kind, text, _) =>
    .unexpected ⟨kind, text, ⟨start, start.after text⟩⟩ (usable candidates)
  | _ => .invalidCharacter (cs.headD ' ') start

/-- A parse under way. `previous` is the last token scanned and `fed` the last one fed. -/
structure Progress where
  stack : Stack
  layout : Layout
  previous : Token
  fed : Token

/-- The token that stands before the first one. -/
def beginning : Token := ⟨.newline, [], ⟨⟨1, 1⟩, ⟨1, 1⟩⟩⟩

def Progress.initial : Progress := ⟨[], .initial, beginning, beginning⟩

/-- Feeds a line break outside brackets and the marks that it brings. -/
def Progress.lineBreak (m : Progress) (t : Token) : Except SyntaxError Progress := do
  let (marks, levels, met) := Layout.enter m.layout.levels (indentWidth t.text) t
  let stack ← (t :: marks).foldlM shift m.stack
  if met then
    return { stack, layout := { m.layout with levels }, previous := t, fed := marks.getLastD t }
  else throw .indentation

/-- Takes one scanned token. -/
def Progress.take (m : Progress) (t : Token) : Except SyntaxError Progress :=
  if t.kind = .newline then
    if 0 < m.layout.brackets then .ok { m with previous := t } else m.lineBreak t
  else do
    let stack ← shift m.stack t
    return { stack, layout := m.layout.track t.kind, previous := t, fed := t }

/-- Closes the open levels and feeds the end of input. -/
def Progress.finish (m : Progress) : Except SyntaxError (Tree (.n .file)) := do
  let marks := m.layout.finish m.previous
  let stack ← marks.foldlM shift m.stack
  accept stack ((marks.getLastD m.fed).mark .endOfInput)

def run : Nat → Progress → Point → List Char → Except SyntaxError (Tree (.n .file))
  | 0, m, _, _ => m.finish
  | fuel + 1, m, start, cs =>
    match Scan.next (candidates m.stack) (cs.length + 1) start cs with
    | .finished => m.finish
    | .stuck place rest => .error (stuckError (candidates m.stack) place rest)
    | .token t rest => do
      let m' ← m.take t
      run fuel m' t.span.stop rest

/-- A source always ends its last line. -/
def endLine (cs : List Char) : List Char :=
  if cs.getLast? = some '\n' then cs else cs ++ ['\n']

/-- The derivation of a source. Every token is at least one character long, so the steps are
bounded by the length of the text. -/
def derive (cs : List Char) : Except SyntaxError (Tree (.n .file)) :=
  let text := endLine cs
  run (text.length + 1) .initial ⟨1, 1⟩ text

end Parser

/-- The statements of a source, or its syntax error; and in either case what was noted while its
tree was built. Identifiers are numbered from `firstId` on. -/
def parseStatements (text file : String) (firstId : Nat) :
    Except SyntaxError (List Stmt) × Notes :=
  let fresh : Notes := ⟨firstId, [], []⟩
  match Parser.derive text.toList with
  | .error e => (.error e, fresh)
  | .ok tree =>
    match (tree.build file).run.run fresh with
    | (.error fault, notes) => (.error (.numeral fault), notes)
    | (.ok (statements, _), notes) => (.ok statements, notes)

end Starlark
