import Starlark.Diagnostic.Reporter
import Starlark.Text.Lowercase

/-! # Rendering

A diagnostic with a snippet of its source: the line, and carets under the text reported. Colour
adds escape codes around the parts and changes nothing else. It is used on terminals, unless a
variable forbids it.
-/
namespace Starlark

/-- Where diagnostics are shown. An unset variable is the same as an empty one. -/
structure Display where
  /-- The variable `NO_COLOR`. -/
  noColor : String
  /-- The variable `STARLARK_COLOR`. -/
  colorSetting : String
  isTerminal : Bool
deriving DecidableEq

/-- The values of `STARLARK_COLOR` that forbid colour, in lower case. -/
def refusals : List String := ["0", "false", "no", "never"]

/-- Colour is for terminals, unless a variable forbids it. -/
def Display.usesColor (d : Display) : Bool :=
  d.noColor.isEmpty && !refusals.contains (Text.lower d.colorSetting) && d.isTerminal

namespace Render

/-- A text style: the parameters of its escape codes. -/
inductive Style
  | bold | boldRed | boldBlue | boldCyan
deriving DecidableEq

def Style.codes : Style → String
  | .bold => "\x1b[1m"
  | .boldRed => "\x1b[1m\x1b[31m"
  | .boldBlue => "\x1b[1m\x1b[34m"
  | .boldCyan => "\x1b[1m\x1b[36m"

def reset : String := "\x1b[0m"

def styled (color : Bool) (style : Style) (text : String) : String :=
  if color then style.codes ++ text ++ reset else text

def repeated (c : Char) (n : Nat) : String := String.ofList (List.replicate n c)

def spaces (n : Nat) : String := repeated ' ' n

/-- The lines of a text; a final line feed starts one more, empty line. -/
def splitLines (text : List Char) : List (List Char) :=
  match text with
  | [] => [[]]
  | c :: cs =>
    if c = '\n' then [] :: splitLines cs
    else match splitLines cs with
      | [] => [[c]]
      | l :: ls => (c :: l) :: ls

def isDelimiter (c : Char) : Bool :=
  c ∈ [' ', '\t', ',', '(', ')', '[', ']', '\x7b', '\x7d', ':', ';']

/-- The zero-based column at which the carets begin. -/
def caretColumn (loc : Location) : Nat := (max loc.column 1 - 1).toNat

/-- The number of carets: the span, if it ends on its line, and otherwise the text up to the next
delimiter. -/
def caretWidth (line : List Char) (loc : Location) : Nat :=
  if loc.endLine = loc.line ∧ loc.column < loc.endColumn then (loc.endColumn - loc.column).toNat
  else max 1 (((line.drop (caretColumn loc)).takeWhile fun c => !isDelimiter c).length)

/-- The line of a file, if the file and the line are known. -/
def sourceLine? (sources : List (String × String)) (loc : Location) : Option (List Char) :=
  match sources.lookup loc.file with
  | none => none
  | some text => if 1 ≤ loc.line then (splitLines text.toList)[(loc.line - 1).toNat]? else none

def present : Option String → Option String
  | some "" => none
  | s => s

/-- The help and note lines, behind a gutter of some width. -/
def annotations (color : Bool) (gutter : Nat) (d : Diagnostic) : List String :=
  let pad := spaces (gutter + 1)
  let line (kind : String) (text : String) : String :=
    styled color .boldCyan (pad ++ "= ") ++ styled color .bold (kind ++ ": ") ++ text
  let lines := ((present d.help).map (line "help")).toList
    ++ ((present d.note).map (line "note")).toList
  if lines.isEmpty then [] else styled color .boldBlue (pad ++ "|") :: lines

def headline (color : Bool) (d : Diagnostic) : String :=
  let code := match present d.code with
    | some c => "[" ++ c ++ "]"
    | none => ""
  styled color .boldRed ("error" ++ code) ++ styled color .bold (": " ++ d.message)

/-- The snippet: a gutter line, the source line behind its number, and the carets. -/
def snippet (color : Bool) (d : Diagnostic) (loc : Location) (line : List Char) : List String :=
  let number := toString loc.line
  let gutter := number.length
  let label := match present d.label with
    | some l => " " ++ l
    | none => ""
  let carets := spaces (caretColumn loc) ++ repeated '^' (caretWidth line loc) ++ label
  let bar := styled color .boldBlue (spaces (gutter + 1) ++ "|")
  [styled color .boldBlue (spaces gutter ++ "--> ") ++ loc.text,
   bar,
   styled color .boldBlue (number ++ " | ") ++ String.ofList line,
   bar ++ " " ++ styled color .boldRed carets]
    ++ annotations color gutter d

def lines (sources : List (String × String)) (color : Bool) (d : Diagnostic) : List String :=
  headline color d ::
    match d.loc with
    | none => (styled color .boldBlue " --> " ++ "<unknown location>") :: annotations color 1 d
    | some loc =>
      match sourceLine? sources loc with
      | none => (styled color .boldBlue " --> " ++ loc.text) :: annotations color 1 d
      | some line => snippet color d loc line

def diagnostic (sources : List (String × String)) (color : Bool) (d : Diagnostic) : String :=
  "\n".intercalate (lines sources color d)

/-- The closing line, which counts the errors. -/
def summary (color : Bool) (count : Nat) : String :=
  let plural := if count = 1 then "" else "s"
  styled color .boldRed "error"
    ++ styled color .bold (s!": aborting due to {count} previous error" ++ plural)

def all (r : Reporter) (color : Bool) : String :=
  "\n\n".intercalate (r.errors.map (diagnostic r.sources color) ++ [summary color r.errors.length])

/-- What is printed to a terminal or file: each diagnostic on lines of its own, then the count. -/
def printed (r : Reporter) (color : Bool) : String :=
  String.join (r.errors.map fun d => diagnostic r.sources color d ++ "\n")
    ++ if r.errors.isEmpty then "" else "\n" ++ summary color r.errors.length ++ "\n"

end Render
end Starlark
