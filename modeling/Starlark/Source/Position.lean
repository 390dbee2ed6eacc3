/-! # Positions

Points and spans of a source text, and the location of a node or a diagnostic in a named file.
-/
namespace Starlark

/-- A line and a column, both counted from one; columns count code points. -/
structure Point where
  line : Int
  column : Int
deriving DecidableEq

/-- The point after one character: a line feed starts a new line. -/
def Point.next (p : Point) (c : Char) : Point :=
  if c = '\n' then ⟨p.line + 1, 1⟩ else ⟨p.line, p.column + 1⟩

/-- The point just after `text`, which begins at `p`. -/
def Point.after (p : Point) (text : List Char) : Point := text.foldl Point.next p

/-- A stretch of text, from its first character to just after its last. -/
structure Span where
  start : Point
  stop : Point
deriving DecidableEq

/-- The span of two neighbouring stretches, either of which may be empty. -/
def Span.join : Option Span → Option Span → Option Span
  | none, b => b
  | a, none => a
  | some a, some b => some ⟨a.start, b.stop⟩

/-- A place in a file. An end at line zero and column zero is unknown. -/
structure Location where
  file : String
  line : Int
  column : Int
  endLine : Int := 0
  endColumn : Int := 0
deriving DecidableEq

def Location.text (l : Location) : String := s!"{l.file}:{l.line}:{l.column}"

def Point.inFile (p : Point) (file : String) : Location := ⟨file, p.line, p.column, 0, 0⟩

def Span.inFile (s : Span) (file : String) : Location :=
  ⟨file, s.start.line, s.start.column, s.stop.line, s.stop.column⟩

end Starlark
