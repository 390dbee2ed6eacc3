import Starlark.Source.Position

/-! # Diagnostics and who collects them

A reporter has the diagnostics of one unit of source, in the order in which they were found, and
the texts from which snippets are cut. A source that was found faulty is rejected with all its
diagnostics at once.
-/
namespace Starlark

/-- A message about the source, with optional annotations. -/
structure Diagnostic where
  message : String
  loc : Option Location
  code : Option String := none
  help : Option String := none
  note : Option String := none
  label : Option String := none
deriving DecidableEq

/-- The message behind its place, on one line. -/
def Diagnostic.text (d : Diagnostic) : String :=
  match d.loc with
  | none => d.message
  | some l => l.text ++ ": " ++ d.message

structure Reporter where
  /-- The text of each file by name. -/
  sources : List (String × String)
  errors : List Diagnostic

namespace Reporter

def empty : Reporter := ⟨[], []⟩

def ofSource (file text : String) : Reporter := ⟨[(file, text)], []⟩

def report (r : Reporter) (d : Diagnostic) : Reporter := { r with errors := r.errors ++ [d] }

def extend (r : Reporter) (ds : List Diagnostic) : Reporter := { r with errors := r.errors ++ ds }

def hasErrors (r : Reporter) : Bool := !r.errors.isEmpty

def messages (r : Reporter) : List String := r.errors.map (·.message)

end Reporter

/-- The diagnostics of a source that is rejected. The first of them stands for the whole. -/
structure Rejection where
  errors : List Diagnostic

namespace Rejection

/-- The message of the first diagnostic. -/
def message (r : Rejection) : String :=
  match r.errors with
  | [] => "syntax error"
  | d :: _ => d.message

/-- The place of the first diagnostic. -/
def loc? (r : Rejection) : Option Location := r.errors.head?.bind (·.loc)

/-- One line for each diagnostic; without any text in them, the message. -/
def text (r : Rejection) : String :=
  let lines := "\n".intercalate (r.errors.map (·.text))
  if lines.isEmpty then r.message else lines

end Rejection
end Starlark
