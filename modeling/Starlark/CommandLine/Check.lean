import Starlark.CommandLine.Options
import Starlark.Session.Workspace
import Starlark.Text.Utf8

/-! # Checking a file from the command line -/
namespace Starlark.CommandLine

/-- What lies at the path of the file to check. -/
inductive Content
  | missing
  | notFile
  /-- The file could not be read, and why. -/
  | unreadable (reason : String)
  | bytes (bytes : List Nat)

/-- The exit code and what goes to the error stream. -/
structure Report where
  exit : Nat
  stderr : String
deriving DecidableEq

def failure (message : String) : Report := ⟨1, "starlark-resolver: error: " ++ message ++ "\n"⟩

/-- The text of a file: its bytes as UTF-8, with unified line endings. -/
def sourceText (bytes : List Nat) : Except Text.DecodeFault String :=
  (Text.decodeUtf8 bytes).map fun cs => String.ofList (Text.unifyNewlines cs)

def Options.semantics (o : Options) : Semantics :=
  { disallowLoadAfterStatement := !o.allowLoadAfterStatement
    restrictStringEscapes := o.restrictStringEscapes }

def Options.settings (o : Options) : Settings :=
  ⟨.standard o.semantics o.builtins, o.buildFile⟩

/-- Checks the text of a file. A fault of the validation is passed on. -/
def checkText (o : Options) (path text : String) (display : Display) : Except Fault Report := do
  let (f, w) := Workspace.empty.parse text path
  let (result, f, w) := w.validate f o.settings
  let _ ← result
  match w.rendered? f display.usesColor with
  | none => return ⟨0, ""⟩
  | some text => return ⟨1, text ++ "\n"⟩

/-- Checks the file at a path. -/
def check (o : Options) (path : String) (content : Content) (display : Display) :
    Except Fault Report :=
  match content with
  | .missing => .ok (failure ("file not found: " ++ path))
  | .notFile => .ok (failure ("not a file: " ++ path))
  | .unreadable reason => .ok (failure ("could not read file: " ++ reason))
  | .bytes bytes =>
    match sourceText bytes with
    | .error fault => .ok (failure ("could not read file: " ++ fault.message))
    | .ok text => checkText o path text display

end Starlark.CommandLine
