import Starlark.Diagnostic.Render
import Starlark.Parser.Parse
import Starlark.Resolve.File

/-! # Files and their views

A parsed file and the views of it share one reporter, so the reporters live in a workspace and a
file names its own. Views share statements, and with them the numbers of identifiers; scope
tables are per view. Escape notes turn into errors at most once for each view.
-/
namespace Starlark

structure SourceFile where
  statements : List Stmt
  /-- The index of the reporter in the workspace. -/
  reporter : Nat
  /-- Escapes that mean nothing, errors only where escapes are restricted. -/
  escapes : List Diagnostic
  name : String
  location : Location
  tags : ScopeTable
  escapesAdded : Bool

structure Workspace where
  reporters : List Reporter
  /-- The number of the next identifier. -/
  nextId : Nat

namespace SourceFile

/-- A file, or a view of one, that nothing was written to. -/
def ofStatements (statements : List Stmt) (reporter : Nat) (escapes : List Diagnostic)
    (name : String) (location : Option Location) : SourceFile :=
  ⟨statements, reporter, escapes, name, location.getD ⟨name, 1, 1, 0, 0⟩, .empty, false⟩

def text (f : SourceFile) : String :=
  s!"<StarlarkFile with {f.statements.length} statements>"

/-- An end of a slice: negative positions count from the end, and all are clipped. -/
def sliceIndex (length : Nat) (i : Int) : Nat :=
  min length (if i < 0 then i + length else i).toNat

/-- The statements from `first` up to `last` as a view of the file. -/
def subTree (f : SourceFile) (first last : Int) : SourceFile :=
  let n := f.statements.length
  let statements := (f.statements.take (sliceIndex n last)).drop (sliceIndex n first)
  let location := match statements with
    | [] => some f.location
    | s :: _ => s.loc
  ofStatements statements f.reporter f.escapes f.name location

/-- A view with statements in front. -/
def withPrelude (f : SourceFile) (statements : List Stmt) : SourceFile :=
  ofStatements (statements ++ f.statements) f.reporter f.escapes f.name f.location

end SourceFile

namespace Workspace

def empty : Workspace := ⟨[], 0⟩

def reporter (w : Workspace) (f : SourceFile) : Reporter := w.reporters.getD f.reporter .empty

def errors (w : Workspace) (f : SourceFile) : List Diagnostic := (w.reporter f).errors

/-- A file is fine while its reporter has no errors. -/
def isFine (w : Workspace) (f : SourceFile) : Bool := !(w.reporter f).hasErrors

/-- The rejection of a file that is not fine. -/
def rejection? (w : Workspace) (f : SourceFile) : Option Rejection :=
  if w.isFine f then none else some ⟨w.errors f⟩

/-- The rendered diagnostics of a file that is not fine. -/
def rendered? (w : Workspace) (f : SourceFile) (color : Bool) : Option String :=
  if w.isFine f then none else some (Render.all (w.reporter f) color)

def modifyReporter (w : Workspace) (f : SourceFile) (change : Reporter → Reporter) : Workspace :=
  { w with reporters := w.reporters.modify f.reporter change }

def report (w : Workspace) (f : SourceFile) (d : Diagnostic) : Workspace :=
  w.modifyReporter f (·.report d)

/-- Parses a source into a file with a reporter of its own. A syntax error leaves the file
without statements. -/
def parse (w : Workspace) (text name : String) : SourceFile × Workspace :=
  let (result, notes) := parseStatements text name w.nextId
  let reporter := (Reporter.ofSource name text).extend notes.errors
  let (statements, reporter, escapes) := match result with
    | .ok statements => (statements, reporter, notes.events)
    | .error e => ([], reporter.report (e.diagnostic name), [])
  (.ofStatements statements w.reporters.length escapes name none,
    { reporters := w.reporters ++ [reporter], nextId := notes.nextId })

/-- A file built by hand, with a reporter of its own that knows no source. -/
def build (w : Workspace) (statements : List Stmt) (name : String) : SourceFile × Workspace :=
  (.ofStatements statements w.reporters.length [] name none,
    { w with reporters := w.reporters ++ [.empty] })

/-- Turns the escape notes of a file into errors, unless this was done before. -/
def addEscapes (w : Workspace) (f : SourceFile) : SourceFile × Workspace :=
  if f.escapesAdded then (f, w)
  else ({ f with escapesAdded := true }, w.modifyReporter f (·.extend f.escapes))

/-- Resolves and checks a file. The answer is whether the file is then fine. -/
def validate (w : Workspace) (f : SourceFile) (settings : Settings) :
    Except Fault Bool × SourceFile × Workspace :=
  match settings.env.variableNames with
  | .error fault => (.error fault, f, w)
  | .ok builtins =>
    let (f, w) := if settings.env.semantics.restrictStringEscapes then w.addEscapes f else (f, w)
    let r := resolveFile settings f.statements builtins (w.errors f) f.tags
    let w := w.modifyReporter f fun reporter => { reporter with errors := r.errors }
    let f := { f with tags := r.tags }
    match r.fault with
    | some fault => (.error fault, f, w)
    | none => (.ok (w.isFine f), f, w)

/-- Reports the loads of a file that come too late. -/
def checkLoadOrder (w : Workspace) (f : SourceFile) : Workspace :=
  w.modifyReporter f (·.extend (loadOrderErrors none f.statements))

end Workspace
end Starlark
