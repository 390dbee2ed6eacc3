import Starlark.Resolve.Visit

/-! # Resolving a file

The entry point: the escape notes of the file, if they count as errors, then the order of loads,
then the file itself inside a module block.
-/
namespace Starlark

namespace Resolve

/-- Resolves the statements of a file inside a module block of their own. -/
def toplevel (settings : Settings) (statements : List Stmt) : Resolve Unit := do
  if !settings.buildFile && settings.env.semantics.disallowLoadAfterStatement then
    modify fun r => { r with errors := r.errors ++ loadOrderErrors none statements }
  openBlock .global
  declaring (·.collectAll statements)
  block settings statements
  closeBlock
  if !(← get).chain.isBalanced then throw .unbalanced

end Resolve

/-- The result of resolving a file: a fault or nothing, and what was written before it. -/
structure Resolved where
  fault : Option Fault
  errors : List Diagnostic
  tags : ScopeTable

/-- Resolves statements against an environment, after errors and tags already there. An unknown
flag that guards a name is a fault before anything is written. -/
def resolveFile (settings : Settings) (statements : List Stmt) (builtins : List String)
    (errors : List Diagnostic) (tags : ScopeTable) : Resolved :=
  let chain := ScopeChain.start builtins settings.buildFile
  let (result, r) := (Resolve.toplevel settings statements).run.run ⟨⟨chain, errors⟩, 0, tags⟩
  match result with
  | .ok () => ⟨none, r.errors, r.tags⟩
  | .error fault => ⟨some fault, r.errors, r.tags⟩

end Starlark
