import Starlark.Environment
import Starlark.Resolve.Binding
import Starlark.Resolve.Problem
import Starlark.Scope.Table
import Starlark.Syntax.Print

/-! # Name resolution

Every identifier is resolved to the innermost block that binds its name, and misplaced statements
are reported. A block is opened for each function body and comprehension, its names are declared,
and then it is visited; tags and errors survive a fault.
-/
namespace Starlark

/-- The state of a resolution: the declarations, the loops around the place, and the tags. -/
structure Resolution extends Declarations where
  loops : Nat
  tags : ScopeTable

abbrev Resolve := ExceptT Fault (StateM Resolution)

/-- What a resolution is asked: the environment, and whether the file is a build file, where
module names may be bound again and no tags are written. -/
structure Settings where
  env : Environment
  buildFile : Bool

namespace Resolve

def report (message : String) (loc : Option Location) : Resolve Unit :=
  modify fun r => { r with errors := r.errors ++ [{ message, loc }] }

def misplaced (m : Misplacement) (loc : Option Location) : Resolve Unit := report m.message loc

def declaring (f : Declarations → Declarations) : Resolve Unit :=
  modify fun r => { r with toDeclarations := f r.toDeclarations }

def openBlock (scope : Scope) : Resolve Unit :=
  declaring fun d => { d with chain := d.chain.openBlock scope }

def closeBlock : Resolve Unit := do
  let (_, chain) ← (← get).chain.closeBlock
  declaring fun d => { d with chain }

def inFunction : Resolve Bool := return (← get).chain.current.scope == .inner

/-- Tags an identifier, except in build files. -/
def tag (settings : Settings) (x : Identifier) (scope : Scope) : Resolve Unit := do
  if !settings.buildFile then
    let tags ← (← get).tags.record x scope
    modify fun r => { r with tags }

/-- Resolves a reference, or reports it. -/
def reference (settings : Settings) (x : Identifier) : Resolve Unit := do
  let chain := (← get).chain
  match chain.resolve? x.name with
  | some block => tag settings x block.scope
  | none =>
    let restricted ← settings.env.restricted
    match restricted.find? (·.name == x.name) with
    | some g => report g.accessMessage x.loc
    | none => report (unknownNameMessage x.name chain.allSymbols) x.loc

/-- The text of an expression, for an error about it. -/
def quote (e : Expr) : Resolve String :=
  match e.text? with
  | some text => pure text
  | none => throw .unwritable

def enterLoop : Resolve Unit := modify fun r => { r with loops := r.loops + 1 }

def leaveLoop : Resolve Unit := do
  if (← get).loops = 0 then throw .loopUnderflow
  modify fun r => { r with loops := r.loops - 1 }

variable (settings : Settings)

mutual

def expr : Expr → Resolve Unit
  | .ident x => reference settings x
  | .int _ _ => pure ()
  | .str _ => pure ()
  | .list es _ _ => exprs es
  | .dict ds _ => entries ds
  | .binary x _ y _ => do expr x; expr y
  | .unary _ x _ => expr x
  | .conditional t c e _ => do expr c; expr t; expr e
  | .dot o _ _ => expr o
  | .index o k _ => do expr o; expr k
  | .slice o a b c _ => do expr o; optional a; optional b; optional c
  | .call f as _ => do expr f; arguments as
  | .comprehension b cs _ _ => do
    openBlock .inner
    declaring (·.collectClauses cs)
    clauses cs
    body b
    closeBlock

def exprs : List Expr → Resolve Unit
  | [] => pure ()
  | e :: es => do expr e; exprs es

def optional : Option Expr → Resolve Unit
  | none => pure ()
  | some e => expr e

def entry : Entry → Resolve Unit
  | .mk k v _ => do expr k; expr v

def entries : List Entry → Resolve Unit
  | [] => pure ()
  | d :: ds => do entry d; entries ds

def argument : Argument → Resolve Unit
  | .mk _ v _ _ => expr v

def arguments : List Argument → Resolve Unit
  | [] => pure ()
  | a :: as => do argument a; arguments as

def clause : Clause → Resolve Unit
  | .each vars iterable _ => do expr iterable; assign vars
  | .guard c _ => expr c

def clauses : List Clause → Resolve Unit
  | [] => pure ()
  | c :: cs => do clause c; clauses cs

def body : Body → Resolve Unit
  | .item e => expr e
  | .entry d => entry d

/-- Tags the names of a target with the current scope. An index expression is an assignable
place that binds nothing; anything else but a pattern of these is an error that quotes it. -/
def assign : Expr → Resolve Unit
  | .ident x => do tag settings x (← get).chain.current.scope
  | .index o k _ => do expr o; expr k
  | .list es _ _ => assignAll es
  | e => do misplaced (.notAssignable (← quote e)) e.loc

def assignAll : List Expr → Resolve Unit
  | [] => pure ()
  | e :: es => do assign e; assignAll es

end

/-- Resolves the default values of parameters, which belong to the block around the function. -/
def defaults : List Parameter → Resolve Unit
  | [] => pure ()
  | p :: ps => do
    if p.kind = .optional then optional settings p.default
    defaults ps

def declareParameters (d : Declarations) (ps : List Parameter) : Declarations :=
  ps.foldl (fun d p => match p.identifier with
    | some x => d.declare x.name p.loc
    | none => d) d

def references : List Identifier → Resolve Unit
  | [] => pure ()
  | x :: xs => do reference settings x; references xs

mutual

def stmt : Stmt → Resolve Unit
  | .expr e _ => expr settings e
  | .assign lhs rhs _ => do expr settings rhs; assign settings lhs
  | .augmentedAssign _ lhs rhs loc => do
    if lhs matches .list .. then misplaced .augmentedPattern loc
    expr settings rhs
    assign settings lhs
  | .ifElse c a b loc => do
    if !(← inFunction) then misplaced .conditionalAtTop loc
    expr settings c
    block a
    block b
  | .forLoop lhs collection b loc => do
    if !(← inFunction) then misplaced .loopAtTop loc
    enterLoop
    expr settings collection
    assign settings lhs
    block b
    leaveLoop
  | .define _ ps b loc => do
    if ← inFunction then misplaced .functionInFunction loc
    defaults settings ps
    openBlock .inner
    declaring fun d => (declareParameters d ps).collectAll b
    block b
    closeBlock
  | .returns result loc => do
    if !(← inFunction) then misplaced .returnAtTop loc
    optional settings result
  | .flow kind loc => do
    if kind ≠ .pass ∧ (← get).loops = 0 then misplaced (.flowOutsideLoop kind) loc
  | .load _ bindings loc => do
    if ← inFunction then misplaced .loadInFunction loc
    references settings (bindings.map (·.localName))

/-- Visits the statements of a block in order. -/
def block : List Stmt → Resolve Unit
  | [] => pure ()
  | s :: ss => do stmt s; block ss

end

end Resolve
end Starlark
