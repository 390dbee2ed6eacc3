import Starlark.Diagnostic.Reporter
import Starlark.Scope.Chain
import Starlark.Syntax.Tree

/-! # Declarations

A name is visible throughout its block, even above its first assignment, so the names that a
block binds are declared before any of the block is resolved. Function bodies and comprehensions
are blocks of their own and are left out here.
-/
namespace Starlark

mutual

/-- The names bound by assigning to an expression, through nested lists and tuples. -/
def Expr.boundIdentifiers : Expr → List Identifier
  | .ident x => [x]
  | .list es _ _ => Expr.boundIdentifiersAll es
  | _ => []

def Expr.boundIdentifiersAll : List Expr → List Identifier
  | [] => []
  | e :: es => e.boundIdentifiers ++ Expr.boundIdentifiersAll es

end

def readOnlyUrl : String :=
  "https://bazel.build/versions/master/docs/skylark/errors/read-only-variable.html"

def readOnlyError (name : String) (loc : Option Location) : Diagnostic :=
  { message := "Variable " ++ name ++ " is read only (read more at " ++ readOnlyUrl ++ ")", loc }

/-- The errors for the local names that a load binds again, after the names already seen. -/
def repeatedLoads (seen : List String) : List LoadBinding → List Diagnostic
  | [] => []
  | b :: bs =>
    let name := b.localName.name
    let rest := repeatedLoads (name :: seen) bs
    if seen.contains name then
      { message := "load statement defines '" ++ name ++ "' more than once"
        loc := b.localName.loc } :: rest
    else rest

/-- A scope chain and the errors noted while declaring. -/
structure Declarations where
  chain : ScopeChain
  errors : List Diagnostic

namespace Declarations

def report (d : Declarations) (errors : List Diagnostic) : Declarations :=
  { d with errors := d.errors ++ errors }

/-- Declares a name in the current block. At module level a second binding is an error. -/
def declare (d : Declarations) (name : String) (loc : Option Location) : Declarations :=
  { chain := d.chain.declare name
    errors := if d.chain.rebinds name then d.errors ++ [readOnlyError name loc] else d.errors }

def declareAll (d : Declarations) (xs : List Identifier) : Declarations :=
  xs.foldl (fun d x => d.declare x.name x.loc) d

def target (d : Declarations) (lhs : Expr) : Declarations := d.declareAll lhs.boundIdentifiers

mutual

/-- Declares the names that a statement binds in its block. -/
def collect (d : Declarations) : Stmt → Declarations
  | .assign lhs _ _ => d.target lhs
  | .augmentedAssign _ lhs _ _ => d.target lhs
  | .ifElse _ a b _ => (d.collectAll a).collectAll b
  | .forLoop lhs _ block _ => (d.target lhs).collectAll block
  | .define f _ _ _ => d.declare f.name f.loc
  | .load _ bindings _ =>
    (d.report (repeatedLoads [] bindings)).declareAll (bindings.map (·.localName))
  | .expr _ _ => d
  | .returns _ _ => d
  | .flow _ _ => d

def collectAll (d : Declarations) : List Stmt → Declarations
  | [] => d
  | s :: ss => (d.collect s).collectAll ss

end

/-- Declares the variables of the `for` clauses of a comprehension. -/
def collectClauses (d : Declarations) (clauses : List Clause) : Declarations :=
  clauses.foldl (fun d c => match c with
    | .each vars _ _ => d.target vars
    | .guard _ _ => d) d

end Declarations
end Starlark
