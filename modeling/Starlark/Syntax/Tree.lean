import Starlark.Source.Position
import Starlark.Syntax.Operator

/-! # Syntax trees

Expressions and statements. Every node may carry its location. An identifier also carries a
number: two occurrences are the same node exactly when their numbers agree, and the results of
name resolution are kept by number, so a tree is never changed after it is built.
-/
namespace Starlark

structure Identifier where
  name : String
  id : Nat
  loc : Option Location
deriving DecidableEq

/-- A string literal; `value` is the decoded text. -/
structure StringLiteral where
  value : String
  loc : Option Location
deriving DecidableEq

mutual

inductive Expr
  | ident (x : Identifier)
  | int (value : Int) (loc : Option Location)
  | str (literal : StringLiteral)
  /-- A list or tuple display; both are assignable patterns. -/
  | list (elements : List Expr) (isTuple : Bool) (loc : Option Location)
  | dict (entries : List Entry) (loc : Option Location)
  | binary (x : Expr) (op : BinaryOp) (y : Expr) (loc : Option Location)
  | unary (op : UnaryOp) (x : Expr) (loc : Option Location)
  | conditional (thenCase condition elseCase : Expr) (loc : Option Location)
  /-- `object.field`; the field is the name of an attribute, not a variable. -/
  | dot (object : Expr) (field : Identifier) (loc : Option Location)
  | index (object key : Expr) (loc : Option Location)
  | slice (object : Expr) (start stop step : Option Expr) (loc : Option Location)
  | call (function : Expr) (arguments : List Argument) (loc : Option Location)
  | comprehension (body : Body) (clauses : List Clause) (isDict : Bool) (loc : Option Location)

/-- `key: value` inside a dict display. -/
inductive Entry
  | mk (key value : Expr) (loc : Option Location)

/-- One argument of a call; only a keyword argument has a name. -/
inductive Argument
  | mk (kind : ArgumentKind) (value : Expr) (name : Option Identifier) (loc : Option Location)

inductive Clause
  | each (vars iterable : Expr) (loc : Option Location)
  | guard (condition : Expr) (loc : Option Location)

/-- What a comprehension collects. -/
inductive Body
  | item (e : Expr)
  | entry (d : Entry)

end

def Expr.loc : Expr → Option Location
  | .ident x => x.loc
  | .str s => s.loc
  | .int _ l | .list _ _ l | .dict _ l | .binary _ _ _ l | .unary _ _ l | .conditional _ _ _ l
  | .dot _ _ l | .index _ _ l | .slice _ _ _ _ l | .call _ _ l | .comprehension _ _ _ l => l

def Argument.kind : Argument → ArgumentKind
  | .mk k _ _ _ => k

def Argument.loc : Argument → Option Location
  | .mk _ _ _ l => l

/-- A parameter lacks an identifier only if it is the bare `*`. -/
structure Parameter where
  kind : ParameterKind
  identifier : Option Identifier
  default : Option Expr
  loc : Option Location

/-- `localName = "exportedName"` in a load; `"x"` alone binds `x` to `x`. -/
structure LoadBinding where
  localName : Identifier
  exportedName : Identifier
  loc : Option Location

inductive Stmt
  | expr (e : Expr) (loc : Option Location)
  | assign (lhs rhs : Expr) (loc : Option Location)
  | augmentedAssign (op : BinaryOp) (lhs rhs : Expr) (loc : Option Location)
  /-- No else block is the empty one; an `elif` is an `if` alone in the else block. -/
  | ifElse (condition : Expr) (thenBlock elseBlock : List Stmt) (loc : Option Location)
  | forLoop (lhs collection : Expr) (block : List Stmt) (loc : Option Location)
  | define (identifier : Identifier) (parameters : List Parameter) (body : List Stmt)
      (loc : Option Location)
  | returns (result : Option Expr) (loc : Option Location)
  | flow (kind : FlowKind) (loc : Option Location)
  | load (source : StringLiteral) (bindings : List LoadBinding) (loc : Option Location)

def Stmt.loc : Stmt → Option Location
  | .expr _ l | .assign _ _ l | .augmentedAssign _ _ _ l | .ifElse _ _ _ l | .forLoop _ _ _ l
  | .define _ _ _ l | .returns _ l | .flow _ l | .load _ _ l => l

/-- A string standing alone as a statement. -/
def Stmt.isDocstring : Stmt → Bool
  | .expr (.str _) _ => true
  | _ => false

def Stmt.isLoad : Stmt → Bool
  | .load .. => true
  | _ => false

end Starlark
