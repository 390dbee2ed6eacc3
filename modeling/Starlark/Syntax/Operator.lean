/-! # Operators and kinds

The closed sets of marks that the syntax tree carries, each with its spelling in the source.
-/
namespace Starlark

inductive BinaryOp
  | or | and
  | eq | ne | lt | le | gt | ge | isIn | notIn
  | bitOr | bitXor | bitAnd | shiftLeft | shiftRight
  | add | sub | mul | div | floorDiv | mod
deriving DecidableEq

def BinaryOp.text : BinaryOp → String
  | .or => "or" | .and => "and"
  | .eq => "==" | .ne => "!=" | .lt => "<" | .le => "<=" | .gt => ">" | .ge => ">="
  | .isIn => "in" | .notIn => "not in"
  | .bitOr => "|" | .bitXor => "^" | .bitAnd => "&" | .shiftLeft => "<<" | .shiftRight => ">>"
  | .add => "+" | .sub => "-" | .mul => "*" | .div => "/" | .floorDiv => "//" | .mod => "%"

inductive UnaryOp
  | not | neg | pos | invert
deriving DecidableEq

def UnaryOp.text : UnaryOp → String
  | .not => "not" | .neg => "-" | .pos => "+" | .invert => "~"

inductive FlowKind
  | breakLoop | continueLoop | pass
deriving DecidableEq

def FlowKind.text : FlowKind → String
  | .breakLoop => "break" | .continueLoop => "continue" | .pass => "pass"

/-- The forms of a call argument: `f(x)`, `f(k = x)`, `f(*x)`, `f(**x)`. -/
inductive ArgumentKind
  | positional | keyword | star | starStar
deriving DecidableEq

/-- The forms of a parameter: `x`, `x = 1`, `*x`, `**x`. -/
inductive ParameterKind
  | mandatory | optional | star | starStar
deriving DecidableEq

end Starlark
