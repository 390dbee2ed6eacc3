import Starlark.Literal.Numeral

/-! # Scopes and faults -/
namespace Starlark

/-- Where a name is bound: in a function or comprehension, in the file, or before it. -/
inductive Scope
  | inner | global | builtin
deriving DecidableEq

/-- The qualifier shown to users. -/
def Scope.text : Scope → String
  | .inner => "local"
  | .global => "global"
  | .builtin => "builtin"

/-- The name of the kind of block that binds the name. -/
def Scope.blockName : Scope → String
  | .inner => "LOCAL"
  | .global => "MODULE"
  | .builtin => "UNIVERSE"

/-- What stops a resolution: an unknown flag, an integer of too many digits in a text to be
reported, or an invariant that does not hold. -/
inductive Fault
  | unknownFlag (name : String)
  | unwritable
  | closeUniverse
  | retagged (name : String) (previous next : Scope)
  | loopUnderflow
  | unbalanced
deriving DecidableEq

def Fault.isInternal : Fault → Bool
  | .unknownFlag _ | .unwritable => false
  | _ => true

/-- The text of an internal error, behind its code. -/
def internalText (code message : String) : String := "[" ++ code ++ "] " ++ message

/-- The code of an internal error that has no other. -/
def internalCode : String := "E9999"

def Fault.message : Fault → String
  | .unknownFlag name => "unknown semantics flag '" ++ name ++ "'"
  | .unwritable => unwritableMessage
  | .closeUniverse => "cannot close the universe block"
  | .retagged name previous next =>
    "identifier '" ++ name ++ "' already resolved to " ++ previous.blockName
      ++ ", cannot re-resolve to " ++ next.blockName
  | .loopUnderflow => "loop counter underflow"
  | .unbalanced => "scope chain not balanced after validation"

/-- The message, behind its code if the fault is internal. -/
def Fault.text (f : Fault) : String :=
  if f.isInternal then internalText internalCode f.message else f.message

end Starlark
