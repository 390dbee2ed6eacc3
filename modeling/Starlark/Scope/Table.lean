import Starlark.Scope.Fault
import Starlark.Syntax.Tree

/-! # The scope table

The scope of each resolved identifier, by number. A tag once written never changes.
-/
namespace Starlark

structure ScopeTable where
  tags : List (Nat × Scope)
deriving DecidableEq

namespace ScopeTable

def empty : ScopeTable := ⟨[]⟩

def get? (t : ScopeTable) (x : Identifier) : Option Scope := t.tags.lookup x.id

def contains (t : ScopeTable) (x : Identifier) : Bool := (t.get? x).isSome

def size (t : ScopeTable) : Nat := t.tags.length

/-- Tags an identifier; to repeat a tag changes nothing and to change it is a fault. -/
def record (t : ScopeTable) (x : Identifier) (scope : Scope) : Except Fault ScopeTable :=
  match t.get? x with
  | none => .ok ⟨(x.id, scope) :: t.tags⟩
  | some previous =>
    if previous = scope then .ok t else .error (.retagged x.name previous scope)

end ScopeTable
end Starlark
