import Starlark.Scope.Fault

/-! # The scope chain

Blocks live in an arena and point at their parents by index. The block of predeclared names is
at index zero and is never closed. A block opens below the current one, so every parent comes
before its children.
-/
namespace Starlark

structure Block where
  scope : Scope
  parent : Option Nat
  names : List String
deriving DecidableEq

structure ScopeChain where
  /-- In legacy mode a module name may be bound again. -/
  legacy : Bool
  blocks : List Block
  index : Nat
deriving DecidableEq

namespace ScopeChain

def start (builtins : List String) (legacy : Bool) : ScopeChain :=
  ⟨legacy, [⟨.builtin, none, builtins⟩], 0⟩

def current (chain : ScopeChain) : Block := chain.blocks.getD chain.index ⟨.builtin, none, []⟩

def openBlock (chain : ScopeChain) (scope : Scope) : ScopeChain :=
  { chain with
    blocks := chain.blocks ++ [⟨scope, some chain.index, []⟩]
    index := chain.blocks.length }

/-- Closes the current block, which stays in the arena. -/
def closeBlock (chain : ScopeChain) : Except Fault (Block × ScopeChain) :=
  match chain.current.parent with
  | none => .error .closeUniverse
  | some parent => .ok (chain.current, { chain with index := parent })

def isBalanced (chain : ScopeChain) : Bool := chain.index == 0

/-- Is a declaration of this name a second one at module level? -/
def rebinds (chain : ScopeChain) (name : String) : Bool :=
  chain.current.scope == .global && chain.current.names.contains name && !chain.legacy

def declare (chain : ScopeChain) (name : String) : ScopeChain :=
  { chain with
    blocks := chain.blocks.modify chain.index fun b => { b with names := b.names.insert name } }

/-- The blocks from an index up to the outermost. -/
def ancestry (blocks : List Block) : Nat → Nat → List Block
  | 0, _ => []
  | fuel + 1, i =>
    match blocks[i]? with
    | none => []
    | some b =>
      match b.parent with
      | none => [b]
      | some parent => b :: ancestry blocks fuel parent

/-- The open blocks, innermost first. Parents come before their children, so the walk is no
longer than the current index allows. -/
def openBlocks (chain : ScopeChain) : List Block :=
  ancestry chain.blocks (chain.index + 1) chain.index

def depth (chain : ScopeChain) : Nat := chain.openBlocks.length

/-- The innermost open block that binds a name. -/
def resolve? (chain : ScopeChain) (name : String) : Option Block :=
  chain.openBlocks.find? (·.names.contains name)

/-- Every name bound by an open block. -/
def allSymbols (chain : ScopeChain) : List String := chain.openBlocks.flatMap (·.names)

end ScopeChain
end Starlark
