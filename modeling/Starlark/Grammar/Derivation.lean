import Starlark.Grammar.Production
import Starlark.Source.Position

/-! # Tokens and derivation trees

A tree is indexed by the symbol it derives, so every tree is a derivation of the grammar: a leaf
is a token of its terminal, and the children of a node derive the right side of its rule.
-/
namespace Starlark

/-- A piece of the source with its kind. The marks that open and close an indented block, and
the end of input, borrow the span of the token before them. -/
structure Token where
  kind : Terminal
  text : List Char
  span : Span
deriving DecidableEq

def Token.string (t : Token) : String := String.ofList t.text

mutual

inductive Tree : Symbol → Type
  | leaf (t : Token) : Tree (.t t.kind)
  | node (p : Production) (children : Forest p.rhs) : Tree (.n p.lhs)

inductive Forest : List Symbol → Type
  | nil : Forest []
  | cons {s : Symbol} {ss : List Symbol} (x : Tree s) (xs : Forest ss) : Forest (s :: ss)

end

mutual

/-- The tokens at the leaves, from left to right. -/
def Tree.tokens : {s : Symbol} → Tree s → List Token
  | _, .leaf t => [t]
  | _, .node _ xs => xs.tokens

def Forest.tokens : {ss : List Symbol} → Forest ss → List Token
  | _, .nil => []
  | _, .cons x xs => x.tokens ++ xs.tokens

end

end Starlark
