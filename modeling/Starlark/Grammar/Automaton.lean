import Starlark.Grammar.Derivation
import Starlark.Grammar.Follow
import Starlark.Grammar.Shifts
import Starlark.Grammar.Reductions
import Starlark.Grammar.Gotos

/-! # The parsing automaton

A shift-reduce automaton with one token of lookahead. The stack holds derivation trees, and a
reduction checks the symbols that it takes off, so whatever the tables say, an accepted stack
holds a derivation of the tokens fed to it.
-/
namespace Starlark.Automaton

inductive Action
  | shift (state : Nat)
  | reduce (p : Production)

def shiftsOf (state : Nat) : List (Terminal × Nat) := (shifts[state]?).getD []

def reductionOf? (state : Nat) : Option Production := (reductions[state]?).getD none

/-- A terminal is shifted where it can be; else it makes a state reduce by its rule, provided
that it may follow the left side. -/
def action? (state : Nat) (t : Terminal) : Option Action :=
  match (shiftsOf state).lookup t with
  | some next => some (.shift next)
  | none =>
    match reductionOf? state with
    | some p => if t ∈ p.lhs.follow then some (.reduce p) else none
    | none => none

def goto? (state : Nat) (n : Nonterminal) : Option Nat := ((gotos[state]?).getD []).lookup n

/-- The terminals for which a state has an action. -/
def expected (state : Nat) : List Terminal :=
  (shiftsOf state).map Prod.fst ++ ((reductionOf? state).map (·.lhs.follow)).getD []

/-- A tree on the stack, with the state reached after it. -/
structure Cell where
  state : Nat
  symbol : Symbol
  tree : Tree symbol

/-- The top of the stack comes first; below the last cell lies the initial state. -/
abbrev Stack := List Cell

def top : Stack → Nat
  | [] => 0
  | c :: _ => c.state

/-- The trees of some cells, if they derive the given symbols. -/
def forest? : (ss : List Symbol) → List Cell → Option (Forest ss)
  | [], [] => some .nil
  | s :: ss, c :: cs =>
    if h : c.symbol = s then (forest? ss cs).map (.cons (h ▸ c.tree)) else none
  | _, _ => none

/-- Replaces the right side of a rule, on top of the stack, by its left side. -/
def reduce? (p : Production) (stack : Stack) : Option Stack :=
  let rest := stack.drop p.rhs.length
  match forest? p.rhs (stack.take p.rhs.length).reverse, goto? (top rest) p.lhs with
  | some children, some state => some (⟨state, .n p.lhs, .node p children⟩ :: rest)
  | _, _ => none

inductive Outcome
  | shifted (stack : Stack)
  | accepted (tree : Tree (.n .file))
  | refused (state : Nat)

/-- Reduces while the lookahead asks for it, then shifts, accepts or refuses the lookahead. -/
def advance : Nat → Stack → Token → Outcome
  | 0, stack, _ => .refused (top stack)
  | fuel + 1, stack, t =>
    match action? (top stack) t.kind with
    | none => .refused (top stack)
    | some (.shift state) => .shifted (⟨state, .t t.kind, .leaf t⟩ :: stack)
    | some (.reduce p) =>
      match reduce? p stack with
      | none => .refused (top stack)
      | some [⟨_, .n .file, tree⟩] => .accepted tree
      | some stack' => advance fuel stack' t

/-- Feeds one token. Each reduction shortens the stack or climbs the precedence levels, so the
steps are bounded by the height of the stack. -/
def feed (stack : Stack) (t : Token) : Outcome := advance (24 * (stack.length + 2)) stack t

end Starlark.Automaton
