import Starlark.Proofs.Grammar.Tables
import Starlark.Proofs.Parser.Sound

/-! # The fuel of the automaton suffices

A reduction by a rule with one symbol climbs the levels of the grammar, a reduction by a longer
rule shortens the stack, and an empty file is only reduced on the initial state. So a reduction
always makes the stack lighter, and feeding a token never runs out of fuel.
-/
namespace Starlark

def Level.rank : Level → Nat
  | .test => 3
  | .binary .or => 4
  | .binary .and => 5
  | .negation => 6
  | .binary .comparison => 7
  | .binary .bitOr => 8
  | .binary .bitXor => 9
  | .binary .bitAnd => 10
  | .binary .shift => 11
  | .binary .additive => 12
  | .binary .multiplicative => 13
  | .unary => 14
  | .primary => 15
  | .atom => 16

/-- A symbol derives only symbols of higher rank by itself. -/
def Symbol.rank : Symbol → Nat
  | .t _ => 17
  | .n .line => 3
  | .n .statement | .n .exprList | .n .targetList | .n .compFor => 2
  | .n .items | .n .block | .n .small | .n .stringToken | .n .elifClause | .n .parameter
  | .n .argument | .n .clause => 1
  | .n (.expr l) => l.rank
  | .n _ => 0

theorem Symbol.rank_le (s : Symbol) : s.rank ≤ 17 := by
  cases s with
  | t a => exact Nat.le_refl _
  | n A =>
    have hall : ∀ A : Nonterminal, (Symbol.n A).rank ≤ 17 := Nonterminal.forall_of_all (by decide)
    exact hall A

theorem Production.rank_lt (p : Production) {s : Symbol} (h : p.rhs = [s]) :
    (Symbol.n p.lhs).rank < s.rank := by
  have hall : ∀ p : Production, p.rhs.length = 1 → ∀ s ∈ p.rhs.head?,
      (Symbol.n p.lhs).rank < s.rank := forall_of_all (by decide +kernel)
  exact hall p (by rw [h]; rfl) s (by rw [h]; rfl)

namespace Automaton

def weight (stack : Stack) : Nat :=
  24 * stack.length +
    if top stack = 0 then 47 else ((stack.head?.map fun c => c.symbol.rank).getD 0)

theorem weight_le (stack : Stack) : weight stack ≤ 24 * stack.length + 47 := by
  have hrank : (stack.head?.map fun c => c.symbol.rank).getD 0 ≤ 17 := by
    cases stack with
    | nil => exact Nat.zero_le _
    | cons c cs => exact c.symbol.rank_le
  rw [weight]
  split <;> omega

theorem reductionOf?_fileEmpty {state : Nat} (h : reductionOf? state = some .fileEmpty) :
    state = 0 := by
  have hall : (reductions.zipIdx.all fun (r, q) => r != some .fileEmpty || q == 0) = true := by
    decide +kernel
  have hget : reductions[state]? = some (some .fileEmpty) := by
    rw [reductionOf?] at h
    cases hr : reductions[state]? with
    | none =>
      rw [hr] at h
      cases h
    | some r =>
      rw [hr] at h
      exact congrArg some h
  have hstate := List.all_eq_true.mp hall _ (List.mk_mem_zipIdx_iff_getElem?.mpr hget)
  simpa using hstate

theorem goto?_ne_zero {state q : Nat} {A : Nonterminal} (h : goto? state A = some q) : q ≠ 0 := by
  have hall : (gotos.all fun l => l.all fun x => x.2 != 0) = true := by decide +kernel
  simpa using entry_of_lookup hall h

/-- Every reduction makes the stack lighter. -/
theorem weight_of_reduce? {p : Production} {stack stack' : Stack}
    (hred : reductionOf? (top stack) = some p) (h : reduce? p stack = some stack') :
    weight stack' < weight stack := by
  obtain ⟨children, state, hchildren, hgoto, rfl⟩ := reduce?_eq_some h
  have hstate : state ≠ 0 := goto?_ne_zero hgoto
  have hsymbols := symbols_of_forest? hchildren
  have hlength : p.rhs.length ≤ stack.length := by
    have hle := congrArg List.length hsymbols
    simp only [List.length_map, List.length_reverse, List.length_take] at hle
    omega
  have hrank := (Symbol.n p.lhs).rank_le
  have hweight : weight (⟨state, .n p.lhs, .node p children⟩ :: stack.drop p.rhs.length) =
      24 * (stack.length - p.rhs.length + 1) + (Symbol.n p.lhs).rank := by
    rw [weight, if_neg (by exact hstate)]
    simp only [List.length_cons, List.length_drop, List.head?_cons, Option.map_some,
      Option.getD_some]
  rw [hweight]
  by_cases hp : p = .fileEmpty
  · subst hp
    have htop := reductionOf?_fileEmpty hred
    simp only [weight, htop, if_true, Symbol.rank]
    omega
  · have hne := p.rhs_ne_nil hp
    rcases hrhs : p.rhs with _ | ⟨s, _ | ⟨s', ss⟩⟩
    · exact absurd hrhs hne
    · have hlt := p.rank_lt hrhs
      rw [hrhs] at hsymbols hlength
      cases stack with
      | nil => cases hsymbols
      | cons c cs =>
        have hs : c.symbol = s := (List.cons.inj hsymbols).1
        simp only [weight, List.head?_cons, Option.map_some, Option.getD_some, hs, List.length_cons,
          List.length_nil]
        have hs17 := s.rank_le
        split <;> omega
    · rw [hrhs] at hlength
      rw [weight]
      simp only [List.length_cons] at hlength ⊢
      omega

theorem advance_of_weight {n m : Nat} {stack : Stack} (t : Token) (hn : weight stack < n)
    (hm : weight stack < m) : advance n stack t = advance m stack t := by
  induction n generalizing m stack with
  | zero => cases hn
  | succ n ih =>
    cases m with
    | zero => cases hm
    | succ m =>
      rw [advance, advance]
      cases haction : action? (top stack) t.kind with
      | none => rfl
      | some action =>
        cases action with
        | shift state => rfl
        | reduce p =>
          dsimp only
          cases hreduce : reduce? p stack with
          | none => rfl
          | some stack' =>
            have hlighter := weight_of_reduce? (action?_reduce haction).1 hreduce
            have hrest : advance n stack' t = advance m stack' t := ih (by omega) (by omega)
            split
            · rfl
            · rfl
            · rename_i heq
              cases heq
              exact hrest

theorem feed_of_shift {stack : Stack} {t : Token} {state : Nat}
    (h : action? (top stack) t.kind = some (.shift state)) :
    feed stack t = .shifted (⟨state, .t t.kind, .leaf t⟩ :: stack) := by
  simp only [feed, Nat.mul_add, advance, h]

/-- A reduction before a token makes no difference to what the token does. -/
theorem feed_of_reduce {stack : Stack} {t : Token} {p : Production} {state : Nat}
    {children : Forest p.rhs} {rest : Stack} (h : action? (top stack) t.kind = some (.reduce p))
    (hreduce : reduce? p stack = some (⟨state, .n p.lhs, .node p children⟩ :: rest))
    (hp : p.lhs ≠ .file) :
    feed stack t = feed (⟨state, .n p.lhs, .node p children⟩ :: rest) t := by
  have hlighter := weight_of_reduce? (action?_reduce h).1 hreduce
  have hle := weight_le stack
  have hle' := weight_le (⟨state, .n p.lhs, .node p children⟩ :: rest)
  have hstep : feed stack t = advance (24 * stack.length + 47)
      (⟨state, .n p.lhs, .node p children⟩ :: rest) t := by
    rw [feed, show 24 * (stack.length + 2) = 24 * stack.length + 47 + 1 by omega, advance, h]
    dsimp only
    rw [hreduce]
    split
    · rename_i heq
      cases heq
    · rename_i heq
      simp only [Option.some.injEq, List.cons.injEq, Cell.mk.injEq, Symbol.n.injEq] at heq
      exact absurd heq.1.2.1 hp
    · rename_i heq
      cases heq
      rfl
  rw [hstep, feed]
  exact advance_of_weight t (by omega) (by omega)

theorem feed_of_accept {stack : Stack} {t : Token} {p : Production} {state : Nat}
    {tree : Tree (.n .file)} (h : action? (top stack) t.kind = some (.reduce p))
    (hreduce : reduce? p stack = some [⟨state, .n .file, tree⟩]) :
    feed stack t = .accepted tree := by
  rw [feed, Nat.mul_add, show 24 * stack.length + 24 * 2 = 24 * stack.length + 47 + 1 by omega,
    advance, h]
  dsimp only
  rw [hreduce]

end Automaton
end Starlark
