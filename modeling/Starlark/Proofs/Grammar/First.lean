import Starlark.Grammar.Derivation
import Starlark.Grammar.Follow
import Starlark.Proofs.Grammar.Corners

/-! # What a derivation begins with

For each nonterminal, the terminals with which its derivations begin. Since only an empty file
derives nothing, they are found by following the first symbol of each rule; and the sets of
terminals that may follow a nonterminal contain what each rule puts after it.
-/
namespace Starlark

def Level.first : Level → List Terminal
  | .test | .binary .or | .binary .and | .negation => testStart
  | _ => operandStart

/-- The terminals with which a derivation from a nonterminal can begin. -/
def Nonterminal.first : Nonterminal → List Terminal
  | .file | .items => .newline :: statementStart
  | .statement | .block => statementStart
  | .line | .small => [.kwReturn, .kwPass, .kwBreak, .kwContinue, .kwLoad] ++ testStart
  | .suite => [.newline, .kwReturn, .kwPass, .kwBreak, .kwContinue, .kwLoad] ++ testStart
  | .smalls => [.semicolon]
  | .augmentedOp => augmentedSigns
  | .loadArgs | .parameterRest | .exprRest | .targetRest | .argumentRest | .entryRest => [.comma]
  | .loadArg => [.string, .longString, .name]
  | .stringToken => [.string, .longString]
  | .elifs | .elifClause => [.kwElif]
  | .elseClause => [.kwElse]
  | .parameters | .parameter => [.name, .star, .doubleStar]
  | .exprList | .entry => testStart
  | .targetList => operandStart
  | .expr l => l.first
  | .rest b | .operator b => b.signs
  | .unaryOp => [.plus, .minus, .tilde]
  | .arguments | .argument => [.star, .doubleStar] ++ testStart
  | .subscript => .colon :: testStart
  | .clauses | .clause => [.kwFor, .kwIf]
  | .compFor => [.kwFor]

def Symbol.first : Symbol → List Terminal
  | .t a => [a]
  | .n A => A.first

/-- The terminals with which a sequence of symbols can begin, when what may stand after it is
known. -/
def leading (after : List Terminal) : List Symbol → List Terminal
  | [] => after
  | s :: _ => s.first

namespace Production

theorem first_subset (p : Production) {s : Symbol} (h : p.rhs.head? = some s) :
    s.first ⊆ p.lhs.first := by
  have hall : ∀ p : Production, ∀ s ∈ p.rhs.head?, s.first ⊆ p.lhs.first :=
    forall_of_all (by decide +kernel)
  exact hall p s h

end Production

/-- Whether the terminals that may follow each nonterminal of a sequence include what the sequence
puts after it. -/
def FollowClosed (after : List Terminal) : List Symbol → Prop
  | [] => True
  | .t _ :: ss => FollowClosed after ss
  | .n A :: ss => leading after ss ⊆ A.follow ∧ FollowClosed after ss

instance FollowClosed.decidable (after : List Terminal) :
    (ss : List Symbol) → Decidable (FollowClosed after ss)
  | [] => isTrue trivial
  | .t _ :: ss => decidable after ss
  | .n _ :: ss => @instDecidableAnd _ _ inferInstance (decidable after ss)

theorem FollowClosed.tail {after : List Terminal} {s : Symbol} {ss : List Symbol}
    (h : FollowClosed after (s :: ss)) : FollowClosed after ss := by
  cases s with
  | t t => exact h
  | n A => exact h.2

theorem Production.followClosed : ∀ p : Production, FollowClosed p.lhs.follow p.rhs :=
  forall_of_all (by decide +kernel)

mutual

/-- Apart from an empty file, every derivation begins with a token. -/
theorem Tree.exists_first : ∀ {s : Symbol} (x : Tree s), s ≠ .n .file →
    ∃ t ts, x.tokens = t :: ts ∧ t.kind ∈ s.first
  | _, .leaf t, _ => ⟨t, [], rfl, .head _⟩
  | _, .node p xs, hfile => by
    have hp : p ≠ .fileEmpty := by
      rintro rfl
      exact hfile rfl
    obtain ⟨t, ts, htokens, s, hs, ht⟩ := Forest.exists_first xs (p.rhs_ne_nil hp) p.file_not_mem_rhs
    exact ⟨t, ts, htokens, p.first_subset hs ht⟩

theorem Forest.exists_first : ∀ {ss : List Symbol} (xs : Forest ss), ss ≠ [] →
    Symbol.n .file ∉ ss → ∃ t ts, xs.tokens = t :: ts ∧ ∃ s, ss.head? = some s ∧ t.kind ∈ s.first
  | _, .nil, hnil, _ => absurd rfl hnil
  | _, .cons (s := s) x xs, _, hfile => by
    have hs : s ≠ .n .file := by
      rintro rfl
      exact hfile (.head _)
    obtain ⟨t, ts, htokens, ht⟩ := Tree.exists_first x hs
    exact ⟨t, ts ++ xs.tokens, by rw [Forest.tokens, htokens, List.cons_append], s, rfl, ht⟩

end

end Starlark
