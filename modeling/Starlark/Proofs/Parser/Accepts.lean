import Starlark.Proofs.Parser.Complete
import Starlark.Proofs.Reference.Closed
import Starlark.Proofs.Reference.Converse
import Starlark.Proofs.Reference.Sound

/-! # The parser accepts its grammar

The statements that a parse returns are a value that the reference grammar yields for the tokens
handed to the automaton, the automaton accepts whatever the reference grammar derives, and no
sequence of tokens has two values or two derivations.
-/
namespace Starlark
open Reference

/-- A token of a kind, without text or place. -/
def Token.bare (kind : Terminal) : Token := ⟨kind, [], ⟨⟨1, 1⟩, ⟨1, 1⟩⟩⟩

mutual

/-- The derivation of the terminals alone. -/
def Tree.bare : {s : Symbol} → Tree s → Tree s
  | _, .leaf t => .leaf (.bare t.kind)
  | _, .node p xs => .node p xs.bare

def Forest.bare : {ss : List Symbol} → Forest ss → Forest ss
  | _, .nil => .nil
  | _, .cons x xs => .cons x.bare xs.bare

end

mutual

theorem Tree.tokens_bare : ∀ {s : Symbol} (x : Tree s),
    x.bare.tokens = x.tokens.map fun t => .bare t.kind
  | _, .leaf t => rfl
  | _, .node p xs => Forest.tokens_bare xs

theorem Forest.tokens_bare : ∀ {ss : List Symbol} (xs : Forest ss),
    xs.bare.tokens = xs.tokens.map fun t => .bare t.kind
  | _, .nil => rfl
  | _, .cons x xs => by
    rw [Forest.bare, Forest.tokens, Forest.tokens, List.map_append, Tree.tokens_bare x,
      Forest.tokens_bare xs]

end

mutual

/-- Tokens of the same kinds are the leaves of a tree of the same form. -/
theorem Tree.exists_tokens : ∀ {s : Symbol} (x : Tree s) {ts : List Token},
    ts.map Token.kind = x.tokens.map Token.kind → ∃ y : Tree s, y.tokens = ts
  | _, .leaf t, ts, h => by
    obtain ⟨u, rfl, hu⟩ := List.map_eq_singleton_iff.mp h
    rw [← hu]
    exact ⟨.leaf u, rfl⟩
  | _, .node p xs, ts, h => by
    obtain ⟨ys, rfl⟩ := Forest.exists_tokens xs h
    exact ⟨.node p ys, rfl⟩

theorem Forest.exists_tokens : ∀ {ss : List Symbol} (xs : Forest ss) {ts : List Token},
    ts.map Token.kind = xs.tokens.map Token.kind → ∃ ys : Forest ss, ys.tokens = ts
  | _, .nil, ts, h => by
    have hts : ts = [] := List.map_eq_nil_iff.mp h
    exact ⟨.nil, hts.symm⟩
  | _, .cons x xs, ts, h => by
    rw [Forest.tokens, List.map_append] at h
    obtain ⟨us, ws, rfl, hus, hws⟩ := List.map_eq_append_iff.mp h
    obtain ⟨y, rfl⟩ := Tree.exists_tokens x hus
    obtain ⟨ys, rfl⟩ := Forest.exists_tokens xs hws
    exact ⟨.cons y ys, rfl⟩

end

/-- A sequence of terminals has one derivation only. -/
theorem Tree.bare_eq {x y : Tree (.n .file)}
    (h : x.tokens.map Token.kind = y.tokens.map Token.kind) : x.bare = y.bare := by
  apply Parser.tokens_injective
  have hbare := congrArg (List.map Token.bare) h
  rw [Tree.tokens_bare, Tree.tokens_bare]
  simpa only [List.map_map, Function.comp_def] using hbare

/-- What a parse returns is yielded by the reference grammar. -/
theorem yields_of_parseStatements {text file : String} {firstId : Nat} {ss : List Stmt}
    {notes : Notes} (h : parseStatements text file firstId = (.ok ss, notes)) :
    ∃ span, Yields file (.r .start) (Parser.handedTokens text.toList) ⟨firstId, [], []⟩ ss span
      notes := by
  obtain ⟨tree, span, hderive, hbuild⟩ := tree_of_parseStatements h
  refine ⟨span, ?_⟩
  rw [← Parser.tokens_of_derive hderive]
  exact tree.stands file hbuild

/-- What the reference grammar derives is accepted. -/
theorem parseTokens_of_derives {ts : List Token} {last : Token}
    (h : Derives (.r .start) (ts.map Token.kind)) (hlast : last.kind = .endOfInput) :
    ∃ tree, Parser.parseTokens ts last = .ok tree ∧ tree.tokens = ts := by
  obtain ⟨x, hx⟩ := tree_of_derives h
  obtain ⟨tree, rfl⟩ := x.exists_tokens hx.symm
  exact ⟨tree, Parser.parseTokens_tokens tree last hlast, rfl⟩

/-- The reference grammar gives a sequence of tokens one value only. -/
theorem yields_unique {file : String} {ts : List Token} {n n₁ n₂ : Notes} {ss₁ ss₂ : List Stmt}
    {s₁ s₂ : Option Span} (h₁ : Yields file (.r .start) ts n ss₁ s₁ n₁)
    (h₂ : Yields file (.r .start) ts n ss₂ s₂ n₂) : ss₁ = ss₂ ∧ s₁ = s₂ ∧ n₁ = n₂ := by
  obtain ⟨x, rfl, hx⟩ := tree_of_yields h₁
  obtain ⟨y, hy, hbuild⟩ := tree_of_yields h₂
  rw [Parser.tokens_injective hy, hx] at hbuild
  cases hbuild
  exact ⟨rfl, rfl, rfl⟩

/-- The parser accepts exactly its grammar. What a parse returns is a value of the tokens handed to
the automaton; every sequence of terminals that the reference grammar derives is accepted, whatever
the texts and places of the tokens; and the grammar is unambiguous, in its values and in its
derivations. -/
theorem parser_accepts_grammar :
    (∀ {text file : String} {firstId : Nat} {ss : List Stmt} {notes : Notes},
      parseStatements text file firstId = (.ok ss, notes) →
        ∃ span, Yields file (.r .start) (Parser.handedTokens text.toList) ⟨firstId, [], []⟩ ss
          span notes) ∧
    (∀ {ts : List Token} {last : Token}, Derives (.r .start) (ts.map Token.kind) →
      last.kind = .endOfInput → ∃ tree, Parser.parseTokens ts last = .ok tree ∧ tree.tokens = ts) ∧
    (∀ {file : String} {ts : List Token} {n n₁ n₂ : Notes} {ss₁ ss₂ : List Stmt}
      {s₁ s₂ : Option Span}, Yields file (.r .start) ts n ss₁ s₁ n₁ →
      Yields file (.r .start) ts n ss₂ s₂ n₂ → ss₁ = ss₂ ∧ s₁ = s₂ ∧ n₁ = n₂) ∧
    (∀ x y : Tree (.n .file), x.tokens.map Token.kind = y.tokens.map Token.kind →
      x.bare = y.bare) :=
  ⟨yields_of_parseStatements, parseTokens_of_derives, yields_unique, fun _ _ => Tree.bare_eq⟩

end Starlark
