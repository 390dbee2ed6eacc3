import Starlark.Proofs.Grammar.First
import Starlark.Proofs.Grammar.Tables
import Starlark.Proofs.Parser.Fuel

/-! # Every derivation is accepted

Feeding the tokens of a tree to a stack that waits for its symbol works like putting the whole
tree on the stack, for every token that may come next. So the automaton accepts the tokens of
every derivation of a file with just that derivation, and no two derivations have the same
tokens.
-/
namespace Starlark
namespace Automaton

/-- The tokens of some kinds do the same to two stacks. -/
def AlikeBefore (kinds : List Terminal) (stack stack' : Stack) : Prop :=
  ∀ t : Token, t.kind ∈ kinds → feed stack t = feed stack' t

theorem AlikeBefore.trans {kinds : List Terminal} {stack₁ stack₂ stack₃ : Stack}
    (h : AlikeBefore kinds stack₁ stack₂) (h' : AlikeBefore kinds stack₂ stack₃) :
    AlikeBefore kinds stack₁ stack₃ := fun t ht => (h t ht).trans (h' t ht)

theorem reduce?_of_forest? {p : Production} {cells stack : Stack} {children : Forest p.rhs}
    {state : Nat} (h : forest? p.rhs cells.reverse = some children)
    (hgoto : goto? (top stack) p.lhs = some state) :
    reduce? p (cells ++ stack) = some (⟨state, .n p.lhs, .node p children⟩ :: stack) := by
  have hlength : cells.length = p.rhs.length := by
    have hsymbols := congrArg List.length (symbols_of_forest? h)
    simpa only [List.length_map, List.length_reverse] using hsymbols
  simp only [reduce?, List.take_left' hlength, List.drop_left' hlength, h, hgoto]

end Automaton

namespace Parser
open Automaton

theorem shift_congr {stack stack' : Stack} {t : Token} (h : feed stack t = feed stack' t) :
    shift stack t = shift stack' t := by
  rw [shift, shift, h]

theorem accept_congr {stack stack' : Stack} {t : Token} (h : feed stack t = feed stack' t) :
    accept stack t = accept stack' t := by
  rw [accept, accept, h]

/-- Stacks that are alike before the first token of a forest end alike after its last one. -/
theorem shifts_congr {ss : List Symbol} (xs : Forest ss) (hfile : Symbol.n .file ∉ ss)
    {after : List Terminal} {stack₁ stack₂ stack' : Stack}
    (halike : AlikeBefore (leading after ss) stack₁ stack₂)
    (h : xs.tokens.foldlM shift stack₂ = .ok stack') :
    ∃ stack, xs.tokens.foldlM shift stack₁ = .ok stack ∧ AlikeBefore after stack stack' := by
  cases ss with
  | nil =>
    cases xs
    cases h
    exact ⟨stack₁, rfl, halike⟩
  | cons s ss =>
    obtain ⟨t, ts, htokens, s', hs', ht⟩ := xs.exists_first (List.cons_ne_nil _ _) hfile
    cases hs'
    refine ⟨stack', ?_, fun _ _ => rfl⟩
    rw [htokens, List.foldlM_cons] at h ⊢
    rwa [shift_congr (halike t ht)]

mutual

/-- Feeding the tokens of a tree where its symbol is awaited is like putting the tree on the
stack. -/
theorem Tree.shifts : ∀ {s : Symbol} (x : Tree s) {stack : Stack} {p : Production} {dot q : Nat},
    s ≠ .n .file → Item (top stack) p dot → p.rhs[dot]? = some s → next? (top stack) s = some q →
    ∃ stack', x.tokens.foldlM shift stack = .ok stack' ∧
      ∀ kinds, (∀ A, s = .n A → kinds ⊆ A.follow) →
        AlikeBefore kinds stack' (⟨q, s, x⟩ :: stack)
  | _, .leaf t, stack, p, dot, q, _, _, _, hnext => by
    refine ⟨⟨q, .t t.kind, .leaf t⟩ :: stack, ?_, fun _ _ _ _ => rfl⟩
    rw [Starlark.Tree.tokens, List.foldlM_cons, shift, feed_of_shift (action?_of_next? hnext)]
    rfl
  | _, .node p' xs, stack, p, dot, q, hfile, hitem, hs, hnext => by
    have hbegins : Item (top stack) p' 0 := hitem.begins hs
    obtain ⟨stack', cells, hshifts, halike, hforest, hcomplete⟩ :=
      Forest.shifts xs p'.file_not_mem_rhs (List.drop_zero) hbegins p'.followClosed
    refine ⟨stack', hshifts, fun kinds hkinds t ht => ?_⟩
    have hfollow : t.kind ∈ p'.lhs.follow := hkinds _ rfl ht
    rw [Nat.zero_add] at hcomplete
    rw [halike t hfollow]
    exact feed_of_reduce (hcomplete.reduces hfollow) (reduce?_of_forest? hforest hnext)
      fun hlhs => hfile (congrArg Symbol.n hlhs)

theorem Forest.shifts : ∀ {ss : List Symbol} (xs : Forest ss) {stack : Stack} {p : Production}
    {dot : Nat}, Symbol.n .file ∉ ss → p.rhs.drop dot = ss → Item (top stack) p dot →
    FollowClosed p.lhs.follow ss →
    ∃ stack' cells, xs.tokens.foldlM shift stack = .ok stack' ∧
      AlikeBefore p.lhs.follow stack' (cells ++ stack) ∧ forest? ss cells.reverse = some xs ∧
      Item (top (cells ++ stack)) p (dot + ss.length)
  | _, .nil, stack, p, dot, _, _, hitem, _ =>
    ⟨stack, [], rfl, fun _ _ => rfl, rfl, hitem⟩
  | _, @Forest.cons s ss x xs, stack, p, dot, hfile, hdrop, hitem, hfollow => by
    have hs : p.rhs[dot]? = some s := by
      have hhead := congrArg List.head? hdrop
      rwa [List.head?_drop] at hhead
    have hrest : p.rhs.drop (dot + 1) = ss := by
      rw [← List.tail_drop, hdrop, List.tail_cons]
    obtain ⟨q, hnext, hitem'⟩ := hitem.next hs
    have hsfile : s ≠ .n .file := fun heq => hfile (heq ▸ List.mem_cons_self ..)
    obtain ⟨stack₁, hx, halike⟩ := Tree.shifts x hsfile hitem hs hnext
    obtain ⟨stack₂, cells, hxs, halike₂, hforest, hcomplete⟩ :=
      @Forest.shifts ss xs (⟨q, s, x⟩ :: stack) p (dot + 1)
        (fun hmem => hfile (List.mem_cons_of_mem _ hmem)) hrest hitem' hfollow.tail
    have hleading : ∀ A, s = .n A → leading p.lhs.follow ss ⊆ A.follow := by
      rintro A rfl
      exact hfollow.1
    obtain ⟨stack', hstack', halike'⟩ :=
      shifts_congr xs (fun hmem => hfile (List.mem_cons_of_mem _ hmem)) (halike _ hleading) hxs
    refine ⟨stack', cells ++ [⟨q, s, x⟩], ?_, ?_, ?_, ?_⟩
    · rw [Starlark.Forest.tokens, List.foldlM_append, hx]
      exact hstack'
    · rw [List.append_assoc]
      exact halike'.trans halike₂
    · rw [List.reverse_append, List.reverse_singleton, List.singleton_append, forest?, dif_pos rfl,
        hforest]
      rfl
    · rw [List.append_assoc, List.length_cons, Nat.add_comm ss.length, ← Nat.add_assoc]
      exact hcomplete

end

/-- What the automaton makes of a sequence of tokens followed by the end of input. -/
def parseTokens (ts : List Token) (last : Token) : Except SyntaxError (Tree (.n .file)) := do
  let stack ← ts.foldlM shift []
  accept stack last

/-- The automaton accepts the tokens of a derivation with that derivation. -/
theorem parseTokens_tokens (x : Tree (.n .file)) (last : Token) (hlast : last.kind = .endOfInput) :
    parseTokens x.tokens last = .ok x := by
  suffices hall : ∀ {s : Symbol} (x : Tree s) (hs : s = .n .file),
      parseTokens x.tokens last = .ok (hs ▸ x) from hall x rfl
  intro s x hs
  cases x with
  | leaf t => cases hs
  | node p xs =>
    have hlhs : p.lhs = .file := Symbol.n.inj hs
    obtain ⟨stack, cells, hshifts, halike, hforest, hcomplete⟩ :=
      @Forest.shifts p.rhs xs [] p 0 p.file_not_mem_rhs List.drop_zero (item_file p hlhs)
        p.followClosed
    have hfollow : last.kind ∈ p.lhs.follow := by
      rw [hlast, hlhs]
      exact .head _
    have hgoto : goto? (top []) p.lhs = some 1 := by
      rw [hlhs]
      rfl
    rw [Nat.zero_add] at hcomplete
    have hreduce := reduce?_of_forest? hforest hgoto
    have haccept : feed (cells ++ []) last = .accepted (hs ▸ .node p xs) := by
      have hrule : p = .fileEmpty ∨ p = .fileItems := by
        have hmem := hlhs ▸ p.mem_rules
        simpa [Nonterminal.rules] using hmem
      rcases hrule with rfl | rfl
      · exact feed_of_accept (hcomplete.reduces hfollow) hreduce
      · exact feed_of_accept (hcomplete.reduces hfollow) hreduce
    rw [parseTokens, Starlark.Tree.tokens, hshifts]
    show accept stack last = _
    rw [accept_congr (halike last hfollow), accept, haccept]

/-- No sequence of tokens has two derivations. -/
theorem tokens_injective {x y : Tree (.n .file)} (h : x.tokens = y.tokens) : x = y := by
  have hx := parseTokens_tokens x (beginning.mark .endOfInput) rfl
  have hy := parseTokens_tokens y (beginning.mark .endOfInput) rfl
  rw [h, hy] at hx
  exact (Except.ok.inj hx).symm

end Parser
end Starlark
