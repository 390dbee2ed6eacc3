import Starlark.Proofs.Grammar.Written
import Starlark.Proofs.Parser.Accepts

/-! # What the parser derives, the reference grammar derives

The terminals of a tree have a meaning as soon as their numerals are short, and the reference
grammar yields it. So the two grammars derive the same sequences of terminals.
-/
namespace Starlark
open Reference

theorem short_of_zero {t : Token} (h : t.text = ['0']) : t.Short := by
  have hzero : integerText? 0 = some "0" := by
    rw [integerText?]
    -- the power is kept from being computed
    generalize maxDecimalDigits = m
    exact if_pos (Nat.pow_pos (by decide : 0 < 10))
  intro _
  refine ⟨0, "0", ?_, hzero⟩
  rw [h]
  rfl

/-- The terminals at the leaves of a tree are derived by the reference grammar. -/
theorem derives_of_tree (x : Tree (.n .file)) :
    Derives (.r .start) (x.tokens.map Token.kind) := by
  let zero : Token → Token := fun t => ⟨t.kind, ['0'], t.span⟩
  have hkinds : (x.tokens.map zero).map Token.kind = x.tokens.map Token.kind := by
    rw [List.map_map]
    rfl
  obtain ⟨y, hy⟩ := x.exists_tokens hkinds
  have hshort : ∀ t ∈ y.tokens, t.Short := by
    rw [hy]
    exact List.forall_mem_map.mpr fun t _ => short_of_zero rfl
  obtain ⟨⟨ss, span⟩, notes, hbuild⟩ := y.build_succeeds "" hshort ⟨0, [], []⟩
  have hyields : Yields "" (.r .start) y.tokens ⟨0, [], []⟩ ss span notes := y.stands "" hbuild
  rw [← hkinds, ← hy]
  exact hyields.derives

theorem derives_iff_mem_lang {w : List Terminal} :
    Derives (.r .start) w ↔ w ∈ (Symbol.n .file).lang := by
  constructor
  · exact tree_of_derives
  · rintro ⟨x, rfl⟩
    exact derives_of_tree x

end Starlark
