import Mathlib.Computability.Language
import Mathlib.Order.CompletePartialOrder
import Starlark.Proofs.Reference.Derivation

/-! # Every derivation has a tree

The languages of the nonterminals are closed under the rules of the parser. So they are closed
under the rules of the reference grammar, whose optional parts and repetitions are taken apart by
Kleene algebra, and whatever the reference grammar derives is at the leaves of some tree.
-/
namespace Starlark
open Computability

/-- The sequences of terminals at the leaves of the trees of a symbol. -/
def Symbol.lang (s : Symbol) : Language Terminal := {w | ∃ x : Tree s, x.tokens.map Token.kind = w}

namespace Reference

def sequence : List Symbol → Language Terminal
  | [] => 1
  | [s] => s.lang
  | s :: ss => s.lang * sequence ss

theorem forest_of_mem : ∀ {ss : List Symbol} {w : List Terminal}, w ∈ sequence ss →
    ∃ xs : Forest ss, xs.tokens.map Token.kind = w
  | [], _, h => ⟨.nil, h.symm⟩
  | [_], _, ⟨x, hx⟩ => ⟨.cons x .nil, by rwa [Forest.tokens, Forest.tokens, List.append_nil]⟩
  | _ :: _ :: _, _, h => by
    obtain ⟨u, ⟨x, rfl⟩, v, hv, rfl⟩ := Language.mem_mul.mp h
    obtain ⟨xs, rfl⟩ := forest_of_mem hv
    exact ⟨.cons x xs, by rw [Forest.tokens, List.map_append]⟩

theorem rule_le (p : Production) : sequence p.rhs ≤ (Symbol.n p.lhs).lang := by
  intro w h
  obtain ⟨xs, hxs⟩ := forest_of_mem h
  exact ⟨.node p xs, hxs⟩

abbrev T (a : Terminal) : Language Terminal := (Symbol.t a).lang

abbrev N (A : Nonterminal) : Language Terminal := (Symbol.n A).lang

abbrev E (l : Level) : Language Terminal := N (.expr l)

theorem mem_of_le {l m : Language Terminal} {w : List Terminal} (h : l ≤ m) (hw : w ∈ l) : w ∈ m :=
  Set.mem_of_mem_of_subset hw h

namespace Form

variable {α : Type} (L : Rule → Language Terminal)

/-- The language of a form, given the languages of the rules. -/
def lang : {α : Type} → Form α → Language Terminal
  | _, .t a => T a
  | _, .r q => L q
  | _, .eps => 1
  | _, .seq f g => f.lang * g.lang
  | _, .or f g => f.lang + g.lang
  | _, .opt f => 1 + f.lang
  | _, .plus f => f.lang * f.lang∗
  | _, .star f => f.lang∗
  | _, .act _ f => f.lang

theorem lang_orElse (f g : Form α) : (f <|> g).lang L = f.lang L + g.lang L := rfl

/-- Languages that are closed under the rules contain what the rules derive. -/
theorem mem_lang {L : Rule → Language Terminal} (hL : ∀ q : Rule, q.form.lang L ≤ L q) {α : Type}
    {f : Form α} {w : List Terminal} (h : Derives f w) : w ∈ f.lang L := by
  induction h with
  | t a => exact ⟨.leaf ⟨a, [], ⟨⟨1, 1⟩, ⟨1, 1⟩⟩⟩, rfl⟩
  | r _ ih => exact hL _ ih
  | eps => exact Language.nil_mem_one
  | seq _ _ ihf ihg => exact Language.append_mem_mul ihf ihg
  | left _ ih => exact Or.inl ih
  | right _ ih => exact Or.inr ih
  | none => exact Or.inl Language.nil_mem_one
  | some _ ih => exact Or.inr ih
  | @one _ f _ _ ih =>
    have hle : f.lang L * 1 ≤ f.lang L * (f.lang L)∗ := mul_le_mul' le_rfl one_le_kstar
    rw [mul_one] at hle
    exact mem_of_le hle ih
  | @more _ f _ _ _ _ ih ihf =>
    have hle : f.lang L * ((f.lang L)∗ * f.lang L) ≤ f.lang L * (f.lang L)∗ :=
      mul_le_mul' le_rfl kstar_mul_le_kstar
    rw [← mul_assoc] at hle
    exact mem_of_le hle (Language.append_mem_mul ih ihf)
  | nil => exact Language.nil_mem_kstar _
  | @plus _ f _ _ ih => exact mem_of_le (mul_kstar_le_kstar (a := f.lang L)) ih
  | act _ ih => exact ih

end Form
end Reference
end Starlark
