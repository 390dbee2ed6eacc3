import Starlark.Proofs.Grammar.Events

/-! # The tokens behind a meaning

Where a rule asks for a terminal its action is given a token of that kind, one of those at the
leaves of the tree.
-/
namespace Starlark

/-- Are the tokens in a meaning of the kinds that are asked for, and do they have a property? -/
def Nonterminal.Leaves (P : Token → Prop) : (x : Nonterminal) → x.Meaning → Prop
  | .stringToken => fun t => t.IsString ∧ P t
  | _ => fun _ => True

def Symbol.Leaves (P : Token → Prop) : (s : Symbol) → s.Meaning → Prop
  | .t kind => fun t => t.kind = kind ∧ P t
  | .n x => x.Leaves P

def Meanings.Leaves (P : Token → Prop) : (ss : List Symbol) → Meanings ss → Prop
  | [] => fun _ => True
  | s :: ss => fun vs => s.Leaves P vs.1 ∧ Meanings.Leaves P ss vs.2

namespace Build
variable {α β : Type} {P : Token → Prop}

theorem action_leaves (file : String) (span : Option Span) (p : Production) (vs : Meanings p.rhs)
    (h : Meanings.Leaves P p.rhs vs) : Returns (action file span p vs) (p.lhs.Leaves P) := by
  cases p
  case stringShort => exact .pure ⟨.inl h.1.1, h.1.2⟩
  case stringLong => exact .pure ⟨.inr h.1.1, h.1.2⟩
  all_goals exact fun _ _ _ _ => True.intro

theorem keeps_leaves (file : String) (P : Token → Prop) :
    Keeps file P (fun s => s.Leaves P) (Meanings.Leaves P) where
  leaf _ ht := ⟨rfl, ht⟩
  nil := True.intro
  cons hv hvs := ⟨hv, hvs⟩
  action span p vs := action_leaves file span p vs

end Build

/-- The tokens in the meaning of a forest are at its leaves. -/
theorem Forest.build_leaves (file : String) {P : Token → Prop} {ss : List Symbol} (xs : Forest ss)
    (h : ∀ t ∈ xs.tokens, P t) : Build.Returns (xs.build file) fun vs => Meanings.Leaves P ss vs.1 :=
  (Build.keeps_leaves file P).forest xs h

end Starlark
