import Starlark.Proofs.Grammar.Numbering
import Starlark.Proofs.Reference.Derivation

/-! # Readings

Sequences of tokens with the values they yield, taken apart along a form. The readings of the
rules are given: where they are closed under the forms of the rules, they hold every derivation.
-/
namespace Starlark.Reference

/-- Which tokens have which values and spans, from one state of the notes to the next. -/
abbrev Reading (α : Type) := List Token → Notes → α → Option Span → Notes → Prop

namespace Reading

variable {α β : Type}

inductive Eps : Reading Unit
  | mk {n : Notes} : Eps [] n () none n

inductive Seq (F : Reading α) (G : Reading β) : Reading (α × β)
  | mk {ts us : List Token} {n n' n'' : Notes} {v : α} {w : β} {s u : Option Span}
    (hf : F ts n v s n') (hg : G us n' w u n'') : Seq F G (ts ++ us) n (v, w) (Span.join s u) n''

inductive Or (F G : Reading α) : Reading α
  | left {ts : List Token} {n n' : Notes} {v : α} {s : Option Span} (h : F ts n v s n') :
    Or F G ts n v s n'
  | right {ts : List Token} {n n' : Notes} {v : α} {s : Option Span} (h : G ts n v s n') :
    Or F G ts n v s n'

inductive Opt (F : Reading α) : Reading (Option α)
  | none {n : Notes} : Opt F [] n none none n
  | some {ts : List Token} {n n' : Notes} {v : α} {s : Option Span} (h : F ts n v s n') :
    Opt F ts n (some v) s n'

inductive Plus (F : Reading α) : Reading (List α)
  | one {ts : List Token} {n n' : Notes} {v : α} {s : Option Span} (h : F ts n v s n') :
    Plus F ts n [v] s n'
  | more {ts us : List Token} {n n' n'' : Notes} {vs : List α} {v : α} {s u : Option Span}
    (h : Plus F ts n vs s n') (hf : F us n' v u n'') :
    Plus F (ts ++ us) n (vs ++ [v]) (Span.join s u) n''

inductive Star (F : Reading α) : Reading (List α)
  | nil {n : Notes} : Star F [] n [] none n
  | plus {ts : List Token} {n n' : Notes} {vs : List α} {s : Option Span}
    (h : Plus F ts n vs s n') : Star F ts n vs s n'

inductive Act (file : String) (make : String → Option Location → α → Build β) (F : Reading α) :
    Reading β
  | mk {ts : List Token} {n n' n'' : Notes} {v : α} {w : β} {s : Option Span}
    (h : F ts n v s n')
    (hmake : (make file (s.map (·.inFile file)) v).run.run n' = (.ok w, n'')) :
    Act file make F ts n w s n''

end Reading

/-- What the trees of a symbol build. -/
def Built (file : String) (σ : Symbol) : Reading σ.Meaning := fun ts n v s n' =>
  ∃ x : Tree σ, x.tokens = ts ∧ (x.build file).run.run n = (.ok (v, s), n')

/-- The readings of a form, given the readings of the rules. -/
def Form.reading (file : String) (R : (q : Rule) → Reading q.Meaning) :
    {α : Type} → Form α → Reading α
  | _, .t a => Built file (.t a)
  | _, .r q => R q
  | _, .eps => .Eps
  | _, .seq f g => .Seq (f.reading file R) (g.reading file R)
  | _, .or f g => .Or (f.reading file R) (g.reading file R)
  | _, .opt f => .Opt (f.reading file R)
  | _, .plus f => .Plus (f.reading file R)
  | _, .star f => .Star (f.reading file R)
  | _, .act make f => .Act file make (f.reading file R)

/-- The readings of the rules hold every reading of their forms. -/
def Closed (file : String) (R : (q : Rule) → Reading q.Meaning) (q : Rule) : Prop :=
  ∀ {ts : List Token} {n n' : Notes} {v : q.Meaning} {s : Option Span},
    q.form.reading file R ts n v s n' → R q ts n v s n'

theorem Yields.reading {file : String} {R : (q : Rule) → Reading q.Meaning}
    (hR : ∀ q, Closed file R q) {α : Type} {f : Form α} {ts : List Token} {n n' : Notes} {v : α}
    {s : Option Span} (h : Yields file f ts n v s n') : f.reading file R ts n v s n' := by
  induction h with
  | t tok => exact ⟨.leaf tok, rfl, rfl⟩
  | r _ ih => exact hR _ ih
  | eps => exact .mk
  | seq _ _ ihf ihg => exact .mk ihf ihg
  | left _ ih => exact .left ih
  | right _ ih => exact .right ih
  | none => exact .none
  | some _ ih => exact .some ih
  | one _ ih => exact .one ih
  | more _ _ ih ihf => exact .more ih ihf
  | nil => exact .nil
  | plus _ ih => exact .plus ih
  | act _ hmake ih => exact .mk ih hmake

/-- The values that forests build for a sequence of symbols. -/
def BuiltAll (file : String) (ss : List Symbol) : Reading (Meanings ss) := fun ts n vs s n' =>
  ∃ xs : Forest ss, xs.tokens = ts ∧ (xs.build file).run.run n = (.ok (vs, s), n')

variable {file : String} {σ : Symbol} {ss : List Symbol} {ts us : List Token} {n n' n'' : Notes}
  {v : σ.Meaning} {vs : Meanings ss} {s u : Option Span}

theorem BuiltAll.nil : BuiltAll file [] [] n () none n := ⟨.nil, rfl, rfl⟩

theorem BuiltAll.cons (h : Built file σ ts n v s n') (hs : BuiltAll file ss us n' vs u n'') :
    BuiltAll file (σ :: ss) (ts ++ us) n (v, vs) (Span.join s u) n'' := by
  obtain ⟨x, rfl, hx⟩ := h
  obtain ⟨xs, rfl, hxs⟩ := hs
  refine ⟨.cons x xs, rfl, ?_⟩
  rw [Forest.build, Build.run_bind, hx]
  dsimp only
  rw [Build.run_bind, hxs]
  rfl

theorem BuiltAll.cast (h : BuiltAll file ss ts n vs s n')
    (hts : ts = us) (hs : s = u) : BuiltAll file ss us n vs u n' := by
  subst hts hs
  exact h

theorem BuiltAll.one (h : Built file σ ts n v s n') : BuiltAll file [σ] ts n (v, ()) s n' := by
  have hs : BuiltAll file [σ] (ts ++ []) n (v, ()) (Span.join s none) n' := .cons h .nil
  rwa [List.append_nil, join_none] at hs

theorem Built.node (p : Production) {vs : Meanings p.rhs} {w : p.lhs.Meaning}
    (h : BuiltAll file p.rhs ts n vs s n')
    (hact : (Build.action file s p vs).run.run n' = (.ok w, n'')) :
    Built file (.n p.lhs) ts n w s n'' := by
  obtain ⟨xs, rfl, hxs⟩ := h
  refine ⟨.node p xs, rfl, ?_⟩
  rw [Tree.build, Build.run_bind, hxs]
  dsimp only
  rw [Build.run_bind, hact]
  rfl

end Starlark.Reference
