import Starlark.Proofs.Reference.Spells
import Starlark.Proofs.Syntax.Plain

/-! # Levels that spell an expression

An expression that a level spells is spelled by every looser level. A chain of operators goes on
with one more link, and its value is then the binary expression of the chain before and the new
operand, whatever the places of the nodes.
-/
namespace Starlark

/-- The next looser level. -/
def Level.looser : Level → Level
  | .test | .binary .or => .test
  | .binary .and => .binary .or
  | .negation => .binary .and
  | .binary .comparison => .negation
  | .binary .bitOr => .binary .comparison
  | .binary .bitXor => .binary .bitOr
  | .binary .bitAnd => .binary .bitXor
  | .binary .shift => .binary .bitAnd
  | .binary .additive => .binary .shift
  | .binary .multiplicative => .binary .additive
  | .unary => .binary .multiplicative
  | .primary => .unary
  | .atom => .primary

theorem Level.rank_looser {l : Level} (h : l ≠ .test) : l.looser.rank + 1 = l.rank := by
  rcases l with _ | (_ | _ | _ | _ | _ | _ | _ | _ | _) | _ | _ | _ | _
  · exact absurd rfl h
  all_goals rfl

theorem Level.rank_injective {l l' : Level} (h : l.rank = l'.rank) : l = l' := by
  rcases l with _ | (_ | _ | _ | _ | _ | _ | _ | _ | _) | _ | _ | _ | _ <;>
    rcases l' with _ | (_ | _ | _ | _ | _ | _ | _ | _ | _) | _ | _ | _ | _ <;>
    first | rfl | exact absurd h (by decide)

theorem Level.test_rank_le (l : Level) : Level.test.rank ≤ l.rank := by
  rcases l with _ | (_ | _ | _ | _ | _ | _ | _ | _ | _) | _ | _ | _ | _ <;> decide

theorem Level.looser_of_step {R : Level → Prop} (htest : R (.binary .or) → R .test)
    (hbinary : ∀ b : BinaryLevel, R b.operand → R (.binary b))
    (hnegation : R (.binary .comparison) → R .negation) (hunary : R .primary → R .unary)
    (hprimary : R .atom → R .primary) (l : Level) (h : R l) : R l.looser := by
  rcases l with _ | (_ | _ | _ | _ | _ | _ | _ | _ | _) | _ | _ | _ | _
  · exact h
  · exact htest h
  · exact hbinary .or h
  · exact hnegation h
  · exact hbinary .comparison h
  · exact hbinary .bitOr h
  · exact hbinary .bitXor h
  · exact hbinary .bitAnd h
  · exact hbinary .shift h
  · exact hbinary .additive h
  · exact hbinary .and h
  · exact hbinary .multiplicative h
  · exact hunary h
  · exact hprimary h

/-- What goes from each level to the next looser one goes to all looser ones. -/
theorem Level.climb {R : Level → Prop} (htest : R (.binary .or) → R .test)
    (hbinary : ∀ b : BinaryLevel, R b.operand → R (.binary b))
    (hnegation : R (.binary .comparison) → R .negation) (hunary : R .primary → R .unary)
    (hprimary : R .atom → R .primary) {l l' : Level} (h : R l') (hrank : l.rank ≤ l'.rank) :
    R l := by
  obtain ⟨k, hk⟩ := Nat.exists_eq_add_of_le hrank
  induction k generalizing l' with
  | zero =>
    obtain rfl : l' = l := Level.rank_injective hk
    exact h
  | succ k ih =>
    have hother : l' ≠ .test := by
      rintro rfl
      have hle := l.test_rank_le
      omega
    have hlooser := Level.rank_looser hother
    have hstep := Level.looser_of_step htest hbinary hnegation hunary hprimary l' h
    exact ih hstep (by omega) (by omega)

/-- The place of a chain is that of each of its nodes. -/
theorem bare_foldChain {x x' : Expr} (h : x.bare = x'.bare) (loc loc' : Option Location)
    (links : List (BinaryOp × Expr)) :
    (foldChain loc x links).bare = (foldChain loc' x' links).bare := by
  induction links generalizing x x' with
  | nil => exact h
  | cons link links ih =>
    refine ih ?_
    rw [Expr.bare, Expr.bare, h]

theorem foldChain_append (loc : Option Location) (x y : Expr) (links : List (BinaryOp × Expr))
    (op : BinaryOp) :
    foldChain loc x (links ++ [(op, y)]) = .binary (foldChain loc x links) op y loc := by
  rw [foldChain, List.foldl_append]
  rfl

namespace BinaryOp

/-- The terminals that spell an operator. -/
def terminals (op : BinaryOp) : List Terminal :=
  op.symbols.filterMap fun
    | .t a => some a
    | .n _ => none

theorem symbols_eq (op : BinaryOp) : op.symbols = op.terminals.map .t := by
  cases op <;> rfl

end BinaryOp

namespace Reference
open Form

theorem builtAll_terminals (file : String) {ss : List Symbol} {ts : List Token}
    (h : ss = ts.map fun tok => .t tok.kind) (n : Notes) :
    ∃ vs s, BuiltAll file ss ts n vs s n := by
  subst h
  induction ts with
  | nil => exact ⟨(), none, .nil⟩
  | cons tok ts ih =>
    obtain ⟨vs, s, hs⟩ := ih
    exact ⟨_, _, .cons (.leaf rfl n) hs⟩

namespace Spells
variable {file : String} {ms ns os : List Mark}

theorem operator (op : BinaryOp) (h : (shapes os).map Prod.fst = op.terminals) :
    Spells file (.r (.operator op.level)) os (· = op) := by
  intro ts n hts
  have hsymbols : op.symbols = ts.map fun tok => .t tok.kind := by
    rw [op.symbols_eq, ← h, ← hts, List.map_map, List.map_map]
    rfl
  obtain ⟨vs, s, hs⟩ := builtAll_terminals file hsymbols n
  exact ⟨op, s, n, .node (.operator op) hs rfl, .refl n, rfl⟩

theorem level {l : Level} {P : Expr → Prop} (h : Spells file (exprForm l) ms P) :
    Spells file (.r (.expr l)) ms P := h.r

/-- An operand is a chain of no links. -/
theorem single {b : BinaryLevel} {P : Expr → Prop} (h : Spells file (exprForm b.operand) ms P) :
    Spells file (exprForm (.binary b)) ms P := by
  have hnil : Spells file (.star (link b)) [] fun links => links.map id = [] := nil
  have hseq := h.level.seq hnil.last
  rw [List.append_nil] at hseq
  refine hseq.build ?_
  rintro loc ⟨x, links, _⟩ ⟨hx, hlinks⟩
  obtain rfl : links = [] := List.map_eq_nil_iff.mp hlinks
  exact hx

/-- What spells an expression at a level spells it at every looser one. -/
theorem climb {l l' : Level} {P : Expr → Prop} (h : Spells file (exprForm l') ms P)
    (hrank : l.rank ≤ l'.rank) : Spells file (exprForm l) ms P :=
  Level.climb (R := fun l => Spells file (exprForm l) ms P) (fun h => h.level.right)
    (fun _ => single) (fun h => h.level.right) (fun h => h.level.right)
    (fun h => h.level.right.right.right) h hrank

/-- A chain with one more link. -/
theorem chain {x y : Expr} {op : BinaryOp}
    (hx : Spells file (exprForm (.binary op.level)) ms fun v => v.bare = x.bare)
    (hop : Spells file (.r (.operator op.level)) os (· = op))
    (hy : Spells file (exprForm op.level.operand) ns fun v => v.bare = y.bare) :
    Spells file (exprForm (.binary op.level)) (ms ++ (os ++ ns))
      fun v => v.bare = (Expr.binary x op y Option.none).bare := by
  have hlink : Spells file (link op.level) (os ++ ns) fun v => v.1 = op ∧ v.2.bare = y.bare :=
    (hop.seq hy.level.last).map fun _ hv => hv
  intro ts n hts
  rw [shapes_append] at hts
  obtain ⟨us, ws, rfl, hus, hws⟩ := List.map_eq_append_iff.mp hts
  obtain ⟨v, s, n', ⟨⟨hfirst, ⟨hlinks, ⟨⟩⟩⟩, hact⟩, hquiet, hv⟩ := hx us n hus
  cases hact
  obtain ⟨⟨op', w⟩, u, n'', hread, hquiet', rfl, hw⟩ := hlink ws _ hws
  have hstar := Reading.Star.append hlinks hread
  have hchain := Reading.Seq.mk hfirst (Reading.Seq.mk hstar Reading.Eps.mk)
  simp only [List.append_nil, ← List.append_assoc] at hchain ⊢
  refine ⟨_, _, _, .mk hchain rfl, hquiet.trans hquiet', ?_⟩
  dsimp only
  rw [foldChain_append, Expr.bare, Expr.bare, hw, (bare_foldChain rfl _ _ _).trans hv]

section Tuples

variable {f : Form Expr} {e : Expr} {es : List Expr}

theorem tupleOne (h : Spells file f ms fun v => v.bare = e) :
    Spells file (tuple f) (ms ++ [Mark.spelled .comma])
      fun v => v.bare = .list [e] true Option.none := by
  have hparts := h.seq (spelled .comma (eps file))
  refine build (P := fun vs => vs.map Expr.bare = [e]) (right (hparts.map ?_)) ?_
  · rintro ⟨v, _⟩ ⟨hv, -⟩
    exact congrArg (fun v => [v]) hv
  · intro loc vs hvs
    rw [Expr.bare, Expr.bareAll_eq_map, hvs]

theorem tupleMany (h : Spells file f ms fun v => v.bare = e)
    (hs : Spells file (.plus (Form.after .comma f)) ns fun vs => vs.map Expr.bare = es) :
    Spells file (tuple f) (ms ++ ns) fun v => v.bare = .list (e :: es) true Option.none := by
  have hnone : Spells file (.opt (.t .comma)) [] (· = Option.none) := none
  have hparts := h.seq (hs.seq hnone.last)
  rw [List.append_nil] at hparts
  refine build (P := fun vs => vs.map Expr.bare = e :: es) (left (hparts.map ?_)) ?_
  · rintro ⟨v, vs, _⟩ ⟨hv, hvs, -⟩
    exact congrArg₂ List.cons hv hvs
  · intro loc vs hvs
    rw [Expr.bare, Expr.bareAll_eq_map, hvs]

end Tuples

end Spells
end Reference
end Starlark
