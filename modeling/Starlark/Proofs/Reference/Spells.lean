import Starlark.Proofs.Parser.Scanned
import Starlark.Proofs.Reference.Converse

/-! # Marks that spell a form

Some marks spell a form if their tokens, wherever they stand, are a reading of it that notes
nothing but identifiers, with a value of a given kind. A form is spelled as it is built up from
its parts, and what spells a tight level of expressions spells the looser ones.
-/
namespace Starlark

def Token.shape (t : Token) : Terminal × List Char := (t.kind, t.text)

/-- What the tokens among some marks are, apart from their places. -/
def shapes (ms : List Mark) : List (Terminal × List Char) :=
  ms.filterMap fun
    | .token kind text => some (kind, text)
    | .blank => none

theorem shapes_append (ms ns : List Mark) : shapes (ms ++ ns) = shapes ms ++ shapes ns :=
  List.filterMap_append

theorem placed_shapes (ms : List Mark) (p : Point) :
    (placed p ms).map Token.shape = shapes ms := by
  induction ms generalizing p with
  | nil => rfl
  | cons m ms ih =>
    cases m with
    | token kind text => exact congrArg ((kind, text) :: ·) (ih _)
    | blank => exact ih _

/-- No error and no event is noted. -/
def Notes.Quiet (n n' : Notes) : Prop := n'.errors = n.errors ∧ n'.events = n.events

theorem Notes.Quiet.refl (n : Notes) : n.Quiet n := ⟨rfl, rfl⟩

theorem Notes.Quiet.trans {n n' n'' : Notes} (h : n.Quiet n') (h' : n'.Quiet n'') : n.Quiet n'' :=
  ⟨h'.1.trans h.1, h'.2.trans h.2⟩

namespace Reference
open Form

theorem Built.leaf {file : String} {tok : Token} {a : Terminal} (h : tok.kind = a) (n : Notes) :
    Built file (.t a) [tok] n tok (some tok.span) n := by
  subst h
  exact ⟨.leaf tok, rfl, rfl⟩

/-- The tokens of the marks are read as the form, quietly and with a value of some kind. -/
def Spells (file : String) {α : Type} (f : Form α) (ms : List Mark) (P : α → Prop) : Prop :=
  ∀ (ts : List Token) (n : Notes), ts.map Token.shape = shapes ms →
    ∃ v s n', Reads file f ts n v s n' ∧ n.Quiet n' ∧ P v

namespace Reading
variable {α : Type} {F : Reading α}

theorem Plus.cons {ts us : List Token} {n n' n'' : Notes} {v : α} {vs : List α}
    {s u : Option Span} (h : F ts n v s n') (hs : Plus F us n' vs u n'') :
    Plus F (ts ++ us) n (v :: vs) (Span.join s u) n'' := by
  induction hs with
  | one hf => exact .more (.one h) hf
  | more _ hf ih =>
    rw [← List.append_assoc, ← join_assoc, ← List.cons_append]
    exact .more (ih h) hf

theorem Star.cons {ts us : List Token} {n n' n'' : Notes} {v : α} {vs : List α}
    {s u : Option Span} (h : F ts n v s n') (hs : Star F us n' vs u n'') :
    Plus F (ts ++ us) n (v :: vs) (Span.join s u) n'' := by
  cases hs with
  | nil =>
    rw [List.append_nil, join_none]
    exact .one h
  | plus hs => exact .cons h hs

theorem Star.append {ts us : List Token} {n n' n'' : Notes} {v : α} {vs : List α}
    {s u : Option Span} (hs : Star F ts n vs s n') (h : F us n' v u n'') :
    Star F (ts ++ us) n (vs ++ [v]) (Span.join s u) n'' := by
  cases hs with
  | nil => exact .plus (.one h)
  | plus hs => exact .plus (.more hs h)

end Reading

namespace Spells
variable {file : String} {α β γ : Type} {f : Form α} {g : Form β} {ms ns : List Mark}
  {P : α → Prop} {Q : β → Prop}

theorem mono {P' : α → Prop} (h : Spells file f ms P) (hP : ∀ v, P v → P' v) :
    Spells file f ms P' := by
  intro ts n hts
  obtain ⟨v, s, n', hread, hquiet, hv⟩ := h ts n hts
  exact ⟨v, s, n', hread, hquiet, hP v hv⟩

/-- Blanks make no tokens. -/
theorem blank (h : Spells file f ms P) : Spells file f (.blank :: ms) P := h

/-- What spells the form of a rule spells the rule. -/
theorem r {q : Rule} {P : q.Meaning → Prop} (h : Spells file q.form ms P) :
    Spells file (.r q) ms P := by
  intro ts n hts
  obtain ⟨v, s, n', hread, hquiet, hv⟩ := h ts n hts
  exact ⟨v, s, n', closed q hread, hquiet, hv⟩

theorem eps (file : String) : Spells file .eps [] fun _ => True := by
  intro ts n hts
  obtain rfl : ts = [] := List.map_eq_nil_iff.mp hts
  exact ⟨(), none, n, .mk, .refl n, trivial⟩

theorem seq (hf : Spells file f ms P) (hg : Spells file g ns Q) :
    Spells file (.seq f g) (ms ++ ns) fun v => P v.1 ∧ Q v.2 := by
  intro ts n hts
  rw [shapes_append] at hts
  obtain ⟨us, ws, rfl, hus, hws⟩ := List.map_eq_append_iff.mp hts
  obtain ⟨v, s, n', hread, hquiet, hv⟩ := hf us n hus
  obtain ⟨w, u, n'', hread', hquiet', hw⟩ := hg ws n' hws
  exact ⟨(v, w), _, n'', .mk hread hread', hquiet.trans hquiet', hv, hw⟩

theorem t (file : String) (kind : Terminal) (text : List Char) :
    Spells file (.t kind) [.token kind text] fun tok => tok.text = text := by
  intro ts n hts
  obtain ⟨tok, rfl, hshape⟩ := List.map_eq_singleton_iff.mp hts
  obtain ⟨hkind, htext⟩ := Prod.mk.inj hshape
  exact ⟨tok, _, n, .leaf hkind n, .refl n, htext⟩

/-- A token before the rest of a sequence. -/
theorem token {kind : Terminal} {text : List Char} (h : Spells file g ms Q) :
    Spells file (.seq (.t kind) g) (.token kind text :: ms) fun v => v.1.text = text ∧ Q v.2 :=
  .seq (.t file kind text) h

theorem spelled (kind : Terminal) (h : Spells file g ms Q) :
    Spells file (.seq (.t kind) g) (.spelled kind :: ms) fun v => Q v.2 :=
  (token h).mono fun _ hv => hv.2

/-- The last part of a sequence. -/
theorem last (h : Spells file f ms P) : Spells file (.seq f .eps) ms fun v => P v.1 := by
  have hseq := h.seq (eps file)
  rw [List.append_nil] at hseq
  exact hseq.mono fun _ hv => hv.1

theorem enclosed {o c : Terminal} (h : Spells file f ms P) :
    Spells file (.seq (.t o) (.seq f (.seq (.t c) .eps)))
      (.spelled o :: (ms ++ [Mark.spelled c])) fun v => P v.2.1 :=
  (spelled o (h.seq (t file c _).last)).mono fun _ hv => hv.1

theorem left {f' : Form α} (h : Spells file f ms P) : Spells file (f <|> f') ms P := by
  intro ts n hts
  obtain ⟨v, s, n', hread, hquiet, hv⟩ := h ts n hts
  exact ⟨v, s, n', .left hread, hquiet, hv⟩

theorem right {f' : Form α} (h : Spells file f' ms P) : Spells file (f <|> f') ms P := by
  intro ts n hts
  obtain ⟨v, s, n', hread, hquiet, hv⟩ := h ts n hts
  exact ⟨v, s, n', .right hread, hquiet, hv⟩

theorem act {make : String → Option Location → α → Build β} (h : Spells file f ms P)
    (hmake : ∀ loc v n, P v →
      ∃ w n', (make file loc v).run.run n = (.ok w, n') ∧ n.Quiet n' ∧ Q w) :
    Spells file (.act make f) ms Q := by
  intro ts n hts
  obtain ⟨v, s, n', hread, hquiet, hv⟩ := h ts n hts
  obtain ⟨w, n'', hrun, hquiet', hw⟩ := hmake (s.map (·.inFile file)) v n' hv
  exact ⟨w, s, n'', .mk hread hrun, hquiet.trans hquiet', hw⟩

theorem build {make : Option Location → α → β} (h : Spells file f ms P)
    (hmake : ∀ loc v, P v → Q (make loc v)) : Spells file (f.build make) ms Q :=
  h.act fun loc v n hv => ⟨make loc v, n, rfl, .refl n, hmake loc v hv⟩

theorem map {make : α → β} (h : Spells file f ms P) (hmake : ∀ v, P v → Q (make v)) :
    Spells file (f.map make) ms Q :=
  h.act fun _ v n hv => ⟨make v, n, rfl, .refl n, hmake v hv⟩

theorem none : Spells file (.opt f) [] (· = Option.none) := by
  intro ts n hts
  obtain rfl : ts = [] := List.map_eq_nil_iff.mp hts
  exact ⟨Option.none, Option.none, n, .none, .refl n, rfl⟩

theorem some (h : Spells file f ms P) : Spells file (.opt f) ms fun v => ∃ x, v = some x ∧ P x := by
  intro ts n hts
  obtain ⟨v, s, n', hread, hquiet, hv⟩ := h ts n hts
  exact ⟨Option.some v, s, n', .some hread, hquiet, v, rfl, hv⟩

/-- A repetition of one part. -/
theorem one (h : Spells file f ms P) :
    Spells file (.star f) ms fun vs => ∃ v, vs = [v] ∧ P v := by
  intro ts n hts
  obtain ⟨v, s, n', hread, hquiet, hv⟩ := h ts n hts
  exact ⟨[v], s, n', .plus (.one hread), hquiet, v, rfl, hv⟩

section Lists

variable {key : α → γ} {x : γ} {xs : List γ}

theorem nil : Spells file (.star f) [] fun vs => vs.map key = [] := by
  intro ts n hts
  obtain rfl : ts = [] := List.map_eq_nil_iff.mp hts
  exact ⟨[], Option.none, n, .nil, .refl n, rfl⟩

theorem plus (h : Spells file f ms fun v => key v = x)
    (hs : Spells file (.star f) ns fun vs => vs.map key = xs) :
    Spells file (.plus f) (ms ++ ns) fun vs => vs.map key = x :: xs := by
  intro ts n hts
  rw [shapes_append] at hts
  obtain ⟨us, ws, rfl, hus, hws⟩ := List.map_eq_append_iff.mp hts
  obtain ⟨v, s, n', hread, hquiet, rfl⟩ := h us n hus
  obtain ⟨vs, u, n'', hread', hquiet', rfl⟩ := hs ws n' hws
  exact ⟨v :: vs, _, n'', Reading.Star.cons hread hread', hquiet.trans hquiet', rfl⟩

theorem cons (h : Spells file f ms fun v => key v = x)
    (hs : Spells file (.star f) ns fun vs => vs.map key = xs) :
    Spells file (.star f) (ms ++ ns) fun vs => vs.map key = x :: xs := by
  intro ts n hts
  obtain ⟨v, s, n', hread, hquiet, hv⟩ := plus h hs ts n hts
  exact ⟨v, s, n', .plus hread, hquiet, hv⟩

theorem after {a : Terminal} (h : Spells file f ms P) :
    Spells file (Form.after a f) (.spelled a :: .blank :: ms) P :=
  (spelled a (last h)).map fun _ hv => hv

theorem commasNil : Spells file (commas f) [] fun vs => vs.map key = [] := by
  refine none.map ?_
  rintro _ rfl
  rfl

theorem commasCons (h : Spells file f ms fun v => key v = x)
    (hs : Spells file (.star (Form.after .comma f)) ns fun vs => vs.map key = xs) :
    Spells file (commas f) (ms ++ ns) fun vs => vs.map key = x :: xs := by
  have hparts := h.seq (hs.seq (none (f := .t .comma) |>.last))
  rw [List.append_nil] at hparts
  refine hparts.some.map ?_
  rintro _ ⟨⟨v, vs, w⟩, rfl, hv, hvs, -⟩
  exact congrArg₂ List.cons hv hvs

end Lists

end Spells
end Reference
end Starlark
