import Starlark.Proofs.Reference.Rules

/-! # Derivations of the reference grammar

Which sequences of terminals a form derives, and which values its derivations yield: actions run
from the leaves up and from left to right, and number the identifiers and note errors as they go.
-/
namespace Starlark.Reference

/-- A form derives a sequence of terminals. -/
inductive Derives : {α : Type} → Form α → List Terminal → Prop
  | t (a : Terminal) : Derives (.t a) [a]
  | r {q : Rule} {w : List Terminal} (h : Derives q.form w) : Derives (.r q) w
  | eps : Derives .eps []
  | seq {α β : Type} {f : Form α} {g : Form β} {u v : List Terminal} (hf : Derives f u)
    (hg : Derives g v) : Derives (.seq f g) (u ++ v)
  | left {α : Type} {f g : Form α} {w : List Terminal} (h : Derives f w) : Derives (.or f g) w
  | right {α : Type} {f g : Form α} {w : List Terminal} (h : Derives g w) : Derives (.or f g) w
  | none {α : Type} {f : Form α} : Derives (.opt f) []
  | some {α : Type} {f : Form α} {w : List Terminal} (h : Derives f w) : Derives (.opt f) w
  | one {α : Type} {f : Form α} {w : List Terminal} (h : Derives f w) : Derives (.plus f) w
  | more {α : Type} {f : Form α} {u v : List Terminal} (h : Derives (.plus f) u)
    (hf : Derives f v) : Derives (.plus f) (u ++ v)
  | nil {α : Type} {f : Form α} : Derives (.star f) []
  | plus {α : Type} {f : Form α} {w : List Terminal} (h : Derives (.plus f) w) :
    Derives (.star f) w
  | act {α β : Type} {make : String → Option Location → α → Build β} {f : Form α}
    {w : List Terminal} (h : Derives f w) : Derives (.act make f) w

/-- A derivation of some tokens yields a value and a span, and takes the notes from one state to
the next. -/
inductive Yields (file : String) : {α : Type} → Form α → List Token → Notes → α → Option Span →
    Notes → Prop
  | t (tok : Token) {n : Notes} : Yields file (.t tok.kind) [tok] n tok (some tok.span) n
  | r {q : Rule} {ts : List Token} {n n' : Notes} {v : q.Meaning} {s : Option Span}
    (h : Yields file q.form ts n v s n') : Yields file (.r q) ts n v s n'
  | eps {n : Notes} : Yields file .eps [] n () none n
  | seq {α β : Type} {f : Form α} {g : Form β} {ts us : List Token} {n n' n'' : Notes} {v : α}
    {w : β} {s u : Option Span} (hf : Yields file f ts n v s n') (hg : Yields file g us n' w u n'') :
    Yields file (.seq f g) (ts ++ us) n (v, w) (Span.join s u) n''
  | left {α : Type} {f g : Form α} {ts : List Token} {n n' : Notes} {v : α} {s : Option Span}
    (h : Yields file f ts n v s n') : Yields file (.or f g) ts n v s n'
  | right {α : Type} {f g : Form α} {ts : List Token} {n n' : Notes} {v : α} {s : Option Span}
    (h : Yields file g ts n v s n') : Yields file (.or f g) ts n v s n'
  | none {α : Type} {f : Form α} {n : Notes} : Yields file (.opt f) [] n Option.none Option.none n
  | some {α : Type} {f : Form α} {ts : List Token} {n n' : Notes} {v : α} {s : Option Span}
    (h : Yields file f ts n v s n') : Yields file (.opt f) ts n (Option.some v) s n'
  | one {α : Type} {f : Form α} {ts : List Token} {n n' : Notes} {v : α} {s : Option Span}
    (h : Yields file f ts n v s n') : Yields file (.plus f) ts n [v] s n'
  | more {α : Type} {f : Form α} {ts us : List Token} {n n' n'' : Notes} {vs : List α} {v : α}
    {s u : Option Span} (h : Yields file (.plus f) ts n vs s n') (hf : Yields file f us n' v u n'') :
    Yields file (.plus f) (ts ++ us) n (vs ++ [v]) (Span.join s u) n''
  | nil {α : Type} {f : Form α} {n : Notes} : Yields file (.star f) [] n [] Option.none n
  | plus {α : Type} {f : Form α} {ts : List Token} {n n' : Notes} {vs : List α} {s : Option Span}
    (h : Yields file (.plus f) ts n vs s n') : Yields file (.star f) ts n vs s n'
  | act {α β : Type} {make : String → Option Location → α → Build β} {f : Form α}
    {ts : List Token} {n n' n'' : Notes} {v : α} {w : β} {s : Option Span}
    (h : Yields file f ts n v s n')
    (hmake : (make file (s.map (·.inFile file)) v).run.run n' = (.ok w, n'')) :
    Yields file (.act make f) ts n w s n''

@[simp] theorem none_join (s : Option Span) : Span.join none s = s := rfl

@[simp] theorem join_none (s : Option Span) : Span.join s none = s := by cases s <;> rfl

@[simp] theorem join_assoc (a b c : Option Span) :
    Span.join (Span.join a b) c = Span.join a (Span.join b c) := by
  cases a <;> cases b <;> cases c <;> rfl

/-- What yields a value is derived. -/
theorem Yields.derives {file : String} {α : Type} {f : Form α} {ts : List Token} {n n' : Notes}
    {v : α} {s : Option Span} (h : Yields file f ts n v s n') : Derives f (ts.map Token.kind) := by
  induction h with
  | t tok => exact .t _
  | r _ ih => exact .r ih
  | eps => exact .eps
  | seq _ _ ihf ihg =>
    rw [List.map_append]
    exact .seq ihf ihg
  | left _ ih => exact .left ih
  | right _ ih => exact .right ih
  | none => exact .none
  | some _ ih => exact .some ih
  | one _ ih => exact .one ih
  | more _ _ ih ihf =>
    rw [List.map_append]
    exact .more ih ihf
  | nil => exact .nil
  | plus _ ih => exact .plus ih
  | act _ _ ih => exact .act ih

namespace Yields

variable {file : String} {α β : Type} {f : Form α} {g : Form β} {ts us : List Token}
  {n n' n'' : Notes} {v : α} {w : β} {s u : Option Span}

theorem map {make : α → β} (h : Yields file f ts n v s n') :
    Yields file (f.map make) ts n (make v) s n' := .act h rfl

theorem build {make : Option Location → α → β} (h : Yields file f ts n v s n') :
    Yields file (f.build make) ts n (make (s.map (·.inFile file)) v) s n' := .act h rfl

/-- A part that derives nothing. -/
theorem absent (h : Yields file f [] n v Option.none n) (hg : Yields file g us n w u n'') :
    Yields file (.seq f g) us n (v, w) u n'' := .seq h hg

/-- An optional part that is left out. -/
theorem skip (h : Yields file g us n w u n'') :
    Yields file (.seq (.opt f) g) us n (Option.none, w) u n'' := .absent .none h

/-- A repetition without parts. -/
theorem empty (h : Yields file g us n w u n'') :
    Yields file (.seq (.star f) g) us n ([], w) u n'' := .absent .nil h

/-- A part stands for a sequence of one. -/
theorem trim (h : Yields file f ts n v s n') :
    Yields file f (ts ++ []) n v (Span.join s Option.none) n' := by
  rw [List.append_nil, join_none]
  exact h

end Yields
end Starlark.Reference
