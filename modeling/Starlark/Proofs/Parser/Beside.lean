import Mathlib.Data.List.Forall2
import Starlark.Proofs.Parser.Parallel
import Starlark.Proofs.Parser.Standing

/-! # Parses side by side

Two parses on parallel stacks, with the same levels open, stay side by side as long as they take
tokens of the same kinds, and line breaks of the same widths. What they hand to the automaton
differs by the places of the tokens only.
-/
namespace Starlark

/-- The same token at another place. Nothing but its kind matters of a mark or a line break. -/
structure Token.Moved (f : Point → Point) (t t' : Token) : Prop where
  kind : t'.kind = t.kind
  text : t.kind ∉ Layout.kinds → t'.text = t.text
  start : t.kind ∉ Layout.kinds → t'.span.start = f t.span.start

theorem Token.Moved.of_layout {f : Point → Point} {t t' : Token} (hkind : t'.kind = t.kind)
    (h : t.kind ∈ Layout.kinds) : t.Moved f t' :=
  ⟨hkind, fun hnot => absurd h hnot, fun hnot => absurd h hnot⟩

theorem map_kind_of_moved {f : Point → Point} {ts ts' : List Token}
    (h : List.Forall₂ (Token.Moved f) ts ts') : ts'.map Token.kind = ts.map Token.kind := by
  induction h with
  | nil => rfl
  | cons ht _ ih => rw [List.map_cons, List.map_cons, ht.kind, ih]

namespace Parser
open Automaton

theorem shift_parallel {stack stack' s : Stack} {t t' : Token}
    (h : Parallel (outline stack) (outline stack')) (hkind : t'.kind = t.kind)
    (hshift : shift stack t = .ok s) :
    ∃ s', shift stack' t' = .ok s' ∧ Parallel (outline s) (outline s') := by
  have hparallel := h.feed hkind
  rw [feed_of_shift_ok hshift] at hparallel
  cases hfeed : feed stack' t' with
  | shifted s' =>
    rw [hfeed] at hparallel
    exact ⟨s', by rw [shift, hfeed], hparallel⟩
  | accepted tree =>
    rw [hfeed] at hparallel
    cases hparallel
  | refused state =>
    rw [hfeed] at hparallel
    cases hparallel

theorem accept_parallel {stack stack' : Stack} {t t' : Token} {tree : Tree (.n .file)}
    (h : Parallel (outline stack) (outline stack')) (hkind : t'.kind = t.kind)
    (haccept : accept stack t = .ok tree) : ∃ tree', accept stack' t' = .ok tree' := by
  have hparallel := h.feed hkind
  rw [accept] at haccept
  cases hfeed : feed stack t with
  | accepted tree =>
    rw [hfeed] at hparallel
    cases hfeed' : feed stack' t' with
    | accepted tree' => exact ⟨tree', by rw [accept, hfeed']⟩
    | shifted s' =>
      rw [hfeed'] at hparallel
      cases hparallel
    | refused state =>
      rw [hfeed'] at hparallel
      cases hparallel
  | shifted s =>
    rw [hfeed] at haccept
    cases haccept
  | refused state =>
    rw [hfeed] at haccept
    cases haccept

theorem shifts_parallel {stack stack' s : Stack} {ts ts' : List Token}
    (h : Parallel (outline stack) (outline stack'))
    (hkinds : ts'.map Token.kind = ts.map Token.kind) (hshifts : ts.foldlM shift stack = .ok s) :
    ∃ s', ts'.foldlM shift stack' = .ok s' ∧ Parallel (outline s) (outline s') := by
  induction ts generalizing stack stack' ts' with
  | nil =>
    obtain rfl : ts' = [] := List.map_eq_nil_iff.mp hkinds
    cases hshifts
    exact ⟨stack', rfl, h⟩
  | cons t ts ih =>
    cases ts' with
    | nil => cases hkinds
    | cons t' ts' =>
      obtain ⟨hkind, hkinds⟩ := List.cons.inj hkinds
      rw [List.foldlM_cons] at hshifts
      cases hshift : shift stack t with
      | error e =>
        rw [hshift] at hshifts
        cases hshifts
      | ok next =>
        rw [hshift] at hshifts
        obtain ⟨next', hshift', hnext⟩ := shift_parallel h hkind hshift
        obtain ⟨s', hshifts', hs⟩ := ih hnext hkinds hshifts
        refine ⟨s', ?_, hs⟩
        rw [List.foldlM_cons, hshift']
        exact hshifts'

/-- Two parses side by side. -/
structure Progress.Beside (m m' : Progress) : Prop where
  stack : Parallel (outline m.stack) (outline m'.stack)
  layout : m'.layout = m.layout

/-- The marks of a line break depend on its width, but for their places. -/
theorem enter_kinds (levels : List Nat) (width : Nat) (t t' : Token) :
    (Layout.enter levels width t').1.map Token.kind =
        (Layout.enter levels width t).1.map Token.kind ∧
      (Layout.enter levels width t').2 = (Layout.enter levels width t).2 ∧
      ∀ u ∈ (Layout.enter levels width t).1, u.kind ∈ Layout.kinds := by
  refine ⟨?_, ?_, fun u hu => ?_⟩
  · rw [Layout.enter, Layout.enter]
    split
    · rfl
    · simp only [List.map_map]
      rfl
  · rw [Layout.enter, Layout.enter]
    split <;> rfl
  · obtain ⟨kind, hmark, rfl⟩ := mem_enter hu
    exact mark_mem_kinds kind hmark

theorem moved_of_kinds {f : Point → Point} {ts ts' : List Token}
    (hkinds : ts'.map Token.kind = ts.map Token.kind) (h : ∀ t ∈ ts, t.kind ∈ Layout.kinds) :
    List.Forall₂ (Token.Moved f) ts ts' := by
  induction ts generalizing ts' with
  | nil =>
    obtain rfl : ts' = [] := List.map_eq_nil_iff.mp hkinds
    exact .nil
  | cons t ts ih =>
    cases ts' with
    | nil => cases hkinds
    | cons t' ts' =>
      obtain ⟨hkind, hkinds⟩ := List.cons.inj hkinds
      rw [List.forall_mem_cons] at h
      exact .cons (.of_layout hkind h.1) (ih hkinds h.2)

namespace Progress.Beside
variable {m m' m₁ : Progress} {t t' : Token} {f : Point → Point}

/-- What two parses hand over for a token. -/
theorem handed (h : m.Beside m') (hmoved : t.Moved f t')
    (hwidth : t.kind = .newline → indentWidth t'.text = indentWidth t.text) :
    List.Forall₂ (Token.Moved f) (m.handed t) (m'.handed t') := by
  rw [Progress.handed, Progress.handed, hmoved.kind, h.layout]
  split
  · next hline =>
    split
    · exact .nil
    · obtain ⟨hkinds, -, hmarks⟩ := enter_kinds m.layout.levels (indentWidth t.text) t t'
      rw [hwidth hline]
      exact .cons hmoved (moved_of_kinds hkinds hmarks)
  · exact .cons hmoved .nil

/-- A parse takes what the one beside it takes. -/
theorem take (h : m.Beside m') (hkind : t'.kind = t.kind)
    (hwidth : t.kind = .newline → indentWidth t'.text = indentWidth t.text)
    (htake : m.take t = .ok m₁) : ∃ m₁', m'.take t' = .ok m₁' ∧ m₁.Beside m₁' := by
  rw [Progress.take, hkind, h.layout]
  obtain ⟨-, ⟨hline, hbrackets, -, hstack, hlayout⟩ | ⟨hline, hbrackets, marks, levels, henter, -,
    hshifts, hlayout⟩ | ⟨hline, -, hshift, hlayout⟩⟩ := take_cases htake
  · rw [if_pos hline, if_pos (Nat.pos_of_ne_zero hbrackets)]
    exact ⟨_, rfl, hstack ▸ h.stack, hlayout.symm⟩
  · rw [if_pos hline, if_neg (Nat.not_lt.mpr (Nat.le_of_eq hbrackets)), lineBreak, hwidth hline,
      h.layout]
    obtain ⟨hkinds, hrest, -⟩ := enter_kinds m.layout.levels (indentWidth t.text) t t'
    rw [henter] at hkinds hrest
    rcases hparts : Layout.enter m.layout.levels (indentWidth t.text) t' with ⟨marks', parts⟩
    rw [hparts] at hkinds hrest
    obtain rfl : parts = (levels, true) := hrest
    have hall : (t' :: marks').map Token.kind = (t :: marks).map Token.kind := by
      rw [List.map_cons, List.map_cons, hkind, hkinds]
    obtain ⟨s', hshifts', hs⟩ := shifts_parallel h.stack hall hshifts
    dsimp only
    rw [hshifts']
    refine ⟨_, rfl, hs, ?_⟩
    rw [hlayout, ← hbrackets]
  · obtain ⟨s', hshift', hs⟩ := shift_parallel h.stack hkind hshift
    rw [if_neg hline, hshift']
    exact ⟨_, rfl, hs, hlayout.symm⟩

theorem closing (h : m.Beside m') : List.Forall₂ (Token.Moved f) m.closing m'.closing := by
  refine moved_of_kinds ?_ fun t ht => ?_
  · rw [Progress.closing, Progress.closing, Layout.finish, Layout.finish, h.layout]
    simp only [List.map_map]
    rfl
  · obtain ⟨level, -, rfl⟩ := List.mem_map.mp ht
    exact dedent_mem_kinds

theorem finish {tree : Tree (.n .file)} (h : m.Beside m') (hfinish : m.finish = .ok tree) :
    ∃ tree', m'.finish = .ok tree' := by
  rw [Progress.finish] at hfinish ⊢
  cases hshifts : (m.layout.finish m.previous).foldlM shift m.stack with
  | error e =>
    rw [hshifts] at hfinish
    cases hfinish
  | ok stack =>
    rw [hshifts] at hfinish
    obtain ⟨s', hshifts', hs⟩ :=
      shifts_parallel h.stack (map_kind_of_moved (f := id) h.closing) hshifts
    have hkind : ((m'.closing.getLastD m'.fed).mark .endOfInput).kind =
        (((m.layout.finish m.previous).getLastD m.fed).mark .endOfInput).kind := rfl
    obtain ⟨tree', haccept⟩ := accept_parallel hs hkind hfinish
    rw [Progress.closing] at hshifts' haccept
    rw [hshifts']
    exact ⟨tree', haccept⟩

end Progress.Beside
end Parser
end Starlark
