import Starlark.Grammar.Meaning
import Starlark.Parser.Parse

/-! # Accepted trees derive what was fed

No step of the automaton loses or invents a token: the trees on the stack have at their leaves
the tokens fed so far, whatever the tables say. A tree that the parser returns therefore derives
the tokens that the scanner and the layout rule handed over.
-/
namespace Starlark
namespace Automaton

/-- The tokens under a stack, from the bottom up. -/
def fed (stack : Stack) : List Token := stack.reverse.flatMap fun c => c.tree.tokens

@[simp] theorem fed_nil : fed [] = [] := rfl

theorem fed_append (top rest : Stack) : fed (top ++ rest) = fed rest ++ fed top := by
  simp only [fed, List.reverse_append, List.flatMap_append]

@[simp] theorem fed_cons (c : Cell) (rest : Stack) : fed (c :: rest) = fed rest ++ c.tree.tokens := by
  simp only [fed, List.reverse_cons, List.flatMap_append, List.flatMap_singleton]

theorem tokens_of_forest? {ss : List Symbol} {cs : List Cell} {xs : Forest ss}
    (h : forest? ss cs = some xs) : xs.tokens = cs.flatMap fun c => c.tree.tokens := by
  induction ss generalizing cs with
  | nil =>
    cases cs with
    | nil =>
      cases xs
      rfl
    | cons c cs => cases h
  | cons s ss ih =>
    cases cs with
    | nil => cases h
    | cons c cs =>
      obtain ⟨state, symbol, tree⟩ := c
      rw [forest?] at h
      by_cases hs : symbol = s
      · subst hs
        rw [dif_pos rfl, Option.map_eq_some_iff] at h
        obtain ⟨ys, hys, rfl⟩ := h
        simp only [Forest.tokens, ih hys, List.flatMap_cons]
      · rw [dif_neg hs] at h
        cases h

theorem symbols_of_forest? {ss : List Symbol} {cs : List Cell} {xs : Forest ss}
    (h : forest? ss cs = some xs) : cs.map Cell.symbol = ss := by
  induction ss generalizing cs with
  | nil =>
    cases cs with
    | nil => rfl
    | cons c cs => cases h
  | cons s ss ih =>
    cases cs with
    | nil => cases h
    | cons c cs =>
      rw [forest?] at h
      split at h
      · rename_i hs
        obtain ⟨ys, hys, -⟩ := Option.map_eq_some_iff.mp h
        rw [List.map_cons, ih hys, hs]
      · cases h

theorem reduce?_eq_some {p : Production} {stack stack' : Stack} (h : reduce? p stack = some stack') :
    ∃ children state, forest? p.rhs (stack.take p.rhs.length).reverse = some children ∧
      goto? (top (stack.drop p.rhs.length)) p.lhs = some state ∧
      stack' = ⟨state, .n p.lhs, .node p children⟩ :: stack.drop p.rhs.length := by
  simp only [reduce?] at h
  split at h
  · rename_i children state hchildren hstate
    cases h
    exact ⟨children, state, hchildren, hstate, rfl⟩
  · cases h

theorem fed_of_reduce? {p : Production} {stack stack' : Stack}
    (h : reduce? p stack = some stack') : fed stack' = fed stack := by
  obtain ⟨children, state, hchildren, -, rfl⟩ := reduce?_eq_some h
  have hsplit : fed stack = fed (stack.take p.rhs.length ++ stack.drop p.rhs.length) := by
    rw [List.take_append_drop]
  rw [hsplit, fed_append, fed_cons, Tree.tokens, tokens_of_forest? hchildren]
  rfl

/-- What an outcome has at its leaves, when `before` was fed before the token. -/
def Outcome.Keeps (before : List Token) (t : Token) : Outcome → Prop
  | .shifted stack => fed stack = before ++ [t]
  | .accepted tree => tree.tokens = before
  | .refused _ => True

theorem advance_keeps (fuel : Nat) (stack : Stack) (t : Token) :
    (advance fuel stack t).Keeps (fed stack) t := by
  induction fuel generalizing stack with
  | zero => trivial
  | succ fuel ih =>
    rw [advance]
    split
    · trivial
    · simp only [Outcome.Keeps, fed_cons, Tree.tokens]
    · rename_i p _
      split
      · trivial
      · rename_i hreduce
        have hfed := fed_of_reduce? hreduce
        simpa only [Outcome.Keeps, fed_cons, fed_nil, List.nil_append] using hfed
      · rename_i stack' _ hreduce
        rw [← fed_of_reduce? hreduce]
        exact ih stack'

end Automaton

namespace Parser
open Automaton

theorem feed_of_shift_ok {stack stack' : Stack} {t : Token} (h : shift stack t = .ok stack') :
    feed stack t = .shifted stack' := by
  rw [shift] at h
  split at h
  · next hfeed =>
    cases h
    exact hfeed
  · cases h
  · cases h

theorem fed_of_shift {stack stack' : Stack} {t : Token} (h : shift stack t = .ok stack') :
    fed stack' = fed stack ++ [t] := by
  have hkeeps := advance_keeps (24 * (stack.length + 2)) stack t
  have hfeed := feed_of_shift_ok h
  rw [feed] at hfeed
  rwa [hfeed] at hkeeps

theorem tokens_of_accept {stack : Stack} {t : Token} {tree : Tree (.n .file)}
    (h : accept stack t = .ok tree) : tree.tokens = fed stack := by
  have hkeeps := advance_keeps (24 * (stack.length + 2)) stack t
  simp only [accept, feed] at h
  split at h
  · rename_i hfeed
    cases h
    rwa [hfeed] at hkeeps
  · cases h
  · cases h

theorem fed_of_shifts {ts : List Token} {stack stack' : Stack}
    (h : ts.foldlM shift stack = .ok stack') : fed stack' = fed stack ++ ts := by
  induction ts generalizing stack with
  | nil =>
    cases h
    rw [List.append_nil]
  | cons t ts ih =>
    rw [List.foldlM_cons] at h
    cases hshift : shift stack t with
    | error e =>
      rw [hshift] at h
      cases h
    | ok next =>
      rw [hshift] at h
      rw [ih h, fed_of_shift hshift, List.append_assoc, List.singleton_append]

/-- The tokens that a scanned token hands to the automaton: a line break is lost inside brackets
and brings its marks outside. -/
def Progress.handed (m : Progress) (t : Token) : List Token :=
  if t.kind = .newline then
    if 0 < m.layout.brackets then [] else t :: (Layout.enter m.layout.levels (indentWidth t.text) t).1
  else [t]

/-- The marks handed over at the end of input. -/
def Progress.closing (m : Progress) : List Token := m.layout.finish m.previous

/-- The tokens that the rest of a source hands to the automaton before the end of input. -/
def handed : Nat → Progress → Point → List Char → List Token
  | 0, m, _, _ => m.closing
  | fuel + 1, m, start, cs =>
    match Scan.next (candidates m.stack) (cs.length + 1) start cs with
    | .finished => m.closing
    | .stuck _ _ => []
    | .token t rest =>
      m.handed t ++
        match m.take t with
        | .ok m' => handed fuel m' t.span.stop rest
        | .error _ => []

/-- The tokens that a source hands to the automaton before the end of input. -/
def handedTokens (cs : List Char) : List Token :=
  let text := endLine cs
  handed (text.length + 1) .initial ⟨1, 1⟩ text

/-- Everything that a scanned token can do. -/
theorem take_cases {m m' : Progress} {t : Token} (h : m.take t = .ok m') :
    m'.previous = t ∧
    ((t.kind = .newline ∧ m.layout.brackets ≠ 0 ∧ m.handed t = [] ∧ m'.stack = m.stack ∧
      m'.layout = m.layout) ∨
    (t.kind = .newline ∧ m.layout.brackets = 0 ∧ ∃ marks levels,
      Layout.enter m.layout.levels (indentWidth t.text) t = (marks, levels, true) ∧
      m.handed t = t :: marks ∧ (t :: marks).foldlM shift m.stack = .ok m'.stack ∧
      m'.layout = ⟨levels, 0⟩) ∨
    (t.kind ≠ .newline ∧ m.handed t = [t] ∧ shift m.stack t = .ok m'.stack ∧
      m'.layout = m.layout.track t.kind)) := by
  by_cases hline : t.kind = .newline
  · rw [Progress.take, if_pos hline] at h
    rw [Progress.handed, if_pos hline]
    by_cases hbrackets : 0 < m.layout.brackets
    · rw [if_pos hbrackets] at h
      cases h
      exact ⟨rfl, .inl ⟨hline, Nat.ne_of_gt hbrackets, if_pos hbrackets, rfl, rfl⟩⟩
    · have hzero : m.layout.brackets = 0 := Nat.eq_zero_of_not_pos hbrackets
      rw [if_neg hbrackets, Progress.lineBreak] at h
      rw [if_neg hbrackets]
      cases henter : Layout.enter m.layout.levels (indentWidth t.text) t with
      | mk marks opened =>
        rw [henter] at h
        dsimp only at h
        cases hshifts : (t :: marks).foldlM shift m.stack with
        | error e =>
          rw [hshifts] at h
          cases h
        | ok stack =>
          rw [hshifts] at h
          simp only [bind, Except.bind] at h
          split at h
          · next hmet =>
            cases h
            refine ⟨rfl, .inr (.inl ⟨hline, hzero, marks, opened.1, ?_, rfl, hshifts, ?_⟩)⟩
            · rw [← hmet]
            · rw [hzero]
          · cases h
  · rw [Progress.take, if_neg hline] at h
    cases hshift : shift m.stack t with
    | error e =>
      rw [hshift] at h
      cases h
    | ok stack =>
      rw [hshift] at h
      cases h
      exact ⟨rfl, .inr (.inr ⟨hline, if_neg hline, rfl, rfl⟩)⟩

theorem shifts_of_take {m m' : Progress} {t : Token} (h : m.take t = .ok m') :
    (m.handed t).foldlM shift m.stack = .ok m'.stack := by
  obtain ⟨-, ⟨-, -, hhanded, hstack, -⟩ | ⟨-, -, marks, levels, -, hhanded, hshifts, -⟩ |
    ⟨-, hhanded, hshift, -⟩⟩ := take_cases h
  · rw [hhanded, hstack]
    rfl
  · rw [hhanded, hshifts]
  · rw [hhanded, List.foldlM_cons, hshift]
    rfl

theorem tokens_of_finish {m : Progress} {tree : Tree (.n .file)} (h : m.finish = .ok tree) :
    tree.tokens = fed m.stack ++ m.closing := by
  rw [Progress.finish] at h
  cases hshifts : (m.layout.finish m.previous).foldlM shift m.stack with
  | error e =>
    rw [hshifts] at h
    cases h
  | ok stack =>
    rw [hshifts] at h
    rw [tokens_of_accept h, fed_of_shifts hshifts, Progress.closing]

section Step
variable {fuel : Nat} {m m₁ : Progress} {start : Point} {cs rest : List Char} {t : Token}
  {tree : Tree (.n .file)}
  (hnext : Scan.next (candidates m.stack) (cs.length + 1) start cs = .token t rest)
include hnext

theorem run_of_token (htake : m.take t = .ok m₁) :
    run (fuel + 1) m start cs = run fuel m₁ t.span.stop rest := by
  rw [run, hnext]
  dsimp only
  rw [htake]
  rfl

theorem handed_of_token (htake : m.take t = .ok m₁) :
    handed (fuel + 1) m start cs = m.handed t ++ handed fuel m₁ t.span.stop rest := by
  rw [handed, hnext]
  dsimp only
  rw [htake]

theorem exists_take (h : run (fuel + 1) m start cs = .ok tree) : ∃ m₁, m.take t = .ok m₁ := by
  rw [run, hnext] at h
  cases htake : m.take t with
  | ok m₁ => exact ⟨m₁, rfl⟩
  | error e =>
    dsimp only at h
    rw [htake] at h
    cases h

end Step

theorem tokens_of_run {fuel : Nat} {m : Progress} {start : Point} {cs : List Char}
    {tree : Tree (.n .file)} (h : run fuel m start cs = .ok tree) :
    tree.tokens = fed m.stack ++ handed fuel m start cs := by
  induction fuel generalizing m start cs with
  | zero => exact tokens_of_finish h
  | succ fuel ih =>
    cases hnext : Scan.next (candidates m.stack) (cs.length + 1) start cs with
    | finished =>
      rw [run, hnext] at h
      rw [handed, hnext]
      exact tokens_of_finish h
    | stuck place rest =>
      rw [run, hnext] at h
      cases h
    | token t rest =>
      obtain ⟨m', htake⟩ := exists_take hnext h
      rw [run_of_token hnext htake] at h
      rw [handed_of_token hnext htake, ih h, fed_of_shifts (shifts_of_take htake),
        List.append_assoc]

theorem tokens_of_derive {cs : List Char} {tree : Tree (.n .file)} (h : derive cs = .ok tree) :
    tree.tokens = handedTokens cs := by
  have htokens := tokens_of_run h
  rwa [Progress.initial, fed_nil, List.nil_append] at htokens

end Parser
/-- What a parse returns is the meaning of a derivation. -/
theorem tree_of_parseStatements {text file : String} {firstId : Nat} {ss : List Stmt}
    {notes : Notes} (h : parseStatements text file firstId = (.ok ss, notes)) :
    ∃ tree span, Parser.derive text.toList = .ok tree ∧
      (tree.build file).run.run ⟨firstId, [], []⟩ = (.ok (ss, span), notes) := by
  rw [parseStatements] at h
  cases hderive : Parser.derive text.toList with
  | error e =>
    rw [hderive] at h
    cases h
  | ok tree =>
    rw [hderive] at h
    dsimp only at h
    rcases hbuild : (tree.build file).run.run ⟨firstId, [], []⟩ with ⟨result, notes'⟩
    rw [hbuild] at h
    cases result with
    | error e => cases h
    | ok value =>
      cases h
      exact ⟨tree, value.2, rfl, hbuild⟩

end Starlark
