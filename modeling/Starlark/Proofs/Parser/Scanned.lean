import Starlark.Proofs.Lexer.Phrase
import Starlark.Proofs.Parser.Complete

/-! # A printed line is scanned and accepted

The scanner looks only for what the automaton can use. So where the tokens of a printed line are
those of a derivation, each of them is looked for when its turn comes, and the parse of the line
is that derivation.
-/
namespace Starlark

/-- The tokens among some marks, which begin at a point. -/
def placed : Point → List Mark → List Token
  | _, [] => []
  | p, .token kind text :: ms => ⟨kind, text, ⟨p, p.after text⟩⟩ :: placed (p.after text) ms
  | p, .blank :: ms => placed (p.after [' ']) ms

def Mark.lineBreak : Mark := .token .newline ['\n']

namespace Scan

theorem next_token {kind : Terminal} {text rest : List Char} {candidates : List Terminal}
    (hread : Reads kind text rest) (hne : text ≠ []) (h : kind ∈ candidates) (fuel : Nat)
    (start : Point) : next candidates (fuel + 1) start (text ++ rest) =
      .token ⟨kind, text, ⟨start, start.after text⟩⟩ rest := by
  have hempty : ¬ (text ++ rest).isEmpty = true := by simp [hne]
  rw [next, if_neg hempty, hread candidates h]

theorem next_blank {rest : List Char} (h : Pattern.Avoids Pattern.isBlank rest)
    (candidates : List Terminal) (fuel : Nat) (start : Point) :
    next candidates (fuel + 1) start (' ' :: rest) =
      next candidates fuel (start.after [' ']) rest := by
  rw [next, if_neg (by simp), match?_blank candidates h]

end Scan

namespace Parser
open Automaton

/-- A token that is shifted was expected. -/
theorem mem_candidates_of_shift {stack stack' : Stack} {t : Token}
    (h : shift stack t = .ok stack') : t.kind ∈ candidates stack := by
  rw [candidates]
  rw [shift, feed, Nat.mul_add, advance] at h
  cases haction : action? (top stack) t.kind with
  | none =>
    rw [haction] at h
    cases h
  | some action =>
    obtain ⟨q, hnext, -⟩ | ⟨p, hreduction, hfollow, -⟩ := action?_cases haction
    · exact List.mem_append_left _ (List.mem_map_of_mem (mem_of_lookup hnext))
    · rw [expected, hreduction]
      exact List.mem_append_right _ hfollow

/-- What becomes of a parse with what the scanner found. -/
def resume (fuel : Nat) (m : Progress) : Scan.Result → Except SyntaxError (Tree (.n .file))
  | .finished => m.finish
  | .stuck place rest => .error (stuckError (candidates m.stack) place rest)
  | .token t rest => do
    let m' ← m.take t
    run fuel m' t.span.stop rest

theorem run_succ (fuel : Nat) (m : Progress) (start : Point) (cs : List Char) :
    run (fuel + 1) m start cs =
      resume fuel m (Scan.next (candidates m.stack) (cs.length + 1) start cs) := rfl

theorem run_nil (fuel : Nat) (m : Progress) (start : Point) : run fuel m start [] = m.finish := by
  cases fuel <;> rfl

/-- The tokens are fed to a stack, and then the end of input. -/
def Feeds (stack : Stack) (ts : List Token) (tree : Tree (.n .file)) : Prop :=
  ∀ last : Token, last.kind = .endOfInput →
    (do
      let stack ← ts.foldlM shift stack
      accept stack last) = .ok tree

theorem Feeds.shift {stack : Stack} {t : Token} {ts : List Token} {tree : Tree (.n .file)}
    (h : Feeds stack (t :: ts) tree) :
    ∃ stack', Parser.shift stack t = .ok stack' ∧ Feeds stack' ts tree := by
  have hlast := h (beginning.mark .endOfInput) rfl
  rw [List.foldlM_cons] at hlast
  cases hshift : Parser.shift stack t with
  | error e =>
    rw [hshift] at hlast
    cases hlast
  | ok stack' =>
    refine ⟨stack', rfl, fun last hkind => ?_⟩
    have hrest := h last hkind
    rwa [List.foldlM_cons, hshift] at hrest

/-- A line break outside brackets is fed, and without a margin opens or closes no level. -/
theorem take_lineBreak {m : Progress} {t : Token} {stack' : Stack} (hkind : t.kind = .newline)
    (hwidth : indentWidth t.text = 0) (hlayout : m.layout = .initial)
    (hshift : shift m.stack t = .ok stack') : m.take t = .ok ⟨stack', .initial, t, t⟩ := by
  have hbrackets : ¬ 0 < m.layout.brackets := by
    rw [hlayout]
    exact Nat.lt_irrefl 0
  have henter : Layout.enter Layout.initial.levels 0 t = ([], [0], true) := rfl
  rw [Progress.take, if_pos hkind, if_neg hbrackets, Progress.lineBreak, hlayout, hwidth, henter]
  dsimp only
  rw [List.foldlM_cons, hshift]
  rfl

/-- A line break outside brackets ends the parse. -/
theorem resume_lineBreak {m : Progress} {start : Point} {tree : Tree (.n .file)}
    (hlayout : m.layout = .initial) (hfeeds : Feeds m.stack (placed start [.lineBreak]) tree)
    (fuel spare : Nat) :
    resume fuel m (Scan.next (candidates m.stack) (spare + 1) start ['\n']) = .ok tree := by
  obtain ⟨stack', hshift, hfeeds⟩ := hfeeds.shift
  rw [Scan.next, if_neg (by simp), Scan.match?_newline]
  dsimp only
  rw [resume, take_lineBreak rfl rfl hlayout hshift]
  dsimp only [bind, Except.bind]
  rw [run_nil]
  exact hfeeds _ rfl

/-- The rest of a line is parsed as its tokens are fed. -/
theorem resume_placed {ms : List Mark} (hlegible : Legible ms ['\n']) {fuel spare : Nat}
    {m : Progress} {start : Point} {tree : Tree (.n .file)}
    (hlayout : ms.foldl Mark.track m.layout = .initial)
    (hfeeds : Feeds m.stack (placed start (ms ++ [Mark.lineBreak])) tree)
    (hspare : ms.length < spare) (hfuel : ms.length ≤ fuel) :
    resume fuel m (Scan.next (candidates m.stack) spare start (sources ms ++ ['\n'])) =
      .ok tree := by
  induction ms generalizing fuel spare m start with
  | nil =>
    obtain ⟨spare, rfl⟩ := Nat.exists_eq_add_of_lt hspare
    exact resume_lineBreak hlayout hfeeds _ _
  | cons mark ms ih =>
    rw [List.length_cons] at hspare hfuel
    obtain ⟨spare, rfl⟩ : ∃ k, spare = k + 1 := ⟨spare - 1, by omega⟩
    obtain ⟨hmark, hlegible⟩ := hlegible
    rw [sources_cons, List.append_assoc]
    cases mark with
    | blank =>
      rw [Mark.source, List.singleton_append, Scan.next_blank hmark]
      exact ih hlegible hlayout hfeeds (by omega) (by omega)
    | token kind text =>
      obtain ⟨⟨hne, -, hnewline⟩, hread⟩ := hmark
      obtain ⟨fuel, rfl⟩ : ∃ k, fuel = k + 1 := ⟨fuel - 1, by omega⟩
      obtain ⟨stack', hshift, hfeeds⟩ := hfeeds.shift
      have hlength := hlegible.length_le
      have htake : m.take ⟨kind, text, ⟨start, start.after text⟩⟩ = .ok ⟨stack',
          m.layout.track kind, ⟨kind, text, ⟨start, start.after text⟩⟩,
          ⟨kind, text, ⟨start, start.after text⟩⟩⟩ := by
        rw [Progress.take, if_neg hnewline, hshift]
        rfl
      rw [Mark.source, Scan.next_token hread hne (mem_candidates_of_shift hshift), resume, htake]
      dsimp only [bind, Except.bind]
      rw [run_succ]
      refine ih hlegible hlayout hfeeds ?_ (by omega)
      rw [List.length_append]
      omega

/-- A line whose tokens are those of a derivation is parsed as that derivation. -/
theorem derive_placed {ms : List Mark} (h : Phrase ms) {tree : Tree (.n .file)}
    (htokens : tree.tokens = placed ⟨1, 1⟩ (ms ++ [Mark.lineBreak])) :
    derive (sources ms) = .ok tree := by
  have hcloses : Scan.Closes ['\n'] := by
    intro c hc
    cases hc
    decide
  have hlegible := h.legible _ hcloses
  have hlength := hlegible.length_le
  have hline : endLine (sources ms) = sources ms ++ ['\n'] := by
    rw [endLine, if_neg]
    exact fun hlast => hlegible.not_mem (List.mem_of_getLast? hlast)
  have hfeeds : Feeds Progress.initial.stack (placed ⟨1, 1⟩ (ms ++ [Mark.lineBreak])) tree := by
    intro last hlast
    rw [← htokens]
    exact parseTokens_tokens tree last hlast
  rw [derive, hline, run_succ]
  refine resume_placed hlegible (h.balanced _) hfeeds ?_ ?_
  · rw [List.length_append]
    omega
  · rw [List.length_append]
    omega

end Parser
end Starlark
