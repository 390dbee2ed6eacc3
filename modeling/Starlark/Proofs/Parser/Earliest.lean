import Starlark.Proofs.Lexer.Matched
import Starlark.Proofs.Parser.Scanned
import Starlark.Proofs.Parser.Standing
import Starlark.Proofs.Parser.Viable
import Starlark.Proofs.Reference.Derived

/-! # Errors at the earliest token

The automaton shifts a token only if some file goes on with it, and refuses one only if no file
does. Nor does the scanner find a token that the automaton could have used but did not look for. So
a syntax error is at the first token with which no file begins like the source.
-/
namespace Starlark
open Reference

namespace Parser
open Automaton

/-- The automaton cannot go on from a stack with a token. -/
def Refuses (stack : Stack) (t : Token) : Prop :=
  if t.kind = .endOfInput then ∀ tree, accept stack t ≠ .ok tree
  else ∀ stack', shift stack t ≠ .ok stack'

theorem error_of_shift {stack : Stack} {t : Token} {e : SyntaxError}
    (h : shift stack t = .error e) : ∃ expected, e = .unexpected t expected := by
  rw [shift] at h
  split at h
  · cases h
  · cases h
    exact ⟨_, rfl⟩
  · cases h
    exact ⟨_, rfl⟩

theorem error_of_accept {stack : Stack} {t : Token} {e : SyntaxError}
    (h : accept stack t = .error e) : ∃ expected, e = .unexpected t expected := by
  rw [accept] at h
  split at h
  · cases h
  · cases h
    exact ⟨_, rfl⟩
  · cases h
    exact ⟨_, rfl⟩

/-- Where some tokens are not all shifted, one of them is refused. -/
theorem exists_refused {stack : Stack} {ts : List Token} {e : SyntaxError}
    (h : ts.foldlM shift stack = .error e) :
    ∃ us t vs stack', ts = us ++ t :: vs ∧ us.foldlM shift stack = .ok stack' ∧
      shift stack' t = .error e := by
  induction ts generalizing stack with
  | nil => cases h
  | cons t ts ih =>
    rw [List.foldlM_cons] at h
    cases hshift : shift stack t with
    | error e' =>
      rw [hshift] at h
      cases h
      exact ⟨[], t, ts, stack, rfl, rfl, hshift⟩
    | ok next =>
      rw [hshift] at h
      obtain ⟨us, u, vs, stack', rfl, hus, hu⟩ := ih h
      refine ⟨t :: us, u, vs, stack', rfl, ?_, hu⟩
      rw [List.foldlM_cons, hshift]
      exact hus

/-! ## What the automaton shifts and refuses -/

theorem kinds_of_shifts {stack stack' : Stack} {ts : List Token} (hlinked : Linked stack)
    (h : ts.foldlM shift stack = .ok stack') : ∀ t ∈ ts, t.kind ≠ .endOfInput := by
  induction ts generalizing stack with
  | nil => exact List.forall_mem_nil _
  | cons t ts ih =>
    obtain ⟨next, hshift, hts⟩ := shifts_cons.mp h
    obtain ⟨hnext, state, htop⟩ := hlinked.advance (feed_of_shift_ok hshift)
    exact List.forall_mem_cons.mpr ⟨ne_endOfInput_of_shift htop, ih hnext hts⟩

/-- The tokens of a file are shifted, and then the end of input is accepted. -/
theorem shifts_of_mem_lang {ts : List Token} (h : ts.map Token.kind ∈ (Symbol.n .file).lang)
    (last : Token) (hlast : last.kind = .endOfInput) :
    ∃ stack tree, ts.foldlM shift [] = .ok stack ∧ accept stack last = .ok tree := by
  obtain ⟨x, hx⟩ := h
  obtain ⟨tree, rfl⟩ := x.exists_tokens hx.symm
  have hparse := parseTokens_tokens tree last hlast
  rw [parseTokens] at hparse
  cases hshifts : tree.tokens.foldlM shift [] with
  | error e =>
    rw [hshifts] at hparse
    cases hparse
  | ok stack =>
    rw [hshifts] at hparse
    exact ⟨stack, tree, rfl, hparse⟩

theorem endOfInput_not_mem {w : List Terminal} (h : w ∈ (Symbol.n .file).lang) :
    Terminal.endOfInput ∉ w := by
  obtain ⟨x, rfl⟩ := h
  obtain ⟨stack, tree, hshifts, -⟩ :=
    shifts_of_mem_lang ⟨x, rfl⟩ (beginning.mark .endOfInput) rfl
  intro hmem
  obtain ⟨t, ht, hkind⟩ := List.mem_map.mp hmem
  exact kinds_of_shifts linked_nil hshifts t ht hkind

/-- No file goes on with a token that is refused. -/
theorem Refuses.not_prefix {ts : List Token} {stack : Stack} {t : Token}
    (hts : ts.foldlM shift [] = .ok stack) (h : Refuses stack t) {w : List Terminal}
    (hw : w ∈ (Symbol.n .file).lang) :
    ¬ ts.map Token.kind ++ [t.kind] <+: w ++ [.endOfInput] := by
  rintro ⟨others, hsplit⟩
  rw [List.append_assoc, List.singleton_append] at hsplit
  by_cases hend : t.kind = .endOfInput
  · rw [Refuses, if_pos hend] at h
    have hw' : ts.map Token.kind = w := by
      have hnot := endOfInput_not_mem hw
      rw [hend] at hsplit
      rcases List.append_eq_append_iff.mp hsplit with ⟨l, rfl, hl⟩ | ⟨l, hl, hl'⟩
      · cases l with
        | nil => rw [List.append_nil]
        | cons a l =>
          obtain ⟨rfl, -⟩ := List.cons.inj hl
          exact absurd (List.mem_append_right _ List.mem_cons_self) hnot
      · cases l with
        | nil => rw [hl, List.append_nil]
        | cons a l => exact absurd (congrArg List.length hl') (by simp)
    obtain ⟨stack', tree, hshifts, haccept⟩ := shifts_of_mem_lang (hw' ▸ hw) t hend
    rw [hts] at hshifts
    cases hshifts
    exact h tree haccept
  · rw [Refuses, if_neg hend] at h
    -- The sequence of terminals has the refused one before its end.
    obtain ⟨rest, rfl⟩ : ∃ rest, w = ts.map Token.kind ++ t.kind :: rest := by
      rcases List.append_eq_append_iff.mp hsplit with ⟨l, rfl, hl⟩ | ⟨l, hl, hl'⟩
      · cases l with
        | nil => exact absurd (List.cons.inj hl).1 hend
        | cons a l =>
          obtain ⟨rfl, -⟩ := List.cons.inj hl
          exact ⟨l, rfl⟩
      · cases l with
        | nil => exact absurd (List.cons.inj hl').1.symm hend
        | cons a l => exact absurd (congrArg List.length hl') (by simp)
    have hkinds : (ts ++ t :: rest.map Token.bare).map Token.kind =
        ts.map Token.kind ++ t.kind :: rest := by
      rw [List.map_append, List.map_cons, List.map_map]
      exact congrArg (fun l => _ ++ _ :: l) (List.map_id rest)
    obtain ⟨stack', tree, hshifts, -⟩ :=
      shifts_of_mem_lang (hkinds ▸ hw) (beginning.mark .endOfInput) rfl
    obtain ⟨between, hbetween, hrest⟩ := shifts_append.mp hshifts
    rw [hts] at hbetween
    cases hbetween
    obtain ⟨next, hshift, -⟩ := shifts_cons.mp hrest
    exact h next hshift

/-! ## What was taken before an error -/

/-- The tokens that the automaton shifts from a stack, up to one that it refuses. -/
def shifted : Stack → List Token → List Token
  | _, [] => []
  | stack, t :: ts =>
    match shift stack t with
    | .ok stack' => t :: shifted stack' ts
    | .error _ => []

/-- The tokens of a source that the automaton takes. -/
def consumedTokens (cs : List Char) : List Token := shifted [] (handedTokens cs)

theorem shifted_append {stack stack' : Stack} {ts us : List Token}
    (h : ts.foldlM shift stack = .ok stack') :
    shifted stack (ts ++ us) = ts ++ shifted stack' us := by
  induction ts generalizing stack with
  | nil =>
    cases h
    rfl
  | cons t ts ih =>
    obtain ⟨next, hshift, hts⟩ := shifts_cons.mp h
    rw [List.cons_append, shifted, hshift]
    exact congrArg (t :: ·) (ih hts)

theorem shifted_refused {stack stack' : Stack} {us vs : List Token} {t : Token} {e : SyntaxError}
    (hus : us.foldlM shift stack = .ok stack') (ht : shift stack' t = .error e) :
    shifted stack (us ++ t :: vs) = us := by
  rw [shifted_append hus, shifted, ht]
  exact List.append_nil us

/-- A scanned token that cannot be taken has a token refused that it hands over. -/
theorem exists_refused_of_take {m : Progress} {t u : Token} {expected : List Terminal}
    (h : m.take t = .error (.unexpected u expected)) :
    ∃ us vs stack', m.handed t = us ++ u :: vs ∧ us.foldlM shift m.stack = .ok stack' ∧
      shift stack' u = .error (.unexpected u expected) := by
  rw [Progress.take] at h
  rw [Progress.handed]
  split at h
  · next hline =>
    rw [if_pos hline]
    split at h
    · cases h
    · next hbrackets =>
      rw [if_neg hbrackets]
      rw [Progress.lineBreak] at h
      rcases henter : Layout.enter m.layout.levels (indentWidth t.text) t with ⟨marks, levels, met⟩
      rw [henter] at h
      dsimp only at h ⊢
      cases hshifts : (t :: marks).foldlM shift m.stack with
      | error e =>
        rw [hshifts] at h
        cases h
        obtain ⟨us, u', vs, stack', hsplit, hus, hu⟩ := exists_refused hshifts
        obtain ⟨_, heq⟩ := error_of_shift hu
        cases heq
        exact ⟨us, vs, stack', hsplit, hus, hu⟩
      | ok stack =>
        rw [hshifts] at h
        simp only [bind, Except.bind] at h
        split at h <;> cases h
  · next hline =>
    rw [if_neg hline]
    cases hshift : shift m.stack t with
    | ok stack =>
      rw [hshift] at h
      cases h
    | error e =>
      rw [hshift] at h
      cases h
      obtain ⟨_, heq⟩ := error_of_shift hshift
      cases heq
      exact ⟨[], [], m.stack, rfl, rfl, hshift⟩

theorem refuses_of_shift {stack : Stack} {t : Token} {e : SyntaxError}
    (hkind : t.kind ≠ .endOfInput) (h : shift stack t = .error e) : Refuses stack t := by
  rw [Refuses, if_neg hkind, h]
  exact nofun

theorem refuses_of_finish {m : Progress} {t : Token} {expected : List Terminal}
    (h : m.finish = .error (.unexpected t expected)) :
    (∃ stack, (shifted m.stack m.closing).foldlM shift m.stack = .ok stack ∧ Refuses stack t) ∧
      t.kind ∈ placeless := by
  rw [Progress.finish] at h
  rw [Progress.closing]
  cases hshifts : (m.layout.finish m.previous).foldlM shift m.stack with
  | error e =>
    rw [hshifts] at h
    cases h
    obtain ⟨us, u, vs, stack, hsplit, hus, hu⟩ := exists_refused hshifts
    obtain ⟨_, heq⟩ := error_of_shift hu
    cases heq
    have hdedent : t.kind = .dedent := by
      have hmem : t ∈ m.layout.finish m.previous := by
        rw [hsplit]
        exact List.mem_append_right _ List.mem_cons_self
      obtain ⟨level, -, rfl⟩ := List.mem_map.mp hmem
      rfl
    rw [hsplit, shifted_refused hus hu, hdedent]
    exact ⟨⟨stack, hus, refuses_of_shift (by rw [hdedent]; decide) hu⟩, by decide⟩
  | ok stack =>
    rw [hshifts] at h
    have haccept : accept stack
        (((m.layout.finish m.previous).getLastD m.fed).mark .endOfInput) = _ := h
    obtain ⟨_, heq⟩ := error_of_accept haccept
    cases heq
    have hall : shifted _ (_ ++ []) = _ := shifted_append hshifts
    rw [List.append_nil, shifted, List.append_nil] at hall
    rw [hall]
    refine ⟨⟨stack, hshifts, ?_⟩, (by decide : Terminal.endOfInput ∈ placeless)⟩
    intro tree htree
    rw [haccept] at htree
    cases htree

/-- Where the scanner is stuck at a token, the automaton refuses it. -/
theorem Progress.Reads.refuses_stuck {m : Progress} {source before cs rest : List Char}
    {place : Point} {t : Token} {expected : List Terminal} (hreads : m.Reads source before cs)
    (hnext : Scan.next (candidates m.stack) (cs.length + 1) (Point.after ⟨1, 1⟩ before) cs =
      .stuck place rest)
    (h : stuckError (candidates m.stack) place rest = .unexpected t expected) :
    Refuses m.stack t ∧ t.StandsIn source := by
  have hends := hreads.endsLines
  obtain ⟨gap, rfl, hplace, hnone⟩ := Scan.exists_gap_of_stuck hnext hends
  rw [stuckError] at h
  split at h
  · next kind text rest' hmatch =>
    cases h
    have hkind := (Scan.kind_of_match? hmatch).2
    have hmem := Scan.not_mem_of_match?_eq_none hnone hmatch (by decide)
    refine ⟨?_, before ++ gap, rest', ?_, ?_⟩
    · have hend : kind ≠ .endOfInput := by
        rintro rfl
        exact hkind (by decide)
      rw [Refuses, if_neg hend]
      exact fun stack' hshift => hmem (mem_candidates_of_shift hshift)
    · rw [hreads.text, Scan.split_of_match? hmatch hends.of_append, List.append_assoc]
    · rw [hplace, ← Point.after_append]
  · cases h

/-- Where a scanned token cannot be taken, one of the tokens handed over for it is refused. -/
theorem Progress.Reads.refuses_take {m : Progress} {source before cs rest : List Char}
    {t u : Token} {expected : List Terminal} (hreads : m.Reads source before cs)
    (hnext : Scan.next (candidates m.stack) (cs.length + 1) (Point.after ⟨1, 1⟩ before) cs =
      .token u rest)
    (h : m.take u = .error (.unexpected t expected)) :
    (∃ stack, (shifted m.stack (m.handed u)).foldlM shift m.stack = .ok stack ∧
      Refuses stack t) ∧ (t.kind ∉ placeless → t.StandsIn source) := by
  obtain ⟨us, vs, stack, hhanded, hus, ht⟩ := exists_refused_of_take h
  have hmem : t ∈ m.handed u := by
    rw [hhanded]
    exact List.mem_append_right _ List.mem_cons_self
  rw [hhanded, shifted_refused hus ht]
  rcases mem_handed hmem with rfl | ⟨kind, hmark, rfl⟩
  · obtain ⟨place, hstart, -, hplace, -⟩ := hreads.exists_place hnext
    have hkind := (Scan.kind_of_match? (Scan.match?_of_next hnext hreads.endsLines)).2
    have hend : t.kind ≠ .endOfInput := by
      intro heq
      rw [heq] at hkind
      exact hkind (by decide)
    exact ⟨⟨stack, hus, refuses_of_shift hend ht⟩, fun _ => ⟨place, rest, hplace.text, hstart⟩⟩
  · have hend : ∀ kind ∈ [Terminal.indent, .dedent], kind ≠ .endOfInput := by decide
    exact ⟨⟨stack, hus, refuses_of_shift (hend kind hmark) ht⟩,
      fun hkind => absurd (mark_mem_placeless kind hmark) hkind⟩

/-- Where a parse stops at a token the automaton refuses it after what it has taken. -/
theorem Progress.Reads.refuses {fuel : Nat} {m : Progress} {source before cs : List Char}
    {t : Token} {expected : List Terminal} (hreads : m.Reads source before cs)
    (h : run fuel m (Point.after ⟨1, 1⟩ before) cs = .error (.unexpected t expected)) :
    (∃ stack, (shifted m.stack (Parser.handed fuel m (Point.after ⟨1, 1⟩ before) cs)).foldlM shift
      m.stack = .ok stack ∧ Refuses stack t) ∧ (t.kind ∉ placeless → t.StandsIn source) := by
  induction fuel generalizing m before cs with
  | zero =>
    obtain ⟨hrefuses, hkind⟩ := refuses_of_finish h
    exact ⟨hrefuses, fun hplace => absurd hkind hplace⟩
  | succ fuel ih =>
    cases hnext : Scan.next (candidates m.stack) (cs.length + 1) (Point.after ⟨1, 1⟩ before) cs with
    | finished =>
      rw [run, hnext] at h
      rw [Parser.handed, hnext]
      obtain ⟨hrefuses, hkind⟩ := refuses_of_finish h
      exact ⟨hrefuses, fun hplace => absurd hkind hplace⟩
    | stuck place rest =>
      rw [run, hnext] at h
      rw [Parser.handed, hnext]
      obtain ⟨hrefuses, hstands⟩ := hreads.refuses_stuck hnext (Except.error.inj h)
      exact ⟨⟨m.stack, rfl, hrefuses⟩, fun _ => hstands⟩
    | token u rest =>
      cases htake : m.take u with
      | error e =>
        rw [run, hnext] at h
        rw [Parser.handed, hnext]
        dsimp only at h ⊢
        rw [htake] at h ⊢
        cases h
        dsimp only
        rw [List.append_nil]
        exact hreads.refuses_take hnext htake
      | ok m' =>
        obtain ⟨before', hstop, hreads'⟩ := hreads.exists_next hnext htake
        have hshifts := shifts_of_take htake
        rw [run_of_token hnext htake, hstop] at h
        rw [handed_of_token hnext htake, hstop]
        obtain ⟨⟨stack, hstack, hrefuses⟩, hstands⟩ := ih hreads' h
        refine ⟨⟨stack, ?_, hrefuses⟩, hstands⟩
        rw [shifted_append hshifts]
        exact shifts_append.mpr ⟨m'.stack, hshifts, hstack⟩

end Parser

open Starlark.Parser

/-- A syntax error is at the earliest token. What the automaton took before the token begins a file
of the grammar, and followed by the token it begins none, be the token a mark of the layout or the
end of input. The error is reported where the token is, and a token with a place of its own stands
there in the source. -/
theorem parseStatements_earliest {text file : String} {firstId : Nat} {t : Token}
    {expected : List Terminal} {notes : Notes}
    (h : parseStatements text file firstId = (.error (.unexpected t expected), notes)) :
    (∃ w, Derives (.r .start) w ∧ (consumedTokens text.toList).map Token.kind <+: w) ∧
    (∀ w, Derives (.r .start) w →
      ¬ (consumedTokens text.toList).map Token.kind ++ [t.kind] <+: w ++ [.endOfInput]) ∧
    ((SyntaxError.unexpected t expected).diagnostic file).loc = some (t.span.start.inFile file) ∧
    (t.kind ∉ placeless → t.StandsIn text.toList) := by
  have hderive : derive text.toList = .error (.unexpected t expected) := by
    rw [parseStatements] at h
    cases hderive : derive text.toList with
    | error e =>
      rw [hderive] at h
      cases h
      rfl
    | ok tree =>
      rw [hderive] at h
      dsimp only at h
      rcases hbuild : (tree.build file).run.run ⟨firstId, [], []⟩ with ⟨fault | value, notes'⟩
      · rw [hbuild] at h
        cases h
      · rw [hbuild] at h
        cases h
  have hreads : Progress.initial.Reads text.toList [] (endLine text.toList) :=
    ⟨rfl, fun _ _ => rfl, rfl, rfl⟩
  obtain ⟨⟨stack, hstack, hrefuses⟩, hstands⟩ := hreads.refuses hderive
  refine ⟨?_, fun w hw => ?_, rfl, hstands⟩
  · obtain ⟨v, hv⟩ := exists_file_of_shifts hstack
    exact ⟨_, derives_iff_mem_lang.mpr hv, List.prefix_append _ v⟩
  · exact hrefuses.not_prefix hstack (derives_iff_mem_lang.mp hw)

/-- The block of the conditional is missing. -/
def missingBlock : String := "if x:\ny\n"

theorem parseStatements_earliest_of_missingBlock : ∃ t expected notes,
    parseStatements missingBlock "f" 0 = (.error (.unexpected t expected), notes) ∧
    t = ⟨.name, ['y'], ⟨⟨2, 1⟩, ⟨2, 2⟩⟩⟩ ∧
    (∃ w, Derives (.r .start) w ∧ (consumedTokens missingBlock.toList).map Token.kind <+: w) ∧
    (∀ w, Derives (.r .start) w →
      ¬ (consumedTokens missingBlock.toList).map Token.kind ++ [t.kind] <+: w ++ [.endOfInput]) ∧
    ((SyntaxError.unexpected t expected).diagnostic "f").loc = some (t.span.start.inFile "f") ∧
    (t.kind ∉ placeless → t.StandsIn missingBlock.toList) := by
  have herror : (match (parseStatements missingBlock "f" 0).1 with
      | .error (.unexpected t _) => decide (t = ⟨.name, ['y'], ⟨⟨2, 1⟩, ⟨2, 2⟩⟩⟩)
      | _ => false) = true := by
    decide +kernel
  cases hparse : parseStatements missingBlock "f" 0 with
  | mk r notes =>
    rw [hparse] at herror
    dsimp only at herror
    split at herror
    · next t expected =>
      exact ⟨t, expected, notes, rfl, of_decide_eq_true herror, parseStatements_earliest hparse⟩
    · cases herror

end Starlark
