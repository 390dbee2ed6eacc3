import Starlark.Proofs.Lexer.Revised

/-! # Matches in a revised text

A line break is passed over with the lines added after it, a hidden line break is matched where no
line was added, and a long string where its own line breaks are left as they are.
-/
namespace Starlark
namespace Pattern
variable {ending : Nat → List Char} {n : Nat} {cs text rest : List Char}

theorem newline_ending {w : List Char} (h : IsEnding w) (cs : List Char) :
    newline (w ++ cs) = some (breaks false (w ++ cs)) := by
  rcases h.cases with ⟨rest, rfl⟩ | ⟨rest, rfl⟩
  · rfl
  · rfl

theorem newline_revise (h : Endings ending cs) :
    newline (revise ending n cs) = (newline cs).map (reviseSplit ending n) := by
  rw [newline.eq_def cs]
  split
  · next cs =>
    rw [Option.map_some, ← breaks_revise h, revise_line, newline_ending (h.isEnding n)]
  · next cs =>
    obtain ⟨w, hw⟩ : ∃ w, ending n = '\n' :: w :=
      ⟨_, List.eq_cons_of_mem_head? (h.noReturn List.mem_cons_self n)⟩
    rw [Option.map_some, ← breaks_revise h, revise_cons (by decide), revise_line, hw]
    rfl
  · next cs =>
    rw [Option.map_some, ← breaks_revise h, revise_cons (by decide)]
    rfl
  · next hfeed hreturn hcomment =>
    -- The revised text begins as the text does.
    rw [newline.eq_def]
    split
    · next heq =>
      rcases revise_eq_cons heq with ⟨cs', hcs⟩ | ⟨hne, -⟩
      · exact absurd hcs (hfeed cs')
      · exact absurd rfl hne
    · next heq =>
      rcases revise_eq_cons heq with ⟨cs', hcs⟩ | ⟨-, cs', hcs, heq'⟩
      · exact absurd hcs (hfeed cs')
      · rcases revise_eq_cons heq'.symm with ⟨cs'', hcs'⟩ | ⟨hne, -⟩
        · exact absurd (hcs.trans (congrArg _ hcs')) (hreturn cs'')
        · exact absurd rfl hne
    · next heq =>
      rcases revise_eq_cons heq with ⟨cs', hcs⟩ | ⟨-, cs', hcs, -⟩
      · exact absurd hcs (hfeed cs')
      · exact absurd hcs (hcomment cs')
    · rfl

/-- An ending without added lines. -/
def IsBare (w : List Char) : Prop := w = ['\n'] ∨ w = ['\r', '\n']

/-- The line break that a backslash hides. -/
def hidden : List Char → Option Split
  | '\n' :: rest => some (['\n'], rest)
  | '\r' :: '\n' :: rest => some (['\r', '\n'], rest)
  | _ => none

theorem continuation_cons (cs : List Char) : continuation ('\\' :: cs) =
    (hidden (cs.dropWhile isBlank)).map fun s => ('\\' :: cs.takeWhile isBlank ++ s.1, s.2) := by
  rw [continuation]
  generalize cs.dropWhile isBlank = ds
  split
  · rfl
  · rfl
  · next hfeed hreturn =>
    rw [hidden]
    · rfl
    · exact hfeed
    · exact hreturn

theorem continuation_of_ne {c : Char} (h : c ≠ '\\') (cs : List Char) :
    continuation (c :: cs) = none := by
  rw [continuation.eq_def]
  split
  · next heq => exact absurd (List.cons.inj heq).1 h
  · rfl

theorem hidden_revise (h : Endings ending cs) (hbare : hidden cs ≠ none → IsBare (ending n)) :
    hidden (revise ending n cs) = (hidden cs).map (reviseSplit ending n) := by
  rw [hidden.eq_def cs] at *
  split
  · next rest =>
    rw [Option.map_some, reviseSplit, revise_line, revise_line]
    rcases hbare (Option.some_ne_none _) with hw | hw
    · simp [hw, hidden, revise]
    · simp [hw, hidden, revise]
  · next rest =>
    have hhead := h.noReturn List.mem_cons_self n
    rcases hbare (Option.some_ne_none _) with hw | hw
    · simp [hw, hidden, revise, reviseSplit]
    · rw [hw] at hhead
      exact absurd hhead (by decide)
  · next hfeed hreturn =>
    rw [hidden.eq_def]
    split
    · next heq =>
      rcases revise_eq_cons heq with ⟨cs', hcs⟩ | ⟨hne, -⟩
      · exact absurd hcs (hfeed cs')
      · exact absurd rfl hne
    · next heq =>
      rcases revise_eq_cons heq with ⟨cs', hcs⟩ | ⟨-, cs', hcs, heq'⟩
      · exact absurd hcs (hfeed cs')
      · rcases revise_eq_cons heq'.symm with ⟨cs'', hcs'⟩ | ⟨hne, -⟩
        · exact absurd (hcs.trans (congrArg _ hcs')) (hreturn cs'')
        · exact absurd rfl hne
    · rfl

theorem continuation_revise (h : Endings ending cs)
    (hbare : continuation cs ≠ none → IsBare (ending n)) :
    continuation (revise ending n cs) = (continuation cs).map (reviseSplit ending n) := by
  rcases cs with _ | ⟨c, cs⟩
  · rfl
  by_cases hline : c = '\n'
  · subst hline
    rw [revise_line, continuation_of_ne (by decide)]
    rcases (h.isEnding n).cases with ⟨w, hw⟩ | ⟨w, hw⟩
    · rw [hw, List.cons_append, continuation_of_ne (by decide)]
      rfl
    · rw [hw, List.cons_append, continuation_of_ne (by decide)]
      rfl
  rw [revise_cons hline]
  by_cases hc : c = '\\'
  · subst hc
    have hblank : InLine isBlank := ⟨by decide, by decide⟩
    obtain ⟨htake, hdrop⟩ := span_revise h.isEnding hblank n cs
    have hfront : '\n' ∉ '\\' :: cs.takeWhile isBlank := by
      simpa using newline_not_mem_takeWhile hblank.1 cs
    rw [continuation_cons, ne_eq, Option.map_eq_none_iff] at hbare
    have hrest := h.tail.mono (List.dropWhile_sublist isBlank).subset
    rw [continuation_cons, continuation_cons, htake, hdrop, hidden_revise hrest hbare,
      Option.map_map, Option.map_map]
    congr 1
    funext s
    simp only [Function.comp_apply, reviseSplit, revise_append, revise_of_not_mem hfront,
      List.count_append, List.count_eq_zero_of_not_mem hfront, Nat.zero_add, Nat.add_zero]
  · rw [continuation_of_ne hc, continuation_of_ne hc]
    rfl

/-! ## Long strings -/

/-- What a long string matches does not depend on what follows it. -/
theorem closeLong_append {quote : Char} {escaped : Bool}
    (h : closeLong quote escaped cs = some (text, rest)) :
    cs = text ++ rest ∧ 3 ≤ text.length ∧
      ∀ others, closeLong quote escaped (text ++ others) = some (text, others) := by
  induction cs generalizing escaped text with
  | nil => cases h
  | cons a cs ih =>
    obtain _ | ⟨b, _ | ⟨c, cs⟩⟩ := cs
    · cases h
    · cases h
    · rw [closeLong] at h
      split at h
      · next hclose =>
        cases h
        exact ⟨rfl, Nat.le_refl 3, fun others => if_pos hclose⟩
      · next hopen =>
        obtain ⟨⟨body, tail⟩, hbody, heq⟩ := Option.map_eq_some_iff.mp h
        obtain ⟨rfl, rfl⟩ := Prod.mk.inj heq
        obtain ⟨hsplit, hlength, hothers⟩ := ih hbody
        obtain _ | ⟨b', _ | ⟨c', body⟩⟩ := body
        · cases hlength
        · exact absurd hlength (by simp)
        · obtain ⟨rfl, rfl, -⟩ : b = b' ∧ c = c' ∧ cs = body ++ tail := by simpa using hsplit
          refine ⟨congrArg (a :: ·) hsplit, Nat.le_succ_of_le hlength, fun others => ?_⟩
          have hrest := hothers others
          simp only [List.cons_append] at hrest
          simp only [List.cons_append]
          rw [closeLong, if_neg hopen, hrest]
          rfl

/-- Three quotes that open a string which is never closed. -/
def Unclosed (cs : List Char) : Prop :=
  ∃ quote rest, (quote = '"' ∨ quote = '\'') ∧ cs = quote :: quote :: quote :: rest ∧
    closeLong quote false rest = none

theorem openLong_append (h : openLong cs = some (text, rest)) :
    cs = text ++ rest ∧ ∀ others, openLong (text ++ others) = some (text, others) := by
  rw [openLong.eq_def] at h
  split at h
  · split at h
    · next hquotes =>
      obtain ⟨⟨body, tail⟩, hbody, heq⟩ := Option.map_eq_some_iff.mp h
      obtain ⟨rfl, rfl⟩ := Prod.mk.inj heq
      obtain ⟨rfl, -, hothers⟩ := closeLong_append hbody
      refine ⟨rfl, fun others => ?_⟩
      simp only [push, List.cons_append]
      rw [openLong, if_pos hquotes, hothers]
      rfl
    · cases h
  · cases h

theorem openLong_revise (hending : ∀ n, IsEnding (ending n)) (hclosed : ¬ Unclosed cs)
    (hkept : ∀ text rest, openLong cs = some (text, rest) → revise ending n text = text) :
    openLong (revise ending n cs) = (openLong cs).map (reviseSplit ending n) := by
  cases hopen : openLong cs with
  | some s =>
    obtain ⟨text, rest⟩ := s
    obtain ⟨rfl, hothers⟩ := openLong_append hopen
    have htext := hkept text rest hopen
    rw [revise_append, htext, hothers, Option.map_some, reviseSplit, htext]
  | none =>
    rw [openLong.eq_def]
    split
    · next a b c rest heq =>
      split
      · next hquotes =>
        obtain ⟨hquote, rfl, rfl⟩ := hquotes
        -- The same three quotes begin the text, and open a string there.
        have hline : '\n' ∉ [c, c, c] := by
          rcases hquote with rfl | rfl
          · decide
          · decide
        have hreturn : '\r' ∉ [c, c, c] := by
          rcases hquote with rfl | rfl
          · decide
          · decide
        obtain ⟨tail, rfl⟩ := (prefix_revise hending hline hreturn n cs).mp (heq ▸ ⟨rest, rfl⟩)
        refine absurd ⟨c, tail, hquote, rfl, ?_⟩ hclosed
        rw [List.cons_append, List.cons_append, List.cons_append, List.nil_append, openLong,
          if_pos ⟨hquote, rfl, rfl⟩, Option.map_eq_none_iff] at hopen
        exact hopen
      · rfl
    · rfl

/-- Does an unclosed string begin a text, or follow the mark of a raw string there? -/
def OpensUnclosed (cs : List Char) : Prop :=
  Unclosed cs ∨ ∃ c rest, (c = 'r' ∨ c = 'R') ∧ cs = c :: rest ∧ Unclosed rest

theorem longString_revise (hending : ∀ n, IsEnding (ending n)) (hclosed : ¬ OpensUnclosed cs)
    (hkept : ∀ text rest, longString cs = some (text, rest) → revise ending n text = text) :
    longString (revise ending n cs) = (longString cs).map (reviseSplit ending n) := by
  rw [OpensUnclosed, not_or] at hclosed
  rcases cs with _ | ⟨c, cs⟩
  · rfl
  by_cases hc : c = 'r' ∨ c = 'R'
  · have hline : c ≠ '\n' := by
      rcases hc with rfl | rfl
      · decide
      · decide
    have hraw : ∀ cs, longString (c :: cs) = (openLong cs).map (push c) := fun cs => if_pos hc
    have hclosed' : ¬ Unclosed cs := fun h => hclosed.2 ⟨c, cs, hc, rfl, h⟩
    have hkept' : ∀ text rest, openLong cs = some (text, rest) → revise ending n text = text := by
      intro text rest hopen
      have htext := hkept (c :: text) rest (by rw [hraw, hopen]; rfl)
      rw [revise_cons hline] at htext
      exact (List.cons.inj htext).2
    rw [revise_cons hline, hraw, hraw, openLong_revise hending hclosed' hkept', Option.map_map,
      Option.map_map]
    congr 1
    funext s
    exact push_reviseSplit hline s
  · have hplain : longString (c :: cs) = openLong (c :: cs) := if_neg hc
    rw [hplain] at hkept ⊢
    rw [← openLong_revise hending hclosed.1 hkept]
    by_cases hline : c = '\n'
    · subst hline
      rw [revise_line]
      rcases (hending n).cases with ⟨w, hw⟩ | ⟨w, hw⟩
      · rw [hw]
        rfl
      · rw [hw]
        rfl
    · rw [revise_cons hline]
      exact if_neg hc

end Pattern

namespace Scan
open Pattern
variable {ending : Nat → List Char} {n : Nat} {candidates : List Terminal} {cs text rest : List Char}

/-- What is matched in a revised text. -/
def reviseMatch (ending : Nat → List Char) (n : Nat) (m : Match) : Match :=
  (m.1, reviseSplit ending n m.2)

theorem map_reviseMatch {p : List Char → Option Split}
    (h : p (revise ending n cs) = (p cs).map (reviseSplit ending n)) (l : Lexeme) :
    (p (revise ending n cs)).map (l, ·) = ((p cs).map (l, ·)).map (reviseMatch ending n) := by
  rw [h, Option.map_map, Option.map_map]
  rfl

theorem attempt_revise {t : Terminal} {p : List Char → Option Split}
    (h : t ∈ candidates → p (revise ending n cs) = (p cs).map (reviseSplit ending n)) :
    attempt candidates t p (revise ending n cs) =
      (attempt candidates t p cs).map (reviseMatch ending n) := by
  rw [attempt, attempt]
  split
  · next ht => exact map_reviseMatch (h ht) (.token t)
  · rfl

theorem word_revise (hending : ∀ n, IsEnding (ending n)) :
    word candidates (revise ending n cs) =
      (word candidates cs).map (reviseMatch ending n) := by
  rw [word, word]
  split
  · rw [keepsMatch_name hending, Option.map_map, Option.map_map]
    cases hname : name cs with
    | none => rfl
    | some s =>
      have hline : '\n' ∉ s.1 := fun hmem =>
        absurd ((Cursor.matchesInert_name _ _ _ hname).2.2 _ hmem) (by decide)
      simp only [Option.map_some, Function.comp_apply, reviseMatch, reviseSplit,
        revise_of_not_mem hline]
  · rfl

theorem sign_revise (hending : ∀ n, IsEnding (ending n)) :
    sign candidates (revise ending n cs) = (sign candidates cs).map (reviseMatch ending n) := by
  have hspelled : ∀ t ∈ Terminal.spelled, '\n' ∉ spelling t ∧ '\r' ∉ spelling t := by decide
  have hmem : ∀ t ∈ spelledCandidates candidates, t ∈ Terminal.spelled := fun t ht =>
    (List.mem_filter.mp ht).1
  rw [sign, sign]
  generalize spelledCandidates candidates = ts at hmem
  induction ts with
  | nil => rfl
  | cons t ts ih =>
    rw [List.forall_mem_cons] at hmem
    obtain ⟨hline, hreturn⟩ := hspelled t hmem.1
    rw [List.findSome?_cons, List.findSome?_cons,
      map_reviseMatch (keepsMatch_literal hending hline hreturn n cs)]
    cases (literal (spelling t) cs).map (Lexeme.token t, ·) with
    | none => exact ih hmem.2
    | some m => rfl

/-- The same is matched in a revised text, where a hidden line break is bare and a long string that
is looked for is kept. -/
theorem match?_revise (h : Endings ending cs)
    (hbare : continuation cs ≠ none → IsBare (ending n))
    (hlong : .longString ∈ candidates →
      longString (revise ending n cs) = (longString cs).map (reviseSplit ending n)) :
    match? candidates (revise ending n cs) =
      (match? candidates cs).map (reviseMatch ending n) := by
  have hending := h.isEnding
  simp only [match?, Option.orElse_eq_orElse, Option.orElse_eq_or]
  rw [attempt_revise fun _ => keepsMatch_hexadecimal hending n cs,
    attempt_revise fun _ => keepsMatch_octal hending n cs,
    attempt_revise fun _ => keepsMatch_string hending n cs, attempt_revise hlong,
    map_reviseMatch (newline_revise h), word_revise hending,
    map_reviseMatch (continuation_revise h hbare),
    attempt_revise fun _ => keepsMatch_decimal hending n cs,
    map_reviseMatch (keepsMatch_blank hending n cs), sign_revise hending]
  simp only [Option.map_or]

end Scan
end Starlark
