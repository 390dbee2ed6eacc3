import Starlark.Proofs.Lexer.Reread

/-! # A revised text is scanned alike

The scanner finds the same tokens in a revised text, as long as it gets on with the text itself: an
unclosed string would stop it, and the lines added to a text may close one.
-/
namespace Starlark
variable {ending : Nat → List Char} {n : Nat} {cs text rest : List Char}

theorem revise_ne_nil (hending : ∀ n, IsEnding (ending n)) (h : cs ≠ []) :
    revise ending n cs ≠ [] := by
  cases cs with
  | nil => exact absurd rfl h
  | cons c cs =>
    rw [revise]
    split
    · intro hnil
      have hlast := (hending n).getLast?
      rw [(List.append_eq_nil_iff.mp hnil).1] at hlast
      cases hlast
    · exact List.cons_ne_nil _ _

theorem newline_mem_revise (hending : ∀ n, IsEnding (ending n)) :
    '\n' ∈ revise ending n cs ↔ '\n' ∈ cs := by
  constructor
  · intro hmem
    by_contra hline
    rw [revise_of_not_mem hline] at hmem
    exact hline hmem
  · intro hmem
    obtain ⟨front, back, rfl⟩ := List.append_of_mem hmem
    rw [revise_append, revise_line]
    exact List.mem_append_right _
      (List.mem_append_left _ (List.mem_of_getLast? (hending _).getLast?))

/-! ## Indentation -/

theorem lastLine_append {as : List Char} (h : as.getLast? = some '\n') (bs : List Char) :
    lastLine (as ++ bs) = lastLine bs := by
  obtain ⟨front, rfl⟩ := List.getLast?_eq_some_iff.mp h
  have hback : (front ++ ['\n']).reverse.takeWhile (· != '\n') = [] := by simp
  rw [lastLine, lastLine, List.reverse_append, List.takeWhile_append, hback, List.append_nil]
  split
  · next hlength => rw [(List.takeWhile_prefix _).eq_of_length hlength]
  · rfl

theorem lastLine_revise (hending : ∀ n, IsEnding (ending n)) (n : Nat) (cs : List Char) :
    lastLine (revise ending n cs) = lastLine cs := by
  induction cs generalizing n with
  | nil => rfl
  | cons c cs ih =>
    by_cases hc : c = '\n'
    · subst hc
      rw [revise_line, lastLine_append (hending n).getLast?, ih, ← List.singleton_append,
        lastLine_append rfl]
    · rw [revise_cons hc, Cursor.lastLine_cons, Cursor.lastLine_cons, ih]
      by_cases hline : '\n' ∈ cs
      · rw [if_pos hline, if_pos ((newline_mem_revise hending).mpr hline)]
      · rw [revise_of_not_mem hline]

/-- A line break has the same width, whatever the lines before it. -/
theorem indentWidth_revise (hending : ∀ n, IsEnding (ending n)) (n : Nat) (cs : List Char) :
    indentWidth (revise ending n cs) = indentWidth cs := by
  rw [indentWidth, indentWidth, lastLine_revise hending]

namespace Scan
open Pattern Cursor
variable {candidates candidates' : List Terminal} {kind : Terminal} {quote : Char}

/-! ## Candidates in another order -/

theorem match?_congr (h : ∀ t, t ∈ candidates' ↔ t ∈ candidates) (cs : List Char) :
    match? candidates' cs = match? candidates cs := by
  simp only [match?, attempt, word, wordKind, sign, spelledCandidates, h]

theorem next_congr (h : ∀ t, t ∈ candidates' ↔ t ∈ candidates) (fuel : Nat) (start : Point)
    (cs : List Char) : next candidates' fuel start cs = next candidates fuel start cs := by
  induction fuel generalizing start cs with
  | zero => rfl
  | succ fuel ih => simp only [next, match?_congr h, ih]

/-! ## Tokens inside a line -/

theorem newline_not_mem_closeShort {escaped : Bool}
    (h : closeShort quote escaped cs = some (text, rest)) : '\n' ∉ text := by
  induction cs generalizing escaped text with
  | nil => cases h
  | cons c cs ih =>
    rw [closeShort] at h
    split at h
    · cases h
    · next hc =>
      split at h
      · cases h
        simpa using Ne.symm hc
      · obtain ⟨⟨body, tail⟩, hbody, heq⟩ := Option.map_eq_some_iff.mp h
        cases heq
        exact List.not_mem_cons_of_ne_of_not_mem (Ne.symm hc) (ih hbody)

theorem newline_not_mem_openShort (h : openShort cs = some (text, rest)) : '\n' ∉ text := by
  cases cs with
  | nil => cases h
  | cons c cs =>
    rw [openShort] at h
    split at h
    · next hquote =>
      obtain ⟨⟨body, tail⟩, hbody, heq⟩ := Option.map_eq_some_iff.mp h
      cases heq
      exact List.not_mem_cons_of_ne_of_not_mem (ne_newline hquote.1).symm
        (newline_not_mem_closeShort hbody)
    · cases h

theorem newline_not_mem_string (h : string cs = some (text, rest)) : '\n' ∉ text := by
  cases cs with
  | nil => cases h
  | cons c cs =>
    rw [string, maybeRaw] at h
    split at h
    · next hc =>
      obtain ⟨⟨body, tail⟩, hbody, heq⟩ := Option.map_eq_some_iff.mp h
      cases heq
      have hline : '\n' ≠ c := by
        rcases hc with rfl | rfl
        · decide
        · decide
      exact List.not_mem_cons_of_ne_of_not_mem hline (newline_not_mem_openShort hbody)
    · exact newline_not_mem_openShort h

/-- Only line breaks and long strings go over lines. -/
theorem newline_not_mem_of_match? (h : match? candidates cs = some (.token kind, text, rest))
    (hkind : kind ≠ .newline) (hlong : kind ≠ .longString) : '\n' ∉ text := by
  have hinert : ∀ {p : List Char → Option Split}, MatchesInert p → p cs = some (text, rest) →
      '\n' ∉ text := fun hp hmatch hmem =>
    absurd ((hp _ _ _ hmatch).2.2 _ hmem) (by decide)
  have hspelled : ∀ t ∈ Terminal.spelled, '\n' ∉ spelling t := by decide
  rcases match?_token h with ⟨rfl, -⟩ | ⟨-, ⟨-, h⟩ | ⟨-, h⟩ | ⟨-, h⟩ | ⟨rfl, -⟩ | ⟨-, h⟩ |
    ⟨-, h, -⟩ | ⟨ht, rfl, -⟩⟩
  · exact absurd rfl hkind
  · exact hinert matchesInert_hexadecimal h
  · exact hinert matchesInert_octal h
  · exact newline_not_mem_string h
  · exact absurd rfl hlong
  · exact hinert matchesInert_decimal h
  · exact hinert matchesInert_name h
  · exact hspelled _ (List.mem_filter.mp ht).1

/-! ## Three quotes -/

theorem openShort_of_three (hquote : quote = '"' ∨ quote = '\'') (rest : List Char) :
    openShort (quote :: quote :: quote :: rest) = none := by
  rcases hquote with rfl | rfl
  · rfl
  · rfl

theorem exists_three_of_openLong {s : Split} (h : openLong cs = some s) :
    ∃ quote rest, (quote = '"' ∨ quote = '\'') ∧ cs = quote :: quote :: quote :: rest := by
  rw [openLong.eq_def] at h
  split at h
  · split at h
    · next hquotes =>
      obtain ⟨hquote, rfl, rfl⟩ := hquotes
      exact ⟨_, _, hquote, rfl⟩
    · cases h
  · cases h

theorem radix_of_ne {c : Char} (h : c ≠ '0') (cs : List Char) :
    hexadecimal (c :: cs) = none ∧ octal (c :: cs) = none := by
  rw [hexadecimal.eq_def, octal.eq_def]
  constructor
  · split
    · next heq => exact absurd (List.cons.inj heq).1 h
    · rfl
  · split
    · next heq => exact absurd (List.cons.inj heq).1 h
    · rfl

/-- No sign is read before a quote, where none is read from what stands before the quote alone. -/
theorem sign_of_quote (hquote : quote = '"' ∨ quote = '\'') (front : List Char)
    (hfront : ∀ t ∈ Terminal.spelled, ¬ spelling t <+: front) (rest : List Char) :
    sign candidates (front ++ quote :: rest) = none := by
  have hspelled : ∀ t ∈ Terminal.spelled, '"' ∉ spelling t ∧ '\'' ∉ spelling t := by decide
  refine List.findSome?_eq_none_iff.mpr fun t ht => Option.map_eq_none_iff.mpr ?_
  have ht := (List.mem_filter.mp ht).1
  have hmem : quote ∉ spelling t := by
    rcases hquote with rfl | rfl
    · exact (hspelled t ht).1
    · exact (hspelled t ht).2
  by_contra hliteral
  have hwhole : front ++ [quote] <+: front ++ quote :: rest := by simp
  rcases List.prefix_or_prefix_of_prefix (prefix_of_literal hliteral) hwhole with hle | hge
  · rcases List.prefix_concat_iff.mp hle with heq | hle
    · exact hmem (by simp [heq])
    · exact hfront t ht hle
  · exact hmem (hge.subset (by simp))

/-- A long string that is looked for is found. -/
theorem match?_longString {s : Split} (h : longString cs = some s)
    (hc : .longString ∈ candidates) : match? candidates cs = some (.token .longString, s) := by
  have hfirst : ∀ {cs : List Char}, hexadecimal cs = none → octal cs = none → string cs = none →
      longString cs = some s → match? candidates cs = some (.token .longString, s) := by
    intro cs hhexadecimal hoctal hstring hlong
    rw [match?, attempt_of_none hhexadecimal, attempt_of_none hoctal, attempt_of_none hstring,
      attempt, if_pos hc, hlong]
    rfl
  cases cs with
  | nil => cases h
  | cons c cs =>
    by_cases hraw : c = 'r' ∨ c = 'R'
    · have hne : c ≠ '0' := by
        rcases hraw with rfl | rfl
        · decide
        · decide
      obtain ⟨hhexadecimal, hoctal⟩ := radix_of_ne hne cs
      refine hfirst hhexadecimal hoctal ?_ h
      rw [longString, maybeRaw, if_pos hraw] at h
      obtain ⟨_, hopen, -⟩ := Option.map_eq_some_iff.mp h
      obtain ⟨quote, rest, hquote, rfl⟩ := exists_three_of_openLong hopen
      rw [string, maybeRaw, if_pos hraw, openShort_of_three hquote]
      rfl
    · have hopen : openLong (c :: cs) = some s := by rwa [longString, maybeRaw, if_neg hraw] at h
      obtain ⟨quote, rest, hquote, heq⟩ := exists_three_of_openLong hopen
      obtain ⟨rfl, rfl⟩ := List.cons.inj heq
      have hne : c ≠ '0' := by
        rcases hquote with rfl | rfl
        · decide
        · decide
      obtain ⟨hhexadecimal, hoctal⟩ := radix_of_ne hne (c :: c :: rest)
      refine hfirst hhexadecimal hoctal ?_ h
      rw [string, maybeRaw, if_neg hraw, openShort_of_three hquote]

/-- Nothing is found where an unclosed string begins. -/
theorem match?_unclosed (h : Unclosed cs) : match? candidates cs = none := by
  obtain ⟨quote, rest, hquote, rfl, hclose⟩ := h
  have hlong : longString (quote :: quote :: quote :: rest) = none := by
    have hraw : ¬ (quote = 'r' ∨ quote = 'R') := by
      rcases hquote with rfl | rfl
      · decide
      · decide
    rw [longString, maybeRaw, if_neg hraw, openLong, if_pos ⟨hquote, rfl, rfl⟩, hclose]
    rfl
  have hsign : sign candidates (quote :: quote :: quote :: rest) = none :=
    sign_of_quote hquote [] (by decide) _
  rcases hquote with rfl | rfl
  all_goals
    rw [match?, attempt_of_none rfl, attempt_of_none rfl, attempt_of_none rfl, attempt_of_none hlong,
      attempt_of_none rfl, word_of_not_name (by decide), hsign]
    rfl

/-- Before an unclosed string only the mark of a raw string is found, as a name. -/
theorem match?_raw_unclosed {c : Char} (hc : c = 'r' ∨ c = 'R') (h : Unclosed cs) {m : Match}
    (hmatch : match? candidates (c :: cs) = some m) : m.1 ≠ .between ∧ m.2.2 = cs := by
  obtain ⟨quote, rest, hquote, rfl, hclose⟩ := h
  have hlong : openLong (quote :: quote :: quote :: rest) = none := by
    rw [openLong, if_pos ⟨hquote, rfl, rfl⟩, hclose]
    rfl
  have hstring : string (c :: quote :: quote :: quote :: rest) = none := by
    rw [string, maybeRaw, if_pos hc, openShort_of_three hquote]
    rfl
  have hlong' : longString (c :: quote :: quote :: quote :: rest) = none := by
    rw [longString, maybeRaw, if_pos hc, hlong]
    rfl
  have hsign : sign candidates (c :: quote :: quote :: quote :: rest) = none := by
    refine sign_of_quote hquote [c] ?_ _
    rcases hc with rfl | rfl
    · decide
    · decide
  have hname : name (c :: quote :: quote :: quote :: rest) =
      some ([c], quote :: quote :: quote :: rest) := by
    rcases hc with rfl | rfl <;> rcases hquote with rfl | rfl <;> rfl
  have hnone : match? candidates (c :: quote :: quote :: quote :: rest) =
      word candidates (c :: quote :: quote :: quote :: rest) := by
    rcases hc with rfl | rfl
    all_goals
      rw [match?, attempt_of_none rfl, attempt_of_none rfl, attempt_of_none hstring,
        attempt_of_none hlong', attempt_of_none rfl, hsign]
      cases word candidates _ <;> rfl
  rw [hnone, word, hname] at hmatch
  split at hmatch
  · cases hmatch
    exact ⟨(by cases ·), rfl⟩
  · cases hmatch

/-- Where no unclosed string follows a token, none begins there. -/
theorem not_opensUnclosed {m : Match} (h : match? candidates cs = some m)
    (hrest : m.1 ≠ .between → ¬ Unclosed m.2.2) : ¬ OpensUnclosed cs := by
  rintro (hunclosed | ⟨c, rest, hc, rfl, hunclosed⟩)
  · rw [match?_unclosed hunclosed] at h
    cases h
  · obtain ⟨htoken, heq⟩ := match?_raw_unclosed hc hunclosed h
    exact hrest htoken (heq ▸ hunclosed)

/-! ## The next token -/

/-- Are the line breaks that a backslash hides kept without added lines? -/
def HidesBare (ending : Nat → List Char) (k : Cursor) (n : Nat) (cs : List Char) : Prop :=
  ∀ front back, cs = front ++ '\n' :: back → (k.after front).mode = .joined →
    IsBare (ending (n + front.count '\n'))

theorem HidesBare.of_append {k : Cursor} {as bs : List Char}
    (h : HidesBare ending k n (as ++ bs)) :
    HidesBare ending (k.after as) (n + as.count '\n') bs := by
  rintro front back rfl hmode
  rw [← after_append] at hmode
  have hbare := h (as ++ front) back (by rw [List.append_assoc]) hmode
  rwa [List.count_append, ← Nat.add_assoc] at hbare

theorem HidesBare.isBare {k : Cursor} (h : HidesBare ending k n cs) (hk : k.AtRest cs)
    (hhides : continuation cs ≠ none) : IsBare (ending n) := by
  rcases cs with _ | ⟨c, cs⟩
  · exact absurd rfl hhides
  by_cases hc : c = '\\'
  · subst hc
    have hblanks : ∀ d ∈ cs.takeWhile isBlank, isBlank d = true := fun d hd =>
      List.mem_takeWhile_imp hd
    have hmode : k.after ('\\' :: cs.takeWhile isBlank) = ⟨.joined, k.depth, k.width⟩ := by
      rw [hk.after_cons]
      exact after_joined hblanks
    have hcount : ('\\' :: cs.takeWhile isBlank).count '\n' = 0 := by
      refine List.count_eq_zero_of_not_mem ?_
      simpa using newline_not_mem_takeWhile (by decide) cs
    have hsplit := List.takeWhile_append_dropWhile (p := isBlank) (l := cs)
    rw [continuation_cons, ne_eq, Option.map_eq_none_iff, Pattern.hidden.eq_def] at hhides
    split at hhides
    · next rest hrest =>
      rw [hrest] at hsplit
      have hbare := h ('\\' :: cs.takeWhile isBlank) rest (by rw [List.cons_append, hsplit])
        (by rw [hmode])
      rwa [hcount] at hbare
    · next rest hrest =>
      rw [hrest] at hsplit
      have hbare := h ('\\' :: cs.takeWhile isBlank ++ ['\r']) rest
        (by rw [List.cons_append, List.cons_append, List.append_assoc, List.singleton_append,
          hsplit]) (by rw [after_append, hmode]; rfl)
      rwa [List.count_append, hcount] at hbare
    · exact absurd rfl hhides
  · exact absurd (continuation_of_ne hc cs) hhides

/-- The rest of a text, where the cursor is at rest, may be revised. -/
structure Revisable (ending : Nat → List Char) (k : Cursor) (n : Nat) (cs : List Char) :
    Prop where
  endings : Endings ending cs
  hides : HidesBare ending k n cs
  atRest : k.AtRest cs
  ends : EndsLines cs

theorem Revisable.of_append {k : Cursor} (h : Revisable ending k n (text ++ rest))
    (hrest : (k.after text).AtRest rest) :
    Revisable ending (k.after text) (n + text.count '\n') rest :=
  ⟨h.endings.mono (List.subset_append_right _ _), h.hides.of_append, hrest, h.ends.of_append⟩

/-- The same is found in the revised text, where a long string is kept. -/
theorem Revisable.match? {k : Cursor} {l : Lexeme} (h : Revisable ending k n cs)
    (hmatch : match? candidates cs = some (l, text, rest))
    (hrest : l ≠ .between → ¬ Unclosed rest)
    (hkept : l = .token .longString → revise ending n text = text) :
    match? candidates (revise ending n cs) =
      some (l, revise ending n text, revise ending (n + text.count '\n') rest) := by
  rw [match?_revise h.endings (h.hides.isBare h.atRest) fun hc => ?_, hmatch]
  · rfl
  · refine longString_revise h.endings.isEnding (not_opensUnclosed hmatch hrest) ?_
    intro text' rest' hlong
    rw [match?_longString hlong hc] at hmatch
    cases hmatch
    exact hkept rfl

/-- Where a text is at its end, so is the revised text. -/
theorem Revisable.next_finished {k : Cursor} {fuel fuel' : Nat} {start : Point}
    (h : Revisable ending k n cs) (hfuel : cs.length < fuel)
    (hnext : next candidates fuel start cs = .finished) (start' : Point) :
    next candidates fuel' start' (revise ending n cs) = .finished := by
  induction fuel generalizing fuel' k n cs start start' with
  | zero => exact absurd hfuel (Nat.not_lt_zero _)
  | succ fuel ih =>
    cases fuel' with
    | zero => rfl
    | succ fuel' =>
      rw [next] at hnext ⊢
      split at hnext
      · next hnil =>
        rw [List.isEmpty_iff.mp hnil]
        rfl
      · next hne =>
        have hne' : ¬ (revise ending n cs).isEmpty = true := by
          rw [List.isEmpty_iff] at hne ⊢
          exact revise_ne_nil h.endings.isEnding hne
        rw [if_neg hne']
        split at hnext
        · cases hnext
        · cases hnext
        · next text rest hmatch =>
          obtain ⟨hsplit, htext, hrest, -⟩ := follows_match? h.atRest h.ends hmatch
          dsimp only at hsplit htext hrest
          rw [h.match? hmatch (fun hl => absurd rfl hl) fun hl => by cases hl]
          subst hsplit
          have hlength := List.length_pos_iff.mpr htext
          rw [List.length_append] at hfuel
          exact ih (h.of_append hrest) (by omega) hnext _

/-- The next token of the revised text is that of the text, where the text goes on after it without
an unclosed string. -/
theorem Revisable.next_token {k : Cursor} {fuel fuel' : Nat} {start : Point} {t : Token}
    (h : Revisable ending k n cs) (hnext : next candidates fuel start cs = .token t rest)
    (hrest : ¬ Unclosed rest)
    (hkept : t.kind = .longString → ∀ gap, cs = gap ++ (t.text ++ rest) →
      revise ending (n + gap.count '\n') t.text = t.text)
    (hfuel : (revise ending n cs).length < fuel') (start' : Point) :
    ∃ gap, cs = gap ++ (t.text ++ rest) ∧ t.span.start = start.after gap ∧
      next candidates fuel' start' (revise ending n cs) =
        .token ⟨t.kind, revise ending (n + gap.count '\n') t.text,
          ⟨start'.after (revise ending n gap), start'.after (revise ending n (gap ++ t.text))⟩⟩
          (revise ending (n + (gap ++ t.text).count '\n') rest) := by
  induction fuel generalizing fuel' k n cs start start' with
  | zero => cases hnext
  | succ fuel ih =>
    cases fuel' with
    | zero => exact absurd hfuel (Nat.not_lt_zero _)
    | succ fuel' =>
      rw [next] at hnext
      split at hnext
      · cases hnext
      · next hne =>
        have hne' : ¬ (revise ending n cs).isEmpty = true := by
          rw [List.isEmpty_iff] at hne ⊢
          exact revise_ne_nil h.endings.isEnding hne
        rw [next, if_neg hne']
        split at hnext
        · cases hnext
        · next kind text rest hmatch =>
          cases hnext
          obtain ⟨hsplit, -⟩ := follows_match? h.atRest h.ends hmatch
          refine ⟨[], hsplit, rfl, ?_⟩
          rw [h.match? hmatch (fun _ => hrest) fun hl =>
            hkept (Lexeme.token.inj hl) [] hsplit]
          rfl
        · next text rest' hmatch =>
          obtain ⟨hsplit, htext, hrest', -⟩ := follows_match? h.atRest h.ends hmatch
          dsimp only at hsplit htext hrest'
          rw [h.match? hmatch (fun hl => absurd rfl hl) fun hl => by cases hl]
          subst hsplit
          have hlength := List.length_pos_iff.mpr (revise_ne_nil h.endings.isEnding htext (n := n))
          rw [revise_append, List.length_append] at hfuel
          have hfuel' : (revise ending (n + text.count '\n') rest').length < fuel' := by omega
          have hkept' : t.kind = .longString → ∀ gap, rest' = gap ++ (t.text ++ rest) →
              revise ending (n + text.count '\n' + gap.count '\n') t.text = t.text := by
            intro hl gap hgap
            have hkept' := hkept hl (text ++ gap) (by rw [hgap, List.append_assoc])
            rwa [List.count_append, ← Nat.add_assoc] at hkept'
          obtain ⟨gap, hgap, hstart, hread⟩ := ih (h.of_append hrest') hnext hkept' hfuel'
            (start'.after (revise ending n text))
          refine ⟨text ++ gap, by rw [hgap, List.append_assoc], ?_, ?_⟩
          · rw [hstart, Point.after_append]
          · dsimp only
            rw [hread]
            simp only [List.append_assoc, revise_append, Point.after_append, List.count_append,
              Nat.add_assoc]

end Scan
end Starlark
