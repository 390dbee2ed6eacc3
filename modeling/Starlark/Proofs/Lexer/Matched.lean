import Starlark.Proofs.Lexer.InStep

/-! # What is looked for is found

Every match is of a kind that is looked for, or of a line break or of text between tokens. And
where no candidate matches, what is found among all kinds of token is none of the candidates.
-/
namespace Starlark.Scan
open Pattern

variable {candidates : List Terminal} {cs text rest : List Char} {kind : Terminal}

theorem attempt_eq_some {t : Terminal} {p : List Char → Option Split} {m : Match} :
    attempt candidates t p cs = some m ↔
      t ∈ candidates ∧ ∃ s, p cs = some s ∧ m = (.token t, s) := by
  rw [attempt]
  split
  · next ht =>
    rw [Option.map_eq_some_iff]
    constructor
    · rintro ⟨s, hs, rfl⟩
      exact ⟨ht, s, hs, rfl⟩
    · rintro ⟨-, s, hs, rfl⟩
      exact ⟨s, hs, rfl⟩
  · next ht =>
    constructor
    · intro h
      cases h
    · intro h
      exact absurd h.1 ht

theorem spelling_wordKind (h : wordKind candidates text ∈ keywords) :
    spelling (wordKind candidates text) = text := by
  rw [wordKind] at h ⊢
  cases hfind : (keywords.filter (· ∈ candidates)).find? fun t => spelling t = text with
  | none =>
    rw [hfind] at h
    exact absurd h (by decide)
  | some t => simpa using List.find?_some hfind

theorem wordKind_mem_candidates (h : Terminal.name ∈ candidates) :
    wordKind candidates text ∈ candidates := by
  rw [wordKind]
  cases hfind : (keywords.filter (· ∈ candidates)).find? fun t => spelling t = text with
  | none => exact h
  | some t => simpa using (List.mem_filter.mp (List.mem_of_find?_eq_some hfind)).2

theorem sign_ne_none {t : Terminal} (ht : t ∈ spelledCandidates candidates) (rest : List Char) :
    sign candidates (spelling t ++ rest) ≠ none := by
  intro hnone
  have hliteral := List.findSome?_eq_none_iff.mp hnone t ht
  rw [literal_append] at hliteral
  cases hliteral

theorem mem_spelledCandidates {t : Terminal} (ht : t ∈ Terminal.spelled) (hc : t ∈ candidates)
    (hword : Terminal.name ∈ candidates → t ∉ keywords) : t ∈ spelledCandidates candidates := by
  refine List.mem_filter.mpr ⟨ht, ?_⟩
  by_cases hname : Terminal.name ∈ candidates
  · simp [hc, hname, hword hname]
  · simp [hc, hname]

/-- What a match of a token is a match of. -/
theorem match?_token (h : match? candidates cs = some (.token kind, text, rest)) :
    kind = .newline ∧ newline cs = some (text, rest) ∨
    kind ∈ candidates ∧
      (kind = .hexadecimal ∧ hexadecimal cs = some (text, rest) ∨
        kind = .octal ∧ octal cs = some (text, rest) ∨
        kind = .string ∧ string cs = some (text, rest) ∨
        kind = .longString ∧ longString cs = some (text, rest) ∨
        kind = .decimal ∧ decimal cs = some (text, rest) ∨
        Terminal.name ∈ candidates ∧ name cs = some (text, rest) ∧
          kind = wordKind candidates text ∨
        kind ∈ spelledCandidates candidates ∧ text = spelling kind ∧ cs = text ++ rest) := by
  simp only [match?, Option.orElse_eq_orElse, Option.orElse_eq_or, Option.or_eq_some_iff] at h
  obtain h | ⟨-, h | ⟨-, h | ⟨-, h | ⟨-, h | ⟨-, h | ⟨-, h | ⟨-, h | ⟨-, h | ⟨-, h⟩⟩⟩⟩⟩⟩⟩⟩⟩ := h
  · obtain ⟨hc, _, hs, ⟨⟩⟩ := attempt_eq_some.mp h
    exact .inr ⟨hc, .inl ⟨rfl, hs⟩⟩
  · obtain ⟨hc, _, hs, ⟨⟩⟩ := attempt_eq_some.mp h
    exact .inr ⟨hc, .inr (.inl ⟨rfl, hs⟩)⟩
  · obtain ⟨hc, _, hs, ⟨⟩⟩ := attempt_eq_some.mp h
    exact .inr ⟨hc, .inr (.inr (.inl ⟨rfl, hs⟩))⟩
  · obtain ⟨hc, _, hs, ⟨⟩⟩ := attempt_eq_some.mp h
    exact .inr ⟨hc, .inr (.inr (.inr (.inl ⟨rfl, hs⟩)))⟩
  · obtain ⟨_, hs, ⟨⟩⟩ := Option.map_eq_some_iff.mp h
    exact .inl ⟨rfl, hs⟩
  · rw [word] at h
    split at h
    · next hname =>
      obtain ⟨_, hs, ⟨⟩⟩ := Option.map_eq_some_iff.mp h
      exact .inr ⟨wordKind_mem_candidates hname,
        .inr (.inr (.inr (.inr (.inr (.inl ⟨hname, hs, rfl⟩)))))⟩
    · cases h
  · obtain ⟨_, _, ⟨⟩⟩ := Option.map_eq_some_iff.mp h
  · obtain ⟨hc, _, hs, ⟨⟩⟩ := attempt_eq_some.mp h
    exact .inr ⟨hc, .inr (.inr (.inr (.inr (.inl ⟨rfl, hs⟩))))⟩
  · obtain ⟨_, _, ⟨⟩⟩ := Option.map_eq_some_iff.mp h
  · obtain ⟨t, ht, hsign⟩ := List.exists_of_findSome?_eq_some h
    obtain ⟨_, hs, ⟨⟩⟩ := Option.map_eq_some_iff.mp hsign
    obtain ⟨rfl, hcs⟩ := Cursor.literal_eq_some hs
    have hc : kind ∈ candidates := by
      have hmem := (List.mem_filter.mp ht).2
      simp only [Bool.and_eq_true, decide_eq_true_eq] at hmem
      exact hmem.1
    exact .inr ⟨hc, .inr (.inr (.inr (.inr (.inr (.inr ⟨ht, rfl, hcs⟩)))))⟩

/-- A line break is always looked for. -/
theorem kind_of_match? (h : match? candidates cs = some (.token kind, text, rest)) :
    kind ∈ Terminal.newline :: candidates ∧ kind ∉ [Terminal.indent, .dedent, .endOfInput] := by
  have hword : ∀ t ∈ Terminal.name :: keywords, t ∉ [Terminal.indent, .dedent, .endOfInput] := by
    decide
  have hspelled : ∀ t ∈ Terminal.spelled, t ∉ [Terminal.indent, .dedent, .endOfInput] := by
    decide
  rcases match?_token h with ⟨rfl, -⟩ | ⟨hc, h⟩
  · exact ⟨List.mem_cons_self, by decide⟩
  · refine ⟨List.mem_cons_of_mem _ hc, ?_⟩
    obtain ⟨rfl, -⟩ | ⟨rfl, -⟩ | ⟨rfl, -⟩ | ⟨rfl, -⟩ | ⟨rfl, -⟩ | ⟨-, -, rfl⟩ | ⟨ht, -⟩ := h
    · decide
    · decide
    · decide
    · decide
    · decide
    · exact hword _ (Cursor.wordKind_mem candidates text)
    · exact hspelled _ (List.mem_filter.mp ht).1

/-- Where no candidate matches, whatever matches is no candidate. -/
theorem not_mem_of_match?_eq_none {others : List Terminal} (h : match? candidates cs = none)
    (hother : match? others cs = some (.token kind, text, rest)) (hname : Terminal.name ∈ others) :
    kind ∉ candidates := by
  simp only [match?, Option.orElse_eq_orElse, Option.orElse_eq_or, Option.or_eq_none_iff,
    Option.map_eq_none_iff] at h
  obtain ⟨hhexadecimal, hoctal, hstring, hlongString, hnewline, hword, -, hdecimal, -, hsign⟩ := h
  have hattempt : ∀ {p : List Char → Option Split}, attempt candidates kind p cs = none →
      p cs = some (text, rest) → kind ∉ candidates := by
    intro p hnone hp hc
    rw [attempt, if_pos hc, hp] at hnone
    cases hnone
  rcases match?_token hother with ⟨rfl, hmatch⟩ | ⟨-, hmatch⟩
  · rw [hnewline] at hmatch
    cases hmatch
  · obtain ⟨rfl, hmatch⟩ | ⟨rfl, hmatch⟩ | ⟨rfl, hmatch⟩ | ⟨rfl, hmatch⟩ | ⟨rfl, hmatch⟩ |
      ⟨-, hmatch, rfl⟩ | ⟨ht, rfl, rfl⟩ := hmatch
    · exact hattempt hhexadecimal hmatch
    · exact hattempt hoctal hmatch
    · exact hattempt hstring hmatch
    · exact hattempt hlongString hmatch
    · exact hattempt hdecimal hmatch
    · -- A word that is found stands for a name, or is a sign where no name is looked for.
      have hnoname : Terminal.name ∉ candidates := by
        intro hc
        rw [word, if_pos hc, hmatch] at hword
        cases hword
      intro hc
      have hkeyword : wordKind others text ∈ keywords := by
        rcases List.mem_cons.mp (Cursor.wordKind_mem others text) with hkind | hkind
        · exact absurd (hkind ▸ hc) hnoname
        · exact hkind
      have hspelled : ∀ t ∈ keywords, t ∈ Terminal.spelled := by decide
      have hcandidate := mem_spelledCandidates (hspelled _ hkeyword) hc fun h => absurd h hnoname
      have hsplit := (Cursor.matchesInert_name _ _ _ hmatch).1
      rw [hsplit, ← spelling_wordKind hkeyword] at hsign
      exact sign_ne_none hcandidate rest hsign
    · intro hc
      have hmem := List.mem_filter.mp ht
      have hkeyword : kind ∉ keywords := by
        intro hkeyword
        have hnot := hmem.2
        simp [hname, hkeyword] at hnot
      exact sign_ne_none (mem_spelledCandidates hmem.1 hc fun _ => hkeyword) rest hsign

theorem split_of_match? {l : Lexeme} (h : match? candidates cs = some (l, text, rest))
    (hends : Cursor.EndsLines cs) : cs = text ++ rest :=
  (Cursor.follows_match? (k := .start) (fun _ _ => rfl) hends h).split

/-- A token that is scanned was matched where it stands. -/
theorem match?_of_next {fuel : Nat} {start : Point} {t : Token}
    (h : next candidates fuel start cs = .token t rest) (hends : Cursor.EndsLines cs) :
    match? candidates (t.text ++ rest) = some (.token t.kind, t.text, rest) := by
  induction fuel generalizing start cs with
  | zero => cases h
  | succ fuel ih =>
    rw [next] at h
    split at h
    · cases h
    · split at h
      · cases h
      · next hmatch =>
        cases h
        dsimp only
        rwa [← split_of_match? hmatch hends]
      · next hmatch =>
        obtain rfl := split_of_match? hmatch hends
        exact ih h hends.of_append

/-- Where the scanner is stuck no candidate matches. -/
theorem exists_gap_of_stuck {fuel : Nat} {start place : Point}
    (h : next candidates fuel start cs = .stuck place rest) (hends : Cursor.EndsLines cs) :
    ∃ gap, cs = gap ++ rest ∧ place = start.after gap ∧ match? candidates rest = none := by
  induction fuel generalizing start cs with
  | zero => cases h
  | succ fuel ih =>
    rw [next] at h
    split at h
    · cases h
    · split at h
      · next hmatch =>
        cases h
        exact ⟨[], rfl, rfl, hmatch⟩
      · cases h
      · next text rest' hmatch =>
        obtain rfl := split_of_match? hmatch hends
        obtain ⟨gap, rfl, hplace, hnone⟩ := ih h hends.of_append
        refine ⟨text ++ gap, (List.append_assoc ..).symm, ?_, hnone⟩
        rw [hplace, Point.after_append]

/-! ## The last character of a token -/

theorem getLast?_closeShort {quote : Char} {escaped : Bool}
    (h : closeShort quote escaped cs = some (text, rest)) : text.getLast? = some quote := by
  induction cs generalizing escaped text with
  | nil => cases h
  | cons c cs ih =>
    rw [closeShort] at h
    split at h
    · cases h
    · split at h
      · next hclose =>
        cases h
        exact congrArg some hclose.1
      · obtain ⟨⟨body, tail⟩, hbody, heq⟩ := Option.map_eq_some_iff.mp h
        cases heq
        rw [List.getLast?_cons, ih hbody, Option.getD_some]

theorem getLast?_closeLong {quote : Char} {escaped : Bool}
    (h : closeLong quote escaped cs = some (text, rest)) : text.getLast? = some quote := by
  induction cs generalizing escaped text with
  | nil => cases h
  | cons a cs ih =>
    obtain _ | ⟨b, _ | ⟨c, cs⟩⟩ := cs
    · cases h
    · cases h
    · rw [closeLong] at h
      split at h
      · next hclose =>
        cases h
        exact congrArg some hclose.2.2.1
      · obtain ⟨⟨body, tail⟩, hbody, heq⟩ := Option.map_eq_some_iff.mp h
        cases heq
        rw [List.getLast?_cons, ih hbody, Option.getD_some]

/-- Does a text end inside a line? -/
def EndsInLine (text : List Char) : Prop := ∃ c, text.getLast? = some c ∧ c ≠ '\n'

theorem EndsInLine.cons (h : EndsInLine text) (c : Char) : EndsInLine (c :: text) := by
  obtain ⟨d, hd, hline⟩ := h
  exact ⟨d, by rw [List.getLast?_cons, hd, Option.getD_some], hline⟩

theorem endsInLine_openShort (h : openShort cs = some (text, rest)) : EndsInLine text := by
  cases cs with
  | nil => cases h
  | cons quote cs =>
    rw [openShort] at h
    split at h
    · next hquote =>
      obtain ⟨⟨body, tail⟩, hbody, heq⟩ := Option.map_eq_some_iff.mp h
      cases heq
      exact .cons ⟨quote, getLast?_closeShort hbody, Cursor.ne_newline hquote.1⟩ quote
    · cases h

theorem endsInLine_openLong (h : openLong cs = some (text, rest)) : EndsInLine text := by
  rw [openLong.eq_def] at h
  split at h
  · split at h
    · next hquotes =>
      obtain ⟨⟨body, tail⟩, hbody, heq⟩ := Option.map_eq_some_iff.mp h
      cases heq
      exact .cons (.cons (.cons ⟨_, getLast?_closeLong hbody, Cursor.ne_newline hquotes.1⟩ _) _) _
    · cases h
  · cases h

theorem endsInLine_maybeRaw {p : List Char → Option Split}
    (hp : ∀ {cs text rest : List Char}, p cs = some (text, rest) → EndsInLine text)
    (h : maybeRaw p cs = some (text, rest)) : EndsInLine text := by
  cases cs with
  | nil => cases h
  | cons c cs =>
    rw [maybeRaw] at h
    split at h
    · obtain ⟨⟨body, tail⟩, hbody, heq⟩ := Option.map_eq_some_iff.mp h
      cases heq
      exact (hp hbody).cons c
    · exact hp h

theorem endsInLine_inert {p : List Char → Option Split} (hp : Cursor.MatchesInert p)
    (h : p cs = some (text, rest)) : EndsInLine text := by
  obtain ⟨-, hne, hinert⟩ := hp _ _ _ h
  refine ⟨text.getLast hne, List.getLast?_eq_some_getLast hne, fun hline => ?_⟩
  have hlast := hinert _ (List.getLast_mem hne)
  rw [hline] at hlast
  exact absurd hlast (by decide)

/-- Every token but a line break ends inside a line. -/
theorem endsInLine_of_match? (h : match? candidates cs = some (.token kind, text, rest))
    (hkind : kind ≠ .newline) : EndsInLine text := by
  have hspelled : ∀ t ∈ Terminal.spelled, ((spelling t).getLast?.any (· ≠ '\n')) = true := by decide
  rcases match?_token h with ⟨rfl, -⟩ | ⟨-, ⟨-, h⟩ | ⟨-, h⟩ | ⟨-, h⟩ | ⟨-, h⟩ | ⟨-, h⟩ |
    ⟨-, h, -⟩ | ⟨ht, rfl, -⟩⟩
  · exact absurd rfl hkind
  · exact endsInLine_inert Cursor.matchesInert_hexadecimal h
  · exact endsInLine_inert Cursor.matchesInert_octal h
  · exact endsInLine_maybeRaw endsInLine_openShort h
  · exact endsInLine_maybeRaw endsInLine_openLong h
  · exact endsInLine_inert Cursor.matchesInert_decimal h
  · exact endsInLine_inert Cursor.matchesInert_name h
  · simpa [EndsInLine, Option.any_eq_true] using hspelled _ (List.mem_filter.mp ht).1

end Starlark.Scan
