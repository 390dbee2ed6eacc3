import Mathlib.Data.List.Infix
import Mathlib.Data.List.TakeWhile
import Starlark.Lexer.Scan
import Starlark.Proofs.Literal.Numerals
import Starlark.Proofs.Literal.Quoted

/-! # What a token is read from

The text of a token is read as that token, whatever else is looked for, as long as what follows
cannot be part of it: a name or a numeral is not followed by a word character, a string not by a
quote, and a sign not by a character that makes a longer sign of it.
-/
namespace Starlark

namespace Pattern

theorem literal_append (ks rest : List Char) : literal ks (ks ++ rest) = some (ks, rest) := by
  induction ks with
  | nil => rfl
  | cons k ks ih =>
    rw [List.cons_append, literal, if_pos rfl, ih]
    rfl

theorem prefix_of_literal {ks cs : List Char} (h : literal ks cs ≠ none) : ks <+: cs := by
  induction ks generalizing cs with
  | nil => exact List.nil_prefix
  | cons k ks ih =>
    cases cs with
    | nil => exact absurd rfl h
    | cons c cs =>
      rw [literal] at h
      by_cases hk : k = c
      · rw [if_pos hk] at h
        have hrest : literal ks cs ≠ none := by
          intro hnone
          rw [hnone] at h
          exact h rfl
        rw [hk]
        exact List.cons_prefix_cons.mpr ⟨rfl, ih hrest⟩
      · rw [if_neg hk] at h
        exact absurd rfl h

/-- Does a text not begin with any of some characters? -/
def Avoids (p : Char → Bool) (cs : List Char) : Prop := ∀ c ∈ cs.head?, p c = false

theorem takeWhile_append {p : Char → Bool} {cs rest : List Char} (h : ∀ c ∈ cs, p c = true)
    (hrest : Avoids p rest) :
    (cs ++ rest).takeWhile p = cs ∧ (cs ++ rest).dropWhile p = rest := by
  have hstop : rest.takeWhile p = [] ∧ rest.dropWhile p = rest := by
    cases rest with
    | nil => exact ⟨rfl, rfl⟩
    | cons c rest =>
      have hc : p c = false := hrest c rfl
      simp [hc]
  rw [List.takeWhile_append_of_pos h, List.dropWhile_append_of_pos h, hstop.1, hstop.2,
    List.append_nil]
  exact ⟨rfl, rfl⟩

end Pattern

/-- A text that is a name from its beginning to its end. -/
def Pattern.IsName (cs : List Char) : Prop := name cs = some (cs, [])

namespace Pattern

theorem IsName.exists_cons {cs : List Char} (h : IsName cs) :
    ∃ c ds, cs = c :: ds ∧ (c.isAlpha || c == '_') = true ∧ ∀ d ∈ ds, Text.isWord d = true := by
  cases cs with
  | nil => cases h
  | cons c ds =>
    rw [IsName, name] at h
    split at h
    · next hc =>
      obtain ⟨-, hrest⟩ := Prod.mk.inj (Option.some.inj h)
      exact ⟨c, ds, rfl, hc, List.dropWhile_eq_nil_iff.mp hrest⟩
    · cases h

theorem name_append {cs rest : List Char} (h : IsName cs) (hrest : Avoids Text.isWord rest) :
    name (cs ++ rest) = some (cs, rest) := by
  obtain ⟨c, ds, rfl, hc, hds⟩ := h.exists_cons
  obtain ⟨htake, hdrop⟩ := takeWhile_append hds hrest
  rw [List.cons_append, name, if_pos hc, htake, hdrop]

theorem decimal_append {c : Char} {cs rest : List Char} (hc : c ≠ '0')
    (hdigit : c.isDigit = true) (hcs : ∀ d ∈ cs, Text.isDecimal d = true)
    (hrest : Avoids Text.isDecimal rest) :
    decimal (c :: cs ++ rest) = some (c :: cs, rest) := by
  obtain ⟨htake, hdrop⟩ := takeWhile_append hcs hrest
  rw [List.cons_append, decimal, if_neg hc, if_pos hdigit, htake, hdrop]

end Pattern

namespace Scan
open Pattern

/-- A text is read as a token before a rest, whatever else is looked for. -/
def Reads (kind : Terminal) (text rest : List Char) : Prop :=
  ∀ candidates, kind ∈ candidates →
    match? candidates (text ++ rest) = some (.token kind, text, rest)

/-! ## Words and signs by their spelling -/

/-- The characters by which a longer sign goes on. -/
def extensions (t : Terminal) : List Char :=
  Terminal.spelled.filterMap fun u =>
    if (spelling t).isPrefixOf (spelling u) then ((spelling u).drop (spelling t).length).head?
    else none

theorem spelled_sorted :
    Terminal.spelled.Pairwise fun t u => (spelling u).length ≤ (spelling t).length := by
  decide

theorem spelling_injective : ∀ t ∈ Terminal.spelled, ∀ u ∈ Terminal.spelled,
    spelling t = spelling u → t = u := by
  decide

/-- A sign whose spelling is read from that of another one with its rest is shorter than that. -/
theorem length_lt_of_literal {t u : Terminal} (ht : t ∈ Terminal.spelled)
    (hu : u ∈ Terminal.spelled) (hne : u ≠ t) {rest : List Char}
    (hrest : ∀ c ∈ rest.head?, c ∉ extensions t)
    (h : literal (spelling u) (spelling t ++ rest) ≠ none) :
    (spelling u).length < (spelling t).length := by
  have hprefix := prefix_of_literal h
  by_contra hlength
  have htu : spelling t <+: spelling u :=
    List.prefix_of_prefix_length_le (List.prefix_append _ _) hprefix (Nat.le_of_not_lt hlength)
  obtain ⟨more, hmore⟩ := htu
  cases more with
  | nil =>
    rw [List.append_nil] at hmore
    exact hne (spelling_injective t ht u hu hmore).symm
  | cons c more =>
    rw [← hmore, List.prefix_append_right_inj] at hprefix
    obtain ⟨tail, rfl⟩ := hprefix
    refine hrest c rfl (List.mem_filterMap.mpr ⟨u, hu, ?_⟩)
    rw [← hmore, List.drop_left, if_pos (List.isPrefixOf_iff_prefix.mpr (List.prefix_append _ _))]
    rfl

/-- A candidate sign is read from its spelling, if nothing makes a longer sign of it. -/
theorem sign_spelling {candidates : List Terminal} {t : Terminal}
    (ht : t ∈ spelledCandidates candidates) {rest : List Char}
    (hrest : ∀ c ∈ rest.head?, c ∉ extensions t) :
    sign candidates (spelling t ++ rest) = some (.token t, spelling t, rest) := by
  obtain ⟨before, after, hsplit, hfirst⟩ := List.eq_append_cons_of_mem ht
  have hsorted : (before ++ t :: after).Pairwise
      fun t u => (spelling u).length ≤ (spelling t).length := by
    rw [← hsplit, spelledCandidates]
    exact spelled_sorted.filter _
  have hspelled : ∀ u ∈ before ++ t :: after, u ∈ Terminal.spelled := by
    intro u hu
    rw [← hsplit, spelledCandidates] at hu
    exact (List.mem_filter.mp hu).1
  have hnone : before.findSome? (fun u => (literal (spelling u) (spelling t ++ rest)).map
      fun s => ((.token u, s) : Match)) = none := by
    rw [List.findSome?_eq_none_iff]
    intro u hu
    have hlong : (spelling t).length ≤ (spelling u).length :=
      (List.pairwise_append.mp hsorted).2.2 u hu t List.mem_cons_self
    have hne : u ≠ t := fun h => hfirst (h ▸ hu)
    have hread : literal (spelling u) (spelling t ++ rest) = none := by
      by_contra h
      have := length_lt_of_literal (hspelled t (by simp)) (hspelled u (by simp [hu])) hne hrest h
      omega
    rw [hread, Option.map_none]
  rw [sign, hsplit, List.findSome?_append, hnone, Option.none_or, List.findSome?_cons,
    literal_append]
  rfl

/-! ## The order of the attempts -/

theorem attempt_of_none {candidates : List Terminal} {t : Terminal}
    {p : List Char → Option Split} {cs : List Char} (h : p cs = none) :
    attempt candidates t p cs = none := by
  rw [attempt, h]
  split <;> rfl

/-- Neither a string, nor a line break, nor a continuation begins so. -/
def IsPlain (c : Char) : Prop := c ∉ ['"', '\'', '\n', '\r', '#', '\\']

instance : DecidablePred IsPlain := fun _ => inferInstanceAs (Decidable (¬ _))

/-- What begins neither a numeral with a mark nor a raw string. -/
structure Unmarked (c : Char) (cs : List Char) : Prop where
  radix : c = '0' → ∀ d ∈ cs.head?, d ∉ ['x', 'X', 'o', 'O']
  raw : c = 'r' ∨ c = 'R' → ∀ d ∈ cs.head?, d ≠ '"' ∧ d ≠ '\''

theorem Unmarked.of_ne {c : Char} (h : c ∉ ['0', 'r', 'R']) (cs : List Char) : Unmarked c cs := by
  simp only [List.mem_cons, List.not_mem_nil, or_false, not_or] at h
  refine ⟨fun hc => absurd hc h.1, ?_⟩
  rintro (hc | hc)
  · exact absurd hc h.2.1
  · exact absurd hc h.2.2

section Patterns
variable {c : Char} {cs : List Char}

theorem openShort_of_plain (h : c ≠ '"' ∧ c ≠ '\'') : openShort (c :: cs) = none := by
  rw [openShort, if_neg]
  rintro ⟨rfl | rfl, -⟩
  · exact h.1 rfl
  · exact h.2 rfl

theorem openLong_of_plain (h : c ≠ '"' ∧ c ≠ '\'') : openLong (c :: cs) = none := by
  unfold openLong
  split
  · next heq =>
    cases heq
    rw [if_neg]
    rintro ⟨rfl | rfl, -⟩
    · exact h.1 rfl
    · exact h.2 rfl
  · rfl

theorem maybeRaw_of_plain {p : List Char → Option Split} (hnil : p [] = none)
    (hp : ∀ d ds, d ≠ '"' ∧ d ≠ '\'' → p (d :: ds) = none) (hc : c ≠ '"' ∧ c ≠ '\'')
    (hmarks : Unmarked c cs) : maybeRaw p (c :: cs) = none := by
  rw [maybeRaw]
  split
  · next hmark =>
    cases cs with
    | nil => rw [hnil, Option.map_none]
    | cons d ds => rw [hp d ds (hmarks.raw hmark d rfl), Option.map_none]
  · exact hp c cs hc

/-- What begins neither so nor with a quote is no literal but maybe a decimal numeral. -/
theorem no_literal_of_unmarked (hquote : c ≠ '"' ∧ c ≠ '\'') (hmarks : Unmarked c cs) :
    hexadecimal (c :: cs) = none ∧ octal (c :: cs) = none ∧ string (c :: cs) = none ∧
      longString (c :: cs) = none := by
  refine ⟨?_, ?_, maybeRaw_of_plain rfl (fun _ _ => openShort_of_plain) hquote hmarks,
    maybeRaw_of_plain rfl (fun _ _ => openLong_of_plain) hquote hmarks⟩
  · unfold hexadecimal
    split
    · next heq =>
      cases heq
      rw [if_neg]
      rintro (rfl | rfl)
      · exact hmarks.radix rfl _ rfl (by simp)
      · exact hmarks.radix rfl _ rfl (by simp)
    · rfl
  · unfold octal
    split
    · next heq =>
      cases heq
      rw [if_neg]
      rintro (rfl | rfl)
      · exact hmarks.radix rfl _ rfl (by simp)
      · exact hmarks.radix rfl _ rfl (by simp)
    · rfl

/-- A text that begins plainly is a word, a decimal numeral, a blank or a sign. -/
theorem match?_of_plain (hc : IsPlain c) (hmarks : Unmarked c cs) (candidates : List Terminal) :
    match? candidates (c :: cs) = (word candidates (c :: cs)
      <|> attempt candidates .decimal decimal (c :: cs)
      <|> (blank (c :: cs)).map (fun s => (Lexeme.between, s)) <|> sign candidates (c :: cs)) := by
  simp only [IsPlain, List.mem_cons, List.not_mem_nil, or_false, not_or] at hc
  obtain ⟨hdouble, hsingle, hline, hreturn, hcomment, hslash⟩ := hc
  obtain ⟨hhexadecimal, hoctal, hstring, hlong⟩ := no_literal_of_unmarked ⟨hdouble, hsingle⟩ hmarks
  have hnewline : newline (c :: cs) = none := by
    unfold newline
    split
    · next heq => exact absurd (List.cons.inj heq).1 hline
    · next heq => exact absurd (List.cons.inj heq).1 hreturn
    · next heq => exact absurd (List.cons.inj heq).1 hcomment
    · rfl
  have hcontinuation : continuation (c :: cs) = none := by
    unfold continuation
    split
    · next heq => exact absurd (List.cons.inj heq).1 hslash
    · rfl
  rw [match?, attempt_of_none hhexadecimal, attempt_of_none hoctal, attempt_of_none hstring,
    attempt_of_none hlong, hnewline, hcontinuation]
  rfl

/-- Line breaks and comments are read wherever they begin. -/
theorem match?_of_newline {s : Split} (h : newline cs = some s) (candidates : List Terminal) :
    match? candidates cs = some (.token .newline, s) := by
  obtain ⟨c, ds, rfl, hc⟩ : ∃ c ds, cs = c :: ds ∧ c ∈ ['\n', '\r', '#'] := by
    rw [newline.eq_def] at h
    split at h
    · exact ⟨_, _, rfl, by decide⟩
    · exact ⟨_, _, rfl, by decide⟩
    · exact ⟨_, _, rfl, by decide⟩
    · cases h
  have hplain : ∀ c ∈ ['\n', '\r', '#'], (c ≠ '"' ∧ c ≠ '\'') ∧ c ∉ ['0', 'r', 'R'] :=
    List.all_iff_forall_prop.mp (by decide)
  obtain ⟨hhexadecimal, hoctal, hstring, hlong⟩ :=
    no_literal_of_unmarked (hplain c hc).1 (.of_ne (hplain c hc).2 ds)
  rw [match?, attempt_of_none hhexadecimal, attempt_of_none hoctal, attempt_of_none hstring,
    attempt_of_none hlong, h]
  rfl

theorem word_of_not_name (h : (c.isAlpha || c == '_') = false) (candidates : List Terminal) :
    word candidates (c :: cs) = none := by
  rw [word, name, h]
  split <;> rfl

theorem decimal_of_not_digit (h : c.isDigit = false) (hzero : c ≠ '0') :
    decimal (c :: cs) = none := by
  rw [decimal, if_neg hzero, h]
  rfl

theorem blank_of_not_blank (h : isBlank c = false) : blank (c :: cs) = none := by
  rw [blank, some?, List.takeWhile_cons, h]
  rfl

end Patterns

/-! ## Each kind of token -/

theorem match?_newline (candidates : List Terminal) :
    match? candidates ['\n'] = some (.token .newline, ['\n'], []) :=
  match?_of_newline rfl candidates

/-- Blanks before something else are passed over by themselves. -/
theorem match?_blanks (candidates : List Terminal) {blanks rest : List Char}
    (h : ∀ c ∈ blanks, c = ' ' ∨ c = '\t') (hne : blanks ≠ []) (hrest : Avoids isBlank rest) :
    match? candidates (blanks ++ rest) = some (.between, blanks, rest) := by
  have hall : ∀ c ∈ blanks, isBlank c = true := by
    intro c hc
    rcases h c hc with rfl | rfl
    · rfl
    · rfl
  have hblank : blank (blanks ++ rest) = some (blanks, rest) := by
    obtain ⟨htake, hdrop⟩ := takeWhile_append hall hrest
    rw [blank, some?, htake, hdrop]
    cases blanks with
    | nil => exact absurd rfl hne
    | cons c blanks => rfl
  cases blanks with
  | nil => exact absurd rfl hne
  | cons c blanks =>
    rw [List.cons_append] at hblank ⊢
    rcases h c List.mem_cons_self with rfl | rfl
    all_goals
      rw [match?_of_plain (by decide) (.of_ne (by decide) _), word_of_not_name rfl,
        attempt_of_none (decimal_of_not_digit rfl (by decide)), hblank]
      rfl

/-- A blank before something else is passed over by itself. -/
theorem match?_blank (candidates : List Terminal) {rest : List Char}
    (hrest : Avoids isBlank rest) :
    match? candidates (' ' :: rest) = some (.between, [' '], rest) :=
  match?_blanks candidates (List.forall_mem_singleton.mpr (.inl rfl)) (List.cons_ne_nil _ _) hrest

/-- The characters that may follow an operand or a word. -/
def closers : List Char := [' ', ')', ']', '}', ',', ':', ';', '.', '[', '(', '=', '\n']

def Closes (rest : List Char) : Prop := ∀ c ∈ rest.head?, c ∈ closers

theorem Closes.avoids {rest : List Char} (h : Closes rest) {p : Char → Bool}
    (hp : closers.any p = false) : Avoids p rest :=
  fun c hc => Bool.eq_false_of_not_eq_true (List.any_eq_false.mp hp c (h c hc))

theorem reads_string (s : String) {rest : List Char} (h : Closes rest) :
    Reads .string (quoted s).toList rest := by
  intro candidates hcandidate
  have hrest : rest.head? ≠ some '"' := by
    intro hquote
    exact absurd (h '"' hquote) (by decide)
  have hstring := string_quoted s hrest
  rw [quoted_toList, List.cons_append] at hstring ⊢
  rw [match?, attempt_of_none rfl, attempt_of_none rfl, attempt, if_pos hcandidate, hstring]
  rfl

theorem decimalText_cases (n : Nat) :
    decimalText n = ['0'] ∨ ∃ c cs, decimalText n = c :: cs ∧ c ≠ '0' := by
  induction n using Nat.strongRecOn with
  | ind n ih =>
    rw [decimalText, Nat.toDigits_eq_if (by decide)]
    have hdigit : ∀ d < 10, d ≠ 0 → Nat.digitChar d ≠ '0' := by decide
    split
    · next hsmall =>
      by_cases hn : n = 0
      · exact Or.inl (by rw [hn]; rfl)
      · exact Or.inr ⟨_, [], rfl, hdigit n hsmall hn⟩
    · next hlarge =>
      rcases ih (n / 10) (by omega) with hzero | ⟨c, cs, hcs, hc⟩
      · have hone : n / 10 = 0 := by
          have hread := Nat.ofDigitChars_toDigits (b := 10) (n := n / 10) (by decide) (by decide)
          rw [← hread, ← decimalText, hzero]
          rfl
        omega
      · refine Or.inr ⟨c, cs ++ [Nat.digitChar (n % 10)], ?_, hc⟩
        rw [← decimalText, hcs, List.cons_append]

theorem reads_decimal (n : Nat) {rest : List Char} (h : Closes rest) :
    Reads .decimal (decimalText n) rest := by
  intro candidates hcandidate
  have hdigits := decimalText_digits n
  have hclass : ∀ c ∈ asciiDigits, c.isDigit = true ∧ Text.isDecimal c = true ∧ IsPlain c ∧
      c ∉ ['r', 'R'] ∧ (c.isAlpha || c == '_') = false :=
    List.all_iff_forall_prop.mp (by decide)
  obtain ⟨c, cs, hcs, hmarks, hread⟩ : ∃ c cs, decimalText n = c :: cs ∧
      Unmarked c (cs ++ rest) ∧ decimal (c :: (cs ++ rest)) = some (c :: cs, rest) := by
    rcases decimalText_cases n with hzero | ⟨c, cs, hcs, hc⟩
    · refine ⟨'0', [], hzero, ⟨fun _ d hd => ?_, nofun⟩, rfl⟩
      have hclosers : ∀ d ∈ closers, d ∉ ['x', 'X', 'o', 'O'] :=
        List.all_iff_forall_prop.mp (by decide)
      exact hclosers d (h d hd)
    · rw [hcs, List.forall_mem_cons] at hdigits
      obtain ⟨hdigit, -, -, hraw, -⟩ := hclass c hdigits.1
      refine ⟨c, cs, hcs, .of_ne ?_ _, ?_⟩
      · exact fun hmem => (List.mem_cons.mp hmem).elim hc hraw
      · exact decimal_append hc hdigit (fun d hd => (hclass d (hdigits.2 d hd)).2.1)
          (h.avoids (by decide))
  rw [hcs] at hdigits ⊢
  obtain ⟨-, -, hplain, -, hname⟩ := hclass c (hdigits c List.mem_cons_self)
  rw [List.cons_append, match?_of_plain hplain hmarks, word_of_not_name hname, attempt,
    if_pos hcandidate, hread]
  rfl

theorem reads_hexadecimal (n : Nat) {rest : List Char} (h : Closes rest) :
    Reads .hexadecimal (hexadecimalNumeral n) rest := by
  intro candidates hcandidate
  have hdigit : ∀ c ∈ hexadecimalDigits, isHexDigit c = true :=
    List.all_iff_forall_prop.mp (by decide)
  have hsome : some? isHexDigit (hexadecimalText n ++ rest) = some (hexadecimalText n, rest) := by
    obtain ⟨htake, hdrop⟩ := takeWhile_append
      (fun c hc => hdigit c (hexadecimalText_digits n c hc)) (h.avoids (by decide))
    rw [some?, htake, hdrop]
    split
    · next hnil => exact absurd hnil (hexadecimalText_ne_nil n)
    · next htext => rw [htext]
  have hread : hexadecimal (hexadecimalNumeral n ++ rest) =
      some (hexadecimalNumeral n, rest) := by
    rw [hexadecimalNumeral, List.cons_append, List.cons_append, hexadecimal, if_pos (.inl rfl),
      hsome]
    rfl
  rw [match?, attempt, if_pos hcandidate, hread]
  rfl

/-- A sign, whose first character begins nothing else. -/
def IsSign (t : Terminal) : Prop :=
  t ∈ Terminal.spelled ∧ t ∉ keywords ∧ ∃ c cs, spelling t = c :: cs ∧ IsPlain c ∧
    c ∉ ['0', 'r', 'R'] ∧ (c.isAlpha || c == '_') = false ∧ c.isDigit = false ∧ isBlank c = false

theorem reads_sign {t : Terminal} (ht : IsSign t) {rest : List Char}
    (h : ∀ c ∈ rest.head?, c ∉ extensions t) : Reads t (spelling t) rest := by
  intro candidates hcandidate
  obtain ⟨hspelled, hkeyword, c, cs, hspelling, hplain, hmarks, hname, hdigit, hblank⟩ := ht
  have hsign : t ∈ spelledCandidates candidates := by
    simp [spelledCandidates, hspelled, hcandidate, hkeyword]
  have hzero : c ≠ '0' := by
    rintro rfl
    exact hmarks List.mem_cons_self
  rw [← sign_spelling hsign h, hspelling, List.cons_append,
    match?_of_plain hplain (.of_ne hmarks _), word_of_not_name hname,
    attempt_of_none (decimal_of_not_digit hdigit hzero), blank_of_not_blank hblank]
  rfl

/-- What begins a name begins nothing else. -/
theorem letter_cases {c : Char} (hc : (c.isAlpha || c == '_') = true) :
    IsPlain c ∧ c ≠ '0' ∧ c.isDigit = false ∧ isBlank c = false := by
  have hother : ∀ d ∈ ['"', '\'', '\n', '\r', '#', '\\', '\t', ' ', '\x0c'] ++ asciiDigits,
      (d.isAlpha || d == '_') = false :=
    List.all_iff_forall_prop.mp (by decide)
  have hne : ∀ d ∈ ['"', '\'', '\n', '\r', '#', '\\', '\t', ' ', '\x0c'] ++ asciiDigits,
      c ≠ d := by
    rintro d hd rfl
    rw [hother c hd] at hc
    cases hc
  refine ⟨?_, hne '0' (by decide), ?_, ?_⟩
  · intro hmem
    refine hne c (List.mem_append_left _ ?_) rfl
    exact (List.sublist_append_left ['"', '\'', '\n', '\r', '#', '\\'] _).subset hmem
  · by_contra hdigit
    have hmem := mem_asciiDigits (Bool.eq_true_of_not_eq_false hdigit)
    exact hne c (List.mem_append_right _ hmem) rfl
  · simp [isBlank, hne '\t' (by decide), hne ' ' (by decide), hne '\x0c' (by decide)]

theorem unmarked_name {c : Char} {ds rest : List Char} (hname : IsName (c :: ds))
    (h : Closes rest) : Unmarked c (ds ++ rest) := by
  obtain ⟨_, _, heq, hc, hds⟩ := hname.exists_cons
  obtain ⟨rfl, rfl⟩ := List.cons.inj heq
  refine ⟨fun hzero => absurd hzero (letter_cases hc).2.1, fun _ d hd => ?_⟩
  have hquote : d ∉ ['"', '\''] := by
    cases ds with
    | nil =>
      have hclosers : ∀ d ∈ closers, d ∉ ['"', '\''] :=
        List.all_iff_forall_prop.mp (by decide)
      exact hclosers d (h d hd)
    | cons e ds =>
      have hwords : ∀ d ∈ ['"', '\''], Text.isWord d = false :=
        List.all_iff_forall_prop.mp (by decide)
      obtain rfl : e = d := Option.some.inj hd
      have he := hds e List.mem_cons_self
      intro hmem
      rw [hwords e hmem] at he
      cases he
  simpa using hquote

/-- A word is read to its end where a name is looked for, and else by its spelling. -/
theorem match?_word {cs rest : List Char} (hname : IsName cs) (h : Closes rest)
    (candidates : List Terminal) :
    match? candidates (cs ++ rest) =
      if .name ∈ candidates then some (.token (wordKind candidates cs), cs, rest)
      else sign candidates (cs ++ rest) := by
  have happend := name_append hname (h.avoids (by decide))
  obtain ⟨c, ds, rfl, hc, -⟩ := hname.exists_cons
  obtain ⟨hplain, hzero, hdigit, hblank⟩ := letter_cases hc
  rw [List.cons_append] at happend ⊢
  rw [match?_of_plain hplain (unmarked_name hname h),
    attempt_of_none (decimal_of_not_digit hdigit hzero), blank_of_not_blank hblank, word, happend]
  split
  · rfl
  · rfl

theorem reads_name {cs rest : List Char} (hname : IsName cs)
    (hkeyword : ∀ t ∈ keywords, spelling t ≠ cs) (h : Closes rest) : Reads .name cs rest := by
  intro candidates hcandidate
  have hkind : wordKind candidates cs = .name := by
    rw [wordKind, List.find?_eq_none.mpr, Option.getD_none]
    intro t ht
    simpa using hkeyword t (List.mem_filter.mp ht).1
  rw [match?_word hname h, if_pos hcandidate, hkind]

theorem reads_keyword {t : Terminal} (ht : t ∈ keywords) {rest : List Char} (h : Closes rest) :
    Reads t (spelling t) rest := by
  intro candidates hcandidate
  have hname : ∀ t ∈ keywords, name (spelling t) = some (spelling t, []) := by decide
  have hspelled : ∀ t ∈ keywords, t ∈ Terminal.spelled := by decide
  have hextensions : ∀ t ∈ keywords, extensions t = [] := by decide
  rw [match?_word (hname t ht) h]
  split
  · next hcandidates =>
    have hkind : wordKind candidates (spelling t) = t := by
      rw [wordKind]
      cases hfind : (keywords.filter (· ∈ candidates)).find? fun u => spelling u = spelling t with
      | none =>
        have hnone := List.find?_eq_none.mp hfind t (by simp [ht, hcandidate])
        simp at hnone
      | some u =>
        have hu := (List.mem_filter.mp (List.mem_of_find?_eq_some hfind)).1
        have hsame : spelling u = spelling t := by simpa using List.find?_some hfind
        exact spelling_injective u (hspelled u hu) t (hspelled t ht) hsame
    rw [hkind]
  · next hcandidates =>
    refine sign_spelling ?_ ?_
    · simp [spelledCandidates, hspelled t ht, hcandidate, hcandidates]
    · rw [hextensions t ht]
      exact fun c _ => List.not_mem_nil

end Scan
end Starlark
