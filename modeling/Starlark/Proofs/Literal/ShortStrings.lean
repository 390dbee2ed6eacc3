import Mathlib.Data.List.Induction
import Starlark.Proofs.Literal.Quoted

/-! # Short strings by their regular expression

The scanner closes a short string at the first quote that no backslash escapes. The regular
expression of these tokens says it otherwise: after a quote that two more do not follow, as few
characters as possible, of which the last is no backslash, then pairs of backslashes and the quote.
Both give the same token, and a quoted text is one.
-/
namespace Starlark.Pattern

/-! ## Escaped places -/

variable {cs : List Char}

/-- Whether the character after a text is escaped. -/
def escapedAfter (escaped : Bool) (cs : List Char) : Bool :=
  cs.foldl (fun escaped c => c == '\\' && !escaped) escaped

@[simp] theorem escapedAfter_nil (escaped : Bool) : escapedAfter escaped [] = escaped := rfl

@[simp] theorem escapedAfter_cons (escaped : Bool) (c : Char) (cs : List Char) :
    escapedAfter escaped (c :: cs) = escapedAfter (c == '\\' && !escaped) cs := rfl

theorem escapedAfter_append (escaped : Bool) (xs ys : List Char) :
    escapedAfter escaped (xs ++ ys) = escapedAfter (escapedAfter escaped xs) ys :=
  List.foldl_append

theorem escapedAfter_replicate (escaped : Bool) (n : Nat) :
    escapedAfter escaped (List.replicate n '\\') = (escaped ^^ n % 2 == 1) := by
  induction n generalizing escaped with
  | zero => simp
  | succ n ih =>
    rw [List.replicate_succ, escapedAfter_cons, ih]
    rcases Nat.mod_two_eq_zero_or_one n with h | h
    · have hsucc : (n + 1) % 2 = 1 := by omega
      simp [h, hsucc]
    · have hsucc : (n + 1) % 2 = 0 := by omega
      simp [h, hsucc]

theorem escapedAfter_of_last {front : List Char} (h : front.getLast? ≠ some '\\') :
    escapedAfter false front = false := by
  rcases List.eq_nil_or_concat front with rfl | ⟨before, c, rfl⟩
  · rfl
  · have hc : (c == '\\') = false := beq_false_of_ne fun hc => h (by rw [hc]; simp)
    rw [List.concat_eq_append, escapedAfter_append, escapedAfter_cons, hc]
    rfl

/-- The character after a text is escaped when an odd number of backslashes ends the text. -/
theorem escapedAfter_run {front : List Char} (h : front.getLast? ≠ some '\\') (n : Nat) :
    escapedAfter false (front ++ List.replicate n '\\') = (n % 2 == 1) := by
  rw [escapedAfter_append, escapedAfter_of_last h, escapedAfter_replicate, Bool.false_xor]

/-- Any text is told apart from the backslashes that end it. -/
theorem exists_run (cs : List Char) : ∃ front n,
    cs = front ++ List.replicate n '\\' ∧ front.getLast? ≠ some '\\' := by
  induction cs using List.reverseRecOn with
  | nil => exact ⟨[], 0, rfl, nofun⟩
  | append_singleton cs c ih =>
    by_cases hc : c = '\\'
    · obtain ⟨front, n, rfl, hfront⟩ := ih
      exact ⟨front, n + 1, by rw [hc, List.replicate_succ', List.append_assoc], hfront⟩
    · exact ⟨cs ++ [c], 0, by simp, by simpa using hc⟩

theorem not_escapedAfter_iff : escapedAfter false cs = false ↔ ∃ front pairs,
    cs = front ++ List.replicate (2 * pairs) '\\' ∧ front.getLast? ≠ some '\\' := by
  constructor
  · intro hfree
    obtain ⟨front, n, rfl, hfront⟩ := exists_run cs
    rw [escapedAfter_run hfront, beq_eq_false_iff_ne] at hfree
    have hn : n = 2 * (n / 2) := by omega
    exact ⟨front, n / 2, by rw [← hn], hfront⟩
  · rintro ⟨front, pairs, rfl, hfront⟩
    rw [escapedAfter_run hfront, Nat.mul_mod_right]
    rfl

/-- What does not end in a backslash ends before the backslashes that end a text. -/
theorem length_le_of_run {xs ys front : List Char} {n : Nat}
    (h : xs ++ ys = front ++ List.replicate n '\\') (hlast : xs.getLast? ≠ some '\\') :
    xs.length ≤ front.length := by
  rcases List.append_eq_append_iff.mp h with ⟨middle, rfl, -⟩ | ⟨middle, rfl, hrun⟩
  · rw [List.length_append]
    exact Nat.le_add_right _ _
  · rcases List.eq_nil_or_concat middle with rfl | ⟨before, c, rfl⟩
    · exact Nat.le_of_eq (congrArg List.length (List.append_nil front))
    · have hc : c ∈ List.replicate n '\\' := by
        rw [hrun]
        simp
      refine absurd ?_ hlast
      rw [List.eq_of_mem_replicate hc]
      simp

/-! ## The closing quote -/

variable {quote : Char} {escaped : Bool} {body rest : List Char}

/-- A quote that ends a text of one line, the first that is not escaped. -/
structure ClosesAt (quote : Char) (escaped : Bool) (cs body rest : List Char) : Prop where
  splits : cs = body ++ quote :: rest
  inLine : '\n' ∉ body
  free : escapedAfter escaped body = false
  first : ∀ before after, body = before ++ quote :: after → escapedAfter escaped before = true

theorem closesAt_cons {c : Char} : ClosesAt quote escaped (c :: cs) body rest ↔
    (c = quote ∧ escaped = false ∧ body = [] ∧ rest = cs) ∨
      ∃ tail, body = c :: tail ∧ c ≠ '\n' ∧ (c = quote → escaped = true) ∧
        ClosesAt quote (c == '\\' && !escaped) cs tail rest := by
  constructor
  · rintro ⟨hsplits, hline, hfree, hfirst⟩
    cases body with
    | nil =>
      obtain ⟨rfl, rfl⟩ := List.cons.inj hsplits
      exact .inl ⟨rfl, hfree, rfl, rfl⟩
    | cons d tail =>
      obtain ⟨rfl, htail⟩ := List.cons.inj hsplits
      rw [List.mem_cons, not_or] at hline
      refine .inr ⟨tail, rfl, Ne.symm hline.1, ?_, htail, hline.2, hfree, ?_⟩
      · exact fun hc => hfirst [] tail (by rw [hc]; rfl)
      · exact fun before after h => hfirst (c :: before) after (congrArg (c :: ·) h)
  · rintro (⟨rfl, rfl, rfl, rfl⟩ | ⟨tail, rfl, hline, hc, hsplits, hlines, hfree, hfirst⟩)
    · exact ⟨rfl, List.not_mem_nil, rfl, fun before after h => by cases before <;> cases h⟩
    · refine ⟨congrArg (c :: ·) hsplits, List.not_mem_cons_of_ne_of_not_mem hline.symm hlines,
        hfree, ?_⟩
      intro before after h
      cases before with
      | nil => exact hc (List.cons.inj h).1
      | cons d before =>
        obtain ⟨rfl, htail⟩ := List.cons.inj h
        exact hfirst before after htail

/-- The scanner closes a short string at the first quote that is not escaped. -/
theorem closeShort_eq_some_iff (hquote : quote ≠ '\n') {matched : List Char} :
    closeShort quote escaped cs = some (matched, rest) ↔
      ∃ body, matched = body ++ [quote] ∧ ClosesAt quote escaped cs body rest := by
  induction cs generalizing escaped matched with
  | nil =>
    constructor
    · intro h
      cases h
    · rintro ⟨body, -, hsplits, -⟩
      cases body <;> cases hsplits
  | cons c cs ih =>
    simp only [closesAt_cons]
    rw [closeShort]
    split
    · next hline =>
      constructor
      · intro h
        cases h
      · rintro ⟨body, -, ⟨hc, -⟩ | ⟨tail, -, hc, -⟩⟩
        · exact absurd (hc.symm.trans hline) hquote
        · exact absurd hline hc
    · next hline =>
      split
      · next hend =>
        have hfree : escaped = false := by simpa using hend.2
        constructor
        · intro h
          cases h
          exact ⟨[], by rw [hend.1]; rfl, .inl ⟨hend.1, hfree, rfl, rfl⟩⟩
        · rintro ⟨body, rfl, ⟨rfl, -, rfl, rfl⟩ | ⟨tail, -, -, hc, -⟩⟩
          · rfl
          · exact absurd (hc hend.1) (by rw [hfree]; decide)
      · next hend =>
        have hc : c = quote → escaped = true := by simpa using hend
        constructor
        · intro h
          obtain ⟨⟨matched, rest'⟩, htail, heq⟩ := Option.map_eq_some_iff.mp h
          obtain ⟨rfl, rfl⟩ := Prod.mk.inj heq
          obtain ⟨tail, rfl, hcloses⟩ := ih.mp htail
          exact ⟨c :: tail, rfl, .inr ⟨tail, rfl, hline, hc, hcloses⟩⟩
        · rintro ⟨body, rfl, ⟨hq, hfree, -⟩ | ⟨tail, rfl, -, -, hcloses⟩⟩
          · exact absurd (hc hq) (by rw [hfree]; decide)
          · rw [ih.mpr ⟨tail, rfl, hcloses⟩]
            rfl

/-! ## The regular expression -/

/-- What the regular expression matches after the opening quote: a part of one line, which it makes
as short as it can, pairs of backslashes that no other backslash stands before, and the quote. -/
structure Reaches (quote : Char) (front : List Char) (pairs : Nat) (cs rest : List Char) :
    Prop where
  splits : cs = front ++ List.replicate (2 * pairs) '\\' ++ quote :: rest
  inLine : '\n' ∉ front
  behind : front.getLast? ≠ some '\\'

/-- No way to match takes fewer characters than the one up to the closing quote. -/
theorem ClosesAt.length_le {front front' rest' : List Char} {pairs pairs' : Nat}
    (h : ClosesAt quote false cs (front ++ List.replicate (2 * pairs) '\\') rest)
    (hfront : front.getLast? ≠ some '\\') (h' : Reaches quote front' pairs' cs rest') :
    front.length ≤ front'.length := by
  rcases List.append_eq_append_iff.mp (h.splits.symm.trans h'.splits) with
    ⟨after, hafter, -⟩ | ⟨after, hafter, hrest⟩
  · -- The other quote stands no earlier, so what leads to it begins with `front`.
    rw [List.append_assoc] at hafter
    exact length_le_of_run hafter.symm hfront
  · cases after with
    | nil =>
      rw [List.append_nil] at hafter
      exact length_le_of_run hafter hfront
    | cons c after =>
      -- The other quote stands earlier and is not escaped.
      obtain ⟨rfl, -⟩ := List.cons.inj hrest
      have hescaped := h.first _ after hafter
      have hfree := not_escapedAfter_iff.mpr ⟨front', pairs', rfl, h'.behind⟩
      rw [hescaped] at hfree
      cases hfree

/-- The way to match that takes the fewest characters ends at the closing quote. -/
theorem Reaches.closesAt {front : List Char} {pairs : Nat} (hslash : quote ≠ '\\')
    (h : Reaches quote front pairs cs rest)
    (hleast : ∀ front' pairs' rest', Reaches quote front' pairs' cs rest' →
      front.length ≤ front'.length) :
    ClosesAt quote false cs (front ++ List.replicate (2 * pairs) '\\') rest := by
  have hline : '\n' ∉ front ++ List.replicate (2 * pairs) '\\' := by
    rw [List.mem_append, not_or]
    exact ⟨h.inLine, fun hmem => absurd (List.eq_of_mem_replicate hmem) (by decide)⟩
  refine ⟨h.splits, hline, not_escapedAfter_iff.mpr ⟨front, pairs, rfl, h.behind⟩, ?_⟩
  intro before after hbefore
  refine Bool.of_not_eq_false fun hfree => ?_
  obtain ⟨front', pairs', rfl, hfront'⟩ := not_escapedAfter_iff.mp hfree
  -- A quote that is not escaped stands in `front`, so fewer characters would reach it.
  have hsplit : front' ++ List.replicate (2 * pairs') '\\' ++ [quote] ++ after =
      front ++ List.replicate (2 * pairs) '\\' := by
    rw [hbefore, List.append_assoc _ [quote], List.singleton_append]
  have hinside : (front' ++ List.replicate (2 * pairs') '\\' ++ [quote]).length ≤
      front.length :=
    length_le_of_run hsplit (by simpa using hslash)
  have hline' : '\n' ∉ front' := by
    intro hmem
    rw [hbefore] at hline
    exact hline (List.mem_append_left _ (List.mem_append_left _ hmem))
  have hshort := hleast front' pairs' (after ++ quote :: rest)
    ⟨by rw [h.splits, hbefore, List.append_assoc, List.cons_append], hline', hfront'⟩
  simp only [List.length_append, List.length_singleton] at hinside
  omega

theorem closesAt_iff (hslash : quote ≠ '\\') : ClosesAt quote false cs body rest ↔
    ∃ front pairs, body = front ++ List.replicate (2 * pairs) '\\' ∧
      Reaches quote front pairs cs rest ∧
      ∀ front' pairs' rest', Reaches quote front' pairs' cs rest' →
        front.length ≤ front'.length := by
  constructor
  · intro h
    obtain ⟨front, pairs, rfl, hfront⟩ := not_escapedAfter_iff.mp h.free
    have hline : '\n' ∉ front := fun hmem => h.inLine (List.mem_append_left _ hmem)
    exact ⟨front, pairs, rfl, ⟨h.splits, hline, hfront⟩, fun _ _ _ => h.length_le hfront⟩
  · rintro ⟨front, pairs, rfl, h, hleast⟩
    exact h.closesAt hslash hleast

/-! ## The token -/

/-- The start of a short string: the mark of a raw one, if any, and a quote that two more do not
follow. -/
structure Opens (mark : List Char) (quote : Char) (cs tail : List Char) : Prop where
  splits : cs = mark ++ quote :: tail
  raw : mark = [] ∨ mark = ['r'] ∨ mark = ['R']
  quotes : quote = '"' ∨ quote = '\''
  ahead : ¬ [quote, quote] <+: tail

variable {mark mark' tail tail' : List Char} {quote' : Char}

theorem Opens.quote_ne (h : Opens mark quote cs tail) {c : Char} (hc : c ∉ ['"', '\'']) :
    quote ≠ c := by
  rintro rfl
  exact hc (by simpa using h.quotes)

/-- A text starts as a short string in one way only: no mark is a quote. -/
theorem Opens.unique (h : Opens mark quote cs tail) (h' : Opens mark' quote' cs tail') :
    mark' = mark ∧ quote' = quote ∧ tail' = tail := by
  have hr : quote ≠ 'r' := h.quote_ne (by decide)
  have hR : quote ≠ 'R' := h.quote_ne (by decide)
  have hr' : quote' ≠ 'r' := h'.quote_ne (by decide)
  have hR' : quote' ≠ 'R' := h'.quote_ne (by decide)
  have heq := h'.splits.symm.trans h.splits
  rcases h.raw with rfl | rfl | rfl <;> rcases h'.raw with rfl | rfl | rfl
  all_goals
    simp only [List.nil_append, List.cons_append, List.cons.injEq] at heq
    grind

theorem Opens.string_eq (h : Opens mark quote cs tail) : string cs =
    (closeShort quote false tail).map fun s => (mark ++ quote :: s.1, s.2) := by
  have hopen : openShort (quote :: tail) = (closeShort quote false tail).map (push quote) := by
    rw [openShort, if_pos ⟨h.quotes, fun hp => h.ahead (List.isPrefixOf_iff_prefix.mp hp)⟩]
  have hraw : ¬ (quote = 'r' ∨ quote = 'R') :=
    not_or.mpr ⟨h.quote_ne (by decide), h.quote_ne (by decide)⟩
  rw [h.splits]
  rcases h.raw with rfl | rfl | rfl
  · rw [List.nil_append, string, maybeRaw, if_neg hraw, hopen]
    rfl
  · rw [List.singleton_append, string, maybeRaw, if_pos (.inl rfl), hopen, Option.map_map]
    rfl
  · rw [List.singleton_append, string, maybeRaw, if_pos (.inr rfl), hopen, Option.map_map]
    rfl

theorem exists_opens_of_openShort (h : (openShort cs).isSome) :
    ∃ quote tail, Opens [] quote cs tail := by
  cases cs with
  | nil => cases h
  | cons quote tail =>
    rw [openShort] at h
    split at h
    · next hquote =>
      refine ⟨quote, tail, rfl, .inl rfl, hquote.1, fun hp => hquote.2 ?_⟩
      exact List.isPrefixOf_iff_prefix.mpr hp
    · cases h

theorem exists_opens (h : (string cs).isSome) : ∃ mark quote tail, Opens mark quote cs tail := by
  cases cs with
  | nil => cases h
  | cons c cs =>
    rw [string, maybeRaw] at h
    split at h
    · next hc =>
      rw [Option.isSome_map] at h
      obtain ⟨quote, tail, rfl, -, hquotes, hahead⟩ := exists_opens_of_openShort h
      refine ⟨[c], quote, tail, rfl, .inr ?_, hquotes, hahead⟩
      exact hc.imp (congrArg fun c => [c]) (congrArg fun c => [c])
    · exact ⟨[], exists_opens_of_openShort h⟩

/-- How a short string is made up: its start, the part that is as short as it can be, and the pairs
of backslashes before the closing quote. -/
structure Short where
  mark : List Char
  quote : Char
  front : List Char
  pairs : Nat

def Short.text (s : Short) : List Char :=
  s.mark ++ s.quote :: (s.front ++ List.replicate (2 * s.pairs) '\\' ++ [s.quote])

/-- A way in which the regular expression matches at the start of a text. -/
def Short.Matches (s : Short) (cs rest : List Char) : Prop :=
  ∃ tail, Opens s.mark s.quote cs tail ∧ Reaches s.quote s.front s.pairs tail rest

/-- The regular expression matches a beginning of a text, in the way that it tries first. The text
tells the mark and the quote, and with the front the number of pairs, so ways differ by their
fronts. -/
def MatchesShort (cs matched rest : List Char) : Prop :=
  ∃ s : Short, s.text = matched ∧ s.Matches cs rest ∧
    ∀ s' rest', Short.Matches s' cs rest' → s.front.length ≤ s'.front.length

/-- The scanner takes what the regular expression matches. -/
theorem string_eq_some_iff {matched : List Char} :
    string cs = some (matched, rest) ↔ MatchesShort cs matched rest := by
  constructor
  · intro h
    obtain ⟨mark, quote, tail, hopens⟩ := exists_opens (Option.isSome_of_eq_some h)
    have hline : quote ≠ '\n' := hopens.quote_ne (by decide)
    have hslash : quote ≠ '\\' := hopens.quote_ne (by decide)
    rw [hopens.string_eq] at h
    obtain ⟨⟨matched, rest'⟩, hclose, heq⟩ := Option.map_eq_some_iff.mp h
    obtain ⟨rfl, rfl⟩ := Prod.mk.inj heq
    obtain ⟨body, rfl, hcloses⟩ := (closeShort_eq_some_iff hline).mp hclose
    obtain ⟨front, pairs, rfl, hreaches, hleast⟩ := (closesAt_iff hslash).mp hcloses
    refine ⟨⟨mark, quote, front, pairs⟩, rfl, ⟨tail, hopens, hreaches⟩, ?_⟩
    rintro ⟨mark', quote', front', pairs'⟩ rest' ⟨tail', hopens', hreaches'⟩
    obtain ⟨rfl, rfl, rfl⟩ := hopens.unique hopens'
    exact hleast front' pairs' rest' hreaches'
  · rintro ⟨⟨mark, quote, front, pairs⟩, rfl, ⟨tail, hopens, hreaches⟩, hleast⟩
    have hline : quote ≠ '\n' := hopens.quote_ne (by decide)
    have hslash : quote ≠ '\\' := hopens.quote_ne (by decide)
    have hcloses := hreaches.closesAt hslash fun front' pairs' rest' hreaches' =>
      hleast ⟨mark, quote, front', pairs'⟩ rest' ⟨tail, hopens, hreaches'⟩
    rw [hopens.string_eq, (closeShort_eq_some_iff hline).mpr ⟨_, rfl, hcloses⟩]
    rfl

end Starlark.Pattern

namespace Starlark

/-! ## Quoted texts -/

/-- A text with one of its characters written out wherever it stands. -/
def replaceChar (old : Char) (new cs : List Char) : List Char :=
  cs.flatMap fun c => if c = old then new else [c]

/-- A quoted text is written by three replacements, of which the one for backslashes comes first. -/
theorem escaped_eq_replaceChar (cs : List Char) : escaped cs =
    replaceChar '\n' ['\\', 'n']
      (replaceChar '"' ['\\', '"'] (replaceChar '\\' ['\\', '\\'] cs)) := by
  simp only [escaped, replaceChar, List.flatMap_assoc]
  congr 1
  funext c
  rcases escapeChar_cases c with rfl | rfl | rfl | ⟨⟨hbackslash, hquote, hline⟩, hc⟩
  · rfl
  · rfl
  · rfl
  · simp [hc, hbackslash, hquote, hline]

/-- A quoted text is one token, whatever follows it but a quote, and decodes to itself. -/
theorem quoted_readsBack (v : String) {rest : List Char} (hrest : rest.head? ≠ some '"') :
    (quoted v).toList = '"' :: (replaceChar '\n' ['\\', 'n'] (replaceChar '"' ['\\', '"']
      (replaceChar '\\' ['\\', '\\'] v.toList)) ++ ['"']) ∧
    Pattern.string ((quoted v).toList ++ rest) = some ((quoted v).toList, rest) ∧
    (∀ matched rest', Pattern.MatchesShort ((quoted v).toList ++ rest) matched rest' ↔
      matched = (quoted v).toList ∧ rest' = rest) ∧
    ∀ file start, decodeString file start (quoted v).toList = ⟨v.toList, [], []⟩ := by
  have hstring := Pattern.string_quoted v hrest
  refine ⟨?_, hstring, fun matched rest' => ?_, fun file start => decodeString_quoted file start v⟩
  · rw [quoted_toList, escaped_eq_replaceChar]
  · rw [← Pattern.string_eq_some_iff, hstring, Option.some.injEq, Prod.mk.injEq]
    exact and_congr eq_comm eq_comm

/-- A backslash, a quote and a line break, and a backslash at the end. -/
def slashed : String := "\\\"\n\\"

theorem quoted_readsBack_slashed :
    ['x', '"'].head? ≠ some '"' ∧
    (quoted slashed).toList = ['"', '\\', '\\', '\\', '"', '\\', 'n', '\\', '\\', '"'] ∧
    Pattern.string ((quoted slashed).toList ++ ['x', '"']) =
      some ((quoted slashed).toList, ['x', '"']) ∧
    (∀ matched rest, Pattern.MatchesShort ((quoted slashed).toList ++ ['x', '"']) matched rest ↔
      matched = (quoted slashed).toList ∧ rest = ['x', '"']) ∧
    ∀ file start, decodeString file start (quoted slashed).toList =
      ⟨['\\', '"', '\n', '\\'], [], []⟩ := by
  have hrest : ['x', '"'].head? ≠ some '"' := by decide
  obtain ⟨hwritten, hstring, hmatches, hdecode⟩ := quoted_readsBack slashed hrest
  exact ⟨hrest, by rw [hwritten]; decide, hstring, hmatches, hdecode⟩

end Starlark
