import Starlark.Proofs.Lexer.Cursor
import Starlark.Proofs.Lexer.Phrase

/-! # The scanner and the cursor in step

Whatever the scanner matches, the cursor of the logical lines passes over it: it is at rest again
before the next match, and its depth is the one that the layout rule counts.
-/
namespace Starlark

/-- The number of open brackets after a token. -/
def Terminal.depthAfter (t : Terminal) (depth : Nat) : Nat :=
  (Layout.track ⟨[], depth⟩ t).brackets

theorem Layout.track_brackets (l : Layout) (t : Terminal) :
    (l.track t).brackets = t.depthAfter l.brackets := by
  cases t <;> rfl

theorem Terminal.depthAfter_of_not_bracket {t : Terminal} (h : t ∉ Terminal.brackets)
    (depth : Nat) : t.depthAfter depth = depth := by
  rw [Terminal.depthAfter, Layout.track_of_not_bracket h]

theorem Layout.track_levels (l : Layout) (t : Terminal) : (l.track t).levels = l.levels := by
  cases t <;> rfl

namespace Cursor
open Pattern
variable {k : Cursor} {cs text rest : List Char}

/-! ## Tokens of characters that mean nothing for lines -/

/-- Does a pattern match such characters only, and at least one? -/
def MatchesInert (p : List Char → Option Split) : Prop :=
  ∀ cs text rest, p cs = some (text, rest) →
    cs = text ++ rest ∧ text ≠ [] ∧ ∀ c ∈ text, IsInert c

theorem MatchesInert.passes {p : List Char → Option Split} (hp : MatchesInert p)
    (h : p cs = some (text, rest)) (hk : k.AtRest cs) :
    cs = text ++ rest ∧ text ≠ [] ∧ k.Passes text rest k.depth := by
  obtain ⟨rfl, hne, hinert⟩ := hp cs text rest h
  refine ⟨rfl, hne, ?_⟩
  cases text with
  | nil => exact absurd rfl hne
  | cons c text => exact passes_inert hk hinert rest

/-- The characters of a class, behind some others. -/
theorem matchesInert_run {p : Char → Bool} (hp : ∀ c, p c = true → IsInert c)
    (front : List Char) {ds : List Char} (hfront : ∀ c ∈ front, IsInert c)
    (hne : front ++ ds.takeWhile p ≠ []) :
    front ++ ds = (front ++ ds.takeWhile p) ++ ds.dropWhile p ∧ front ++ ds.takeWhile p ≠ [] ∧
      ∀ c ∈ front ++ ds.takeWhile p, IsInert c := by
  refine ⟨?_, hne, List.forall_mem_append.mpr ⟨hfront, fun c hc => hp c ?_⟩⟩
  · rw [List.append_assoc, List.takeWhile_append_dropWhile]
  · exact List.mem_takeWhile_imp hc

theorem inert_word : ∀ c, Text.isWord c = true → IsInert c :=
  fun _ => isInert_of_class (by decide)

theorem inert_decimal : ∀ c, Text.isDecimal c = true → IsInert c :=
  fun _ => isInert_of_class (by decide)

theorem matchesInert_name : MatchesInert name := by
  intro cs text rest h
  cases cs with
  | nil => cases h
  | cons c cs =>
    rw [name] at h
    split at h
    · next hc =>
      cases h
      have hinert : IsInert c := isInert_of_class (p := fun c => c.isAlpha || c == '_')
        (by decide) hc
      exact matchesInert_run inert_word [c] (List.forall_mem_singleton.mpr hinert)
        (List.cons_ne_nil _ _)
    · cases h

theorem matchesInert_decimal : MatchesInert decimal := by
  intro cs text rest h
  cases cs with
  | nil => cases h
  | cons c cs =>
    rw [decimal] at h
    split at h
    · next hzero =>
      cases h
      subst hzero
      exact ⟨rfl, List.cons_ne_nil _ _, List.forall_mem_singleton.mpr (by decide)⟩
    · split at h
      · next hdigit =>
        cases h
        have hinert : IsInert c := isInert_of_class (p := Char.isDigit) (by decide) hdigit
        exact matchesInert_run inert_decimal [c] (List.forall_mem_singleton.mpr hinert)
          (List.cons_ne_nil _ _)
      · cases h

theorem some?_eq_some {p : Char → Bool} (h : some? p cs = some (text, rest)) :
    text = cs.takeWhile p ∧ rest = cs.dropWhile p ∧ text ≠ [] := by
  rw [some?] at h
  split at h
  · cases h
  · next heq =>
    cases h
    exact ⟨heq.symm, rfl, List.cons_ne_nil _ _⟩

/-- A numeral with a mark: a zero, a letter and digits. -/
theorem matchesInert_marked {p : Char → Bool} (hp : ∀ c, p c = true → IsInert c) {c : Char}
    (hc : IsInert c) {cs text rest : List Char}
    (h : (some? p cs).map (fun s => push '0' (push c s)) = some (text, rest)) :
    '0' :: c :: cs = text ++ rest ∧ text ≠ [] ∧ ∀ d ∈ text, IsInert d := by
  obtain ⟨⟨digits, tail⟩, hdigits, heq⟩ := Option.map_eq_some_iff.mp h
  simp only [push, Prod.mk.injEq] at heq
  obtain ⟨rfl, rfl⟩ := heq
  obtain ⟨rfl, rfl, -⟩ := some?_eq_some hdigits
  have hfront : ∀ d ∈ ['0', c], IsInert d :=
    List.forall_mem_cons.mpr ⟨by decide, List.forall_mem_singleton.mpr hc⟩
  exact matchesInert_run hp ['0', c] hfront (List.cons_ne_nil _ _)

theorem matchesInert_hexadecimal : MatchesInert hexadecimal := by
  intro cs text rest h
  rw [hexadecimal.eq_def] at h
  split at h
  · split at h
    · next hmark =>
      refine matchesInert_marked (fun _ => isInert_of_class (by decide)) ?_ h
      rcases hmark with rfl | rfl
      · decide
      · decide
    · cases h
  · cases h

theorem matchesInert_octal : MatchesInert octal := by
  intro cs text rest h
  rw [octal.eq_def] at h
  split at h
  · split at h
    · next hmark =>
      refine matchesInert_marked (fun _ => isInert_of_class (by decide)) ?_ h
      rcases hmark with rfl | rfl
      · decide
      · decide
    · cases h
  · cases h

theorem matchesInert_blank : MatchesInert blank := by
  intro cs text rest h
  obtain ⟨rfl, rfl, hne⟩ := some?_eq_some h
  exact matchesInert_run (fun _ => isInert_of_class (by decide)) [] (List.forall_mem_nil _) hne

/-! ## Continued lines -/

theorem after_joined {depth width : Nat} {blanks : List Char}
    (h : ∀ c ∈ blanks, isBlank c = true) :
    after ⟨.joined, depth, width⟩ blanks = ⟨.joined, depth, width⟩ := by
  induction blanks with
  | nil => rfl
  | cons c blanks ih =>
    rw [List.forall_mem_cons] at h
    have hline : c ≠ '\n' := by
      rintro rfl
      exact absurd h.1 (by decide)
    have hnext : next ⟨.joined, depth, width⟩ c = ⟨.joined, depth, width⟩ := by
      simp only [next]
      rw [if_neg hline, if_pos (.inl h.1)]
    rw [after_cons, hnext, ih h.2]

/-- A hidden line break ends no logical line. -/
theorem passes_continuation (h : continuation cs = some (text, rest)) (hk : k.AtRest cs) :
    cs = text ++ rest ∧ text ≠ [] ∧ k.Passes text rest k.depth := by
  rw [continuation.eq_def] at h
  split at h
  · next cs =>
    have hblanks : after ⟨.joined, k.depth, k.width⟩ (cs.takeWhile isBlank) =
        ⟨.joined, k.depth, k.width⟩ := after_joined fun c hc => List.mem_takeWhile_imp hc
    have hsplit := List.takeWhile_append_dropWhile (p := isBlank) (l := cs)
    have hjoined : ∀ breaks : List Char, k.after ('\\' :: cs.takeWhile isBlank ++ breaks) =
        after ⟨.joined, k.depth, k.width⟩ breaks := by
      intro breaks
      rw [List.cons_append, hk.after_cons, after_append]
      exact congrArg (after · breaks) hblanks
    split at h
    · next hline =>
      cases h
      refine ⟨?_, List.cons_ne_nil _ _, .of_eq (hjoined ['\n']) rest⟩
      rw [hline] at hsplit
      simp [hsplit]
    · next hline =>
      cases h
      refine ⟨?_, List.cons_ne_nil _ _, .of_eq (hjoined ['\r', '\n']) rest⟩
      rw [hline] at hsplit
      simp [hsplit]
    · cases h
  · cases h

/-! ## Words and signs -/

theorem literal_eq_some {word : List Char} (h : literal word cs = some (text, rest)) :
    text = word ∧ cs = word ++ rest := by
  have hread : literal word cs ≠ none := by
    rw [h]
    exact Option.some_ne_none _
  obtain ⟨tail, rfl⟩ := prefix_of_literal hread
  rw [literal_append] at h
  cases h
  exact ⟨rfl, rfl⟩

theorem spelling_inert : ∀ t ∈ Terminal.spelled, t ∉ Terminal.brackets →
    ((Scan.spelling t).all fun c => IsInert c) = true := by
  decide

/-- A bracket changes the depth as the layout rule counts it, and other words and signs do not. -/
theorem passes_spelling {t : Terminal} (ht : t ∈ Terminal.spelled)
    (hk : k.AtRest (Scan.spelling t ++ rest)) :
    k.Passes (Scan.spelling t) rest (t.depthAfter k.depth) := by
  by_cases hbracket : t ∈ Terminal.brackets
  · simp only [Terminal.brackets, List.mem_cons, List.not_mem_nil, or_false] at hbracket
    obtain rfl | rfl | rfl | rfl | rfl | rfl := hbracket
    all_goals exact .of_eq (hk.after_cons []) rest
  · rw [Terminal.depthAfter_of_not_bracket hbracket]
    have hinert : ∀ c ∈ Scan.spelling t, IsInert c := by
      simpa using spelling_inert t ht hbracket
    cases hspelling : Scan.spelling t with
    | nil => exact absurd hspelling (spelled_legible t ht).1
    | cons c word =>
      rw [hspelling] at hk hinert
      exact passes_inert hk hinert rest

end Cursor

/-! ## Whatever the scanner matches -/

/-- The kinds of token that tell the layout. -/
def Layout.kinds : List Terminal := [.newline, .indent, .dedent]

namespace Scan.Lexeme

/-- The number of open brackets after a match. -/
def depthAfter : Lexeme → Nat → Nat
  | .token kind, depth => kind.depthAfter depth
  | .between, depth => depth

def Plain (l : Lexeme) : Prop := ∀ kind, l = .token kind → kind ∉ Layout.kinds

theorem plain_between : Plain .between := nofun

theorem plain_token {t : Terminal} (h : t ∉ Layout.kinds) : Plain (.token t) := by
  rintro _ ⟨⟩
  exact h

end Scan.Lexeme

namespace Cursor
open Pattern Scan
variable {k : Cursor} {cs text rest : List Char} {candidates : List Terminal}

/-- The cursor passes over a match at the beginning of a text as the layout rule sees it. -/
structure Follows (k : Cursor) (cs : List Char) (m : Match) : Prop where
  split : cs = m.2.1 ++ m.2.2
  ne_nil : m.2.1 ≠ []
  atRest : (k.after m.2.1).AtRest m.2.2
  depth_eq : (k.after m.2.1).depth = m.1.depthAfter k.depth
  width_eq : (k.after m.2.1).width =
    if m.1 = .token .newline ∧ k.depth = 0 then indentWidth m.2.1 else k.width
  plain : m.1 ≠ .token .newline → m.1.Plain

theorem Follows.of_passes {lexeme : Lexeme}
    (h : cs = text ++ rest ∧ text ≠ [] ∧ k.Passes text rest (lexeme.depthAfter k.depth))
    (hplain : lexeme.Plain) : k.Follows cs (lexeme, text, rest) := by
  obtain ⟨hsplit, hne, hrest, hdepth, hwidth⟩ := h
  refine ⟨hsplit, hne, hrest, hdepth, ?_, fun _ => hplain⟩
  rw [if_neg fun h => hplain _ h.1 List.mem_cons_self]
  exact hwidth

theorem Follows.passes (h : k.Follows cs (.between, text, rest)) : k.Passes text rest k.depth :=
  ⟨h.atRest, h.depth_eq, h.width_eq.trans (if_neg nofun)⟩

theorem follows_map {lexeme : Lexeme} {p : List Char → Option Split}
    (hp : ∀ {text rest : List Char}, p cs = some (text, rest) →
      cs = text ++ rest ∧ text ≠ [] ∧ k.Passes text rest (lexeme.depthAfter k.depth))
    (hplain : lexeme.Plain) {m : Match} (h : (p cs).map (lexeme, ·) = some m) :
    k.Follows cs m := by
  obtain ⟨⟨text, rest⟩, hsplit, rfl⟩ := Option.map_eq_some_iff.mp h
  exact .of_passes (hp hsplit) hplain

theorem follows_attempt {t : Terminal} {p : List Char → Option Split}
    (hp : ∀ {text rest : List Char}, p cs = some (text, rest) →
      cs = text ++ rest ∧ text ≠ [] ∧ k.Passes text rest (t.depthAfter k.depth))
    (ht : t ∉ Layout.kinds) {m : Match} (h : attempt candidates t p cs = some m) :
    k.Follows cs m := by
  rw [attempt] at h
  split at h
  · exact follows_map hp (Lexeme.plain_token ht) h
  · cases h

theorem follows_newline (hk : k.AtRest cs) (hends : EndsLines cs) {m : Match}
    (h : (newline cs).map (Lexeme.token .newline, ·) = some m) : k.Follows cs m := by
  obtain ⟨⟨text, rest⟩, hsplit, rfl⟩ := Option.map_eq_some_iff.mp h
  obtain ⟨hsplit, hne, hrest, hdepth, hwidth⟩ := after_newline hsplit hk hends
  refine ⟨hsplit, hne, hrest, hdepth, ?_, fun h => absurd rfl h⟩
  rw [hwidth]
  simp only [true_and]

theorem wordKind_mem (candidates : List Terminal) (word : List Char) :
    wordKind candidates word ∈ Terminal.name :: keywords := by
  rw [wordKind]
  cases hfind : (keywords.filter (· ∈ candidates)).find? fun t => spelling t = word with
  | none => exact List.mem_cons_self
  | some t => exact List.mem_cons_of_mem _ (List.mem_filter.mp (List.mem_of_find?_eq_some hfind)).1

theorem follows_word (hk : k.AtRest cs) {m : Match} (h : word candidates cs = some m) :
    k.Follows cs m := by
  rw [word] at h
  split at h
  · obtain ⟨⟨text, rest⟩, hname, rfl⟩ := Option.map_eq_some_iff.mp h
    have hkind : ∀ t ∈ Terminal.name :: keywords, t ∉ Terminal.brackets ∧ t ∉ Layout.kinds := by
      decide
    obtain ⟨hbracket, hplain⟩ := hkind _ (wordKind_mem candidates text)
    refine .of_passes ?_ (Lexeme.plain_token hplain)
    rw [Lexeme.depthAfter, Terminal.depthAfter_of_not_bracket hbracket]
    exact matchesInert_name.passes hname hk
  · cases h

theorem follows_sign (hk : k.AtRest cs) {m : Match} (h : sign candidates cs = some m) :
    k.Follows cs m := by
  obtain ⟨t, ht, hsign⟩ := List.exists_of_findSome?_eq_some h
  have hspelled : t ∈ Terminal.spelled := (List.mem_filter.mp ht).1
  have hplain : ∀ t ∈ Terminal.spelled, t ∉ Layout.kinds := by decide
  refine follows_map (fun hliteral => ?_) (Lexeme.plain_token (hplain t hspelled)) hsign
  obtain ⟨rfl, rfl⟩ := literal_eq_some hliteral
  exact ⟨rfl, (spelled_legible t hspelled).1, passes_spelling hspelled hk⟩

/-- The cursor follows the scanner. -/
theorem follows_match? (hk : k.AtRest cs) (hends : EndsLines cs) {m : Match}
    (h : match? candidates cs = some m) : k.Follows cs m := by
  simp only [match?, Option.orElse_eq_orElse, Option.orElse_eq_or, Option.or_eq_some_iff] at h
  obtain h | ⟨-, h | ⟨-, h | ⟨-, h | ⟨-, h | ⟨-, h | ⟨-, h | ⟨-, h | ⟨-, h | ⟨-, h⟩⟩⟩⟩⟩⟩⟩⟩⟩ := h
  · exact follows_attempt (fun h => matchesInert_hexadecimal.passes h hk) (by decide) h
  · exact follows_attempt (fun h => matchesInert_octal.passes h hk) (by decide) h
  · exact follows_attempt (fun h => passes_maybeRaw passes_openShort h hk) (by decide) h
  · exact follows_attempt (fun h => passes_maybeRaw passes_openLong h hk) (by decide) h
  · exact follows_newline hk hends h
  · exact follows_word hk h
  · exact follows_map (fun h => passes_continuation h hk) Lexeme.plain_between h
  · exact follows_attempt (fun h => matchesInert_decimal.passes h hk) (by decide) h
  · exact follows_map (fun h => matchesInert_blank.passes h hk) Lexeme.plain_between h
  · exact follows_sign hk h

/-- Before a token there may be blanks and hidden line breaks, on the same logical line. -/
theorem exists_gap_of_next {fuel : Nat} {start : Point} {t : Token}
    (h : Scan.next candidates fuel start cs = .token t rest) (hk : k.AtRest cs)
    (hends : EndsLines cs) :
    ∃ gap, cs = gap ++ (t.text ++ rest) ∧ t.span.start = start.after gap ∧
      t.span.stop = t.span.start.after t.text ∧ k.Passes gap (t.text ++ rest) k.depth ∧
      (k.after gap).Follows (t.text ++ rest) (.token t.kind, t.text, rest) := by
  induction fuel generalizing k start cs with
  | zero => cases h
  | succ fuel ih =>
    rw [Scan.next] at h
    split at h
    · cases h
    · split at h
      · cases h
      · next kind text rest' hmatch =>
        cases h
        have hfollows := follows_match? hk hends hmatch
        obtain rfl := hfollows.split
        exact ⟨[], rfl, rfl, rfl, ⟨hk, rfl, rfl⟩, hfollows⟩
      · next text rest' hmatch =>
        have hbetween := follows_match? hk hends hmatch
        obtain rfl := hbetween.split
        have hpasses := hbetween.passes
        obtain ⟨gap, hsplit, hstart, hstop, hpasses', hfollows⟩ :=
          ih h hpasses.atRest hends.of_append
        subst hsplit
        refine ⟨text ++ gap, ?_, ?_, hstop, hpasses.append hpasses', ?_⟩
        · rw [List.append_assoc]
        · rw [hstart, Point.after_append]
        · rwa [after_append]

end Cursor
end Starlark
