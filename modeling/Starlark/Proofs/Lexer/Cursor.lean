import Mathlib.Data.List.TakeWhile
import Starlark.Lexer.Scan
import Starlark.Proofs.Lexer.Lines

/-! # Tokens and logical lines

The cursor of the logical lines and the scanner move over a text in step: outside of tokens the
cursor is at rest, a bracket changes its depth, a line break outside brackets begins a logical line
with the margin that the layout rule takes the width of, and nothing else changes its depth or
width.
-/
namespace Starlark

/-- The rest of a string is at least its closing quote. -/
theorem Pattern.closeShort_ne_nil (quote : Char) (escaped : Bool) (cs rest : List Char) :
    closeShort quote escaped cs ≠ some ([], rest) := by
  intro h
  cases cs with
  | nil => cases h
  | cons c cs =>
    rw [closeShort] at h
    split at h
    · cases h
    · split at h
      · cases h
      · obtain ⟨_, -, heq⟩ := Option.map_eq_some_iff.mp h
        cases heq

namespace Cursor
variable {k : Cursor} {c quote : Char} {text rest : List Char} {depth width : Nat}

theorem after_cons (k : Cursor) (c : Char) (cs : List Char) :
    k.after (c :: cs) = (k.next c).after cs := rfl

theorem after_append (k : Cursor) (as bs : List Char) :
    k.after (as ++ bs) = (k.after as).after bs := List.foldl_append

/-- Is the cursor between tokens? Then what follows it is code. -/
def AtRest (k : Cursor) (rest : List Char) : Prop := ∀ c ∈ rest.head?, k.next c = k.code c

theorem AtRest.after_cons (h : k.AtRest (c :: rest)) (cs : List Char) :
    k.after (c :: cs) = (k.code c).after cs := by
  rw [Cursor.after_cons, h c rfl]

theorem AtRest.head (h : k.AtRest (c :: rest)) (cs : List Char) : k.AtRest (c :: cs) := h

/-- The cursor passes over a text and is at rest before what follows, on the same logical line. -/
structure Passes (k : Cursor) (text rest : List Char) (depth : Nat) : Prop where
  atRest : (k.after text).AtRest rest
  depth_eq : (k.after text).depth = depth
  width_eq : (k.after text).width = k.width

theorem Passes.of_eq (h : k.after text = ⟨.code, depth, k.width⟩) (rest : List Char) :
    k.Passes text rest depth := by
  refine ⟨?_, ?_, ?_⟩
  · rw [h]
    exact fun _ _ => rfl
  · rw [h]
  · rw [h]

theorem Passes.append {as bs : List Char} (h : k.Passes as (bs ++ rest) k.depth)
    (h' : (k.after as).Passes bs rest (k.after as).depth) : k.Passes (as ++ bs) rest k.depth := by
  refine ⟨?_, ?_, ?_⟩
  · rw [after_append]
    exact h'.atRest
  · rw [after_append]
    exact h'.depth_eq.trans h.depth_eq
  · rw [after_append]
    exact h'.width_eq.trans h.width_eq

/-! ## Characters that mean nothing for lines -/

/-- The characters that mean something. -/
def marks : List Char := ['\n', '#', '\\', '"', '\'', '(', '[', '{', ')', ']', '}']

def IsInert (c : Char) : Prop := c ∉ marks

instance : DecidablePred IsInert := fun _ => inferInstanceAs (Decidable (¬ _))

theorem code_inert (h : IsInert c) : k.code c = { k with mode := .code } := by
  simp only [IsInert, marks, List.mem_cons, List.not_mem_nil, or_false, not_or] at h
  simp [code, h]

theorem after_inert (h : ∀ c ∈ text, IsInert c) :
    after ⟨.code, depth, width⟩ text = ⟨.code, depth, width⟩ := by
  induction text with
  | nil => rfl
  | cons c cs ih =>
    rw [List.forall_mem_cons] at h
    have hnext : next ⟨.code, depth, width⟩ c = ⟨.code, depth, width⟩ := code_inert h.1
    rw [after_cons, hnext, ih h.2]

theorem passes_inert (hk : k.AtRest (c :: rest)) {cs : List Char} (h : ∀ d ∈ c :: cs, IsInert d)
    (rest' : List Char) : k.Passes (c :: cs) rest' k.depth := by
  rw [List.forall_mem_cons] at h
  refine .of_eq ?_ rest'
  rw [hk.after_cons, code_inert h.1, after_inert h.2]

/-- A class of characters without any that means something for lines. -/
theorem isInert_of_class {p : Char → Bool} (h : marks.any p = false) (hc : p c = true) :
    IsInert c :=
  fun hmem => List.any_eq_false.mp h c hmem hc

/-! ## Strings -/

theorem code_quote (h : quote = '"' ∨ quote = '\'') :
    k.code quote = { k with mode := .opened quote } := by
  rcases h with rfl | rfl
  · rfl
  · rfl

theorem ne_newline (h : quote = '"' ∨ quote = '\'') : quote ≠ '\n' := by
  rcases h with rfl | rfl
  · decide
  · decide

theorem ne_backslash (h : quote = '"' ∨ quote = '\'') : quote ≠ '\\' := by
  rcases h with rfl | rfl
  · decide
  · decide

/-- A short string ends where its closing quote is found. -/
theorem after_closeShort {escaped : Bool} {cs : List Char}
    (h : Pattern.closeShort quote escaped cs = some (text, rest)) (depth width : Nat) :
    cs = text ++ rest ∧
      after ⟨.short quote escaped, depth, width⟩ text = ⟨.code, depth, width⟩ := by
  induction cs generalizing escaped text with
  | nil => cases h
  | cons c cs ih =>
    rw [Pattern.closeShort] at h
    split at h
    · cases h
    · split at h
      · next hclose =>
        cases h
        exact ⟨rfl, if_pos hclose⟩
      · next hopen =>
        obtain ⟨⟨text', rest'⟩, hrest, heq⟩ := Option.map_eq_some_iff.mp h
        cases heq
        obtain ⟨rfl, hafter⟩ := ih hrest
        have hnext : next ⟨.short quote escaped, depth, width⟩ c =
            ⟨.short quote (c == '\\' && !escaped), depth, width⟩ := if_neg hopen
        exact ⟨rfl, by rw [after_cons, hnext, hafter]⟩

theorem next_opened (h : c ≠ quote) : next ⟨.opened quote, depth, width⟩ c =
    next ⟨.short quote false, depth, width⟩ c := by
  simp [next, h]

/-- A short string. The empty one leaves its quotes behind, and no third quote follows them. -/
theorem passes_openShort {cs : List Char} (h : Pattern.openShort cs = some (text, rest))
    (hk : k.AtRest cs) : cs = text ++ rest ∧ text ≠ [] ∧ k.Passes text rest k.depth := by
  cases cs with
  | nil => cases h
  | cons quote cs =>
    rw [Pattern.openShort] at h
    split at h
    · next hquote =>
      obtain ⟨⟨body, after⟩, hclose, heq⟩ := Option.map_eq_some_iff.mp h
      obtain ⟨rfl, rfl⟩ := Prod.mk.inj heq
      have hcode := code_quote hquote.1 (k := k)
      obtain ⟨rfl, hafter⟩ := after_closeShort hclose k.depth k.width
      refine ⟨rfl, List.cons_ne_nil _ _, ?_⟩
      cases body with
      | nil => exact absurd hclose (Pattern.closeShort_ne_nil quote false _ after)
      | cons c body =>
        by_cases hc : c = quote
        · subst hc
          have hline : c ≠ '\n' := ne_newline hquote.1
          rw [List.cons_append, Pattern.closeShort, if_neg hline, if_pos ⟨rfl, rfl⟩] at hclose
          obtain rfl : body = [] := by simpa using hclose
          have hempty : k.after [c, c] = { k with mode := .twice c } := by
            rw [hk.after_cons, hcode]
            exact if_pos rfl
          refine ⟨?_, by rw [hempty], by rw [hempty]⟩
          intro d hd
          have hd' : d ≠ c := by
            rintro rfl
            obtain ⟨tail, rfl⟩ := List.head?_eq_some_iff.mp hd
            exact hquote.2 (List.isPrefixOf_iff_prefix.mpr (List.prefix_append [d, d] tail))
          rw [hempty]
          exact if_neg hd'
        · refine .of_eq ?_ after
          rw [hk.after_cons, hcode, Cursor.after_cons, next_opened hc]
          exact hafter
    · cases h

/-- A long string goes on after one more character, with the quotes that were read last. -/
theorem next_long (hquote : quote = '"' ∨ quote = '\'') {quotes : Nat} {escaped : Bool}
    (h : c = quote ∧ !escaped → quotes ≠ 2) :
    next ⟨.long quote quotes escaped, depth, width⟩ c =
      ⟨.long quote (if c = quote ∧ !escaped then quotes + 1 else 0) (c == '\\' && !escaped),
        depth, width⟩ := by
  by_cases hc : c = quote ∧ !escaped
  · have hslash : (c == '\\') = false := by simp [hc.1, ne_backslash hquote]
    simp only [next]
    rw [if_pos hc, if_neg (h hc), if_pos hc, hslash, Bool.false_and]
  · simp only [next]
    rw [if_neg hc, if_neg hc]

/-- The rest of a long string ends where three quotes close it. Where one or two quotes were read
already, those that follow are too few. -/
theorem after_closeLong (hquote : quote = '"' ∨ quote = '\'') {escaped : Bool} {cs : List Char}
    (h : Pattern.closeLong quote escaped cs = some (text, rest)) (quotes depth width : Nat)
    (hone : quotes = 1 → ¬ [quote, quote] <+: cs) (htwo : quotes = 2 → ¬ [quote] <+: cs)
    (hle : quotes ≤ 2) :
    cs = text ++ rest ∧
      after ⟨.long quote quotes escaped, depth, width⟩ text = ⟨.code, depth, width⟩ := by
  induction cs generalizing escaped text quotes with
  | nil => cases h
  | cons a cs ih =>
    cases cs with
    | nil => cases h
    | cons b cs =>
      cases cs with
      | nil => cases h
      | cons c cs =>
        rw [Pattern.closeLong] at h
        split at h
        · next hclose =>
          obtain ⟨rfl, rfl, rfl, hplain⟩ := hclose
          cases h
          have hone' : quotes ≠ 1 := fun h => hone h (List.prefix_append [c, c] _)
          have htwo' : quotes ≠ 2 := fun h => htwo h (List.prefix_append [c] _)
          obtain rfl : quotes = 0 := by omega
          exact ⟨rfl, by simp [after, next, hplain]⟩
        · next hopen =>
          obtain ⟨⟨body, tail⟩, hbody, heq⟩ := Option.map_eq_some_iff.mp h
          obtain ⟨rfl, rfl⟩ := Prod.mk.inj heq
          have hlast : a = quote ∧ !escaped → quotes ≠ 2 := by
            rintro ⟨rfl, -⟩ htwo'
            exact htwo htwo' (List.prefix_append [a] _)
          have hone' : (if a = quote ∧ !escaped then quotes + 1 else 0) = 1 →
              ¬ [quote, quote] <+: b :: c :: cs := by
            intro hquotes hprefix
            split at hquotes
            · next hread =>
              simp only [List.cons_prefix_cons] at hprefix
              exact hopen ⟨hread.1, hprefix.1.symm, hprefix.2.1.symm, hread.2⟩
            · cases hquotes
          have htwo' : (if a = quote ∧ !escaped then quotes + 1 else 0) = 2 →
              ¬ [quote] <+: b :: c :: cs := by
            intro hquotes hprefix
            split at hquotes
            · next hread =>
              obtain rfl : quotes = 1 := by omega
              exact hone rfl (List.cons_prefix_cons.mpr ⟨hread.1.symm, hprefix⟩)
            · cases hquotes
          have hle' : (if a = quote ∧ !escaped then quotes + 1 else 0) ≤ 2 := by
            split
            · next hread =>
              have := hlast hread
              omega
            · exact Nat.zero_le 2
          obtain ⟨hsplit, hafter⟩ := ih hbody _ hone' htwo' hle'
          rw [after_cons, next_long hquote hlast]
          exact ⟨congrArg (a :: ·) hsplit, hafter⟩

/-- A long string. -/
theorem passes_openLong {cs : List Char} (h : Pattern.openLong cs = some (text, rest))
    (hk : k.AtRest cs) : cs = text ++ rest ∧ text ≠ [] ∧ k.Passes text rest k.depth := by
  rw [Pattern.openLong.eq_def] at h
  split at h
  · split at h
    · next hquotes =>
      obtain ⟨hquote, rfl, rfl⟩ := hquotes
      obtain ⟨⟨body, tail⟩, hclose, heq⟩ := Option.map_eq_some_iff.mp h
      simp only [Pattern.push, Prod.mk.injEq] at heq
      obtain ⟨rfl, rfl⟩ := heq
      obtain ⟨rfl, hafter⟩ := after_closeLong hquote hclose 0 k.depth k.width nofun nofun
        (Nat.zero_le 2)
      refine ⟨rfl, List.cons_ne_nil _ _, .of_eq ?_ tail⟩
      rw [hk.after_cons, code_quote hquote, after_cons, after_cons]
      simpa [next] using hafter
    · cases h
  · cases h

/-- The mark of a raw string means nothing for lines. -/
theorem passes_maybeRaw {p : List Char → Option Pattern.Split}
    (hp : ∀ {k : Cursor} {cs text rest : List Char}, p cs = some (text, rest) → k.AtRest cs →
      cs = text ++ rest ∧ text ≠ [] ∧ k.Passes text rest k.depth)
    {cs : List Char} (h : Pattern.maybeRaw p cs = some (text, rest)) (hk : k.AtRest cs) :
    cs = text ++ rest ∧ text ≠ [] ∧ k.Passes text rest k.depth := by
  cases cs with
  | nil => cases h
  | cons c cs =>
    rw [Pattern.maybeRaw] at h
    split at h
    · next hmark =>
      obtain ⟨⟨body, tail⟩, hbody, heq⟩ := Option.map_eq_some_iff.mp h
      obtain ⟨rfl, rfl⟩ := Prod.mk.inj heq
      have hinert : IsInert c := by
        rcases hmark with rfl | rfl
        · decide
        · decide
      obtain ⟨rfl, -, hrest, hdepth, hwidth⟩ :=
        hp (k := { k with mode := .code }) hbody fun _ _ => rfl
      have hafter : k.after (c :: body) = Cursor.after { k with mode := .code } body := by
        rw [hk.after_cons, code_inert hinert]
      refine ⟨rfl, List.cons_ne_nil _ _, ?_, ?_, ?_⟩
      · exact hafter ▸ hrest
      · exact hafter ▸ hdepth
      · exact hafter ▸ hwidth
    · exact hp h hk

/-! ## Line breaks -/

/-- Every line of the text is ended. -/
def EndsLines (cs : List Char) : Prop := cs = [] ∨ cs.getLast? = some '\n'

theorem EndsLines.of_append {as bs : List Char} (h : EndsLines (as ++ bs)) : EndsLines bs := by
  cases bs with
  | nil => exact .inl rfl
  | cons b bs =>
    rcases h with h | h
    · exact absurd h (by simp)
    · rw [List.getLast?_append] at h
      right
      rw [List.getLast?_cons] at h ⊢
      exact h

theorem EndsLines.of_cons {c : Char} {cs : List Char} (h : EndsLines (c :: cs)) :
    EndsLines cs := by
  rw [← List.singleton_append] at h
  exact h.of_append

theorem EndsLines.ne_nil {c : Char} {cs : List Char} (h : EndsLines (c :: cs)) (hc : c ≠ '\n') :
    cs ≠ [] := by
  rintro rfl
  rcases h with h | h
  · cases h
  · exact hc (Option.some.inj h)

/-- The width of some blanks. -/
def blankWidth (text : List Char) : Nat := text.count ' ' + text.count '\t' * tabWidth

theorem lastLine_cons (c : Char) (text : List Char) : lastLine (c :: text) =
    if '\n' ∈ text then lastLine text else if c = '\n' then text else c :: text := by
  rw [lastLine, List.reverse_cons]
  by_cases hline : '\n' ∈ text
  · have hshort : (text.reverse.takeWhile (· != '\n')).length ≠ text.reverse.length := by
      intro hlength
      have hself := (List.takeWhile_prefix _).eq_of_length hlength
      have hall := List.takeWhile_eq_self_iff.mp hself '\n' (List.mem_reverse.mpr hline)
      cases hall
    rw [if_pos hline, List.takeWhile_append, if_neg hshort, lastLine]
  · rw [if_neg hline]
    have hall : ∀ d ∈ text.reverse, (d != '\n') = true := by
      intro d hd
      rw [bne_iff_ne]
      rintro rfl
      exact hline (List.mem_reverse.mp hd)
    rw [List.takeWhile_append_of_pos hall]
    by_cases hc : c = '\n'
    · simp [hc]
    · simp [hc]

/-- The width that follows the last line break of a text, or goes on from `width`. -/
def marginAfter (width : Nat) (text : List Char) : Nat :=
  if '\n' ∈ text then indentWidth text else width + blankWidth text

theorem marginAfter_line (width : Nat) (text : List Char) :
    marginAfter width ('\n' :: text) = marginAfter 0 text := by
  unfold marginAfter indentWidth
  rw [if_pos List.mem_cons_self, lastLine_cons]
  split
  · rfl
  · rw [if_pos rfl, Nat.zero_add, blankWidth]

theorem marginAfter_skip (c : Char) {text : List Char} (h : '\n' ∈ text) (width width' : Nat) :
    marginAfter width (c :: text) = marginAfter width' text := by
  unfold marginAfter indentWidth
  rw [if_pos (List.mem_cons_of_mem c h), if_pos h, lastLine_cons, if_pos h]

theorem marginAfter_blank {c : Char} (hc : c = ' ' ∨ c = '\t') (width : Nat) (text : List Char) :
    marginAfter width (c :: text) = marginAfter (width + blankWidth [c]) text := by
  have hne : '\n' ≠ c := by
    rcases hc with rfl | rfl
    · decide
    · decide
  by_cases h : '\n' ∈ text
  · exact marginAfter_skip c h _ _
  · unfold marginAfter
    rw [if_neg (by simp [hne, h]), if_neg h]
    have happend : blankWidth (c :: text) = blankWidth [c] + blankWidth text := by
      rw [← List.singleton_append]
      simp only [blankWidth, List.count_append, Nat.add_mul]
      omega
    rw [happend, Nat.add_assoc]

theorem append_breaks (comment : Bool) (cs : List Char) :
    (Pattern.breaks comment cs).1 ++ (Pattern.breaks comment cs).2 = cs := by
  fun_induction Pattern.breaks comment cs with
  | case1 => rfl
  | case2 c cs ih => exact congrArg (c :: ·) ih
  | case3 cs ih => exact congrArg ('\r' :: '\n' :: ·) ih
  | case4 c cs _ _ ih => exact congrArg (c :: ·) ih
  | case5 cs _ _ ih => exact congrArg ('#' :: ·) ih
  | case6 c cs _ _ _ => rfl

/-- Where line breaks and comments are passed over outside of brackets, the cursor ends in the
margin of a line, and this has the width that the layout rule takes. -/
theorem after_breaks_outer (comment : Bool) (cs : List Char) (width : Nat) (h : EndsLines cs)
    (hcomment : comment = true → cs ≠ []) :
    after ⟨if comment then .comment else .margin, 0, width⟩ (Pattern.breaks comment cs).1 =
        ⟨.margin, 0, marginAfter width (Pattern.breaks comment cs).1⟩ ∧
      (comment = true → '\n' ∈ (Pattern.breaks comment cs).1) ∧
      ∀ c ∈ (Pattern.breaks comment cs).2.head?, c ≠ ' ' ∧ c ≠ '\t' := by
  fun_induction Pattern.breaks comment cs generalizing width with
  | case1 comment =>
    cases comment with
    | true => exact absurd rfl (hcomment rfl)
    | false => exact ⟨rfl, nofun, nofun⟩
  | case2 c cs ih =>
    by_cases hc : c = '\n'
    · subst hc
      obtain ⟨hafter, -, hrest⟩ := ih 0 h.of_cons nofun
      refine ⟨?_, fun _ => List.mem_cons_self, hrest⟩
      simp only [Pattern.push]
      rw [marginAfter_line]
      exact hafter
    · have hbne : (c != '\n') = true := bne_iff_ne.mpr hc
      rw [hbne] at ih
      obtain ⟨hafter, hline, hrest⟩ := ih width h.of_cons fun _ => h.ne_nil hc
      rw [hbne]
      refine ⟨?_, fun _ => List.mem_cons_of_mem c (hline rfl), hrest⟩
      have hnext : next ⟨.comment, 0, width⟩ c = ⟨.comment, 0, width⟩ := if_neg hc
      simp only [Pattern.push]
      rw [marginAfter_skip c (hline rfl) width width, after_cons]
      exact (congrArg (after · _) hnext).trans hafter
  | case3 cs ih =>
    obtain ⟨hafter, -, hrest⟩ := ih 0 h.of_cons.of_cons nofun
    refine ⟨?_, nofun, hrest⟩
    simp only [Pattern.push]
    rw [marginAfter_skip '\r' List.mem_cons_self width width, marginAfter_line]
    exact hafter
  | case4 c cs _ hc ih =>
    by_cases hline : c = '\n'
    · subst hline
      obtain ⟨hafter, -, hrest⟩ := ih 0 h.of_cons nofun
      refine ⟨?_, nofun, hrest⟩
      simp only [Pattern.push]
      rw [marginAfter_line]
      exact hafter
    · have hblank : c = ' ' ∨ c = '\t' := hc.resolve_left hline
      obtain ⟨hafter, -, hrest⟩ := ih (width + blankWidth [c]) h.of_cons nofun
      refine ⟨?_, nofun, hrest⟩
      simp only [Pattern.push]
      rw [marginAfter_blank hblank]
      rcases hblank with rfl | rfl
      · exact hafter
      · exact hafter
  | case5 cs _ _ ih =>
    obtain ⟨hafter, hline, hrest⟩ := ih width h.of_cons fun _ => h.ne_nil (by decide)
    refine ⟨?_, nofun, hrest⟩
    simp only [Pattern.push]
    rw [marginAfter_skip '#' (hline rfl) width width]
    exact hafter
  | case6 c cs _ hblank hcomment =>
    refine ⟨rfl, nofun, ?_⟩
    rintro _ ⟨⟩
    exact ⟨fun h => hblank (.inr (.inl h)), fun h => hblank (.inr (.inr h))⟩

/-- Inside brackets the logical line goes on. -/
theorem after_breaks_inner (comment : Bool) (cs : List Char) (depth width : Nat)
    (h : EndsLines cs) (hcomment : comment = true → cs ≠ []) :
    after ⟨if comment then .comment else .code, depth + 1, width⟩ (Pattern.breaks comment cs).1 =
      ⟨.code, depth + 1, width⟩ := by
  fun_induction Pattern.breaks comment cs with
  | case1 comment =>
    cases comment with
    | true => exact absurd rfl (hcomment rfl)
    | false => rfl
  | case2 c cs ih =>
    by_cases hc : c = '\n'
    · subst hc
      exact ih h.of_cons nofun
    · have hbne : (c != '\n') = true := bne_iff_ne.mpr hc
      have hnext : next ⟨.comment, depth + 1, width⟩ c = ⟨.comment, depth + 1, width⟩ :=
        if_neg hc
      rw [hbne] at ih ⊢
      exact (congrArg (after · _) hnext).trans (ih h.of_cons fun _ => h.ne_nil hc)
  | case3 cs ih => exact ih h.of_cons.of_cons nofun
  | case4 c cs _ hc ih =>
    have hafter := ih h.of_cons nofun
    rcases hc with rfl | rfl | rfl
    · exact hafter
    · exact hafter
    · exact hafter
  | case5 cs _ _ ih => exact ih h.of_cons fun _ => h.ne_nil (by decide)
  | case6 c cs _ _ _ => rfl

theorem after_breaks (comment : Bool) {cs : List Char} (hends : EndsLines cs)
    (hcomment : comment = true → cs ≠ [])
    (hmode : k.mode = if comment then .comment else if k.depth = 0 then .margin else .code) :
    (k.after (Pattern.breaks comment cs).1).AtRest (Pattern.breaks comment cs).2 ∧
      (k.after (Pattern.breaks comment cs).1).depth = k.depth ∧
      (k.after (Pattern.breaks comment cs).1).width =
        if k.depth = 0 then marginAfter k.width (Pattern.breaks comment cs).1 else k.width := by
  obtain ⟨mode, depth, width⟩ := k
  dsimp only at hmode
  rw [hmode]
  cases depth with
  | zero =>
    obtain ⟨hafter, -, hrest⟩ := after_breaks_outer comment cs width hends hcomment
    rw [if_pos rfl, hafter]
    refine ⟨fun c hc => ?_, rfl, rfl⟩
    obtain ⟨hspace, htab⟩ := hrest c hc
    simp only [next]
    rw [if_neg hspace, if_neg htab]
  | succ depth =>
    have hafter := after_breaks_inner comment cs depth width hends hcomment
    rw [if_neg (Nat.succ_ne_zero depth), hafter]
    exact ⟨fun _ _ => rfl, rfl, rfl⟩

theorem after_breaks_endLine {cs : List Char} (hends : EndsLines cs) :
    (k.endLine.after (Pattern.breaks false cs).1).AtRest (Pattern.breaks false cs).2 ∧
      (k.endLine.after (Pattern.breaks false cs).1).depth = k.depth ∧
      (k.endLine.after (Pattern.breaks false cs).1).width =
        if k.depth = 0 then indentWidth ('\n' :: (Pattern.breaks false cs).1) else k.width := by
  have hwidth : ∀ m : List Char, marginAfter 0 m = indentWidth ('\n' :: m) := by
    intro m
    rw [← marginAfter_line 0 m, marginAfter, if_pos List.mem_cons_self]
  unfold endLine
  split
  · next hdepth =>
    obtain ⟨hrest, hdepth', hwidth'⟩ := after_breaks (k := ⟨.margin, 0, 0⟩) false hends nofun rfl
    exact ⟨hrest, hdepth'.trans hdepth.symm, hwidth'.trans (hwidth _)⟩
  · next hdepth =>
    have h := after_breaks (k := { k with mode := .code }) false hends nofun (if_neg hdepth).symm
    dsimp only at h
    rwa [if_neg hdepth] at h

/-- The cursor passes over line breaks and comments. Outside brackets it is then in the margin of a
line whose width is the one that the layout rule takes. -/
theorem after_newline {cs : List Char} (h : Pattern.newline cs = some (text, rest))
    (hk : k.AtRest cs) (hends : EndsLines cs) :
    cs = text ++ rest ∧ text ≠ [] ∧ (k.after text).AtRest rest ∧ (k.after text).depth = k.depth ∧
      (k.after text).width = if k.depth = 0 then indentWidth text else k.width := by
  rw [Pattern.newline.eq_def] at h
  split at h
  · next cs =>
    cases h
    refine ⟨(append_breaks false _).symm, List.cons_ne_nil _ _, ?_⟩
    rw [hk.after_cons]
    exact after_breaks_endLine hends.of_cons
  · next cs =>
    cases h
    refine ⟨(append_breaks false _).symm, List.cons_ne_nil _ _, ?_⟩
    have hindent : ∀ m : List Char, indentWidth ('\r' :: '\n' :: m) = indentWidth ('\n' :: m) := by
      intro m
      unfold indentWidth
      rw [lastLine_cons, if_pos List.mem_cons_self]
    simp only [Pattern.push]
    rw [hk.after_cons, after_cons, hindent]
    exact after_breaks_endLine (k := { k with mode := .code }) hends.of_cons.of_cons
  · next cs =>
    cases h
    refine ⟨(append_breaks false _).symm, List.cons_ne_nil _ _, ?_⟩
    have hne := hends.ne_nil (by decide)
    have hline := (after_breaks_outer true cs 0 hends.of_cons fun _ => hne).2.1 rfl
    have hindent : marginAfter k.width (Pattern.breaks true cs).1 =
        indentWidth ('#' :: (Pattern.breaks true cs).1) := by
      rw [← marginAfter_skip '#' hline k.width, marginAfter,
        if_pos (List.mem_cons_of_mem '#' hline)]
    rw [hk.after_cons, ← hindent]
    exact after_breaks (k := { k with mode := .comment }) true hends.of_cons (fun _ => hne) rfl
  · cases h

end Cursor
end Starlark
