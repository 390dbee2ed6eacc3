import Starlark.Proofs.Lexer.Matched

/-! # Other line breaks

A text is revised when each of its line breaks is written in another way: with a carriage return
before it, or with lines of blanks and comments after it. The patterns match the same in a revised
text, as far as they do not depend on what follows a line break.
-/
namespace Starlark

/-- A text with other endings for its lines, which are counted from `n` on. -/
def revise (ending : Nat → List Char) : Nat → List Char → List Char
  | _, [] => []
  | n, c :: cs =>
    if c = '\n' then ending n ++ revise ending (n + 1) cs else c :: revise ending n cs

/-- A line of spaces and tabs, with or without a comment. -/
structure IsIdle (line : List Char) : Prop where
  split : ∃ blanks comment, line = blanks ++ comment ∧ (∀ c ∈ blanks, c = ' ' ∨ c = '\t') ∧
    '\n' ∉ comment ∧ ∀ c ∈ comment.head?, c = '#'

/-- A line break, and lines of blanks and comments after it. -/
inductive IsEnding : List Char → Prop
  | feed : IsEnding ['\n']
  | returnFeed : IsEnding ['\r', '\n']
  | idle {w line : List Char} (before : IsEnding w) (added : IsIdle line) :
    IsEnding (w ++ (line ++ ['\n']))

section Revise
variable {ending : Nat → List Char} {n : Nat} {cs text rest : List Char} {c : Char}

theorem revise_line (cs : List Char) :
    revise ending n ('\n' :: cs) = ending n ++ revise ending (n + 1) cs := if_pos rfl

theorem revise_cons (h : c ≠ '\n') (cs : List Char) :
    revise ending n (c :: cs) = c :: revise ending n cs := if_neg h

theorem revise_append (as bs : List Char) :
    revise ending n (as ++ bs) = revise ending n as ++ revise ending (n + as.count '\n') bs := by
  induction as generalizing n with
  | nil => rfl
  | cons a as ih =>
    by_cases ha : a = '\n'
    · subst ha
      rw [List.cons_append, revise_line, revise_line, ih, List.append_assoc, List.count_cons_self,
        Nat.add_right_comm, Nat.add_assoc]
    · rw [List.cons_append, revise_cons ha, revise_cons ha, ih, List.cons_append,
        List.count_cons_of_ne ha]

/-- Inside a line nothing changes. -/
theorem revise_of_not_mem (h : '\n' ∉ cs) : revise ending n cs = cs := by
  induction cs with
  | nil => rfl
  | cons c cs ih =>
    rw [List.mem_cons, not_or] at h
    rw [revise_cons (Ne.symm h.1), ih h.2]

end Revise

/-- How a revised text begins. -/
theorem revise_eq_cons {ending : Nat → List Char} {n : Nat} {cs rest : List Char} {c : Char}
    (h : revise ending n cs = c :: rest) :
    (∃ cs', cs = '\n' :: cs') ∨ c ≠ '\n' ∧ ∃ cs', cs = c :: cs' ∧ rest = revise ending n cs' := by
  cases cs with
  | nil => cases h
  | cons d cs =>
    by_cases hd : d = '\n'
    · exact .inl ⟨cs, congrArg (· :: cs) hd⟩
    · rw [revise_cons hd] at h
      obtain ⟨rfl, rfl⟩ := List.cons.inj h
      exact .inr ⟨hd, cs, rfl, rfl⟩

/-! ## The endings of lines -/

theorem IsEnding.cases {w : List Char} (h : IsEnding w) :
    (∃ rest, w = '\n' :: rest) ∨ ∃ rest, w = '\r' :: '\n' :: rest := by
  induction h with
  | feed => exact .inl ⟨[], rfl⟩
  | returnFeed => exact .inr ⟨[], rfl⟩
  | idle _ _ ih =>
    rcases ih with ⟨rest, rfl⟩ | ⟨rest, rfl⟩
    · exact .inl ⟨_, rfl⟩
    · exact .inr ⟨_, rfl⟩

theorem IsEnding.getLast? {w : List Char} (h : IsEnding w) : w.getLast? = some '\n' := by
  cases h with
  | feed => rfl
  | returnFeed => rfl
  | idle _ _ => simp

/-- The endings of the lines of a text. A text that has carriage returns gets no more of them. -/
structure Endings (ending : Nat → List Char) (text : List Char) : Prop where
  isEnding : ∀ n, IsEnding (ending n)
  noReturn : '\r' ∈ text → ∀ n, (ending n).head? = some '\n'

theorem Endings.mono {ending : Nat → List Char} {cs text : List Char} (h : Endings ending text)
    (hcs : cs ⊆ text) : Endings ending cs :=
  ⟨h.isEnding, fun hmem => h.noReturn (hcs hmem)⟩

theorem Endings.tail {ending : Nat → List Char} {c : Char} {cs : List Char}
    (h : Endings ending (c :: cs)) : Endings ending cs := h.mono (List.subset_cons_self c cs)

namespace Pattern
variable {ending : Nat → List Char} {n : Nat} {cs text rest : List Char}

theorem breaks_blank {c : Char} (hc : c = ' ' ∨ c = '\t') (cs : List Char) :
    breaks false (c :: cs) = push c (breaks false cs) := by
  rcases hc with rfl | rfl
  · rfl
  · rfl

theorem breaks_feed (comment : Bool) (cs : List Char) :
    breaks comment ('\n' :: cs) = push '\n' (breaks false cs) := by
  cases comment
  · rfl
  · rfl

theorem breaks_comment (h : '\n' ∉ text) (cs : List Char) :
    breaks true (text ++ '\n' :: cs) =
      (text ++ '\n' :: (breaks false cs).1, (breaks false cs).2) := by
  induction text with
  | nil => exact breaks_feed true cs
  | cons c text ih =>
    rw [List.mem_cons, not_or] at h
    rw [List.cons_append, breaks, bne_iff_ne.mpr (Ne.symm h.1), ih h.2]
    rfl

theorem breaks_idle {line : List Char} (h : IsIdle line) (cs : List Char) :
    breaks false (line ++ '\n' :: cs) =
      (line ++ '\n' :: (breaks false cs).1, (breaks false cs).2) := by
  obtain ⟨blanks, comment, rfl, hblanks, hcomment, hmark⟩ := h
  induction blanks with
  | nil =>
    cases comment with
    | nil => exact breaks_feed false cs
    | cons c comment =>
      obtain rfl : c = '#' := hmark c rfl
      rw [List.mem_cons, not_or] at hcomment
      have hrest := breaks_comment hcomment.2 cs
      change push '#' (breaks true (comment ++ '\n' :: cs)) = _
      rw [hrest]
      rfl
  | cons c blanks ih =>
    rw [List.forall_mem_cons] at hblanks
    have hrest := ih hblanks.2
    rw [List.cons_append, List.cons_append, breaks_blank hblanks.1, hrest]
    rfl

/-- An ending is passed over as one line break. -/
theorem breaks_ending {w : List Char} (h : IsEnding w) (comment : Bool) (cs : List Char) :
    breaks comment (w ++ cs) = (w ++ (breaks false cs).1, (breaks false cs).2) := by
  induction h generalizing cs with
  | feed => exact breaks_feed comment cs
  | returnFeed =>
    cases comment
    · rfl
    · rfl
  | idle _ hline ih =>
    rw [List.append_assoc, ih, List.append_assoc, List.singleton_append, breaks_idle hline]
    simp

/-- What a pattern matches, where the text is revised. -/
def reviseSplit (ending : Nat → List Char) (n : Nat) (s : Split) : Split :=
  (revise ending n s.1, revise ending (n + s.1.count '\n') s.2)

theorem push_reviseSplit {c : Char} (h : c ≠ '\n') (s : Split) :
    push c (reviseSplit ending n s) = reviseSplit ending n (push c s) := by
  simp only [push, reviseSplit, revise_cons h, List.count_cons_of_ne h]

theorem append_reviseSplit (s : Split) :
    (ending n ++ (reviseSplit ending (n + 1) s).1, (reviseSplit ending (n + 1) s).2) =
      reviseSplit ending n (push '\n' s) := by
  simp only [push, reviseSplit, revise_line, List.count_cons_self, Nat.add_assoc,
    Nat.add_comm 1]

theorem breaks_revise (h : Endings ending cs) (comment : Bool) :
    breaks comment (revise ending n cs) = reviseSplit ending n (breaks comment cs) := by
  fun_induction breaks comment cs generalizing n with
  | case1 => rfl
  | case2 c cs ih =>
    by_cases hc : c = '\n'
    · subst hc
      rw [revise_line, breaks_ending (h.isEnding n), ← append_reviseSplit, ← ih h.tail]
      rfl
    · rw [revise_cons hc, breaks, ih h.tail, push_reviseSplit hc]
  | case3 cs ih =>
    obtain ⟨w, hw⟩ : ∃ w, ending n = '\n' :: w :=
      ⟨_, List.eq_cons_of_mem_head? (h.noReturn List.mem_cons_self n)⟩
    have hreturn : breaks false ('\r' :: (ending n ++ revise ending (n + 1) cs)) =
        push '\r' (breaks false (ending n ++ revise ending (n + 1) cs)) := by
      rw [hw]
      rfl
    rw [revise_cons (by decide), revise_line, hreturn, breaks_ending (h.isEnding n),
      ih h.tail.tail, append_reviseSplit, push_reviseSplit (by decide)]
  | case4 c cs hreturn hc ih =>
    by_cases hline : c = '\n'
    · subst hline
      rw [revise_line, breaks_ending (h.isEnding n), ih h.tail, append_reviseSplit]
    · rw [revise_cons hline, breaks_blank (hc.resolve_left hline), ih h.tail,
        push_reviseSplit hline]
  | case5 cs hreturn hc ih =>
    have hcomment : breaks false ('#' :: revise ending n cs) =
        push '#' (breaks true (revise ending n cs)) := rfl
    rw [revise_cons (by decide), hcomment, ih h.tail, push_reviseSplit (by decide)]
  | case6 c cs hreturn hc hmark =>
    simp only [not_or] at hc
    have hreturn' : ∀ rest, c = '\r' → revise ending n cs ≠ '\n' :: rest := by
      intro rest hc' heq
      rcases revise_eq_cons heq with ⟨cs', hcs⟩ | ⟨hne, -⟩
      · exact hreturn cs' hc' hcs
      · exact hne rfl
    rw [revise_cons hc.1, breaks, if_neg (by simp [hc]), if_neg hmark, ← revise_cons hc.1]
    · rfl
    · exact hreturn'

/-! ## Patterns that do not depend on line breaks -/

theorem reviseSplit_of_not_mem {s : Split} (h : '\n' ∉ s.1) :
    reviseSplit ending n s = (s.1, revise ending n s.2) := by
  rw [reviseSplit, revise_of_not_mem h, List.count_eq_zero_of_not_mem h, Nat.add_zero]

/-- Does a pattern match the same in a revised text? -/
def KeepsMatch (ending : Nat → List Char) (p : List Char → Option Split) : Prop :=
  ∀ n cs, p (revise ending n cs) = (p cs).map (reviseSplit ending n)

section Lines
variable (hending : ∀ n, IsEnding (ending n))
include hending

/-- Such a pattern fails at the end of a line. -/
theorem KeepsMatch.of_cons {p : List Char → Option Split} (hnil : p [] = none)
    (hfeed : ∀ cs, p ('\n' :: cs) = none) (hreturn : ∀ cs, p ('\r' :: '\n' :: cs) = none)
    (hcons : ∀ n c cs, c ≠ '\n' →
      p (c :: revise ending n cs) = (p (c :: cs)).map (reviseSplit ending n)) :
    KeepsMatch ending p := by
  intro n cs
  cases cs with
  | nil =>
    rw [revise, hnil]
    rfl
  | cons c cs =>
    by_cases hc : c = '\n'
    · subst hc
      rw [revise_line, hfeed]
      rcases (hending n).cases with ⟨rest, hw⟩ | ⟨rest, hw⟩
      · rw [hw, List.cons_append, hfeed]
        rfl
      · rw [hw, List.cons_append, List.cons_append, hreturn]
        rfl
    · rw [revise_cons hc, hcons n c cs hc]

omit hending in
theorem newline_not_mem_takeWhile {p : Char → Bool} (hline : p '\n' = false) (cs : List Char) :
    '\n' ∉ cs.takeWhile p := by
  intro hmem
  have hp := List.mem_takeWhile_imp hmem
  rw [hline] at hp
  cases hp

/-- A class of characters without those that end a line. -/
def InLine (p : Char → Bool) : Prop := p '\n' = false ∧ p '\r' = false

section Classes
variable {p : Char → Bool} (hp : InLine p)
include hp

theorem span_revise (n : Nat) (cs : List Char) :
    (revise ending n cs).takeWhile p = cs.takeWhile p ∧
      (revise ending n cs).dropWhile p = revise ending n (cs.dropWhile p) := by
  induction cs with
  | nil => exact ⟨rfl, rfl⟩
  | cons c cs ih =>
    by_cases hc : c = '\n'
    · subst hc
      rw [revise_line]
      rcases (hending n).cases with ⟨rest, hw⟩ | ⟨rest, hw⟩
      · simp [hw, hp.1, revise_line]
      · simp [hw, hp.1, hp.2, revise_line]
    · rw [revise_cons hc]
      by_cases hpc : p c = true
      · simp [hpc, ih]
      · simp [hpc, revise_cons hc]

/-- A run of characters of a class, behind some others. -/
theorem run_revise (front : List Char) (hfront : '\n' ∉ front) (n : Nat) (cs : List Char) :
    (front ++ (revise ending n cs).takeWhile p, (revise ending n cs).dropWhile p) =
      reviseSplit ending n (front ++ cs.takeWhile p, cs.dropWhile p) := by
  obtain ⟨htake, hdrop⟩ := span_revise hending hp n cs
  rw [reviseSplit_of_not_mem, htake, hdrop]
  exact List.not_mem_append hfront (newline_not_mem_takeWhile hp.1 cs)

theorem some?_revise (n : Nat) (cs : List Char) :
    some? p (revise ending n cs) = (some? p cs).map (reviseSplit ending n) := by
  have hrun := run_revise hending hp [] List.not_mem_nil n cs
  rw [some?, some?, (span_revise hending hp n cs).1] at *
  cases htake : cs.takeWhile p with
  | nil => rfl
  | cons c ds =>
    rw [htake] at hrun
    exact congrArg some hrun

end Classes

theorem keepsMatch_blank : KeepsMatch ending blank :=
  some?_revise hending ⟨by decide, by decide⟩

theorem keepsMatch_name : KeepsMatch ending name := by
  refine KeepsMatch.of_cons hending rfl (fun _ => rfl) (fun _ => rfl) fun n c cs hc => ?_
  rw [name, name]
  split
  · exact congrArg some (run_revise hending (p := Text.isWord) ⟨by decide, by decide⟩ [c]
      (by simpa using Ne.symm hc) n cs)
  · rfl

theorem keepsMatch_decimal : KeepsMatch ending decimal := by
  refine KeepsMatch.of_cons hending rfl (fun _ => rfl) (fun _ => rfl) fun n c cs hc => ?_
  have hmark : '\n' ∉ [c] := by simpa using Ne.symm hc
  rw [decimal, decimal]
  split
  · rw [Option.map_some, reviseSplit_of_not_mem hmark]
  · split
    · exact congrArg some (run_revise hending (p := Text.isDecimal) ⟨by decide, by decide⟩ [c]
        hmark n cs)
    · rfl

/-- A zero, one of two marks and a run of a class. -/
theorem KeepsMatch.marked {q : List Char → Option Split} {p : Char → Bool} (hp : InLine p)
    {a b : Char} (ha : a ≠ '\n' ∧ a ≠ '\r') (hb : b ≠ '\n' ∧ b ≠ '\r')
    (hmark : ∀ x cs, q ('0' :: x :: cs) =
      if x = a ∨ x = b then (some? p cs).map fun s => push '0' (push x s) else none)
    (hother : ∀ cs, (∀ x rest, cs ≠ '0' :: x :: rest) → q cs = none) : KeepsMatch ending q := by
  have hne : ∀ {c : Char}, c ≠ '0' → ∀ cs, q (c :: cs) = none := fun hc cs =>
    hother _ fun _ _ heq => hc (List.cons.inj heq).1
  refine KeepsMatch.of_cons hending (hother _ nofun) (hne (by decide)) (fun _ => hne (by decide) _)
    fun n c cs hc => ?_
  by_cases hzero : c = '0'
  · subst hzero
    cases cs with
    | nil =>
      rw [revise, hother _ (by simp)]
      rfl
    | cons x cs =>
      rw [hmark]
      by_cases hx : x = '\n'
      · subst hx
        rw [revise_line, if_neg (by simp [ha.1.symm, hb.1.symm])]
        rcases (hending n).cases with ⟨rest, hw⟩ | ⟨rest, hw⟩
        · rw [hw, List.cons_append, hmark, if_neg (by simp [ha.1.symm, hb.1.symm])]
          rfl
        · rw [hw, List.cons_append, hmark, if_neg (by simp [ha.2.symm, hb.2.symm])]
          rfl
      · rw [revise_cons hx, hmark]
        split
        · rw [some?_revise hending hp, Option.map_map, Option.map_map]
          congr 1
          funext s
          rw [Function.comp_apply, Function.comp_apply, push_reviseSplit hx,
            push_reviseSplit (by decide)]
        · rfl
  · rw [hne hzero, hne hzero]
    rfl

theorem keepsMatch_hexadecimal : KeepsMatch ending hexadecimal := by
  have hp : InLine isHexDigit := ⟨by decide, by decide⟩
  refine KeepsMatch.marked hending (q := hexadecimal) hp (a := 'x') (b := 'X') (by decide) (by decide)
    (fun _ _ => rfl) fun cs hcs => ?_
  rw [hexadecimal.eq_def]
  split
  · exact absurd rfl (hcs _ _)
  · rfl

theorem keepsMatch_octal : KeepsMatch ending octal := by
  have hp : InLine isOctalDigit := ⟨by decide, by decide⟩
  refine KeepsMatch.marked hending (q := octal) hp (a := 'o') (b := 'O') (by decide) (by decide)
    (fun _ _ => rfl) fun cs hcs => ?_
  rw [octal.eq_def]
  split
  · exact absurd rfl (hcs _ _)
  · rfl

theorem keepsMatch_literal {word : List Char} (hline : '\n' ∉ word) (hreturn : '\r' ∉ word) :
    KeepsMatch ending (literal word) := by
  intro n cs
  induction word generalizing cs with
  | nil => rfl
  | cons k ks ih =>
    rw [List.mem_cons, not_or] at hline hreturn
    cases cs with
    | nil => rfl
    | cons c cs =>
      by_cases hc : c = '\n'
      · subst hc
        rw [revise_line, literal, if_neg (Ne.symm hline.1)]
        rcases (hending n).cases with ⟨rest, hw⟩ | ⟨rest, hw⟩
        · rw [hw, List.cons_append, literal, if_neg (Ne.symm hline.1)]
          rfl
        · rw [hw, List.cons_append, literal, if_neg (Ne.symm hreturn.1)]
          rfl
      · rw [revise_cons hc, literal, literal]
        split
        · rw [ih hline.2 hreturn.2, Option.map_map, Option.map_map]
          congr 1
          funext s
          exact push_reviseSplit hc s
        · rfl

/-! ## Short strings -/

theorem keepsMatch_closeShort {quote : Char} (hquote : quote ≠ '\r') (escaped : Bool) :
    KeepsMatch ending (closeShort quote escaped) := by
  intro n cs
  induction cs generalizing escaped with
  | nil => rfl
  | cons c cs ih =>
    by_cases hc : c = '\n'
    · subst hc
      rw [revise_line, closeShort, if_pos rfl]
      rcases (hending n).cases with ⟨rest, hw⟩ | ⟨rest, hw⟩
      · rw [hw, List.cons_append, closeShort, if_pos rfl]
        rfl
      · rw [hw, List.cons_append, List.cons_append, closeShort, if_neg (by decide),
          if_neg (by simp [hquote.symm]), closeShort, if_pos rfl]
        rfl
    · rw [revise_cons hc, closeShort, closeShort, if_neg hc, if_neg hc]
      split
      · rw [Option.map_some, reviseSplit_of_not_mem (by simpa using Ne.symm hc)]
      · rw [ih, Option.map_map, Option.map_map]
        congr 1
        funext s
        exact push_reviseSplit hc s

/-- Characters that end no line stand at the beginning of both texts or of none. -/
theorem prefix_revise {word : List Char} (hline : '\n' ∉ word) (hreturn : '\r' ∉ word)
    (n : Nat) (cs : List Char) :
    word <+: revise ending n cs ↔ word <+: cs := by
  have hliteral : ∀ cs, word <+: cs ↔ literal word cs ≠ none := by
    refine fun cs => ⟨?_, prefix_of_literal⟩
    rintro ⟨rest, rfl⟩
    rw [literal_append]
    exact Option.some_ne_none _
  rw [hliteral, hliteral, keepsMatch_literal hending hline hreturn, ne_eq, Option.map_eq_none_iff]

theorem keepsMatch_openShort : KeepsMatch ending openShort := by
  refine KeepsMatch.of_cons hending rfl (fun _ => rfl) (fun _ => rfl) fun n q cs hq => ?_
  rw [openShort, openShort]
  by_cases hquote : q = '"' ∨ q = '\''
  · have hreturn : q ≠ '\r' := by
      rcases hquote with rfl | rfl
      · decide
      · decide
    have hprefix := prefix_revise hending (by simp [Ne.symm hq] : '\n' ∉ [q, q])
      (by simp [hreturn.symm]) n cs
    simp only [List.isPrefixOf_iff_prefix, hprefix]
    split
    · rw [keepsMatch_closeShort hending hreturn false, Option.map_map, Option.map_map]
      congr 1
      funext s
      exact push_reviseSplit hq s
    · rfl
  · rw [if_neg fun h => hquote h.1, if_neg fun h => hquote h.1]
    rfl

theorem keepsMatch_string : KeepsMatch ending string := by
  refine KeepsMatch.of_cons hending rfl (fun _ => rfl) (fun _ => rfl) fun n c cs hc => ?_
  rw [string, string, maybeRaw, maybeRaw]
  split
  · rw [keepsMatch_openShort hending, Option.map_map, Option.map_map]
    congr 1
    funext s
    exact push_reviseSplit hc s
  · rw [← revise_cons hc, keepsMatch_openShort hending]

end Lines
end Pattern
end Starlark
