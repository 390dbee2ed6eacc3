import Starlark.Lexer.Pattern
import Starlark.Literal.Text
import Starlark.Syntax.Print

/-! # Quoted texts read back

A text in double quotes is one short string token, whatever follows it but a quote, and decodes to
itself without errors or notes.
-/
namespace Starlark

/-- The characters of a quoted text between its quotes. -/
def escaped (cs : List Char) : List Char := cs.flatMap escapeChar

theorem quoted_toList (s : String) : (quoted s).toList = '"' :: (escaped s.toList ++ ['"']) := by
  rw [quoted, String.toList_ofList, escaped, List.cons_append]

@[simp] theorem escaped_nil : escaped [] = [] := rfl

theorem escaped_cons (c : Char) (cs : List Char) : escaped (c :: cs) = escapeChar c ++ escaped cs :=
  List.flatMap_cons

/-- A character is escaped in one of three ways or stands for itself. -/
theorem escapeChar_cases (c : Char) :
    c = '\\' ∨ c = '"' ∨ c = '\n' ∨
      (c ≠ '\\' ∧ c ≠ '"' ∧ c ≠ '\n') ∧ escapeChar c = [c] := by
  by_cases hbackslash : c = '\\'
  · exact Or.inl hbackslash
  · by_cases hquote : c = '"'
    · exact Or.inr (Or.inl hquote)
    · by_cases hline : c = '\n'
      · exact Or.inr (Or.inr (Or.inl hline))
      · refine Or.inr (Or.inr (Or.inr ⟨⟨hbackslash, hquote, hline⟩, ?_⟩))
        unfold escapeChar
        split
        · exact absurd rfl hbackslash
        · exact absurd rfl hquote
        · exact absurd rfl hline
        · rfl

theorem not_mem_escaped (cs : List Char) : '\n' ∉ escaped cs := by
  induction cs with
  | nil => exact List.not_mem_nil
  | cons c cs ih =>
    rw [escaped_cons, List.mem_append, not_or]
    refine ⟨?_, ih⟩
    rcases escapeChar_cases c with rfl | rfl | rfl | ⟨⟨-, -, hline⟩, hc⟩
    · decide
    · decide
    · decide
    · rw [hc, List.mem_singleton]
      exact Ne.symm hline

theorem head?_escaped (cs : List Char) : (escaped cs).head? ≠ some '"' := by
  cases cs with
  | nil => nofun
  | cons c cs =>
    rw [escaped_cons]
    rcases escapeChar_cases c with rfl | rfl | rfl | ⟨⟨-, hquote, -⟩, hc⟩
    · exact fun h => absurd (Option.some.inj h) (by decide)
    · exact fun h => absurd (Option.some.inj h) (by decide)
    · exact fun h => absurd (Option.some.inj h) (by decide)
    · rw [hc]
      exact fun h => hquote (Option.some.inj h)

namespace Pattern

/-- A quoted text is closed by the quote after it. -/
theorem closeShort_escaped (cs rest : List Char) :
    closeShort '"' false (escaped cs ++ '"' :: rest) = some (escaped cs ++ ['"'], rest) := by
  induction cs with
  | nil => rfl
  | cons c cs ih =>
    rw [escaped_cons, List.append_assoc]
    rcases escapeChar_cases c with rfl | rfl | rfl | ⟨⟨hbackslash, hquote, hline⟩, hc⟩
    · simp [closeShort, escapeChar, ih, push]
    · simp [closeShort, escapeChar, ih, push]
    · simp [closeShort, escapeChar, ih, push]
    · have hb : (c == '\\') = false := beq_false_of_ne hbackslash
      simp [closeShort, hc, hline, hquote, hb, ih, push]

/-- A quoted text is a short string, but for an empty one before a quote. -/
theorem string_quoted (s : String) {rest : List Char} (hrest : rest.head? ≠ some '"') :
    string ((quoted s).toList ++ rest) = some ((quoted s).toList, rest) := by
  have hopen : ¬ ['"', '"'].isPrefixOf (escaped s.toList ++ '"' :: rest) := by
    intro h
    cases hs : escaped s.toList with
    | nil =>
      rw [hs] at h
      cases rest with
      | nil => cases h
      | cons c rest =>
        have hc : '"' = c := by simpa using h
        exact hrest (congrArg some hc.symm)
    | cons c cs =>
      rw [hs] at h
      rw [List.cons_append, List.isPrefixOf_cons_cons, Bool.and_eq_true, beq_iff_eq] at h
      have hhead := head?_escaped s.toList
      rw [hs] at hhead
      exact hhead (congrArg some h.1.symm)
  rw [quoted_toList, List.cons_append, List.append_assoc, List.singleton_append, string, maybeRaw,
    if_neg (by decide), openShort, if_pos ⟨Or.inl rfl, hopen⟩, closeShort_escaped]
  rfl

end Pattern

namespace Piece

/-- What a character of a quoted text is split into. -/
def ofChar (c : Char) : Piece :=
  if c = '\\' ∨ c = '"' then .simple c else if c = '\n' then .simple 'n' else .plain c

theorem split_escape {c : Char} (h : isOctal c = false) (rest : List Char) :
    split ('\\' :: c :: rest) = ofEscaped c :: split rest := by
  rw [split.eq_def]
  simp [h]

theorem split_plain {c : Char} (h : c ≠ '\\') (rest : List Char) :
    split (c :: rest) = .plain c :: split rest := by
  rw [split.eq_def]
  split
  · cases ‹c :: rest = []›
  · next heq => exact absurd (List.cons.inj heq).1 h
  · next heq =>
    cases heq
    rfl

theorem split_escaped (cs : List Char) : split (escaped cs) = cs.map ofChar := by
  induction cs with
  | nil => rfl
  | cons c cs ih =>
    rw [escaped_cons]
    rcases escapeChar_cases c with rfl | rfl | rfl | ⟨⟨hbackslash, hquote, hline⟩, hc⟩
    · exact (split_escape rfl _).trans (congrArg _ ih)
    · exact (split_escape rfl _).trans (congrArg _ ih)
    · exact (split_escape rfl _).trans (congrArg _ ih)
    · have hplain : ofChar c = .plain c := by simp [ofChar, hbackslash, hquote, hline]
      rw [hc, List.singleton_append, split_plain hbackslash, ih, List.map_cons, hplain]

theorem ofChar_cases (c : Char) : (∃ d, ofChar c = .simple d) ∨ ∃ d, ofChar c = .plain d := by
  unfold ofChar
  split
  · exact Or.inl ⟨_, rfl⟩
  · split
    · exact Or.inl ⟨_, rfl⟩
    · exact Or.inr ⟨_, rfl⟩

theorem value_ofChar (c : Char) : (ofChar c).value = [c] := by
  unfold ofChar
  split
  · next h => rcases h with rfl | rfl <;> rfl
  · split
    · next h =>
      subst h
      rfl
    · rfl

theorem mem_of_mem_place {p : Point} {xs : List Piece} {q : Point × Piece} (h : q ∈ place p xs) :
    q.2 ∈ xs := by
  induction xs generalizing p with
  | nil => cases h
  | cons x xs ih =>
    rcases List.mem_cons.mp h with rfl | h
    · exact List.mem_cons_self
    · exact List.mem_cons_of_mem _ (ih h)

end Piece

/-- A body is what stands between two times as many quotes as the token opens with. -/
theorem StringToken.ofText_between {q : Char} (hq : q = '"' ∨ q = '\'') (quotes body : List Char)
    (hwidth : (if (q :: (quotes ++ body ++ q :: quotes)).take 3 = ['"', '"', '"'] ∨
      (q :: (quotes ++ body ++ q :: quotes)).take 3 = ['\'', '\'', '\''] then 3 else 1) =
        (q :: quotes).length) :
    ofText (q :: (quotes ++ body ++ q :: quotes)) = ⟨false, q :: quotes, body⟩ := by
  have hraw : (q == 'r' || q == 'R') = false := by rcases hq with rfl | rfl <;> decide
  have htext : q :: (quotes ++ body ++ q :: quotes) = (q :: quotes) ++ body ++ q :: quotes := rfl
  have hfront : (q :: (quotes ++ body ++ q :: quotes)).take (q :: quotes).length =
      q :: quotes := by
    rw [htext, List.append_assoc, List.take_left]
  have hback : (q :: (quotes ++ body ++ q :: quotes)).take
      ((q :: (quotes ++ body ++ q :: quotes)).length - (q :: quotes).length) =
        (q :: quotes) ++ body := by
    rw [htext, List.length_append, Nat.add_sub_cancel, List.take_left]
  simp only [ofText, hraw, Bool.false_eq_true, ↓reduceIte, List.drop_zero, Nat.zero_add, hwidth,
    hfront, hback, List.drop_left]

/-- A single quote that is not one of three opens a short token. -/
theorem StringToken.ofText_short {q : Char} (hq : q = '"' ∨ q = '\'') {body : List Char}
    (hsingle : ¬ [q, q] <+: body ++ [q]) : ofText (q :: (body ++ [q])) = ⟨false, [q], body⟩ := by
  refine ofText_between hq [] body (if_neg fun hthree => hsingle ?_)
  have htwo : (body ++ [q]).take 2 = [q, q] := by
    rcases hthree with hthree | hthree
    · obtain ⟨rfl, htwo⟩ := List.cons.inj hthree
      exact htwo
    · obtain ⟨rfl, htwo⟩ := List.cons.inj hthree
      exact htwo
  exact htwo ▸ List.take_prefix 2 _

theorem StringToken.ofText_quoted (s : String) :
    ofText (quoted s).toList = ⟨false, ['"'], escaped s.toList⟩ := by
  rw [quoted_toList]
  refine ofText_short (.inl rfl) fun hprefix => ?_
  cases hs : escaped s.toList with
  | nil =>
    rw [hs] at hprefix
    exact absurd hprefix (by decide)
  | cons c cs =>
    have hhead := head?_escaped s.toList
    rw [hs] at hprefix hhead
    exact hhead (congrArg some (List.cons_prefix_cons.mp hprefix).1.symm)

/-- A quoted text decodes to itself. -/
theorem decodeString_quoted (file : String) (start : Point) (s : String) :
    decodeString file start (quoted s).toList = ⟨s.toList, [], []⟩ := by
  have hplain : ∀ q ∈ Piece.place (start.after ['"']) (s.toList.map Piece.ofChar),
      Piece.error? file q = none ∧ Piece.event? file q = none := by
    rintro ⟨p, x⟩ hq
    obtain ⟨c, -, hc⟩ := List.mem_map.mp (Piece.mem_of_mem_place hq)
    dsimp only at hc
    rcases Piece.ofChar_cases c with ⟨d, hd⟩ | ⟨d, hd⟩
    · rw [← hc, hd]
      exact ⟨rfl, rfl⟩
    · rw [← hc, hd]
      exact ⟨rfl, rfl⟩
  have hvalue : (s.toList.map Piece.ofChar).flatMap Piece.value = s.toList := by
    simp [List.flatMap_map, Piece.value_ofChar]
  simp only [decodeString, StringToken.ofText_quoted, Piece.split_escaped, hvalue,
    Bool.false_eq_true, ↓reduceIte]
  rw [List.filterMap_eq_nil_iff.mpr fun q hq => (hplain q hq).1,
    List.filterMap_eq_nil_iff.mpr fun q hq => (hplain q hq).2]

end Starlark
