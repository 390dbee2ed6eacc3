import Starlark.Proofs.Parser.Rerun

/-! # Sources with the same derivation

A revised source has the derivation of the source, with its tokens at other places. A line of blanks
and comments before a source adds no more than a line break before everything else.
-/
namespace Starlark
variable {ending : Nat → List Char} {line : List Char}

/-! ## Places -/

theorem lastLine_concat (text : List Char) (c : Char) :
    lastLine (text ++ [c]) = if c = '\n' then [] else lastLine text ++ [c] := by
  by_cases hc : c = '\n'
  · simp [lastLine, hc]
  · simp [lastLine, hc]

/-- The place after a text is told from its line breaks and its last line. -/
theorem Point.after_start (text : List Char) :
    Point.after ⟨1, 1⟩ text = ⟨1 + text.count '\n', 1 + (lastLine text).length⟩ := by
  induction text using List.reverseRecOn with
  | nil => rfl
  | append_singleton text c ih =>
    have hnext : Point.after ⟨1, 1⟩ (text ++ [c]) = (Point.after ⟨1, 1⟩ text).next c :=
      Point.after_append _ text [c]
    rw [hnext, ih, Point.next, lastLine_concat, List.count_append]
    by_cases hc : c = '\n'
    · subst hc
      simp [Int.add_assoc]
    · simp [hc, Int.add_assoc]

/-- A place, one line down where it is after a line. -/
def Point.lower (i : Nat) (p : Point) : Point :=
  if i < p.line then ⟨p.line + 1, p.column⟩ else p

theorem Point.after_congr {text text' : List Char} (hcount : text'.count '\n' = text.count '\n')
    (hlast : lastLine text' = lastLine text) : Point.after ⟨1, 1⟩ text' = Point.after ⟨1, 1⟩ text := by
  rw [after_start, after_start, hcount, hlast]

theorem Point.after_lower {i : Nat} {text text' : List Char}
    (hcount : text'.count '\n' = text.count '\n' + if i ≤ text.count '\n' then 1 else 0)
    (hlast : lastLine text' = lastLine text) :
    Point.after ⟨1, 1⟩ text' = (Point.after ⟨1, 1⟩ text).lower i := by
  rw [after_start, after_start, hcount, hlast, lower]
  by_cases hi : i ≤ text.count '\n'
  · have hlt : (i : Int) < 1 + text.count '\n' := by omega
    rw [if_pos hi, if_pos hlt]
    simp [Int.add_assoc]
  · have hnot : ¬ (i : Int) < 1 + text.count '\n' := by omega
    rw [if_neg hi, if_neg hnot]
    simp

/-! ## A line in front of a text -/

namespace Pattern
variable {cs comment : List Char} {s : Split}

theorem newline_comment (hline : '\n' ∉ comment) (hmark : ∀ c ∈ comment.head?, c = '#')
    (cs : List Char) : newline (comment ++ '\n' :: cs) =
      some (comment ++ '\n' :: (breaks false cs).1, (breaks false cs).2) := by
  have hidle : IsIdle comment := ⟨[], comment, rfl, List.forall_mem_nil _, hline, hmark⟩
  rw [← breaks_idle hidle]
  cases comment with
  | nil => rfl
  | cons c comment =>
    obtain rfl := hmark c rfl
    rfl

theorem breaks_of_newline (h : newline cs = some s) : breaks false cs = s := by
  rw [newline.eq_def] at h
  split at h
  · exact Option.some.inj h
  · exact Option.some.inj h
  · exact Option.some.inj h
  · cases h

/-- No line break is passed over before a text that begins with neither one nor blanks. -/
theorem breaks_of_newline_eq_none (h : newline cs = none)
    (hblank : ∀ c ∈ cs.head?, c ≠ ' ' ∧ c ≠ '\t') : breaks false cs = ([], cs) := by
  cases cs with
  | nil => rfl
  | cons c cs =>
    have hc := hblank c rfl
    have hline : c ≠ '\n' := by
      rintro rfl
      cases h
    have hmark : c ≠ '#' := by
      rintro rfl
      cases h
    have hreturn : ∀ rest, c = '\r' → cs ≠ '\n' :: rest := by
      rintro rest rfl rfl
      cases h
    rw [breaks, if_neg (by simp [hc, hline]), if_neg hmark]
    exact hreturn

end Pattern

theorem IsIdle.newline_not_mem (h : IsIdle line) : '\n' ∉ line := by
  obtain ⟨blanks, comment, rfl, hblanks, hcomment, -⟩ := h
  refine List.not_mem_append (fun hmem => ?_) hcomment
  rcases hblanks _ hmem with hblank | hblank
  · cases hblank
  · cases hblank

namespace Scan
open Pattern
variable {candidates : List Terminal} {cs text rest : List Char}

theorem next_newline (h : newline cs = some (text, rest)) (candidates : List Terminal) (fuel : Nat)
    (start : Point) : next candidates (fuel + 1) start cs =
      .token ⟨.newline, text, ⟨start, start.after text⟩⟩ rest := by
  have hne : ¬ cs.isEmpty = true := by
    rintro hnil
    rw [List.isEmpty_iff.mp hnil] at h
    cases h
  rw [next, if_neg hne, match?_of_newline h]

/-- A line of blanks and comments begins with a line break of the width of those after it. -/
theorem exists_next_idle (h : IsIdle line) (cs : List Char) (start : Point) :
    ∃ t : Token, t.kind = .newline ∧ indentWidth t.text = indentWidth (breaks false cs).1 ∧
      t.span.stop = start.after (line ++ '\n' :: (breaks false cs).1) ∧
      ∀ candidates fuel, next candidates (fuel + 2) start (line ++ '\n' :: cs) =
        .token t (breaks false cs).2 := by
  obtain ⟨blanks, comment, rfl, hblanks, hcomment, hmark⟩ := h
  have hnewline := newline_comment hcomment hmark cs
  have hwidth : indentWidth (comment ++ '\n' :: (breaks false cs).1) =
      indentWidth (breaks false cs).1 := by
    have hlast : (comment ++ ['\n']).getLast? = some '\n' := List.getLast?_concat
    rw [List.append_cons, indentWidth, indentWidth, lastLine_append hlast]
  refine ⟨⟨.newline, comment ++ '\n' :: (breaks false cs).1, ⟨start.after blanks,
    (start.after blanks).after (comment ++ '\n' :: (breaks false cs).1)⟩⟩, rfl, hwidth,
    by rw [← Point.after_append, List.append_assoc], fun candidates fuel => ?_⟩
  rw [List.append_assoc]
  by_cases hne : blanks = []
  · subst hne
    exact next_newline hnewline candidates (fuel + 1) start
  · have havoids : Avoids isBlank (comment ++ '\n' :: cs) := by
      intro c hc
      cases comment with
      | nil =>
        cases hc
        rfl
      | cons d comment =>
        cases hc
        rw [hmark _ rfl]
        rfl
    rw [next, if_neg (by simp [hne]), match?_blanks candidates hblanks hne havoids]
    exact next_newline hnewline candidates fuel _

end Scan

namespace Parser
open Automaton
variable {f : Point → Point} {source source' : List Char} {tree : Tree (.n .file)}

theorem endLine_append (h : source ≠ []) (front : List Char) :
    endLine (front ++ source) = front ++ endLine source := by
  rw [endLine, endLine, List.getLast?_append_of_ne_nil front h]
  split
  · rfl
  · rw [List.append_assoc]

theorem endLine_concat (front : List Char) : endLine (front ++ ['\n']) = front ++ ['\n'] :=
  if_pos List.getLast?_concat

theorem head?_endLine (h : source ≠ []) : (endLine source).head? = source.head? := by
  rw [endLine]
  split
  · rfl
  · exact List.head?_append_of_ne_nil _ h

theorem Progress.Beside.refl (m : Progress) : m.Beside m := ⟨.same _, rfl⟩

/-! ## Revised sources -/

/-- A revised source has the same derivation, with its tokens moved. -/
theorem derive_revise (hsource : endLine source' = revise ending 1 (endLine source))
    (hendings : Endings ending (endLine source))
    (hhides : Scan.HidesBare ending .start 1 (endLine source))
    (hkept : ∀ t ∈ handedTokens source, t.kind = .longString → t.Kept ending)
    (hmove : ∀ text, Point.after ⟨1, 1⟩ (revise ending 1 text) = f (Point.after ⟨1, 1⟩ text))
    (h : derive source = .ok tree) :
    ∃ tree', derive source' = .ok tree' ∧ List.Forall₂ (Token.Moved f) tree.tokens tree'.tokens := by
  have hrevisable : Scan.Revisable ending .start 1 (endLine source) :=
    ⟨hendings, hhides, fun _ _ => rfl, endsLines_endLine source⟩
  have hplaces : PlacesMove ending f [] (endLine source) ⟨1, 1⟩ := fun gap _ _ _ => hmove gap
  obtain ⟨tree', hrun, hhanded⟩ := (reads_initial source).run_revise (.refl _) hrevisable
    (Nat.lt_succ_self _) (Nat.lt_succ_self _) hkept hplaces h
  have hderive : derive source' = .ok tree' := by
    rw [derive, hsource]
    exact hrun
  refine ⟨tree', hderive, ?_⟩
  rw [tokens_of_derive h, tokens_of_derive hderive, handedTokens, handedTokens, hsource]
  exact hhanded

/-! ## A line in front of a source -/

/-- Sources that begin with line breaks of the same width and go on alike. -/
theorem derive_of_newlines {t t' : Token} {rest : List Char}
    (hnext : Scan.next (candidates []) ((endLine source).length + 1) ⟨1, 1⟩ (endLine source) =
      .token t rest)
    (hnext' : Scan.next (candidates []) ((endLine source').length + 1) ⟨1, 1⟩ (endLine source') =
      .token t' rest)
    (hkind : t.kind = .newline) (hkind' : t'.kind = .newline)
    (hwidth : indentWidth t'.text = indentWidth t.text)
    (hmove : ∀ gap rest', rest = gap ++ rest' → rest' ≠ [] →
      t'.span.stop.after gap = f (t.span.stop.after gap))
    (h : derive source = .ok tree) :
    ∃ tree', derive source' = .ok tree' ∧ List.Forall₂ (Token.Moved f) tree.tokens tree'.tokens := by
  have hmoved : t.Moved f t' := .of_layout (hkind'.trans hkind.symm) (hkind ▸ List.mem_cons_self)
  have hbeside := Progress.Beside.refl .initial
  obtain ⟨m₁, htake⟩ := exists_take hnext h
  obtain ⟨m₁', htake', hbeside'⟩ := hbeside.take hmoved.kind (fun _ => hwidth) htake
  obtain ⟨place, hstart, hstop, hplace, hfollows⟩ := (reads_initial source).exists_place hnext
  obtain ⟨-, hreads⟩ := hplace.take hstart hfollows htake
  rw [hstart, ← Point.after_append] at hstop
  have hrun := h
  rw [derive, run_of_token hnext htake, hstop] at hrun
  have hplaces : ∀ gap rest', rest = gap ++ rest' → rest' ≠ [] →
      t'.span.stop.after gap = f (Point.after ⟨1, 1⟩ (place ++ t.text ++ gap)) := by
    intro gap rest' hgap hne
    rw [hmove gap rest' hgap hne, hstop, ← Point.after_append]
  obtain ⟨tree', hrun', hhanded⟩ := hreads.run_elsewhere hbeside'
    ((reads_initial source).length_lt_of_next hnext)
    ((reads_initial source').length_lt_of_next hnext') hplaces hrun
  have hderive : derive source' = .ok tree' := by
    rw [derive, run_of_token hnext' htake']
    exact hrun'
  refine ⟨tree', hderive, ?_⟩
  rw [tokens_of_derive h, tokens_of_derive hderive, handedTokens, handedTokens,
    handed_of_token hnext htake, handed_of_token hnext' htake', hstop]
  exact List.rel_append (hbeside.handed hmoved fun _ => hwidth) hhanded

/-- A derivation with its tokens moved, or with a line break before the moved tokens. -/
def TokensMove (f : Point → Point) (ts us : List Token) : Prop :=
  List.Forall₂ (Token.Moved f) ts us ∨
    ∃ t vs, t.kind = .newline ∧ us = t :: vs ∧ List.Forall₂ (Token.Moved f) ts vs

/-- What a source without a line break in front hands over follows the line break put there. -/
theorem derive_of_blank {t : Token}
    (hnext : Scan.next (candidates []) ((endLine source').length + 1) ⟨1, 1⟩ (endLine source') =
      .token t (endLine source))
    (hkind : t.kind = .newline) (hwidth : indentWidth t.text = 0)
    (hmove : ∀ text, t.span.stop.after text = f (Point.after ⟨1, 1⟩ text))
    (h : derive source = .ok tree) :
    ∃ tree', derive source' = .ok tree' ∧ TokensMove f tree.tokens tree'.tokens := by
  have hstate : next? 0 (.t t.kind) = some 3 := by
    rw [hkind]
    decide
  obtain ⟨stack, hfeed, houtline⟩ := feed_of_next? [] t hstate
  have hshift : shift Progress.initial.stack t = .ok stack := by
    rw [shift, Progress.initial, hfeed]
  have htake := take_lineBreak hkind hwidth rfl hshift
  have hbeside : Progress.initial.Beside ⟨stack, .initial, t, t⟩ := by
    refine ⟨?_, rfl⟩
    rw [houtline, hkind]
    exact .blank
  obtain ⟨tree', hrun, hhanded⟩ := (reads_initial source).run_elsewhere hbeside
    (Nat.lt_succ_self _) ((reads_initial source').length_lt_of_next hnext)
    (fun gap _ _ _ => hmove gap) h
  have hderive : derive source' = .ok tree' := by
    rw [derive, run_of_token hnext htake]
    exact hrun
  have hbrackets : ¬ 0 < Progress.initial.layout.brackets := Nat.lt_irrefl 0
  have hfirst : Progress.initial.handed t = [t] := by
    rw [Progress.handed, if_pos hkind, if_neg hbrackets, hwidth]
    rfl
  rw [tokens_of_derive h]
  refine ⟨tree', hderive, .inr ⟨t, _, hkind, ?_, hhanded⟩⟩
  rw [tokens_of_derive hderive, handedTokens, handed_of_token hnext htake, hfirst]
  rfl

/-- A line of blanks and comments lowers what comes after it by one line. -/
theorem after_idle (hline : IsIdle line) (text : List Char) :
    Point.after ⟨1, 1⟩ (line ++ '\n' :: text) = (Point.after ⟨1, 1⟩ text).lower 0 := by
  have hlast : (line ++ ['\n']).getLast? = some '\n' := List.getLast?_concat
  refine Point.after_lower ?_ ?_
  · rw [List.count_append, List.count_cons_self, List.count_eq_zero_of_not_mem hline.newline_not_mem,
      if_pos (Nat.zero_le _), Nat.zero_add]
  · rw [List.append_cons, lastLine_append hlast]

/-- A line of blanks and comments alone is parsed as an empty source. -/
theorem derive_idle_nil (hline : IsIdle line) (f : Point → Point) (h : derive [] = .ok tree) :
    ∃ tree', derive (line ++ ['\n']) = .ok tree' ∧ TokensMove f tree.tokens tree'.tokens := by
  obtain ⟨t, hkind, hwidth, -, hnext⟩ := Scan.exists_next_idle hline [] ⟨1, 1⟩
  have hfirst : Scan.next (candidates []) ((endLine []).length + 1) ⟨1, 1⟩ (endLine []) =
      .token ⟨.newline, ['\n'], ⟨⟨1, 1⟩, Point.after ⟨1, 1⟩ ['\n']⟩⟩ [] :=
    Scan.next_newline rfl (candidates []) 1 ⟨1, 1⟩
  have hfirst' : Scan.next (candidates []) ((endLine (line ++ ['\n'])).length + 1) ⟨1, 1⟩
      (endLine (line ++ ['\n'])) = .token t [] := by
    rw [endLine_concat, List.length_append]
    exact hnext _ _
  obtain ⟨tree', hderive, htokens⟩ := derive_of_newlines hfirst hfirst' rfl hkind hwidth
    (fun gap rest hgap hne => absurd (List.append_eq_nil_iff.mp hgap.symm).2 hne) h
  exact ⟨tree', hderive, .inl htokens⟩

/-- A line of blanks and comments in front of a source that does not begin with a blank. -/
theorem derive_idle (hline : IsIdle line) (hblank : ∀ c ∈ source.head?, c ≠ ' ' ∧ c ≠ '\t')
    (h : derive source = .ok tree) :
    ∃ tree', derive (line ++ '\n' :: source) = .ok tree' ∧
      TokensMove (Point.lower 0) tree.tokens tree'.tokens := by
  by_cases hempty : source = []
  · subst hempty
    exact derive_idle_nil hline _ h
  have hsource : endLine (line ++ '\n' :: source) = line ++ '\n' :: endLine source := by
    rw [List.append_cons, endLine_append hempty, ← List.append_cons]
  obtain ⟨t, hkind, hwidth, hstop, hnext⟩ := Scan.exists_next_idle hline (endLine source) ⟨1, 1⟩
  have hfirst' : Scan.next (candidates []) ((endLine (line ++ '\n' :: source)).length + 1) ⟨1, 1⟩
      (endLine (line ++ '\n' :: source)) =
        .token t (Pattern.breaks false (endLine source)).2 := by
    rw [hsource, List.length_append]
    exact hnext _ _
  cases hnewline : Pattern.newline (endLine source) with
  | some s =>
    obtain ⟨text, rest⟩ := s
    rw [Pattern.breaks_of_newline hnewline] at hwidth hstop hfirst'
    have hfirst := Scan.next_newline hnewline (candidates []) (endLine source).length ⟨1, 1⟩
    obtain ⟨tree', hderive, htokens⟩ := derive_of_newlines hfirst hfirst' rfl hkind hwidth
      (fun gap _ _ _ => by
        rw [hstop, ← Point.after_append, ← Point.after_append, List.append_assoc,
          List.cons_append]
        exact after_idle hline (text ++ gap)) h
    exact ⟨tree', hderive, .inl htokens⟩
  | none =>
    have hblank' : ∀ c ∈ (endLine source).head?, c ≠ ' ' ∧ c ≠ '\t' := by
      rwa [head?_endLine hempty]
    rw [Pattern.breaks_of_newline_eq_none hnewline hblank'] at hwidth hstop hfirst'
    refine derive_of_blank hfirst' hkind hwidth (fun text => ?_) h
    rw [hstop, ← Point.after_append, List.append_assoc]
    exact after_idle hline text

end Parser
end Starlark
