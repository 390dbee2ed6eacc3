import Starlark.Proofs.Lexer.Rescanned
import Starlark.Proofs.Parser.Beside

/-! # A revised text is parsed alike

A parse of a revised text stays beside the parse of the text, up to its end, and takes the same
tokens at the places where the revision puts them.
-/
namespace Starlark
variable {ending : Nat → List Char}

/-- A text is kept whose line breaks are. -/
theorem revise_eq_self {n : Nat} {text : List Char}
    (h : ∀ k, n ≤ k → k < n + text.count '\n' → ending k = ['\n']) :
    revise ending n text = text := by
  induction text generalizing n with
  | nil => rfl
  | cons c cs ih =>
    by_cases hc : c = '\n'
    · subst hc
      rw [List.count_cons_self] at h
      rw [revise_line, h n (Nat.le_refl n) (by omega), ih fun k hle hlt => h k (by omega) (by omega)]
      rfl
    · rw [List.count_cons_of_ne hc] at h
      rw [revise_cons hc, ih h]

/-- The line breaks inside of a token are left as they are. -/
def Token.Kept (ending : Nat → List Char) (t : Token) : Prop :=
  ∀ k : Nat, t.span.start.line ≤ k → k < t.span.stop.line → ending k = ['\n']

theorem Token.Kept.revise_text {t : Token} {before : List Char} (h : t.Kept ending)
    (hstart : t.span.start = Point.after ⟨1, 1⟩ before)
    (hstop : t.span.stop = t.span.start.after t.text) :
    revise ending (1 + before.count '\n') t.text = t.text := by
  have hline := Point.line_after ⟨1, 1⟩ before
  have hline' := Point.line_after t.span.start t.text
  rw [← hstart] at hline
  rw [← hstop] at hline'
  dsimp only at hline
  exact revise_eq_self fun k hle hlt => h k (by omega) (by omega)

/-- The places of a text, which stands after another one, go to those of its revision from a point
on. -/
def PlacesMove (ending : Nat → List Char) (f : Point → Point) (before cs : List Char)
    (start' : Point) : Prop :=
  ∀ gap rest, cs = gap ++ rest → rest ≠ [] →
    start'.after (revise ending (1 + before.count '\n') gap) =
      f (Point.after ⟨1, 1⟩ (before ++ gap))

theorem PlacesMove.of_append {f : Point → Point} {before read rest : List Char} {start' : Point}
    (h : PlacesMove ending f before (read ++ rest) start') :
    PlacesMove ending f (before ++ read) rest
      (start'.after (revise ending (1 + before.count '\n') read)) := by
  intro gap rest' hgap hne
  have hmove := h (read ++ gap) rest' (by rw [hgap, List.append_assoc]) hne
  rw [revise_append, Point.after_append, Nat.add_assoc, ← List.count_append,
    ← List.append_assoc] at hmove
  exact hmove

namespace Parser
open Automaton
variable {f : Point → Point} {m m' m₁ : Progress} {source before cs rest : List Char}
  {start start' : Point} {t : Token} {fuel fuel' : Nat} {tree : Tree (.n .file)}

theorem Progress.Beside.mem_candidates (h : m.Beside m') (a : Terminal) :
    a ∈ candidates m'.stack ↔ a ∈ candidates m.stack := by
  rw [candidates, candidates, top_eq, top_eq]
  exact (h.stack.expected a).symm

/-- A parse does not go on where an unclosed string begins. -/
theorem not_unclosed_of_run (h : run (fuel + 1) m start cs = .ok tree) :
    ¬ Pattern.Unclosed cs := by
  intro hunclosed
  have hne : ¬ cs.isEmpty = true := by
    obtain ⟨quote, rest, -, rfl, -⟩ := hunclosed
    exact Bool.false_ne_true
  rw [run, Scan.next, if_neg hne, Scan.match?_unclosed hunclosed] at h
  cases h

/-! ## One step of a parse -/

theorem Progress.Reads.length_lt_of_next {candidates : List Terminal}
    (hreads : m.Reads source before cs)
    (hnext : Scan.next candidates fuel start cs = .token t rest) : rest.length < cs.length := by
  obtain ⟨gap, rfl, -, -, -, hfollows⟩ :=
    Cursor.exists_gap_of_next hnext hreads.atRest hreads.endsLines
  have hpos : 0 < t.text.length := List.length_pos_iff.mpr hfollows.ne_nil
  simp only [List.length_append]
  omega

/-- The revised text has the token moved, and goes on with the rest revised. -/
theorem Progress.Reads.next_revise (hreads : m.Reads source before cs)
    (hrevisable : Scan.Revisable ending (Cursor.start.after before) (1 + before.count '\n') cs)
    (hnext : Scan.next (candidates m.stack) (cs.length + 1) (Point.after ⟨1, 1⟩ before) cs =
      .token t rest)
    (hclosed : ¬ Pattern.Unclosed rest) (htake : m.take t = .ok m₁)
    (hkept : t.kind = .longString → t.Kept ending) (hmove : PlacesMove ending f before cs start')
    (hfuel : (revise ending (1 + before.count '\n') cs).length < fuel) :
    ∃ read u, cs = read ++ rest ∧ read ≠ [] ∧
      t.span.stop = Point.after ⟨1, 1⟩ (before ++ read) ∧ m₁.Reads source (before ++ read) rest ∧
      Scan.next (candidates m.stack) fuel start' (revise ending (1 + before.count '\n') cs) =
        .token u (revise ending (1 + (before ++ read).count '\n') rest) ∧
      u.span.stop = start'.after (revise ending (1 + before.count '\n') read) ∧
      t.Moved f u ∧ indentWidth u.text = indentWidth t.text := by
  obtain ⟨place, hstart, hstop, hplace, hfollows⟩ := hreads.exists_place hnext
  obtain ⟨-, hreads'⟩ := hplace.take hstart hfollows htake
  have hne : t.text ≠ [] := hfollows.ne_nil
  have hplaceOf : ∀ gap, cs = gap ++ (t.text ++ rest) → place = before ++ gap := by
    intro gap hgap
    have htext := hplace.text
    rw [hreads.text, hgap, ← List.append_assoc] at htext
    exact (List.append_cancel_right htext).symm
  have hkeptText : t.kind = .longString → ∀ gap, cs = gap ++ (t.text ++ rest) →
      revise ending (1 + before.count '\n' + gap.count '\n') t.text = t.text := by
    intro hkind gap hgap
    have hrevised := (hkept hkind).revise_text hstart hstop
    rwa [hplaceOf gap hgap, List.count_append, ← Nat.add_assoc] at hrevised
  obtain ⟨gap, hgap, -, hread⟩ := hrevisable.next_token hnext hclosed hkeptText hfuel start'
  obtain rfl := hplaceOf gap hgap
  have hmatch := Scan.match?_of_next hnext hrevisable.ends
  have hmoved : t.Moved f ⟨t.kind,
      revise ending (1 + before.count '\n' + gap.count '\n') t.text,
      ⟨start'.after (revise ending (1 + before.count '\n') gap),
        start'.after (revise ending (1 + before.count '\n') (gap ++ t.text))⟩⟩ := by
    refine ⟨rfl, fun hkind => ?_, fun _ => ?_⟩
    · by_cases hlong : t.kind = .longString
      · exact hkeptText hlong gap hgap
      · have hline : t.kind ≠ .newline := fun heq => hkind (heq ▸ List.mem_cons_self)
        exact revise_of_not_mem (Scan.newline_not_mem_of_match? hmatch hline hlong)
    · rw [hstart]
      exact hmove gap _ hgap (by simp [hne])
  refine ⟨gap ++ t.text, _, by rw [hgap, List.append_assoc],
    List.append_ne_nil_of_right_ne_nil gap hne, ?_, ?_, ?_, rfl, hmoved,
    indentWidth_revise hrevisable.endings.isEnding _ t.text⟩
  · rw [hstop, hstart, ← Point.after_append, List.append_assoc]
  · rwa [List.append_assoc] at hreads'
  · rw [hread, Nat.add_assoc 1 (before.count '\n') ((gap ++ t.text).count '\n'),
      ← List.count_append]

/-! ## A whole parse -/

/-- Two parses side by side, of a text and of its revision, end side by side. -/
theorem Progress.Reads.run_revise (hreads : m.Reads source before cs) (hbeside : m.Beside m')
    (hrevisable : Scan.Revisable ending (Cursor.start.after before) (1 + before.count '\n') cs)
    (hfuel : cs.length < fuel)
    (hfuel' : (revise ending (1 + before.count '\n') cs).length < fuel')
    (hkept : ∀ t ∈ Parser.handed fuel m (Point.after ⟨1, 1⟩ before) cs,
      t.kind = .longString → t.Kept ending)
    (hmove : PlacesMove ending f before cs start')
    (h : run fuel m (Point.after ⟨1, 1⟩ before) cs = .ok tree) :
    ∃ tree', run fuel' m' start' (revise ending (1 + before.count '\n') cs) = .ok tree' ∧
      List.Forall₂ (Token.Moved f) (Parser.handed fuel m (Point.after ⟨1, 1⟩ before) cs)
        (Parser.handed fuel' m' start' (revise ending (1 + before.count '\n') cs)) := by
  induction fuel generalizing fuel' m m' before cs start' with
  | zero => exact absurd hfuel (Nat.not_lt_zero _)
  | succ fuel ih =>
    obtain ⟨fuel', rfl⟩ := Nat.exists_eq_succ_of_ne_zero (Nat.ne_zero_of_lt hfuel')
    have hnext' := Scan.next_congr hbeside.mem_candidates
    cases hnext : Scan.next (candidates m.stack) (cs.length + 1) (Point.after ⟨1, 1⟩ before) cs with
    | finished =>
      rw [run, hnext] at h
      rw [run, Parser.handed, Parser.handed, hnext', hnext,
        hrevisable.next_finished (Nat.lt_succ_self _) hnext]
      obtain ⟨tree', hfinish⟩ := hbeside.finish h
      exact ⟨tree', hfinish, hbeside.closing⟩
    | stuck place rest =>
      rw [run, hnext] at h
      cases h
    | token t rest =>
      obtain ⟨m₁, htake⟩ := exists_take hnext h
      rw [handed_of_token hnext htake] at hkept ⊢
      rw [run_of_token hnext htake] at h
      -- A long string is handed over as it is.
      have hself : t.kind = .longString → t.Kept ending := by
        intro hkind
        refine hkept t (List.mem_append_left _ ?_) hkind
        rw [Progress.handed, if_neg (by rw [hkind]; decide)]
        exact List.mem_singleton_self t
      have hlength := hreads.length_lt_of_next hnext
      have hfuel₁ : rest.length < fuel := by omega
      obtain ⟨fuel, rfl⟩ := Nat.exists_eq_succ_of_ne_zero (Nat.ne_zero_of_lt hfuel₁)
      obtain ⟨read, u, rfl, hne, hstop, hreads', hread, hstop', hmoved, hwidth⟩ :=
        hreads.next_revise hrevisable hnext (not_unclosed_of_run h) htake hself hmove
          (Nat.lt_succ_self _)
      obtain ⟨m₁', htake', hbeside'⟩ := hbeside.take hmoved.kind (fun _ => hwidth) htake
      rw [← hnext'] at hread
      rw [run_of_token hread htake', handed_of_token hread htake', hstop']
      rw [hstop] at h hkept ⊢
      have hcount : 1 + before.count '\n' + read.count '\n' = 1 + (before ++ read).count '\n' := by
        rw [List.count_append, Nat.add_assoc]
      have hrevisable' := hrevisable.of_append (Cursor.after_append _ _ _ ▸ hreads'.atRest)
      rw [← Cursor.after_append, hcount] at hrevisable'
      have hpos := List.length_pos_iff.mpr
        (revise_ne_nil hrevisable.endings.isEnding hne (n := 1 + before.count '\n'))
      rw [revise_append, List.length_append, hcount] at hfuel'
      have hfuel₂ : (revise ending (1 + (before ++ read).count '\n') rest).length < fuel' := by omega
      obtain ⟨tree', hrun', hrest'⟩ := ih hreads' hbeside' hrevisable' hfuel₁ hfuel₂
        (fun u hu => hkept u (List.mem_append_right _ hu)) hmove.of_append h
      exact ⟨tree', hrun', List.rel_append (hbeside.handed hmoved fun _ => hwidth) hrest'⟩

/-- A text that is left as it is may stand at another place. -/
theorem Progress.Reads.run_elsewhere (hreads : m.Reads source before cs) (hbeside : m.Beside m')
    (hfuel : cs.length < fuel) (hfuel' : cs.length < fuel')
    (hmove : ∀ gap rest, cs = gap ++ rest → rest ≠ [] →
      start'.after gap = f (Point.after ⟨1, 1⟩ (before ++ gap)))
    (h : run fuel m (Point.after ⟨1, 1⟩ before) cs = .ok tree) :
    ∃ tree', run fuel' m' start' cs = .ok tree' ∧
      List.Forall₂ (Token.Moved f) (Parser.handed fuel m (Point.after ⟨1, 1⟩ before) cs)
        (Parser.handed fuel' m' start' cs) := by
  have hself : ∀ n text, revise (fun _ => ['\n']) n text = text := fun n text =>
    revise_eq_self fun _ _ _ => rfl
  have hrevisable : Scan.Revisable (fun _ => ['\n']) (Cursor.start.after before)
      (1 + before.count '\n') cs :=
    ⟨⟨fun _ => .feed, fun _ _ => rfl⟩, fun _ _ _ _ => .inl rfl, hreads.atRest, hreads.endsLines⟩
  have hmove' : PlacesMove (fun _ => ['\n']) f before cs start' := by
    intro gap rest hgap hne
    rw [hself]
    exact hmove gap rest hgap hne
  have hfuel'' : (revise (fun _ => ['\n']) (1 + before.count '\n') cs).length < fuel' := by
    rwa [hself]
  have hrun := hreads.run_revise hbeside hrevisable hfuel hfuel'' (fun _ _ _ _ _ _ => rfl) hmove' h
  rwa [hself] at hrun

end Parser
end Starlark
