import Mathlib.Algebra.BigOperators.Intervals
import Mathlib.Algebra.Order.Group.Nat
import Starlark.Proofs.Grammar.Events
import Starlark.Proofs.Parser.Rederived

/-! # Blank lines, comment lines and carriage returns

A line of blanks and comments may stand anywhere between the lines of a source, but not inside of a
string and not after a hidden line break. And where no string spans lines, every line may end with a
carriage return before its line feed.
-/
namespace Starlark
variable {ending : Nat → List Char} {before line after text : List Char}

/-- The lines of a text, the last one ended. -/
def closeLines (text : List Char) : List Char := if text = [] then [] else Parser.endLine text

/-- A text with a line more between two of its lines. -/
def insertLine (before line after : List Char) : List Char :=
  closeLines before ++ (line ++ '\n' :: after)

/-- A text with a carriage return before each of its line feeds. -/
def crlf (text : List Char) : List Char :=
  text.flatMap fun c => if c = '\n' then ['\r', '\n'] else [c]

/-- A place between two lines of a source, or before the first or after the last one. It is not
inside of a string, and the line break before it is not hidden. -/
structure IsBoundary (source before after : List Char) : Prop where
  split : source = before ++ after
  line : before = [] ∨ before.getLast? = some '\n' ∨ after = []
  outside : ∀ t ∈ Parser.handedTokens source, t.IsString →
    ¬ (t.span.start.line ≤ (closeLines before).count '\n' ∧
      (closeLines before).count '\n' < t.span.stop.line)
  notJoined : ∀ front, closeLines before = front ++ ['\n'] →
    (Cursor.start.after front).mode ≠ .joined

/-! ## Counting lines -/

/-- Each line break of a text is replaced by those of its ending. -/
theorem count_revise {added : Nat → Nat} (h : ∀ k, (ending k).count '\n' = 1 + added k) (n : Nat)
    (cs : List Char) : (revise ending n cs).count '\n' =
      cs.count '\n' + ∑ k ∈ Finset.Ico n (n + cs.count '\n'), added k := by
  induction cs generalizing n with
  | nil => simp [revise]
  | cons c cs ih =>
    by_cases hc : c = '\n'
    · subst hc
      have hbound : n + (cs.count '\n' + 1) = n + 1 + cs.count '\n' := by omega
      have hsum := Finset.sum_eq_sum_Ico_succ_bot (show n < n + 1 + cs.count '\n' by omega) added
      rw [revise_line, List.count_append, h, ih, List.count_cons_self, hbound, hsum]
      omega
    · rw [revise_cons hc, List.count_cons_of_ne hc, List.count_cons_of_ne hc, ih]

/-- The lines before a line break are told from their number. -/
theorem eq_of_split_line {as bs cs ds : List Char} (h : as ++ '\n' :: bs = cs ++ '\n' :: ds)
    (hcount : as.count '\n' = cs.count '\n') : as = cs := by
  induction as generalizing cs with
  | nil =>
    cases cs with
    | nil => rfl
    | cons c cs =>
      obtain ⟨rfl, -⟩ := List.cons.inj h
      simp at hcount
  | cons a as ih =>
    cases cs with
    | nil =>
      obtain ⟨rfl, -⟩ := List.cons.inj h
      simp at hcount
    | cons c cs =>
      obtain ⟨rfl, hrest⟩ := List.cons.inj h
      rw [List.count_cons, List.count_cons, Nat.add_right_cancel_iff] at hcount
      rw [ih hrest hcount]

/-! ## A line more -/

/-- The endings of lines where a line is added after the one with number `i`. -/
def insertEnding (i : Nat) (line : List Char) (k : Nat) : List Char :=
  if k = i then ['\n'] ++ (line ++ ['\n']) else ['\n']

section Insert
variable {i : Nat} (hline : IsIdle line)
include hline

theorem isEnding_insert (k : Nat) : IsEnding (insertEnding i line k) := by
  unfold insertEnding
  split
  · exact .idle .feed hline
  · exact .feed

theorem endings_insert (i : Nat) (text : List Char) : Endings (insertEnding i line) text := by
  refine ⟨isEnding_insert hline, fun _ k => ?_⟩
  unfold insertEnding
  split <;> rfl

theorem after_revise_insert (hi : 0 < i) (text : List Char) :
    Point.after ⟨1, 1⟩ (revise (insertEnding i line) 1 text) =
      (Point.after ⟨1, 1⟩ text).lower i := by
  have hcount : ∀ k, (insertEnding i line k).count '\n' = 1 + if i = k then 1 else 0 := by
    intro k
    have hzero := List.count_eq_zero_of_not_mem hline.newline_not_mem
    by_cases hk : k = i
    · simp [insertEnding, hk, hzero]
    · simp [insertEnding, hk, Ne.symm hk]
  refine Point.after_lower ?_ (lastLine_revise (isEnding_insert hline) 1 text)
  rw [count_revise hcount, Finset.sum_ite_eq]
  congr 1
  simp only [Finset.mem_Ico]
  by_cases hle : i ≤ text.count '\n'
  · rw [if_pos hle, if_pos (by omega)]
  · rw [if_neg hle, if_neg (by omega)]

end Insert

/-! ## Carriage returns -/

/-- The endings of lines where the first `m` lines end with a carriage return. -/
def crlfEnding (m k : Nat) : List Char := if k ≤ m then ['\r', '\n'] else ['\n']

theorem isBare_crlf (m k : Nat) : Pattern.IsBare (crlfEnding m k) := by
  unfold crlfEnding
  split
  · exact .inr rfl
  · exact .inl rfl

theorem isEnding_crlf (m k : Nat) : IsEnding (crlfEnding m k) := by
  unfold crlfEnding
  split
  · exact .returnFeed
  · exact .feed

theorem after_revise_crlf (m : Nat) (text : List Char) :
    Point.after ⟨1, 1⟩ (revise (crlfEnding m) 1 text) = Point.after ⟨1, 1⟩ text := by
  have hcount : ∀ k, (crlfEnding m k).count '\n' = 1 + 0 := by
    intro k
    unfold crlfEnding
    split <;> rfl
  refine Point.after_congr ?_ (lastLine_revise (isEnding_crlf m) 1 text)
  rw [count_revise hcount, Finset.sum_const_zero, Nat.add_zero]

theorem crlf_eq_revise {m n : Nat} (h : n + text.count '\n' ≤ m + 1) :
    crlf text = revise (crlfEnding m) n text := by
  induction text generalizing n with
  | nil => rfl
  | cons c cs ih =>
    by_cases hc : c = '\n'
    · subst hc
      rw [List.count_cons_self] at h
      have hn : crlfEnding m n = ['\r', '\n'] := if_pos (by omega)
      rw [revise_line, hn, ← ih (by omega)]
      rfl
    · rw [List.count_cons_of_ne hc] at h
      rw [revise_cons hc, ← ih h, crlf, List.flatMap_cons, if_neg hc]
      rfl

theorem getLast?_crlf (text : List Char) : (crlf text).getLast? = text.getLast? := by
  induction text using List.reverseRecOn with
  | nil => rfl
  | append_singleton text c _ =>
    have hsplit : crlf (text ++ [c]) = crlf text ++ crlf [c] := List.flatMap_append
    rw [hsplit]
    by_cases hc : c = '\n'
    · subst hc
      simp [crlf]
    · simp [crlf, hc]

namespace Parser
variable {source : List Char} {tree : Tree (.n .file)}

theorem closeLines_of_ne_nil (h : before ≠ []) :
    closeLines before = endLine before := if_neg h

theorem closeLines_append (h : before ≠ [])
    (hline : before.getLast? = some '\n' ∨ after = []) :
    endLine (before ++ after) = closeLines before ++ closeLines after := by
  by_cases hafter : after = []
  · rw [hafter, List.append_nil, closeLines, closeLines, if_neg h, if_pos rfl, List.append_nil]
  · have hbefore : endLine before = before := if_pos (hline.resolve_right hafter)
    rw [endLine_append hafter, closeLines, closeLines, if_neg h, if_neg hafter, hbefore]

theorem endLine_insertLine (before line after : List Char) :
    endLine (insertLine before line after) =
      closeLines before ++ (line ++ '\n' :: closeLines after) := by
  have hsplit : ∀ rest, closeLines before ++ (line ++ '\n' :: rest) =
      (closeLines before ++ line ++ ['\n']) ++ rest := fun rest => by simp
  rw [insertLine, hsplit, hsplit]
  by_cases hafter : after = []
  · have hnil : closeLines [] = [] := if_pos rfl
    rw [hafter, List.append_nil, endLine_concat, hnil, List.append_nil]
  · rw [endLine_append hafter, closeLines_of_ne_nil hafter]

/-- What precedes the last line break of some lines. -/
theorem exists_front (h : before ≠ []) : ∃ front, closeLines before = front ++ ['\n'] := by
  rw [closeLines_of_ne_nil h, endLine]
  split
  · next hlast => exact List.getLast?_eq_some_iff.mp hlast
  · exact ⟨before, rfl⟩

theorem revise_insert {front : List Char} (line tail : List Char) :
    revise (insertEnding (1 + front.count '\n') line) 1 (front ++ '\n' :: tail) =
      front ++ '\n' :: (line ++ '\n' :: tail) := by
  have hfront : revise (insertEnding (1 + front.count '\n') line) 1 front = front :=
    revise_eq_self fun k _ hlt => if_neg (by omega)
  have htail : revise (insertEnding (1 + front.count '\n') line) (1 + front.count '\n' + 1) tail =
      tail := revise_eq_self fun k hle _ => if_neg (by omega)
  have hending : insertEnding (1 + front.count '\n') line (1 + front.count '\n') =
      ['\n'] ++ (line ++ ['\n']) := if_pos rfl
  rw [revise_append, revise_line, hfront, htail, hending]
  simp

/-- A line more in a source moves the tokens after it down. -/
theorem derive_insertLine (hboundary : IsBoundary source before after) (hline : IsIdle line)
    (hblank : ∀ c ∈ source.head?, c ≠ ' ' ∧ c ≠ '\t') (h : derive source = .ok tree) :
    ∃ tree', derive (insertLine before line after) = .ok tree' ∧
      TokensMove (.lower ((closeLines before).count '\n')) tree.tokens tree'.tokens := by
  obtain ⟨rfl, hends, houtside, hjoined⟩ := hboundary
  by_cases hbefore : before = []
  · subst hbefore
    exact derive_idle hline hblank h
  obtain ⟨front, hfront⟩ := exists_front hbefore
  have hi : (closeLines before).count '\n' = 1 + front.count '\n' := by
    rw [hfront, List.count_append, Nat.add_comm]
    rfl
  have hsource : endLine (before ++ after) = front ++ '\n' :: closeLines after := by
    rw [closeLines_append hbefore (hends.resolve_left hbefore), hfront, List.append_assoc]
    rfl
  have hrevised : endLine (insertLine before line after) =
      revise (insertEnding (1 + front.count '\n') line) 1 (endLine (before ++ after)) := by
    rw [endLine_insertLine, hsource, revise_insert, hfront, List.append_assoc]
    rfl
  rw [hi] at houtside ⊢
  have hhides : Scan.HidesBare (insertEnding (1 + front.count '\n') line) .start 1
      (endLine (before ++ after)) := by
    intro front' back hsplit hmode
    refine .inl (if_neg fun hcount => ?_)
    -- The boundary follows the only line break with its number, which is not hidden.
    rw [hsource] at hsplit
    rw [← eq_of_split_line hsplit (Nat.add_left_cancel hcount).symm] at hmode
    exact hjoined front hfront hmode
  have hkept : ∀ t ∈ handedTokens (before ++ after), t.kind = .longString →
      t.Kept (insertEnding (1 + front.count '\n') line) := by
    intro t ht hlong k hstart hstop
    refine if_neg ?_
    rintro rfl
    exact houtside t ht (.inr hlong) ⟨hstart, hstop⟩
  obtain ⟨tree', hderive, htokens⟩ := derive_revise hrevised (endings_insert hline _ _) hhides hkept
    (after_revise_insert hline (by omega)) h
  exact ⟨tree', hderive, .inl htokens⟩

/-- Carriage returns before the line feeds of a source move nothing. -/
theorem derive_crlf (hreturn : '\r' ∉ source)
    (hstrings : ∀ t ∈ handedTokens source, t.IsString → t.span.start.line = t.span.stop.line)
    (h : derive source = .ok tree) :
    ∃ tree', derive (crlf source) = .ok tree' ∧ TokensMove id tree.tokens tree'.tokens := by
  have hrevised : endLine (crlf source) =
      revise (crlfEnding (source.count '\n')) 1 (endLine source) := by
    rw [endLine, getLast?_crlf, endLine, crlf_eq_revise (Nat.le_of_eq (Nat.add_comm ..))]
    split
    · rfl
    · have hlast : crlfEnding (source.count '\n') (1 + source.count '\n') = ['\n'] :=
        if_neg (by omega)
      rw [revise_append, revise_line, hlast]
      rfl
  have hreturn' : '\r' ∉ endLine source := by
    rw [endLine]
    split
    · exact hreturn
    · simpa using hreturn
  have hkept : ∀ t ∈ handedTokens source, t.kind = .longString →
      t.Kept (crlfEnding (source.count '\n')) := by
    intro t ht hlong k hstart hstop
    have hline := hstrings t ht (.inr hlong)
    omega
  obtain ⟨tree', hderive, htokens⟩ := derive_revise hrevised
    ⟨isEnding_crlf _, fun hmem => absurd hmem hreturn'⟩ (fun _ _ _ _ => isBare_crlf _ _) hkept
    (f := id) (after_revise_crlf _) h
  exact ⟨tree', hderive, .inl htokens⟩

end Parser
end Starlark
