import Mathlib.Data.List.TakeWhile
import Starlark.Diagnostic.Render
import Starlark.Proofs.Literal.Numerals

/-! # Carets under the reported text

The snippet of a diagnostic shows a line of the source and a line of carets below it. What stands
in front of the two is equally wide, whatever the number of the line, so the carets begin under the
column reported. They reach to the end of the span, or of the word there if that end is not known.
-/
namespace Starlark

/-- Blanks, commas, brackets, colons and semicolons. -/
def Delimiter (c : Char) : Prop := c ∈ " \t,()[]\x7b\x7d:;".toList

/-- How many carets belong under a location of a line. -/
inductive CaretRun (line : List Char) (loc : Location) : Nat → Prop
  | span {width : Nat} : loc.endLine = loc.line → loc.column < loc.endColumn →
      (width : Int) = loc.endColumn - loc.column → CaretRun line loc width
  /-- The text up to the next delimiter or the end of the line, which may be empty. -/
  | word {word rest : List Char} : ¬(loc.endLine = loc.line ∧ loc.column < loc.endColumn) →
      line.drop (loc.column - 1).toNat = word ++ rest → (∀ c ∈ word, ¬Delimiter c) →
      (∀ c ∈ rest.head?, Delimiter c) → CaretRun line loc (max 1 word.length)

/-- What stands behind the carets: the label, unless it is empty. -/
def Diagnostic.caption (d : Diagnostic) : List Char :=
  match d.label with
  | none => []
  | some label => if label = "" then [] else ' ' :: label.toList

namespace Render

theorem splitLines_eq_splitOn (text : List Char) : splitLines text = text.splitOn '\n' := by
  induction text with
  | nil => rfl
  | cons c cs ih =>
    obtain ⟨l, ls, hl⟩ := List.exists_cons_of_ne_nil (List.splitOn_ne_nil '\n' cs)
    rw [splitLines, ih, List.splitOn_cons_eq_if_modifyHead, hl]
    simp

theorem isDelimiter_iff (c : Char) : isDelimiter c = true ↔ Delimiter c := by
  rw [isDelimiter, decide_eq_true_eq]
  exact iff_of_eq (congrArg (c ∈ ·) (by decide))

theorem caretColumn_eq {loc : Location} (h : 1 ≤ loc.column) :
    caretColumn loc = (loc.column - 1).toNat := by
  rw [caretColumn, max_eq_left h]

theorem caretWidth_run (line : List Char) {loc : Location} (h : 1 ≤ loc.column) :
    CaretRun line loc (caretWidth line loc) := by
  rw [caretWidth, caretColumn_eq h]
  split
  · next hspan => exact .span hspan.1 hspan.2 (by omega)
  · next hopen =>
    refine .word hopen List.takeWhile_append_dropWhile.symm (fun c hc => ?_) fun c hc => ?_
    · rw [← isDelimiter_iff]
      simpa using List.mem_takeWhile_imp hc
    · rw [← List.find?_eq_head?_dropWhile_not] at hc
      exact (isDelimiter_iff c).mp (List.find?_some hc)

/-- A known line of a known file is shown. -/
theorem exists_sourceLine? {sources : List (String × String)} {loc : Location} {text : String}
    (hfile : sources.lookup loc.file = some text) (hfirst : 1 ≤ loc.line)
    (hlast : loc.line ≤ (text.toList.splitOn '\n').length) :
    ∃ line, (text.toList.splitOn '\n')[(loc.line - 1).toNat]? = some line ∧
      sourceLine? sources loc = some line := by
  have hlt : (loc.line - 1).toNat < (text.toList.splitOn '\n').length := by omega
  refine ⟨_, List.getElem?_eq_getElem hlt, ?_⟩
  rw [sourceLine?, hfile]
  dsimp only
  rw [if_pos hfirst, splitLines_eq_splitOn, List.getElem?_eq_getElem hlt]

theorem intercalate_lines (x : List Char) (xs : List (List Char)) :
    ['\n'].intercalate (x :: xs) = x ++ xs.flatMap ('\n' :: ·) := by
  induction xs generalizing x with
  | nil => simp
  | cons y ys ih =>
    rw [List.intercalate_cons_cons, ih, List.flatMap_cons, List.append_assoc]
    rfl

theorem newline_not_mem_number {n : Int} (h : 1 ≤ n) : '\n' ∉ (toString n).toList := by
  obtain ⟨n, rfl⟩ := Int.eq_ofNat_of_zero_le (Int.le_trans (by decide) h)
  rw [decimalText_toString]
  intro hmem
  exact absurd (decimalText_digits n _ hmem) (by decide)

theorem toList_label (d : Diagnostic) :
    (match present d.label with
      | some l => " " ++ l
      | none => "").toList = d.caption := by
  rw [Diagnostic.caption]
  cases d.label with
  | none => rfl
  | some label =>
    by_cases h : label = ""
    · simp [present, h]
    · simp [present, h]

/-- What stands in front of a source line: its number. -/
def gutter (loc : Location) : List Char := (toString loc.line).toList ++ [' ', '|', ' ']

/-- What stands in front of the carets. -/
def bar (loc : Location) : List Char :=
  List.replicate ((toString loc.line).length + 1) ' ' ++ ['|', ' ']

theorem length_gutter (loc : Location) : (gutter loc).length = (bar loc).length := by
  simp [gutter, bar, String.length_toList]

theorem newline_not_mem_gutter {loc : Location} (h : 1 ≤ loc.line) :
    '\n' ∉ gutter loc ++ bar loc := by
  have hblank : ∀ n, '\n' ∉ List.replicate n ' ' := fun n hmem =>
    absurd (List.eq_of_mem_replicate hmem) (by decide)
  simp only [gutter, bar, List.mem_append, newline_not_mem_number h, hblank]
  decide

theorem snippet_toList (d : Diagnostic) {loc : Location} (line : List Char)
    (hcolumn : 1 ≤ loc.column) :
    ∃ arrow blank, (snippet false d loc line).map String.toList =
      arrow :: blank :: (gutter loc ++ line) ::
        (bar loc ++ List.replicate (loc.column - 1).toNat ' '
          ++ List.replicate (caretWidth line loc) '^' ++ d.caption) ::
        (annotations false (toString loc.line).length d).map String.toList := by
  refine ⟨(spaces (toString loc.line).length ++ "--> " ++ loc.text).toList,
    (spaces ((toString loc.line).length + 1) ++ "|").toList, ?_⟩
  rw [← toList_label, ← caretColumn_eq hcolumn]
  simp only [snippet, styled, spaces, repeated, Bool.false_eq_true, ↓reduceIte, List.cons_append,
    List.nil_append, List.map_cons, String.toList_append, String.toList_ofList, gutter, bar,
    List.append_assoc]
  rfl

/-- Carets under the reported text. Where the file and the line of a diagnostic are known, what is
shown without colour has the source line in it and below it the carets, under the column reported.
What stands in front of the two is equally wide and on one line. -/
theorem diagnostic_underlines {sources : List (String × String)} {d : Diagnostic} {loc : Location}
    {text : String} (hloc : d.loc = some loc) (hfile : sources.lookup loc.file = some text)
    (hfirst : 1 ≤ loc.line) (hlast : loc.line ≤ (text.toList.splitOn '\n').length)
    (hcolumn : 1 ≤ loc.column) :
    ∃ line width before gutter bar after,
      (text.toList.splitOn '\n')[(loc.line - 1).toNat]? = some line ∧ CaretRun line loc width ∧
      (diagnostic sources false d).toList =
        before ++ '\n' :: (gutter ++ line) ++ '\n' :: (bar
          ++ List.replicate (loc.column - 1).toNat ' ' ++ List.replicate width '^' ++ d.caption)
          ++ after ∧
      gutter.length = bar.length ∧ '\n' ∉ gutter ++ bar ∧ ∀ c ∈ after.head?, c = '\n' := by
  obtain ⟨line, hline, hsource⟩ := exists_sourceLine? hfile hfirst hlast
  obtain ⟨arrow, blank, hsnippet⟩ := snippet_toList d line hcolumn
  have hlines : lines sources false d = headline false d :: snippet false d loc line := by
    rw [lines, hloc]
    dsimp only
    rw [hsource]
  refine ⟨line, caretWidth line loc,
    (headline false d).toList ++ '\n' :: arrow ++ '\n' :: blank, gutter loc, bar loc,
    ((annotations false (toString loc.line).length d).map String.toList).flatMap ('\n' :: ·),
    hline, caretWidth_run line hcolumn, ?_, length_gutter loc, newline_not_mem_gutter hfirst, ?_⟩
  · have hbreak : "\n".toList = ['\n'] := rfl
    rw [diagnostic, String.toList_intercalate, hlines, List.map_cons, hsnippet, hbreak,
      intercalate_lines]
    simp only [List.flatMap_cons, List.append_assoc, List.cons_append]
  · cases annotations false (toString loc.line).length d with
    | nil => exact nofun
    | cons x xs => simp

def tenLines : String := "\n\n\n\n\n\n\n\n\nx = lenn(srcs)\n"

/-- A word on the tenth line, whose end is not known. -/
theorem diagnostic_underlines_word :
    ∃ (d : Diagnostic) (loc : Location),
      d = { message := "no such name", loc := some loc, label := some "here" } ∧
      loc = ⟨"BUILD", 10, 5, 0, 0⟩ ∧ [("BUILD", tenLines)].lookup loc.file = some tenLines ∧
      1 ≤ loc.line ∧ loc.line ≤ (tenLines.toList.splitOn '\n').length ∧ 1 ≤ loc.column ∧
      ∃ line width before gutter bar after,
        (tenLines.toList.splitOn '\n')[(loc.line - 1).toNat]? = some line ∧
        CaretRun line loc width ∧
        (diagnostic [("BUILD", tenLines)] false d).toList =
          before ++ '\n' :: (gutter ++ line) ++ '\n' :: (bar
            ++ List.replicate (loc.column - 1).toNat ' ' ++ List.replicate width '^' ++ d.caption)
            ++ after ∧
        gutter.length = bar.length ∧ '\n' ∉ gutter ++ bar ∧ ∀ c ∈ after.head?, c = '\n' := by
  have hlast : (10 : Int) ≤ (tenLines.toList.splitOn '\n').length := by decide
  exact ⟨_, _, rfl, rfl, rfl, by decide, hlast, by decide,
    diagnostic_underlines rfl rfl (by decide) hlast (by decide)⟩

end Render
end Starlark
