import Starlark.Proofs.Syntax.Placed

/-! # The tree of a parsed file

The invariants that the passes over a tree rely on without checking them.
-/
namespace Starlark

/-- The number of lines of a source, the last one closed by a line break or not. -/
def lineCount (text : String) : Nat := (Parser.endLine text.toList).count '\n'

theorem Point.one_le_column_after {p : Point} (hp : 1 ≤ p.column) (text : List Char) :
    1 ≤ (p.after text).column := by
  induction text generalizing p with
  | nil => exact hp
  | cons c cs ih =>
    refine ih ?_
    rw [next]
    split
    · exact Int.le_refl 1
    · exact Int.le_add_one hp

/-- A place before the end of the last line is on one of the lines. -/
theorem Point.InText.bounds {p : Point} {text : String} (h : p.InText text.toList) :
    1 ≤ p.line ∧ p.line ≤ lineCount text ∧ 1 ≤ p.column := by
  obtain ⟨before, rest, hne, hsplit, rfl⟩ := h
  have hrest : 0 < rest.count '\n' := by
    refine List.count_pos_iff.mpr (List.mem_of_getLast? ?_)
    rw [← List.getLast?_append_of_ne_nil before hne, ← hsplit, Parser.endLine]
    split
    · assumption
    · exact List.getLast?_concat
  have hline := line_after ⟨1, 1⟩ before
  have hcount : lineCount text = before.count '\n' + rest.count '\n' := by
    rw [lineCount, hsplit, List.count_append]
  dsimp only at hline
  exact ⟨by omega, by omega, one_le_column_after (Int.le_refl 1) before⟩

/-- What the passes over the tree of a file rely on. -/
structure Stmt.Invariants (text file : String) (ss : List Stmt) : Prop where
  /-- No two identifiers have the same number. -/
  distinct : (numbers ((nodesAll ss).filterMap Node.own?)).Nodup
  shaped : ∀ n ∈ nodesAll ss, n.Shaped
  located : ∀ n ∈ nodesAll ss, ∃ l, n.loc = some l ∧ l.file = file ∧
    1 ≤ l.line ∧ l.line ≤ lineCount text ∧ 1 ≤ l.column
  ordered : ∀ n ∈ nodesAll ss, ∀ m ∈ n.children, n.NotAfter m

/-- A parsed file has the invariants, and no `else` clause is read with an empty block. -/
theorem parseStatements_invariants {text file : String} {firstId : Nat} {ss : List Stmt}
    {notes : Notes} (h : parseStatements text file firstId = (.ok ss, notes)) :
    Stmt.Invariants text file ss ∧
    ∀ (clause : Tree (.n .elseClause)) (n n' : Notes) (block : List Stmt) (span : Option Span),
      (clause.build file).run.run n = (.ok (block, span), n') → block ≠ [] := by
  have hgood := parseStatements_good h
  obtain ⟨tree, span, hderive, -⟩ := tree_of_parseStatements h
  obtain ⟨hread, -⟩ := Parser.inOrder_of_derive hderive
  rw [Parser.tokens_of_derive hderive] at hread
  refine ⟨⟨parseStatements_ids_nodup h, fun n hn => (hgood n hn).shaped, fun n hn => ?_,
    fun n hn => (hgood n hn).ordered⟩, fun _ _ _ _ _ hbuild => elseBlock_ne_nil hbuild⟩
  obtain ⟨t, ht, stop, hloc⟩ := (hgood n hn).begins
  exact ⟨_, hloc, rfl, (hread t ht).1.bounds⟩

/-- A function with a block of its own in each branch. -/
def branches : String :=
  "def f(x, *, y = 1):\n if x:\n  pass\n else:\n  return g(y = [a for a in x])\n"

theorem parseStatements_invariants_of_branches : ∃ ss notes,
    parseStatements branches "f" 0 = (.ok ss, notes) ∧ Stmt.Invariants branches "f" ss ∧
    ∀ (clause : Tree (.n .elseClause)) (n n' : Notes) (block : List Stmt) (span : Option Span),
      (clause.build "f").run.run n = (.ok (block, span), n') → block ≠ [] := by
  have hok : (parseStatements branches "f" 0).1.isOk = true := by decide +kernel
  rcases hparse : parseStatements branches "f" 0 with ⟨e | ss, notes⟩
  · rw [hparse] at hok
    cases hok
  · exact ⟨ss, notes, rfl, parseStatements_invariants hparse⟩

end Starlark
