import Mathlib.Data.List.ModifyLast
import Starlark.Proofs.Syntax.Placed

/-! # The texts of the leaves

A location tells a stretch of the lines of a source. That of a leaf is the text of the token that
the leaf was read from.
-/
namespace Starlark

/-- The part of a text that a location tells: from the first of its lines to the last one, without
what stands before the first column or from the last one on. -/
def cut (text : List Char) (l : Location) : List Char :=
  let lines := ((text.splitOn '\n').take l.endLine.toNat).modifyLast
    (·.take (l.endColumn - 1).toNat)
  ['\n'].intercalate ((lines.drop (l.line - 1).toNat).modifyHead (·.drop (l.column - 1).toNat))

/-- What stands between two places of a text is cut out of its lines. -/
theorem cut_between (before text after : List Char) (file : String) :
    cut (before ++ (text ++ after))
      (Span.inFile ⟨Point.after ⟨1, 1⟩ before, Point.after ⟨1, 1⟩ (before ++ text)⟩ file) = text := by
  obtain ⟨front, line, hstart, hlines⟩ := splitOn_append before
  obtain ⟨front', line', hstop, hlines'⟩ := splitOn_append (before ++ text)
  obtain ⟨first, others, htext⟩ := List.exists_cons_of_ne_nil (List.splitOn_ne_nil '\n' text)
  obtain ⟨next, rest, hafter⟩ := List.exists_cons_of_ne_nil (List.splitOn_ne_nil '\n' after)
  have hwhole := hlines' after next rest hafter
  rw [List.append_assoc] at hwhole
  -- The lines up to the end of the text, told by either of its ends.
  have hclosed : front' ++ [line'] = front ++ (line ++ first) :: others := by
    have hnil := hlines' [] [] [] (List.splitOn_nil '\n')
    rw [List.append_nil, List.append_nil, hlines text first others htext] at hnil
    exact hnil.symm
  have hlength : front.length < (front' ++ [line']).length := by
    rw [hclosed]
    simp
  have htake : (front' ++ (line' ++ next) :: rest).take (front'.length + 1) =
      front' ++ [line' ++ next] := by
    simp [List.take_append]
  simp only [cut, Span.inFile, hstart, hstop, hwhole]
  rw [show ((front'.length : Int) + 1).toNat = front'.length + 1 by omega,
    show ((line'.length : Int) + 1 - 1).toNat = line'.length by omega,
    show ((front.length : Int) + 1 - 1).toNat = front.length by omega,
    show ((line.length : Int) + 1 - 1).toNat = line.length by omega, htake,
    List.modifyLast_concat, List.take_left, hclosed, List.drop_left, List.modifyHead_cons,
    List.drop_left, ← htext]
  exact List.intercalate_splitOn '\n'

/-- A token but for the marks of the layout and line breaks stands where its location tells. -/
theorem Token.ReadFrom.cut_eq {t : Token} {source : List Char} (h : t.ReadFrom source)
    (hkind : t.kind ≠ .newline) (file : String) : cut source (t.span.inFile file) = t.text := by
  obtain ⟨before, rest, candidates, hsplit, hspan, hmatch⟩ := h
  obtain ⟨c, hlast, hline⟩ := Scan.endsInLine_of_match? hmatch hkind
  -- The last line break of the text comes after the token.
  have hrest : rest ≠ [] := by
    rintro rfl
    have hends : (Parser.endLine source).getLast? = some '\n' := by
      rw [Parser.endLine]
      split
      · assumption
      · exact List.getLast?_concat
    rw [hsplit, List.append_nil, List.getLast?_append, hlast] at hends
    exact hline (Option.some.inj hends)
  rw [← List.append_assoc] at hsplit
  obtain ⟨after, hafter⟩ := Parser.prefix_of_endLine hrest hsplit
  rw [hspan, ← hafter, List.append_assoc]
  exact cut_between before t.text after file

/-- Is the text at the location of a leaf the one that the leaf was read from? For a name it is the
name, and for the others the text of a token that is decoded to their value. -/
def Node.ReadsText (source : List Char) (file : String) : Node → Prop
  | .expr (.ident x) | .name x => x.name ≠ errorName →
    ∃ l, x.loc = some l ∧ cut source l = x.name.toList
  | .expr (.int value loc) => ∃ t ∈ Parser.handedTokens source, t.kind ∈ numerals ∧
    loc = some (t.span.inFile file) ∧ cut source (t.span.inFile file) = t.text ∧
      decodeInteger t.text = .ok value
  | .expr (.str s) | .string s => ∃ t ∈ Parser.handedTokens source, t.IsString ∧
    s.loc = some (t.span.inFile file) ∧ cut source (t.span.inFile file) = t.text ∧
      s.value = String.ofList (decodeString file t.span.start t.text).value
  | .loaded x => ∃ t ∈ Parser.handedTokens source, t.IsString ∧
    x.loc = some (t.span.inFile file) ∧ cut source (t.span.inFile file) = t.text ∧
      x.name = String.ofList (decodeString file t.span.start t.text).value
  | _ => True

/-- Every leaf of a parsed file has the text at its location. -/
theorem parseStatements_leaf_texts {text file : String} {firstId : Nat} {ss : List Stmt}
    {notes : Notes} (h : parseStatements text file firstId = (.ok ss, notes)) :
    ∀ n ∈ Stmt.nodesAll ss, n.ReadsText text.toList file := by
  obtain ⟨tree, span, hderive, -⟩ := tree_of_parseStatements h
  obtain ⟨hread, -⟩ := Parser.inOrder_of_derive hderive
  rw [Parser.tokens_of_derive hderive] at hread
  have hcut : ∀ t ∈ Parser.handedTokens text.toList, t.kind ∉ Parser.placeless →
      t.kind ≠ .newline → cut text.toList (t.span.inFile file) = t.text := fun t ht hplace hkind =>
    ((hread t ht).2 hplace).cut_eq hkind file
  have hstring : ∀ t ∈ Parser.handedTokens text.toList, t.IsString →
      cut text.toList (t.span.inFile file) = t.text := by
    rintro t ht (hkind | hkind)
    · exact hcut t ht (by rw [hkind]; decide) (by rw [hkind]; decide)
    · exact hcut t ht (by rw [hkind]; decide) (by rw [hkind]; decide)
  have hnumeral : ∀ kind ∈ numerals, kind ∉ Parser.placeless ∧ kind ≠ .newline := by decide
  intro n hn
  have hwritten := (parseStatements_good h n hn).written
  have hname : ∀ x : Identifier, (x.name = errorName ∨ ∃ t ∈ Parser.handedTokens text.toList,
      t.kind = .name ∧ x.loc = some (t.span.inFile file) ∧ x.name = t.string) →
      x.name ≠ errorName → ∃ l, x.loc = some l ∧ cut text.toList l = x.name.toList := by
    rintro x (hx | ⟨t, ht, hkind, hloc, hx⟩) herror
    · exact absurd hx herror
    · refine ⟨_, hloc, ?_⟩
      rw [hcut t ht (by rw [hkind]; decide) (by rw [hkind]; decide), hx, Token.string,
        String.toList_ofList]
  unfold Node.ReadsText
  split
  · exact hname _ hwritten
  · exact hname _ hwritten
  · obtain ⟨t, ht, hkind, hloc, hvalue⟩ := hwritten
    obtain ⟨hplace, hline⟩ := hnumeral _ hkind
    exact ⟨t, ht, hkind, hloc, hcut t ht hplace hline, hvalue⟩
  · obtain ⟨t, ht, hkind, hloc, hvalue⟩ := hwritten
    exact ⟨t, ht, hkind, hloc, hstring t ht hkind, hvalue⟩
  · obtain ⟨t, ht, hkind, hloc, hvalue⟩ := hwritten
    exact ⟨t, ht, hkind, hloc, hstring t ht hkind, hvalue⟩
  · obtain ⟨t, ht, hkind, hloc, hvalue⟩ := hwritten
    exact ⟨t, ht, hkind, hloc, hstring t ht hkind, hvalue⟩
  · trivial

/-- A load, a string over two lines and a number on a line that is continued. -/
def leaves : String :=
  "load('a.bzl', b = 'c') # d\nx = b + \"\"\"e\nf\"\"\" + \\\n\t0x1F\n"

theorem parseStatements_leaf_texts_of_leaves : ∃ ss notes,
    parseStatements leaves "f" 0 = (.ok ss, notes) ∧
    ∀ n ∈ Stmt.nodesAll ss, n.ReadsText leaves.toList "f" := by
  have hok : (parseStatements leaves "f" 0).1.isOk = true := by decide +kernel
  rcases hparse : parseStatements leaves "f" 0 with ⟨e | ss, notes⟩
  · rw [hparse] at hok
    cases hok
  · exact ⟨ss, notes, rfl, parseStatements_leaf_texts hparse⟩

end Starlark
