import Starlark.Proofs.Grammar.Preceded
import Starlark.Proofs.Parser.Relined
import Starlark.Proofs.Syntax.Moved

/-! # Blank lines, comment lines and carriage returns do not change a program

A source with another line of blanks and comments, or with carriage returns before its line feeds,
is parsed to the same tree: its nodes start in the same columns, and one line down where they start
after the line that was added.
-/
namespace Starlark
variable {text text' file : String} {firstId : Nat} {ss : List Stmt} {notes : Notes}
  {f : Point → Point} {tree : Tree (.n .file)}

/-- A source is parsed to the same statements as another one, but for the places that their nodes
start at, and with the same messages. -/
def ParsesMoved (f : Point → Point) (text file : String) (firstId : Nat) (ss : List Stmt)
    (notes : Notes) : Prop :=
  ∃ ss' notes', parseStatements text file firstId = (.ok ss', notes') ∧
    ss'.map (Stmt.starts id) = ss.map (Stmt.starts f) ∧ notes.Alike notes'

/-- The value of a tree with its tokens moved, or with a line break before them. -/
theorem Tree.exists_value (file : String) {us : List Token}
    (h : Parser.TokensMove f tree.tokens us) : ∃ y : Tree (.n .file), y.tokens = us ∧
      Build.Tracks (tree.value file) (y.value file)
        fun ss ss' => ss'.map (Stmt.starts id) = ss.map (Stmt.starts f) := by
  have hvalue : ∀ {vs : List Token}, List.Forall₂ (Token.Moved f) tree.tokens vs →
      ∃ y : Tree (.n .file), y.tokens = vs ∧ Build.Tracks (tree.value file) (y.value file)
        fun ss ss' => ss'.map (Stmt.starts id) = ss.map (Stmt.starts f) := by
    intro vs hmoved
    obtain ⟨y, htokens, htracks⟩ := tree.exists_moved file hmoved
    refine ⟨y, htokens, ?_⟩
    rw [value, value, map_eq_pure_bind, map_eq_pure_bind]
    exact htracks.bind fun v v' hv => .pure hv
  rcases h with hmoved | ⟨⟨kind, text, span⟩, vs, hkind, rfl, hmoved⟩
  · exact hvalue hmoved
  · dsimp only at hkind
    subst hkind
    obtain ⟨y, rfl, htracks⟩ := hvalue hmoved
    obtain ⟨z, htokens, hz⟩ := Tree.exists_file (.leaf ⟨.newline, text, span⟩) y rfl
    exact ⟨z, htokens, hz file ▸ htracks⟩

/-- A source that hands over the same tokens, moved, is parsed to the same statements. -/
theorem parsesMoved_of_derive (h : parseStatements text file firstId = (.ok ss, notes))
    (hderive : ∀ {tree}, Parser.derive text.toList = .ok tree →
      ∃ tree', Parser.derive text'.toList = .ok tree' ∧
        Parser.TokensMove f tree.tokens tree'.tokens) :
    ParsesMoved f text' file firstId ss notes := by
  obtain ⟨tree, span, htree, hbuild⟩ := tree_of_parseStatements h
  obtain ⟨tree', htree', hmove⟩ := hderive htree
  obtain ⟨y, htokens, htracks⟩ := Tree.exists_value file hmove
  obtain rfl := Parser.tokens_injective htokens
  have hvalue : (tree.value file).run.run ⟨firstId, [], []⟩ = (.ok ss, notes) := by
    rw [Tree.value, map_eq_pure_bind, Build.run_bind, hbuild]
    rfl
  obtain ⟨ss', notes', hvalue', hss, hnotes⟩ := htracks _ _ ⟨rfl, rfl, rfl⟩ ss notes hvalue
  refine ⟨ss', notes', ?_, hss, hnotes⟩
  rw [Tree.value, map_eq_pure_bind] at hvalue'
  obtain ⟨v, notes₁, hbuild', hpure⟩ := Build.of_run_bind hvalue'
  cases hpure
  rw [parseStatements, htree']
  dsimp only
  rw [hbuild']

/-- Blank lines, comment lines and carriage returns do not change a program. A line of blanks and
comments may be added at any boundary between lines, if the first line does not begin with a blank.
And every line feed may have a carriage return before it, if there are none in the source and no
string spans lines. -/
theorem parseStatements_relined (h : parseStatements text file firstId = (.ok ss, notes)) :
    ((∀ c ∈ text.toList.head?, c ≠ ' ' ∧ c ≠ '\t') →
      ∀ before line after, IsBoundary text.toList before after → IsIdle line →
        ParsesMoved (.lower ((closeLines before).count '\n'))
          (String.ofList (insertLine before line after)) file firstId ss notes) ∧
    ('\r' ∉ text.toList →
      (∀ t ∈ Parser.handedTokens text.toList, t.IsString →
        t.span.start.line = t.span.stop.line) →
      ParsesMoved id (String.ofList (crlf text.toList)) file firstId ss notes) := by
  constructor
  · intro hblank before line after hboundary hline
    refine parsesMoved_of_derive h fun htree => ?_
    rw [String.toList_ofList]
    exact Parser.derive_insertLine hboundary hline hblank htree
  · intro hreturn hstrings
    refine parsesMoved_of_derive h fun htree => ?_
    rw [String.toList_ofList]
    exact Parser.derive_crlf hreturn hstrings htree

/-- A block with a string in it. -/
def callBlock : String := "if x:\n  f('a')\n"

theorem parseStatements_relined_of_callBlock : ∃ ss notes,
    parseStatements callBlock "f" 0 = (.ok ss, notes) ∧
    ParsesMoved (.lower 1) "if x:\n # b\n  f('a')\n" "f" 0 ss notes ∧
    ParsesMoved id "if x:\r\n  f('a')\r\n" "f" 0 ss notes := by
  have hok : (parseStatements callBlock "f" 0).1.isOk = true := by decide +kernel
  have hlines : ((Parser.handedTokens callBlock.toList).all fun t =>
      t.span.start.line == t.span.stop.line || !(t.kind == .string || t.kind == .longString)) =
      true := by decide +kernel
  have hstrings : ∀ t ∈ Parser.handedTokens callBlock.toList, t.IsString →
      t.span.start.line = t.span.stop.line := by
    intro t ht hkind
    have hline := List.all_eq_true.mp hlines t ht
    rcases hkind with hkind | hkind
    · simpa [hkind] using hline
    · simpa [hkind] using hline
  have hcode : (Cursor.start.after "if x:".toList).mode ≠ .joined := by
    have hchars : "if x:".toList = ['i', 'f', ' ', 'x', ':'] := by decide +kernel
    rw [hchars]
    exact nofun
  have hcount : (closeLines "if x:\n".toList).count '\n' = 1 := by decide +kernel
  have hinserted : String.ofList (insertLine "if x:\n".toList " # b".toList "  f('a')\n".toList) =
      "if x:\n # b\n  f('a')\n" := by decide +kernel
  have hblank : ∀ c ∈ callBlock.toList.head?, c ≠ ' ' ∧ c ≠ '\t' := by
    have hhead : callBlock.toList.head? = some 'i' := by decide +kernel
    rw [hhead]
    rintro _ ⟨⟩
    decide
  have hreturned : String.ofList (crlf callBlock.toList) = "if x:\r\n  f('a')\r\n" := by
    decide +kernel
  have hboundary : IsBoundary callBlock.toList "if x:\n".toList "  f('a')\n".toList := by
    refine ⟨by decide +kernel, .inr (.inl (by decide +kernel)), fun t ht hkind => ?_, ?_⟩
    · have hline := hstrings t ht hkind
      rw [hcount]
      omega
    · intro front hfront hmode
      have heq : closeLines "if x:\n".toList = "if x:".toList ++ ['\n'] := by decide +kernel
      rw [heq] at hfront
      rw [← List.append_cancel_right hfront] at hmode
      exact absurd hmode hcode
  have hcomment : "# b".toList.head? = some '#' := by decide +kernel
  have hidle : IsIdle " # b".toList := by
    refine ⟨[' '], "# b".toList, by decide +kernel, List.forall_mem_singleton.mpr (.inl rfl),
      by decide +kernel, ?_⟩
    rw [hcomment]
    rintro _ ⟨⟩
    rfl
  rcases hparse : parseStatements callBlock "f" 0 with ⟨e | ss, notes⟩
  · rw [hparse] at hok
    cases hok
  · obtain ⟨hinsert, hcrlf⟩ := parseStatements_relined hparse
    have hline := hinsert hblank _ _ _ hboundary hidle
    have hreturn := hcrlf (by decide +kernel) hstrings
    rw [hcount, hinserted] at hline
    rw [hreturned] at hreturn
    exact ⟨ss, notes, rfl, hline, hreturn⟩

end Starlark
