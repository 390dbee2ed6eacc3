import Starlark.Proofs.Syntax.Displays
import Starlark.Session.Workspace

/-! # Printed expressions are read back

A plain expression, assigned to a name, is parsed without errors as an assignment of the same
expression. This needs its integers to be numerals that the parser reads: not negative, and of no
more digits than are allowed.
-/
namespace Starlark
open Reference Form

/-- The integers that a decimal numeral may stand for. -/
def IsNumeral (n : Int) : Prop := 0 ≤ n ∧ n < 10 ^ maxDecimalDigits

theorem IsNumeral.of_digit {k : Nat} (h : k < 10) : IsNumeral k := by
  have hone : 1 ≤ maxDecimalDigits := by decide
  -- the power is kept from being computed
  generalize hm : maxDecimalDigits = m at hone
  have hle : 10 ^ 1 ≤ 10 ^ m := Nat.pow_le_pow_right (by decide) hone
  have hlt : k < 10 ^ m := Nat.lt_of_lt_of_le h hle
  rw [IsNumeral, hm]
  exact ⟨Int.natCast_nonneg k, by exact_mod_cast hlt⟩

variable {file : String}

mutual

/-- A plain expression is printed well at its level. -/
theorem Expr.prints : ∀ (e : Expr), e.Plain IsNumeral → e.Prints file e.level
  | .ident _, h => .ident h
  | .int _ loc, h => .int h loc
  | .str s, _ => .str s
  | .list es isTuple loc, h => by
    cases isTuple with
    | true => exact .tuple (Expr.printsAll es h) loc
    | false => exact .list (Expr.printsAll es h) loc
  | .dict ds loc, h => .dict (Entry.printsAll ds h) loc
  | .binary x _ y loc, ⟨⟨hx, hxplain⟩, hy, hyplain⟩ =>
    .binary ((x.prints hxplain).climb hx) ((y.prints hyplain).climb hy) loc
  | .unary _ x loc, ⟨hx, hplain⟩ => .unary ((x.prints hplain).climb hx) loc
  | .conditional a c b loc, ⟨⟨ha, haplain⟩, ⟨hc, hcplain⟩, hbplain⟩ =>
    .conditional ((a.prints haplain).climb ha) ((c.prints hcplain).climb hc)
      (b.prints hbplain).loosest loc
  | .dot o _ loc, ⟨⟨ho, hplain⟩, hf⟩ => .dot ((o.prints hplain).climb ho) hf loc
  | .index o k loc, ⟨⟨ho, hplain⟩, hk⟩ =>
    .index ((o.prints hplain).climb ho) (k.prints hk).loosest loc
  | .slice o a b c loc, ⟨⟨ho, hplain⟩, ha, hb, hc⟩ =>
    .slice ((o.prints hplain).climb ho) (Expr.printsOpt a ha) (Expr.printsOpt b hb)
      (Expr.printsOpt c hc) loc
  | .call f as loc, ⟨⟨hf, hplain⟩, has, hplaced⟩ =>
    .call ((f.prints hplain).climb hf) (Argument.printsAll as has) hplaced loc
  | .comprehension b cs _ loc, ⟨⟨hdict, hb⟩, hcs, hfirst⟩ =>
    .comprehension hdict (b.prints hb) (Clause.printsAll cs hcs) hfirst loc

theorem Expr.printsAll : ∀ (es : List Expr), Expr.PlainAll IsNumeral es →
    ∀ e ∈ es, e.Prints file .test
  | [], _ => List.forall_mem_nil _
  | e :: es, ⟨he, hes⟩ =>
    List.forall_mem_cons.mpr ⟨(e.prints he).loosest, Expr.printsAll es hes⟩

theorem Expr.printsOpt : ∀ (a : Option Expr), Expr.PlainOpt IsNumeral a →
    ∀ e ∈ a, e.Prints file .test
  | none, _ => nofun
  | some e, he => by
    rintro _ ⟨⟩
    exact (e.prints he).loosest

theorem Entry.prints : ∀ (d : Entry), d.Plain IsNumeral → d.Prints file
  | .mk k v loc, ⟨hk, hv⟩ => .pair (k.prints hk).loosest (v.prints hv).loosest loc

theorem Entry.printsAll : ∀ (ds : List Entry), Entry.PlainAll IsNumeral ds →
    ∀ d ∈ ds, d.Prints file
  | [], _ => List.forall_mem_nil _
  | d :: ds, ⟨hd, hds⟩ => List.forall_mem_cons.mpr ⟨d.prints hd, Entry.printsAll ds hds⟩

theorem Argument.prints : ∀ (a : Argument), a.Plain IsNumeral → a.Prints file
  | .mk _ v _ loc, ⟨hv, hname, hplain⟩ => .of_value (v.prints hv).loosest hname hplain loc

theorem Argument.printsAll : ∀ (as : List Argument), Argument.PlainAll IsNumeral as →
    ∀ a ∈ as, a.Prints file
  | [], _ => List.forall_mem_nil _
  | a :: as, ⟨ha, has⟩ => List.forall_mem_cons.mpr ⟨a.prints ha, Argument.printsAll as has⟩

theorem Clause.prints : ∀ (c : Clause), c.Plain IsNumeral → c.Prints file
  | .each x e loc, ⟨⟨hx, hxplain⟩, he, heplain⟩ =>
    .of_each ((x.prints hxplain).climb hx) ((e.prints heplain).climb he) loc
  | .guard e loc, ⟨he, heplain⟩ => .of_guard ((e.prints heplain).climb he) loc

theorem Clause.printsAll : ∀ (cs : List Clause), Clause.PlainAll IsNumeral cs →
    ∀ c ∈ cs, c.Prints file
  | [], _ => List.forall_mem_nil _
  | c :: cs, ⟨hc, hcs⟩ => List.forall_mem_cons.mpr ⟨c.prints hc, Clause.printsAll cs hcs⟩

theorem Body.prints : ∀ (b : Body), b.Plain IsNumeral → b.Prints file
  | .item e, h => (e.prints h).loosest
  | .entry d, h => d.prints h

end

/-- A line that spells a file is parsed, quietly and with a value of that kind. -/
theorem parseStatements_of_spells {text : String} {ms : List Mark} {P : List Stmt → Prop}
    (htext : text.toList = sources ms) (hphrase : Phrase ms)
    (hspells : Spells file (.r .start) (ms ++ [Mark.lineBreak]) P) (firstId : Nat) :
    ∃ ss notes, parseStatements text file firstId = (.ok ss, notes) ∧ P ss ∧ notes.errors = [] ∧
      notes.events = [] := by
  obtain ⟨ss, s, notes, ⟨tree, htokens, hbuild⟩, hquiet, hss⟩ :=
    hspells (placed ⟨1, 1⟩ (ms ++ [Mark.lineBreak])) ⟨firstId, [], []⟩ (placed_shapes _ _)
  refine ⟨ss, notes, ?_, hss, hquiet.1, hquiet.2⟩
  rw [parseStatements, htext, Parser.derive_placed hphrase htokens]
  dsimp only
  rw [hbuild]

/-- Statements on one line. -/
theorem spells_statements {ms ns : List Mark} {P : Stmt → Prop} {Q : List Stmt → Prop}
    (h : Spells file (.r .smallStmt) ms P)
    (hs : Spells file (.star (after .semicolon (.r .smallStmt))) ns Q) :
    Spells file (.r .start) (ms ++ ns ++ [Mark.lineBreak])
      fun ss => ∃ s rest, ss = s :: rest ∧ P s ∧ Q rest := by
  have hbreak : Spells file (.seq (.t .newline) .eps) [.lineBreak] fun _ => True :=
    (Spells.token (.eps file)).mono fun _ _ => trivial
  have hsemicolon : Spells file (.opt (.t .semicolon)) [] (· = none) := .none
  have hline : Spells file (.r .simpleStmt) (ms ++ ns ++ [Mark.lineBreak])
      fun ss => ∃ s rest, ss = s :: rest ∧ P s ∧ Q rest := by
    rw [List.append_assoc]
    refine .r ((h.seq (hs.seq (hsemicolon.seq hbreak))).map ?_)
    rintro ⟨s, ss, _⟩ ⟨hs, hss, -⟩
    exact ⟨s, ss, rfl, hs, hss⟩
  have hitem : Spells file item (ms ++ ns ++ [Mark.lineBreak])
      fun ss => ∃ s rest, ss = s :: rest ∧ P s ∧ Q rest := .right (.r (.left hline))
  refine .r (hitem.one.map ?_)
  rintro _ ⟨_, rfl, s, rest, rfl, hs, hrest⟩
  exact ⟨s, rest, List.append_nil _, hs, hrest⟩

/-- A statement on a line of its own. -/
theorem spells_line {ms : List Mark} {P : Stmt → Prop} (h : Spells file (.r .smallStmt) ms P) :
    Spells file (.r .start) (ms ++ [Mark.lineBreak]) fun ss => ∃ s, ss = [s] ∧ P s := by
  have hmore : Spells file (.star (after .semicolon (.r .smallStmt))) []
      fun ss => ss.map id = [] := .nil
  have hstatements := spells_statements h hmore
  rw [List.append_nil] at hstatements
  refine hstatements.mono ?_
  rintro _ ⟨s, rest, rfl, hs, hrest⟩
  exact ⟨s, congrArg (s :: ·) (List.map_eq_nil_iff.mp hrest), hs⟩

theorem spells_testList {e : Expr} {ms : List Mark}
    (h : Spells file (exprForm .test) ms fun v => v.bare = e.bare) :
    Spells file (.r .testList) ms fun v => v.bare = e.bare := .r (.left h.level)

/-- The marks of an assignment. -/
theorem spells_assignment {x e : Expr} {xs es : List Mark}
    (hx : Spells file (exprForm .test) xs fun v => v.bare = x.bare)
    (he : Spells file (exprForm .test) es fun v => v.bare = e.bare) :
    Spells file (.r .smallStmt) (xs ++ .blank :: .spelled .equal :: .blank :: es)
      fun s => ∃ lhs rhs loc, s = .assign lhs rhs loc ∧ lhs.bare = x.bare ∧ rhs.bare = e.bare := by
  have hvalue := Spells.spelled .equal (spells_testList he).last.blank
  refine .r (.right (.left (.r (((spells_testList hx).seq hvalue.blank).build ?_))))
  rintro loc ⟨lhs, _, rhs, _⟩ ⟨hlhs, hrhs⟩
  exact ⟨lhs, rhs, loc, rfl, hlhs, hrhs⟩

theorem Expr.eq_of_bare_ident {e : Expr} {x : Identifier} (h : e.bare = (Expr.ident x).bare) :
    ∃ y, e = .ident y ∧ y.name = x.name := by
  cases e with
  | ident y =>
    have hname : y.bare.name = x.bare.name := congrArg Identifier.name (Expr.ident.inj h)
    exact ⟨y, rfl, hname⟩
  | _ => cases h

/-- The name that a printed expression is assigned to. -/
def Identifier.target : Identifier := ⟨"x", 0, none⟩

theorem Identifier.isPlain_target : target.IsPlain := ⟨rfl, by decide⟩

theorem parseStatements_text {e : Expr} (h : e.Plain IsNumeral) (file : String) (firstId : Nat) :
    ∃ text, e.text? = some text ∧ ∃ x rhs loc notes,
      parseStatements ("x = " ++ text) file firstId =
        (.ok [.assign (.ident x) rhs loc], notes) ∧
      x.name = "x" ∧ rhs.bare = e.bare ∧ notes.errors = [] ∧ notes.events = [] := by
  have hx : (Expr.ident .target).Prints file .test := .loosest (.ident Identifier.isPlain_target)
  have he : e.Prints file .test := (e.prints h).loosest
  obtain ⟨xs, _, ⟨⟩, hxs, hxphrase, -, hxspells⟩ := hx
  obtain ⟨es, text, htext, hes, hephrase, hebegins, hespells⟩ := he
  have hsource : ("x = " ++ text).toList =
      sources (xs ++ .blank :: .spelled .equal :: .blank :: es) := by
    rw [String.toList_append, sources_append, hxs, sources_cons, sources_cons, sources_cons, hes]
    rfl
  have hphrase : Phrase (xs ++ .blank :: .spelled .equal :: .blank :: es) :=
    hxphrase.infixed (by decide) hephrase hebegins.not_blank
  obtain ⟨ss, notes, hparse, ⟨_, rfl, lhs, rhs, loc, rfl, hlhs, hrhs⟩, herrors, hevents⟩ :=
    parseStatements_of_spells hsource hphrase (spells_line (spells_assignment hxspells hespells))
      firstId
  obtain ⟨x, rfl, hname⟩ := Expr.eq_of_bare_ident hlhs
  exact ⟨text, htext, x, rhs, loc, notes, hparse, hname, hrhs, herrors, hevents⟩

namespace Workspace

/-- A text, assigned to `x`, is parsed without errors or notes as an assignment of an expression, up
to places and numbers of identifiers. -/
structure Reads (w : Workspace) (name text : String) (e : Expr) : Prop where
  errors_eq : (w.parse ("x = " ++ text) name).2.errors (w.parse ("x = " ++ text) name).1 = []
  escapes_eq : (w.parse ("x = " ++ text) name).1.escapes = []
  assigned : ∃ x rhs loc, (w.parse ("x = " ++ text) name).1.statements =
    [.assign (.ident x) rhs loc] ∧ x.name = "x" ∧ rhs.bare = e.bare

/-- An expression has a text, and the text is read as that expression. -/
def ReadsBack (w : Workspace) (name : String) (e : Expr) : Prop :=
  ∃ text, e.text? = some text ∧ w.Reads name text e

/-- Printing a plain expression and parsing the text gives the expression back. -/
theorem parse_text {e : Expr} (h : e.Plain IsNumeral) (w : Workspace) (name : String) :
    w.ReadsBack name e := by
  obtain ⟨text, htext, x, rhs, loc, notes, hparse, hx, hrhs, herrors, hevents⟩ :=
    parseStatements_text h name w.nextId
  have hfile : w.parse ("x = " ++ text) name =
      (.ofStatements [.assign (.ident x) rhs loc] w.reporters.length notes.events name none,
        ⟨w.reporters ++ [(Reporter.ofSource name ("x = " ++ text)).extend notes.errors],
          notes.nextId⟩) := by
    rw [parse, hparse]
  refine ⟨text, htext, ?_, ?_, ?_⟩
  · rw [hfile, errors, reporter, SourceFile.ofStatements, List.getD_eq_getElem?_getD,
      List.getElem?_concat_length]
    exact herrors
  · rw [hfile]
    exact hevents
  · rw [hfile]
    exact ⟨x, rhs, loc, rfl, hx, hrhs⟩

section Sample

/-- A comprehension over a tuple: `[-i for i in (1,) if not i == 2]`. -/
def sampleComprehension : Expr :=
  .comprehension (.item (.unary .neg (.ident ⟨"i", 0, none⟩) none))
    [.each (.ident ⟨"i", 0, none⟩) (.list [.int 1 none] true none) none,
      .guard (.unary .not (.binary (.ident ⟨"i", 0, none⟩) .eq (.int 2 none) none) none) none]
    false none

/-- Arguments of three kinds, one of them a string with escapes. -/
def sampleArguments : List Argument :=
  [.mk .positional (.dot (.ident ⟨"a", 0, none⟩) ⟨"b", 0, none⟩ none) none none,
    .mk .keyword (.str ⟨"\"\\\n", none⟩) (some ⟨"k", 0, none⟩) none,
    .mk .star sampleComprehension none none]

theorem sampleComprehension_plain : sampleComprehension.Plain IsNumeral := by
  have hi : Identifier.IsPlain ⟨"i", 0, none⟩ := by decide
  have hbody : (Body.item (.unary .neg (.ident ⟨"i", 0, none⟩) none)).Plain IsNumeral :=
    ⟨by decide, hi⟩
  have heach : (Clause.each (.ident ⟨"i", 0, none⟩) (.list [.int 1 none] true none) none).Plain
      IsNumeral := ⟨⟨by decide, hi⟩, by decide, .of_digit (k := 1) (by decide), trivial⟩
  have hguard : (Clause.guard (.unary .not (.binary (.ident ⟨"i", 0, none⟩) .eq (.int 2 none)
      none) none) none).Plain IsNumeral :=
    ⟨by decide, by decide, ⟨by decide, hi⟩, by decide, .of_digit (k := 2) (by decide)⟩
  exact ⟨⟨rfl, hbody⟩, ⟨heach, hguard, trivial⟩, rfl⟩

theorem sampleArguments_plain : Argument.PlainAll IsNumeral sampleArguments := by
  have hnames : Identifier.IsPlain ⟨"a", 0, none⟩ ∧ Identifier.IsPlain ⟨"b", 0, none⟩ ∧
      Identifier.IsPlain ⟨"k", 0, none⟩ := by decide
  obtain ⟨ha, hb, hk⟩ := hnames
  refine ⟨⟨⟨⟨by decide, ha⟩, hb⟩, by decide, nofun⟩, ⟨trivial, by decide, ?_⟩,
    ⟨sampleComprehension_plain, by decide, nofun⟩, trivial⟩
  rintro _ ⟨⟩
  exact hk

/-- A call and a slice of it, chosen by a condition. -/
theorem parse_text_of_conditional :
    let e := Expr.conditional (.slice (.call (.ident ⟨"f", 0, none⟩) sampleArguments none)
      (some (.int 0 none)) none none none) (.ident ⟨"a", 0, none⟩) (.dict [] none) none
    e.Plain IsNumeral ∧ Workspace.empty.ReadsBack "defs.bzl" e := by
  intro e
  have hnames : Identifier.IsPlain ⟨"f", 0, none⟩ ∧ Identifier.IsPlain ⟨"a", 0, none⟩ := by
    decide
  have hplaced : misplacedArgument? false false false sampleArguments = none := rfl
  have hplain : e.Plain IsNumeral :=
    ⟨⟨by decide, ⟨by decide, ⟨by decide, hnames.1⟩, sampleArguments_plain, hplaced⟩,
      .of_digit (k := 0) (by decide), trivial, trivial⟩, ⟨by decide, hnames.2⟩, trivial⟩
  exact ⟨hplain, parse_text hplain empty "defs.bzl"⟩

end Sample

end Workspace
end Starlark
