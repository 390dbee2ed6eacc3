import Mathlib.Data.List.Forall2
import Starlark.Proofs.Grammar.Located
import Starlark.Proofs.Grammar.Outline

/-! # Blocks

The blocks of a parsed file are the suites of its outline: every statement of the tree is a
statement of the source, in the block and under the header where the layout puts it.
-/
namespace Starlark
open List (Forall₂)

/-- Does a location begin with the first of some tokens? -/
def BeginsAt (file : String) (ts : List Token) (loc : Option Location) : Prop :=
  ∃ t stop, ts.head? = some t ∧ loc = some (Span.inFile ⟨t.span.start, stop⟩ file)

def HeadedBy (kind : Terminal) (ts : List Token) : Prop := ts.head?.map (·.kind) = some kind

/-- A statement without blocks. -/
def Stmt.isSimple : Stmt → Bool
  | .ifElse .. | .forLoop .. | .define .. => false
  | _ => true

mutual

/-- An item of an outline is a statement: it begins where the statement does, and the blocks of the
statement are its suites. -/
inductive Outline.Shows (file : String) : Outline → Stmt → Prop
  | simple {ts : List Token} {s : Stmt} (simple : s.isSimple) (begins : BeginsAt file ts s.loc) :
      Shows file (.item ts []) s
  | ifElse {ts : List Token} {indented : Bool} {suite rest : List Outline} {c : Expr}
      {a b : List Stmt} {loc : Option Location} (header : HeadedBy .kwIf ts)
      (begins : BeginsAt file ts loc) (block : Forall₂ (Shows file) suite a)
      (alternatives : ShowAlternatives file rest b) :
      Shows file (.item ts (.suite indented suite :: rest)) (.ifElse c a b loc)
  | forLoop {ts : List Token} {indented : Bool} {suite : List Outline} {x e : Expr}
      {b : List Stmt} {loc : Option Location} (header : HeadedBy .kwFor ts)
      (begins : BeginsAt file ts loc) (block : Forall₂ (Shows file) suite b) :
      Shows file (.item ts [.suite indented suite]) (.forLoop x e b loc)
  | define {ts : List Token} {indented : Bool} {suite : List Outline} {f : Identifier}
      {ps : List Parameter} {b : List Stmt} {loc : Option Location} (header : HeadedBy .kwDef ts)
      (begins : BeginsAt file ts loc) (block : Forall₂ (Shows file) suite b) :
      Shows file (.item ts [.suite indented suite]) (.define f ps b loc)

/-- The alternatives of a conditional are its else block: an `elif` is a conditional alone in it. -/
inductive Outline.ShowAlternatives (file : String) : List Outline → List Stmt → Prop
  | none : ShowAlternatives file [] []
  | elseBlock {ts : List Token} {indented : Bool} {suite : List Outline} {b : List Stmt}
      (header : HeadedBy .kwElse ts) (block : Forall₂ (Shows file) suite b) :
      ShowAlternatives file [.item ts [.suite indented suite]] b
  | elifBlock {ts : List Token} {indented : Bool} {suite rest : List Outline} {c : Expr}
      {a b : List Stmt} {loc : Option Location} (header : HeadedBy .kwElif ts)
      (begins : BeginsAt file ts loc) (block : Forall₂ (Shows file) suite a)
      (alternatives : ShowAlternatives file rest b) :
      ShowAlternatives file (.item ts [.suite indented suite] :: rest) [.ifElse c a b loc]

end

namespace Outline
variable {file : String}

/-- A suite is a block. -/
def ShowsBlock (file : String) (o : Outline) (b : List Stmt) : Prop :=
  ∃ indented suite, o = .suite indented suite ∧ Forall₂ (Shows file) suite b

def ShowsElse (file : String) (o : Outline) (b : List Stmt) : Prop :=
  ∃ ts suite, o = .item ts [suite] ∧ HeadedBy .kwElse ts ∧ suite.ShowsBlock file b

def ShowsElif (file : String) (o : Outline) (c : ElifClause) : Prop :=
  ∃ ts suite, o = .item ts [suite] ∧ HeadedBy .kwElif ts ∧ BeginsAt file ts c.loc ∧
    suite.ShowsBlock file c.block

theorem ShowsElse.alternatives {o : Outline} {b : List Stmt} (h : o.ShowsElse file b) :
    ShowAlternatives file [o] b := by
  obtain ⟨ts, _, rfl, hheader, indented, suite, rfl, hblock⟩ := h
  exact .elseBlock hheader hblock

theorem showAlternatives_elifChain {os rest : List Outline} {cs : List ElifClause}
    {b : List Stmt} (h : Forall₂ (ShowsElif file) os cs) (hrest : ShowAlternatives file rest b) :
    ShowAlternatives file (os ++ rest) (elifChain cs b) := by
  induction h with
  | nil => exact hrest
  | cons h _ ih =>
    obtain ⟨ts, _, rfl, hheader, hbegins, indented, suite, rfl, hblock⟩ := h
    exact .elifBlock hheader hbegins hblock ih

theorem shows_ifElse {ts : List Token} {contents rest : List Outline} {o : Outline} {c : Expr}
    {a b : List Stmt} {loc : Option Location} (hcontents : contents = o :: rest)
    (hheader : HeadedBy .kwIf ts) (hbegins : BeginsAt file ts loc) (hblock : o.ShowsBlock file a)
    (halternatives : ShowAlternatives file rest b) :
    Forall₂ (Shows file) [.item ts contents] [.ifElse c a b loc] := by
  subst hcontents
  obtain ⟨indented, suite, rfl, hblock⟩ := hblock
  exact .cons (.ifElse hheader hbegins hblock halternatives) .nil

theorem shows_forLoop {ts : List Token} {contents : List Outline} {o : Outline} {x e : Expr}
    {b : List Stmt} {loc : Option Location} (hcontents : contents = [o])
    (hheader : HeadedBy .kwFor ts) (hbegins : BeginsAt file ts loc) (hblock : o.ShowsBlock file b) :
    Forall₂ (Shows file) [.item ts contents] [.forLoop x e b loc] := by
  subst hcontents
  obtain ⟨indented, suite, rfl, hblock⟩ := hblock
  exact .cons (.forLoop hheader hbegins hblock) .nil

theorem shows_define {ts : List Token} {contents : List Outline} {o : Outline} {f : Identifier}
    {ps : List Parameter} {b : List Stmt} {loc : Option Location} (hcontents : contents = [o])
    (hheader : HeadedBy .kwDef ts) (hbegins : BeginsAt file ts loc) (hblock : o.ShowsBlock file b) :
    Forall₂ (Shows file) [.item ts contents] [.define f ps b loc] := by
  subst hcontents
  obtain ⟨indented, suite, rfl, hblock⟩ := hblock
  exact .cons (.define hheader hbegins hblock) .nil

end Outline

/-- What the outline of a nonterminal shows of its meaning. -/
def Nonterminal.Shows (file : String) : (x : Nonterminal) → List Outline → x.Meaning → Prop
  | .file | .items | .statement | .line | .smalls | .block => Forall₂ (Outline.Shows file)
  | .small => fun os s => Forall₂ (Outline.Shows file) os [s]
  | .suite => fun os b => ∃ o, os = [o] ∧ o.ShowsBlock file b
  | .elifs => Forall₂ (Outline.ShowsElif file)
  | .elifClause => fun os c => Forall₂ (Outline.ShowsElif file) os [c]
  | .elseClause => fun os b => ∃ o, os = [o] ∧ o.ShowsElse file b
  | _ => fun _ _ => True

def Symbol.Shows (file : String) : (s : Symbol) → List Outline → s.Meaning → Prop
  | .t _ => fun _ _ => True
  | .n x => x.Shows file

/-- Each tree of a forest shows its meaning. -/
def Forest.Show (file : String) : {ss : List Symbol} → Forest ss → Meanings ss → Prop
  | _, .nil, _ => True
  | s :: _, .cons x xs, vs => s.Shows file x.outline vs.1 ∧ xs.Show file vs.2

/-! ## Where spans begin -/

theorem Span.map_start_join (a b : Option Span) :
    (Span.join a b).map (·.start) = (a.map (·.start)).or (b.map (·.start)) := by
  cases a <;> cases b <;> rfl

/-- Does a span begin with the first of some tokens? -/
def Span.Begins (span : Option Span) (ts : List Token) : Prop :=
  span.map (·.start) = ts.head?.map (·.span.start)

theorem Span.Begins.join {a b : Option Span} {ts us : List Token} (ha : Span.Begins a ts)
    (hb : Span.Begins b us) : Span.Begins (Span.join a b) (ts ++ us) := by
  unfold Span.Begins at *
  rw [Span.map_start_join, ha, hb, List.head?_append, Option.map_or]

theorem Span.Begins.beginsAt {span : Option Span} {ts : List Token} (h : Span.Begins span ts)
    (hts : ts ≠ []) (file : String) : BeginsAt file ts (span.map (·.inFile file)) := by
  cases ts with
  | nil => exact absurd rfl hts
  | cons t ts =>
    cases span with
    | none => cases h
    | some span =>
      obtain ⟨start, stop⟩ := span
      have hstart : start = t.span.start := Option.some.inj h
      exact ⟨t, stop, rfl, hstart ▸ rfl⟩

theorem Forest.headedBy {kind : Terminal} {ss : List Symbol} :
    (xs : Forest (.t kind :: ss)) → HeadedBy kind xs.tokens
  | .cons (.leaf _) _ => rfl

theorem Forest.tokens_ne_nil {p : Production} (hp : p ≠ .fileEmpty) (xs : Forest p.rhs) :
    xs.tokens ≠ [] := by
  obtain ⟨t, ts, htokens, -⟩ := xs.exists_first (p.rhs_ne_nil hp) p.file_not_mem_rhs
  rw [htokens]
  exact List.cons_ne_nil t ts

/-! ## Statements in a row -/

/-- The statements in the meaning of a part of a block. -/
def Symbol.statements : (s : Symbol) → s.Meaning → List Stmt
  | .n .items, ss => ss
  | .n .statement, ss => ss
  | .n .line, ss => ss
  | .n .smalls, ss => ss
  | .n .block, ss => ss
  | .n .small, s => [s]
  | _, _ => []

def Meanings.statements : (ss : List Symbol) → Meanings ss → List Stmt
  | [], _ => []
  | s :: ss, vs => s.statements vs.1 ++ statements ss vs.2

/-- The symbols that a block is made of. -/
def blockSymbols : List Symbol :=
  [.t .newline, .t .semicolon, .n .items, .n .statement, .n .line, .n .smalls, .n .block,
   .n .small]

theorem Symbol.Shows.statements {file : String} {s : Symbol} (hs : s ∈ blockSymbols)
    {x : Tree s} {v : s.Meaning} (h : s.Shows file x.outline v) :
    Forall₂ (Outline.Shows file) x.outline (s.statements v) := by
  simp only [blockSymbols, List.mem_cons, List.not_mem_nil, or_false] at hs
  obtain rfl | rfl | rfl | rfl | rfl | rfl | rfl | rfl := hs
  · rw [x.outline_terminal]
    exact .nil
  · rw [x.outline_terminal]
    exact .nil
  all_goals exact h

theorem Forest.Show.statements {file : String} {ss : List Symbol} {xs : Forest ss}
    {vs : Meanings ss} (h : xs.Show file vs) (hss : ∀ s ∈ ss, s ∈ blockSymbols) :
    Forall₂ (Outline.Shows file) xs.outline (Meanings.statements ss vs) := by
  induction ss with
  | nil =>
    cases xs
    exact .nil
  | cons s ss ih =>
    cases xs with
    | cons x xs =>
      rw [List.forall_mem_cons] at hss
      exact List.rel_append (Symbol.Shows.statements hss.1 h.1) (ih h.2 hss.2)

namespace Build
variable {file : String} {span : Option Span}

theorem load_shows {ts : List Token} {loc : Option Location} (hbegins : BeginsAt file ts loc)
    (source : Token) (bs : List LoadBinding) :
    Returns (load file loc source bs) fun s => Forall₂ (Outline.Shows file) [.item ts []] [s] := by
  unfold load
  split
  · exact .bind (.trivial _) fun _ _ => .bind (.trivial _) fun _ _ =>
      .pure (.cons (.simple rfl hbegins) .nil)
  · exact .bind (.trivial _) fun _ _ => .pure (.cons (.simple rfl hbegins) .nil)

/-- The action of a rule puts the statements of a part where its outline has them. -/
theorem action_shows (p : Production) (xs : Forest p.rhs) (vs : Meanings p.rhs)
    (h : xs.Show file vs) (hspan : Span.Begins span xs.tokens) :
    Returns (action file span p vs) (p.lhs.Shows file (Tree.node p xs).outline) := by
  by_cases hp : p = .fileEmpty
  · subst hp
    cases xs
    exact .pure .nil
  have hbegins := hspan.beginsAt (xs.tokens_ne_nil hp) file
  cases p
  case fileEmpty => exact absurd rfl hp
  case fileItems | itemsBlank | itemsStatement | itemsMoreBlank | itemsMore | statementLine
      | lineManySemicolon | lineMany | lineOneSemicolon | lineOne | smallsOne | smallsMore
      | blockOne | blockMore =>
    have hstatements := h.statements (by decide)
    simp only [Meanings.statements, Symbol.statements, List.append_nil, List.nil_append,
      List.singleton_append] at hstatements
    exact .pure hstatements
  case ifElifElse =>
    obtain _ | ⟨kw, _ | ⟨c, _ | ⟨colon, _ | ⟨suite, _ | ⟨elifs, _ | ⟨els, _ | _⟩⟩⟩⟩⟩⟩ := xs
    obtain ⟨-, -, -, ⟨o, hsuite, hblock⟩, helifs, ⟨e, helse, hels⟩, -⟩ := h
    refine .pure (Outline.shows_ifElse ?_ (Forest.headedBy _) hbegins hblock
      (Outline.showAlternatives_elifChain helifs hels.alternatives))
    simp [Forest.outline, hsuite, helse]
  case ifElif =>
    obtain _ | ⟨kw, _ | ⟨c, _ | ⟨colon, _ | ⟨suite, _ | ⟨elifs, _ | _⟩⟩⟩⟩⟩ := xs
    obtain ⟨-, -, -, ⟨o, hsuite, hblock⟩, helifs, -⟩ := h
    refine .pure (Outline.shows_ifElse ?_ (Forest.headedBy _) hbegins hblock
      (Outline.showAlternatives_elifChain helifs .none))
    simp [Forest.outline, hsuite]
  case ifElse =>
    obtain _ | ⟨kw, _ | ⟨c, _ | ⟨colon, _ | ⟨suite, _ | ⟨els, _ | _⟩⟩⟩⟩⟩ := xs
    obtain ⟨-, -, -, ⟨o, hsuite, hblock⟩, ⟨e, helse, hels⟩, -⟩ := h
    refine .pure (Outline.shows_ifElse ?_ (Forest.headedBy _) hbegins hblock
      hels.alternatives)
    simp [Forest.outline, hsuite, helse]
  case ifOnly =>
    obtain _ | ⟨kw, _ | ⟨c, _ | ⟨colon, _ | ⟨suite, _ | _⟩⟩⟩⟩ := xs
    obtain ⟨-, -, -, ⟨o, hsuite, hblock⟩, -⟩ := h
    refine .pure (Outline.shows_ifElse ?_ (Forest.headedBy _) hbegins hblock .none)
    simp [Forest.outline, hsuite]
  case forLoop =>
    obtain _ | ⟨kw, _ | ⟨x, _ | ⟨kwIn, _ | ⟨e, _ | ⟨colon, _ | ⟨suite, _ | _⟩⟩⟩⟩⟩⟩ := xs
    obtain ⟨-, -, -, -, -, ⟨o, hsuite, hblock⟩, -⟩ := h
    refine .pure (Outline.shows_forLoop ?_ (Forest.headedBy _) hbegins hblock)
    simp [Forest.outline, hsuite]
  case defNone =>
    obtain _ | ⟨kw, _ | ⟨f, _ | ⟨lpar, _ | ⟨rpar, _ | ⟨colon, _ | ⟨suite, _ | _⟩⟩⟩⟩⟩⟩ := xs
    obtain ⟨-, -, -, -, -, ⟨o, hsuite, hblock⟩, -⟩ := h
    refine .bind (.trivial _) fun _ _ =>
      .pure (Outline.shows_define ?_ (Forest.headedBy _) hbegins hblock)
    simp [Forest.outline, hsuite]
  case defSome =>
    obtain _ | ⟨kw, _ | ⟨f, _ | ⟨lpar, _ | ⟨ps, _ | ⟨rpar, _ | ⟨colon, _ | ⟨suite, _ | _⟩⟩⟩⟩⟩⟩⟩ :=
      xs
    obtain ⟨-, -, -, -, -, -, ⟨o, hsuite, hblock⟩, -⟩ := h
    refine .bind (.trivial _) fun _ _ =>
      .pure (Outline.shows_define ?_ (Forest.headedBy _) hbegins hblock)
    simp [Forest.outline, hsuite]
  case elifClause =>
    have hheader : HeadedBy .kwElif xs.tokens := xs.headedBy
    obtain _ | ⟨kw, _ | ⟨c, _ | ⟨colon, _ | ⟨suite, _ | _⟩⟩⟩⟩ := xs
    obtain ⟨-, -, -, ⟨o, hsuite, hblock⟩, -⟩ := h
    refine .pure (.cons ⟨_, o, ?_, hheader, hbegins, hblock⟩ .nil)
    simp [Forest.outline, hsuite]
  case elseClause =>
    have hheader : HeadedBy .kwElse xs.tokens := xs.headedBy
    obtain _ | ⟨kw, _ | ⟨colon, _ | ⟨suite, _ | _⟩⟩⟩ := xs
    obtain ⟨-, -, ⟨o, hsuite, hblock⟩, -⟩ := h
    refine .pure ⟨_, rfl, _, o, ?_, hheader, hblock⟩
    simp [Forest.outline, hsuite]
  case suiteLine =>
    obtain _ | ⟨line, _ | _⟩ := xs
    refine .pure ⟨_, rfl, false, line.outline, ?_, h.1⟩
    simp [Forest.outline]
  case suiteBlock =>
    obtain _ | ⟨line, _ | ⟨indent, _ | ⟨block, _ | ⟨dedent, _ | _⟩⟩⟩⟩ := xs
    refine .pure ⟨_, rfl, true, block.outline, ?_, h.2.2.1⟩
    simp [Forest.outline]
  case elifsOne =>
    obtain _ | ⟨clause, _ | _⟩ := xs
    refine .pure ?_
    change Forall₂ _ (clause.outline ++ []) _
    rw [List.append_nil]
    exact h.1
  case elifsMore =>
    obtain _ | ⟨clauses, _ | ⟨clause, _ | _⟩⟩ := xs
    refine .pure ?_
    change Forall₂ _ (clauses.outline ++ (clause.outline ++ [])) _
    rw [List.append_nil]
    exact List.rel_append h.1 h.2.1
  case exprStatement | assign | augmentedAssign | returnValue | returnNone | passFlow | breakFlow
      | continueFlow =>
    exact .pure (.cons (.simple rfl hbegins) .nil)
  case loadSomeComma | loadSome => exact load_shows hbegins _ vs.2.2.2.1
  case loadNoneComma | loadNone => exact load_shows hbegins _ []
  -- The other rules are for parts of one statement.
  all_goals exact fun _ _ _ _ => True.intro

end Build

mutual

/-- A tree shows its meaning, and its span begins with its first token. -/
theorem Tree.build_shows (file : String) : ∀ {s : Symbol} (tree : Tree s),
    Build.Returns (tree.build file) fun v =>
      s.Shows file tree.outline v.1 ∧ Span.Begins v.2 tree.tokens
  | _, .leaf _ => by
    rw [Tree.build]
    exact .pure ⟨True.intro, rfl⟩
  | _, .node p xs => by
    rw [Tree.build]
    exact .bind (Forest.build_show file xs) fun v hv =>
      .bind (Build.action_shows p xs v.1 hv.1 hv.2) fun a ha => .pure ⟨ha, hv.2⟩

theorem Forest.build_show (file : String) : ∀ {ss : List Symbol} (xs : Forest ss),
    Build.Returns (xs.build file) fun vs => xs.Show file vs.1 ∧ Span.Begins vs.2 xs.tokens
  | _, .nil => by
    rw [Forest.build]
    exact .pure ⟨True.intro, rfl⟩
  | _, .cons x xs => by
    rw [Forest.build]
    exact .bind (Tree.build_shows file x) fun v hv =>
      .bind (Forest.build_show file xs) fun vs hvs =>
        .pure ⟨⟨hv.1, hvs.1⟩, hv.2.join hvs.2⟩

end

/-- The block structure of an accepted source is its indentation. Its statements are those of its
outline; and this is laid out from width zero on, on the logical lines of the source. -/
theorem parseStatements_laidOut {text file : String} {firstId : Nat} {ss : List Stmt}
    {notes : Notes} (h : parseStatements text file firstId = (.ok ss, notes)) :
    ∃ tree, Parser.derive text.toList = .ok tree ∧
      Forall₂ (Outline.Shows file) tree.outline ss ∧
      ∀ o ∈ tree.outline, o.LaidOut (Parser.tokenWidth text.toList) 0 := by
  obtain ⟨tree, span, hderive, hbuild⟩ := tree_of_parseStatements h
  exact ⟨tree, hderive, (tree.build_shows file _ _ _ hbuild).1, Parser.laidOut_of_derive hderive⟩

/-- One block is eight wide and the other two; their headers are on lines of width zero. -/
def alternativeBlocks : String := "if x:\n\ty\nelse:\n  z\n"

theorem parseStatements_laidOut_of_alternative : ∃ ss notes tree,
    parseStatements alternativeBlocks "f" 0 = (.ok ss, notes) ∧
    Parser.derive alternativeBlocks.toList = .ok tree ∧
    Forall₂ (Outline.Shows "f") tree.outline ss ∧
    ∀ o ∈ tree.outline, o.LaidOut (Parser.tokenWidth alternativeBlocks.toList) 0 := by
  have hok : (parseStatements alternativeBlocks "f" 0).1.isOk = true := by decide +kernel
  cases hparse : parseStatements alternativeBlocks "f" 0 with
  | mk r notes =>
    rw [hparse] at hok
    cases r with
    | error e => cases hok
    | ok ss =>
      obtain ⟨tree, hderive, hshows, hlaidOut⟩ := parseStatements_laidOut hparse
      exact ⟨ss, notes, tree, rfl, hderive, hshows, hlaidOut⟩

end Starlark
