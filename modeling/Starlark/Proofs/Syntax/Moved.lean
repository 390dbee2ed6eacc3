import Starlark.Proofs.Grammar.Numbering
import Starlark.Proofs.Parser.Beside
import Starlark.Proofs.Syntax.Blocks
import Starlark.Proofs.Syntax.Starts

/-! # Trees of moved tokens

Where the tokens of a tree are moved, so are the nodes of its meaning, and nothing else changes: not
the numbers of the identifiers nor the messages of the notes.
-/
namespace Starlark
open List (Forall₂)

/-! ## Meanings with the starts of their nodes -/

@[simp] def ElifClause.starts (f : Point → Point) (c : ElifClause) : ElifClause :=
  ⟨c.condition.starts f, c.block.map (Stmt.starts f), c.loc.map (·.startAt f)⟩

@[simp] def Subscript.starts (f : Point → Point) : Subscript → Subscript
  | .key e => .key (e.starts f)
  | .range a b c => .range (a.map (Expr.starts f)) (b.map (Expr.starts f)) (c.map (Expr.starts f))

@[simp] def Nonterminal.starts (f : Point → Point) : (x : Nonterminal) → x.Meaning → x.Meaning
  | .file | .items | .statement | .line | .smalls | .suite | .block | .elseClause =>
    List.map (Stmt.starts f)
  | .small => Stmt.starts f
  | .augmentedOp | .operator _ | .unaryOp | .stringToken => fun v => v
  | .loadArgs => List.map (LoadBinding.starts f)
  | .loadArg => LoadBinding.starts f
  | .elifs => List.map (ElifClause.starts f)
  | .elifClause => ElifClause.starts f
  | .parameters | .parameterRest => List.map (Parameter.starts f)
  | .parameter => Parameter.starts f
  | .exprList | .targetList | .expr _ => Expr.starts f
  | .exprRest | .targetRest => List.map (Expr.starts f)
  | .rest _ => List.map fun link => (link.1, link.2.starts f)
  | .arguments | .argumentRest => List.map (Argument.starts f)
  | .argument => Argument.starts f
  | .subscript => Subscript.starts f
  | .entry => Entry.starts f
  | .entryRest => List.map (Entry.starts f)
  | .clauses => List.map (Clause.starts f)
  | .clause | .compFor => Clause.starts f

section Naturality
variable (f : Point → Point)

theorem map_starts_elifChain (cs : List ElifClause) (b : List Stmt) :
    (elifChain cs b).map (Stmt.starts f) =
      elifChain (cs.map (ElifClause.starts f)) (b.map (Stmt.starts f)) := by
  induction cs with
  | nil => rfl
  | cons c cs ih =>
    change [Stmt.starts f (.ifElse c.condition c.block (elifChain cs b) c.loc)] = _
    rw [Stmt.starts, Stmt.startsAll_eq_map, Stmt.startsAll_eq_map, ih]
    rfl

theorem starts_foldChain (loc : Option Location) (x : Expr) (links : List (BinaryOp × Expr)) :
    (foldChain loc x links).starts f = foldChain (loc.map (·.startAt f)) (x.starts f)
      (links.map fun link => (link.1, link.2.starts f)) := by
  induction links generalizing x with
  | nil => rfl
  | cons link links ih => exact ih (.binary x link.1 link.2 loc)

theorem starts_parenthesised (loc : Option Location) (e : Expr) :
    (Build.parenthesised loc e).starts f =
      Build.parenthesised (loc.map (·.startAt f)) (e.starts f) := by
  cases e with
  | list es isTuple l => cases isTuple <;> rfl
  | _ => rfl

theorem starts_subscript (loc : Option Location) (e : Expr) (k : Subscript) :
    (Build.subscript loc e k).starts f =
      Build.subscript (loc.map (·.startAt f)) (e.starts f) (k.starts f) := by
  cases k with
  | key k => rfl
  | range a b c => simp [Build.subscript, Expr.startsOpt_eq_map]

theorem misplacedArgument?_starts (k s d : Bool) (as : List Argument) :
    (misplacedArgument? k s d (as.map (Argument.starts f))).map Prod.fst =
      (misplacedArgument? k s d as).map Prod.fst := by
  induction as generalizing k s d with
  | nil => rfl
  | cons a as ih =>
    rw [List.map_cons, misplacedArgument?, misplacedArgument?, Argument.kind_starts]
    cases d with
    | true => rfl
    | false =>
      cases a.kind with
      | positional => cases k <;> cases s <;> first | rfl | exact ih _ _ _
      | keyword => cases s <;> first | rfl | exact ih _ _ _
      | star => cases s <;> first | rfl | exact ih _ _ _
      | starStar => exact ih _ _ _

end Naturality

/-! ## Meanings of moved tokens -/

section Meanings
variable (f : Point → Point)

/-- The same text, with its start moved. -/
def Token.MovesTo (t t' : Token) : Prop := t'.text = t.text ∧ t'.span.start = f t.span.start

/-- The same location, with its start moved. -/
def MovesLoc (loc loc' : Option Location) : Prop :=
  loc'.map (·.startAt id) = loc.map (·.startAt f)

def Nonterminal.Moved : (x : Nonterminal) → x.Meaning → x.Meaning → Prop
  | .stringToken => Token.MovesTo f
  | x => fun v v' => x.starts id v' = x.starts f v

def Symbol.Moved : (s : Symbol) → s.Meaning → s.Meaning → Prop
  | .t kind => fun t t' => kind ∉ Layout.kinds → t.MovesTo f t'
  | .n x => x.Moved f

def Meanings.Moved : (ss : List Symbol) → Meanings ss → Meanings ss → Prop
  | [] => fun _ _ => True
  | s :: ss => fun vs vs' => s.Moved f vs.1 vs'.1 ∧ Meanings.Moved ss vs.2 vs'.2

end Meanings

/-- The same numbers and the same messages. -/
structure Notes.Alike (n n' : Notes) : Prop where
  nextId : n'.nextId = n.nextId
  errors : n'.errors.map (·.message) = n.errors.map (·.message)
  events : n'.events.map (·.message) = n.events.map (·.message)

namespace Build
variable {α β : Type}

/-- Where a computation has a result, so has another one, and the results are in a relation. -/
def Tracks (m m' : Build α) (R : α → α → Prop) : Prop :=
  ∀ n n' : Notes, n.Alike n' → ∀ a n₁, m.run.run n = (.ok a, n₁) →
    ∃ a' n₁', m'.run.run n' = (.ok a', n₁') ∧ R a a' ∧ n₁.Alike n₁'

namespace Tracks
variable {f : Point → Point} {m m' : Build α} {R : α → α → Prop} {S : β → β → Prop}

theorem pure {a a' : α} (h : R a a') : Tracks (Pure.pure a) (Pure.pure a') R := by
  rintro n n' hn _ _ ⟨⟩
  exact ⟨a', n', rfl, h, hn⟩

theorem bind {k k' : α → Build β} (hm : Tracks m m' R)
    (hk : ∀ a a', R a a' → Tracks (k a) (k' a') S) : Tracks (m >>= k) (m' >>= k') S := by
  intro n n' hn b n₂ h
  obtain ⟨a, n₁, hrun, h⟩ := of_run_bind h
  obtain ⟨a', n₁', hrun', ha, hn₁⟩ := hm n n' hn a n₁ hrun
  obtain ⟨b', n₂', hk', hb, hn₂⟩ := hk a a' ha n₁ n₁' hn₁ b n₂ h
  refine ⟨b', n₂', ?_, hb, hn₂⟩
  rw [run_bind, hrun']
  exact hk'

theorem and {P P' : α → Prop} (h : Tracks m m' R) (hP : Returns m P) (hP' : Returns m' P') :
    Tracks m m' fun a a' => R a a' ∧ P a ∧ P' a' := by
  intro n n' hn a n₁ hrun
  obtain ⟨a', n₁', hrun', ha, hn₁⟩ := h n n' hn a n₁ hrun
  exact ⟨a', n₁', hrun', ⟨ha, hP n a n₁ hrun, hP' n' a' n₁' hrun'⟩, hn₁⟩

theorem report {message message' : String} (h : message' = message) (loc loc' : Option Location) :
    Tracks (report message loc) (report message' loc') fun _ _ => True := by
  rintro n n' hn _ _ ⟨⟩
  refine ⟨(), _, rfl, trivial, hn.nextId, ?_, hn.events⟩
  change (n'.errors ++ [_]).map _ = (n.errors ++ [_]).map _
  rw [List.map_append, List.map_append, hn.errors, h]
  rfl

theorem quote {e e' : Expr} (h : e'.text? = e.text?) :
    Tracks (quote e) (quote e') fun text text' => text' = text := by
  intro n n' hn text n₁ hrun
  unfold Build.quote at hrun ⊢
  cases htext : e.text? with
  | none =>
    rw [htext] at hrun
    cases hrun
  | some _ =>
    rw [htext] at hrun
    cases hrun
    refine ⟨text, n', ?_, rfl, hn⟩
    rw [h, htext]
    rfl

theorem newIdentifier {name name' : String} (hname : name' = name) {loc loc' : Option Location}
    (hloc : MovesLoc f loc loc') :
    Tracks (newIdentifier name loc) (newIdentifier name' loc') fun x x' =>
      x'.starts id = x.starts f := by
  rintro n n' hn _ _ ⟨⟩
  refine ⟨⟨name', n'.nextId, loc'⟩, { n' with nextId := n'.nextId + 1 }, rfl, ?_,
    congrArg (· + 1) hn.nextId, hn.errors, hn.events⟩
  rw [MovesLoc] at hloc
  rw [Identifier.starts, Identifier.starts, hname, hn.nextId, hloc]

end Tracks

section Leaves
variable {f : Point → Point} {t t' : Token}

theorem map_message_place {g : Point × Piece → Option Diagnostic}
    (hg : ∀ p q x, (g (q, x)).map (·.message) = (g (p, x)).map (·.message)) (p q : Point)
    (xs : List Piece) : ((Piece.place q xs).filterMap g).map (·.message) =
      ((Piece.place p xs).filterMap g).map (·.message) := by
  rw [List.map_filterMap, List.map_filterMap]
  induction xs generalizing p q with
  | nil => rfl
  | cons x xs ih =>
    rw [Piece.place, Piece.place, List.filterMap_cons, List.filterMap_cons, hg p q, ih (p.after _)]

/-- What a string is decoded to does not depend on its place. -/
theorem decodeString_place (file : String) (p q : Point) (text : List Char) :
    (decodeString file q text).value = (decodeString file p text).value ∧
      (decodeString file q text).errors.map (·.message) =
        (decodeString file p text).errors.map (·.message) ∧
      (decodeString file q text).events.map (·.message) =
        (decodeString file p text).events.map (·.message) := by
  rw [decodeString, decodeString]
  split
  · exact ⟨rfl, rfl, rfl⟩
  · refine ⟨rfl, map_message_place (fun p q x => ?_) _ _ _,
      map_message_place (fun p q x => ?_) _ _ _⟩
    · cases x <;> rfl
    · cases x <;> rfl

theorem tracks_identifier (file : String) (h : t.MovesTo f t') :
    Tracks (identifier file t) (identifier file t') fun x x' => x'.starts id = x.starts f := by
  refine .newIdentifier ?_ ?_
  · rw [Token.string, Token.string, h.1]
  · exact congrArg (fun p => some (Point.inFile p file)) h.2

theorem tracks_string (file : String) (h : t.MovesTo f t') :
    Tracks (string file t) (string file t') fun s s' => s'.starts id = s.starts f := by
  rintro n n' hn _ _ ⟨⟩
  obtain ⟨hvalue, herrors, hevents⟩ :=
    decodeString_place file t.span.start t'.span.start t'.text
  have hloc : MovesLoc f (t.span.inFile file) (t'.span.inFile file) :=
    congrArg (fun p => some (Point.inFile p file)) h.2
  refine ⟨_, _, rfl, ?_, hn.nextId, ?_, ?_⟩
  · rw [MovesLoc] at hloc
    change StringLiteral.mk (String.ofList _) _ = StringLiteral.mk (String.ofList _) _
    rw [hvalue, h.1]
    exact congrArg _ hloc
  · change (n'.errors ++ _).map _ = (n.errors ++ _).map _
    rw [List.map_append, List.map_append, hn.errors, herrors, h.1]
  · change (n'.events ++ _).map _ = (n.events ++ _).map _
    rw [List.map_append, List.map_append, hn.events, hevents, h.1]

theorem tracks_integer (file : String) (h : t.MovesTo f t') :
    Tracks (integer file t) (integer file t') fun e e' => e'.starts id = e.starts f := by
  intro n n' hn e n₁ hrun
  unfold integer at hrun ⊢
  obtain ⟨value, n₂, hvalue, hrun⟩ := of_run_bind hrun
  cases hrun
  cases hd : decodeInteger t.text with
  | error fault =>
    rw [hd] at hvalue
    cases hvalue
  | ok value' =>
    rw [hd] at hvalue
    cases hvalue
    refine ⟨.int value (t'.span.inFile file), n', ?_, ?_, hn⟩
    · rw [h.1, hd]
      rfl
    · exact congrArg (fun p => Expr.int value (some (Point.inFile p file))) h.2

end Leaves

section Actions
variable {f : Point → Point} {loc loc' : Option Location} (hloc : MovesLoc f loc loc')
include hloc

theorem tracks_call {g g' : Expr} {as as' : List Argument} (hg : g'.starts id = g.starts f)
    (has : as'.map (Argument.starts id) = as.map (Argument.starts f)) :
    Tracks (call loc g as) (call loc' g' as') fun e e' => e'.starts id = e.starts f := by
  have hmisplaced : (misplacedArgument? false false false as').map Prod.fst =
      (misplacedArgument? false false false as).map Prod.fst := by
    rw [← misplacedArgument?_starts id, has, misplacedArgument?_starts]
  have hcall : (Expr.call g' as' loc').starts id = (Expr.call g as loc).starts f := by
    rw [MovesLoc] at hloc
    rw [Expr.starts, Expr.starts, hg, Argument.startsAll_eq_map, Argument.startsAll_eq_map, has,
      hloc]
  unfold call
  cases h : misplacedArgument? false false false as with
  | none =>
    rw [h, Option.map_none, Option.map_eq_none_iff] at hmisplaced
    rw [hmisplaced]
    exact .pure hcall
  | some x =>
    rw [h, Option.map_some] at hmisplaced
    obtain ⟨x', hx', hmessage⟩ := Option.map_eq_some_iff.mp hmisplaced
    rw [hx']
    exact .bind (.report hmessage _ _) fun _ _ _ => .pure hcall

theorem tracks_keywordArgument {x x' v v' : Expr} (hx : x'.starts id = x.starts f)
    (hv : v'.starts id = v.starts f) :
    Tracks (keywordArgument loc x v) (keywordArgument loc' x' v') fun a a' =>
      a'.starts id = a.starts f := by
  have hargument : ∀ {y y' : Identifier}, y'.starts id = y.starts f →
      (Argument.mk .keyword v' (some y') loc').starts id =
        (Argument.mk .keyword v (some y) loc).starts f := by
    intro y y' hy
    rw [MovesLoc] at hloc
    rw [Argument.starts, Argument.starts, hv, hloc, Option.map_some, Option.map_some, hy]
  unfold keywordArgument
  split
  · next y =>
    obtain ⟨y', rfl, hy⟩ := Expr.starts_eq_ident hx
    exact .pure (hargument hy)
  · next hident =>
    have htext : x'.text? = x.text? := by
      rw [← Expr.text?_starts x' (f := id), hx, Expr.text?_starts]
    have hplace : MovesLoc f x.loc x'.loc := by
      rw [MovesLoc, ← Expr.loc_starts, ← Expr.loc_starts, hx]
    split
    · next y' =>
      obtain ⟨y, rfl, -⟩ := Expr.starts_eq_ident hx.symm
      exact absurd rfl (hident y)
    · exact .bind (.quote htext) fun text text' heq => .bind (.report (by rw [heq]) _ _) fun _ _ _ =>
        .bind (.newIdentifier rfl hplace) fun y y' hy => .pure (hargument hy)

theorem tracks_load {t t' : Token} {bs bs' : List LoadBinding} (file : String)
    (ht : t.MovesTo f t') (hbs : bs'.map (LoadBinding.starts id) = bs.map (LoadBinding.starts f)) :
    Tracks (load file loc t bs) (load file loc' t' bs') fun s s' =>
      s'.starts id = s.starts f := by
  have hload : ∀ s s' : StringLiteral, s'.starts id = s.starts f →
      (Stmt.load s' bs' loc').starts id = (Stmt.load s bs loc).starts f := by
    intro s s' hs
    rw [MovesLoc] at hloc
    rw [Stmt.starts, Stmt.starts, hs, hbs, hloc]
  have hempty : bs'.isEmpty = bs.isEmpty := by
    rw [← List.isEmpty_map, hbs, List.isEmpty_map]
  unfold load
  rw [hempty]
  split
  · exact .bind (.report rfl _ _) fun _ _ _ => .bind (tracks_string file ht) fun s s' hs =>
      .pure (hload s s' hs)
  · exact .bind (tracks_string file ht) fun s s' hs => .pure (hload s s' hs)

omit hloc in
theorem tracks_loadBinding {x x' : Identifier} {s s' : StringLiteral}
    (hx : x'.starts id = x.starts f) (hs : s'.starts id = s.starts f) :
    Tracks (loadBinding x s) (loadBinding x' s') fun b b' => b'.starts id = b.starts f := by
  obtain ⟨hvalue, hplace⟩ := StringLiteral.mk.inj hs
  have hbinding : ∀ y y' : Identifier, y'.starts id = y.starts f →
      (LoadBinding.mk x' y' x'.loc).starts id = (LoadBinding.mk x y x.loc).starts f := by
    intro y y' hy
    have hxloc : x'.loc.map (·.startAt id) = x.loc.map (·.startAt f) := congrArg Identifier.loc hx
    rw [LoadBinding.starts, LoadBinding.starts, hx, hy, hxloc]
  unfold loadBinding
  rw [hvalue]
  split
  · exact .bind (.report rfl _ _) fun _ _ _ =>
      .bind (.newIdentifier rfl hplace) fun y y' hy => .pure (hbinding y y' hy)
  · exact .bind (.newIdentifier rfl hplace) fun y y' hy => .pure (hbinding y y' hy)

end Actions

attribute [simp] Meanings.Moved Symbol.Moved Nonterminal.Moved Stmt.startsAll_eq_map
  Expr.startsAll_eq_map Expr.startsOpt_eq_map Entry.startsAll_eq_map Argument.startsAll_eq_map
  Clause.startsAll_eq_map map_starts_elifChain starts_foldChain starts_parenthesised
  starts_subscript

section Rules
variable (file : String) {f : Point → Point} {span span' : Option Span} (p : Production)
  (vs vs' : Meanings p.rhs) (h : Meanings.Moved f p.rhs vs vs')
include h

/-- The rules that may begin with a line break give no locations. -/
theorem action_tracks_group (hp : p.lhs ∈ [.file, .items, .suite]) :
    Tracks (action file span p vs) (action file span' p vs') (p.lhs.Moved f) := by
  cases p
  case fileEmpty | itemsBlank => exact .pure rfl
  case fileItems | itemsStatement | itemsMoreBlank | suiteLine => exact .pure h.1
  case suiteBlock => exact .pure h.2.2.1
  case itemsMore =>
    refine .pure ?_
    simp at h ⊢
    rw [h.1, h.2]
  all_goals simp at hp

variable (hloc : MovesLoc f (span.map (·.inFile file)) (span'.map (·.inFile file)))
include hloc

theorem action_tracks_statement (hp : p.lhs ∉ [.file, .items, .suite])
    (hrole : p.lhs.role ≠ .phrase) :
    Tracks (action file span p vs) (action file span' p vs') (p.lhs.Moved f) := by
  cases p
  case defNone | defSome =>
    refine .bind (tracks_identifier file (h.2.1 (by decide))) fun x x' hx => .pure ?_
    rw [MovesLoc] at hloc
    simp [-Option.map_map] at h ⊢
    simp [h, hx, hloc, -Option.map_map]
  case loadSomeComma | loadSome => exact tracks_load hloc file h.2.2.1 h.2.2.2.1
  case loadNoneComma | loadNone =>
    exact tracks_load hloc file h.2.2.1
      (show List.map (LoadBinding.starts id) [] = List.map (LoadBinding.starts f) [] from rfl)
  case returnNone => exact .pure (congrArg (Stmt.returns none) hloc)
  case passFlow => exact .pure (congrArg (Stmt.flow .pass) hloc)
  case breakFlow => exact .pure (congrArg (Stmt.flow .breakLoop) hloc)
  case continueFlow => exact .pure (congrArg (Stmt.flow .continueLoop) hloc)
  case statementLine | blockOne => exact .pure h.1
  case elseClause => exact .pure h.2.2.1
  case ifElifElse | ifElif | ifElse | ifOnly | forLoop | lineManySemicolon | lineMany
      | lineOneSemicolon | lineOne | smallsOne | smallsMore | exprStatement | assign
      | augmentedAssign | returnValue | blockMore | elifsOne | elifsMore | elifClause =>
    refine .pure ?_
    rw [MovesLoc] at hloc
    simp [-Option.map_map] at h ⊢
    simp [h, hloc, -Option.map_map]
  case fileEmpty | fileItems | itemsBlank | itemsStatement | itemsMoreBlank | itemsMore
      | suiteLine | suiteBlock =>
    exact absurd (by decide) hp
  all_goals exact absurd rfl hrole

theorem action_tracks_phrase (hrole : p.lhs.role = .phrase)
    (hexpr : ∀ l, p.lhs ≠ .expr l) :
    Tracks (action file span p vs) (action file span' p vs') (p.lhs.Moved f) := by
  cases p
  case parameterMandatory =>
    refine .bind (tracks_identifier file (h.1 (by decide))) fun x x' hx => .pure ?_
    rw [MovesLoc] at hloc
    simp [-Option.map_map]
    simp [hx, hloc, -Option.map_map]
  case parameterOptional =>
    refine .bind (tracks_identifier file (h.1 (by decide))) fun x x' hx => .pure ?_
    rw [MovesLoc] at hloc
    simp [-Option.map_map] at h ⊢
    simp [h, hx, hloc, -Option.map_map]
  case parameterStar | parameterStarStar =>
    refine .bind (tracks_identifier file (h.2.1 (by decide))) fun x x' hx => .pure ?_
    rw [MovesLoc] at hloc
    simp [-Option.map_map]
    simp [hx, hloc, -Option.map_map]
  case loadPlain =>
    refine .bind (tracks_string file h.1) fun s s' hs => ?_
    obtain ⟨hvalue, hplace⟩ := StringLiteral.mk.inj hs
    exact .bind (.newIdentifier hvalue hplace) fun x x' hx => tracks_loadBinding hx hs
  case loadAlias =>
    exact .bind (tracks_string file h.2.2.1) fun s s' hs =>
      .bind (tracks_identifier file (h.1 (by decide))) fun x x' hx => tracks_loadBinding hx hs
  case stringShort | stringLong => exact .pure (h.1 (by decide))
  case argumentKeyword => exact tracks_keywordArgument hloc h.1 h.2.2.1
  case augmentedAdd | augmentedSub | augmentedMul | augmentedDiv | augmentedFloorDiv
      | augmentedMod | augmentedBitAnd | augmentedBitOr | augmentedBitXor | augmentedShiftLeft
      | augmentedShiftRight | unaryPlus | unaryMinus | unaryTilde | operator | sliceColon | slice =>
    exact .pure rfl
  case parameterBareStar => exact .pure (congrArg (Parameter.mk .star none none) hloc)
  case exprListSingle | targetListSingle | clauseFor => exact .pure h.1
  case loadArgsOne | loadArgsMore | parametersManyComma | parametersMany | parametersOneComma
      | parametersOne | parameterRestOne | parameterRestMore | exprListManyComma | exprListMany
      | exprListOneComma | exprRestOne | exprRestMore | targetListManyComma | targetListMany
      | targetListOneComma | targetRestOne | targetRestMore | argumentsManyComma | argumentsMany
      | argumentsOneComma | argumentsOne | argumentRestOne | argumentRestMore
      | argumentPositional | argumentStar | argumentStarStar | subscriptKey | sliceStartStopStep
      | sliceStartStopColon | sliceStartStop | sliceStartStep | sliceStartColon | sliceStart
      | sliceStopStep | sliceStopColon | sliceStop | sliceStep | entry | entryRestOne
      | entryRestMore | clausesOne | clausesMore | clauseIf | compFor | restOne | restMore =>
    refine .pure ?_
    rw [MovesLoc] at hloc
    simp [-Option.map_map] at h ⊢
    simp [h, hloc, -Option.map_map]
  all_goals first
    | exact absurd rfl (hexpr _)
    | cases hrole

theorem action_tracks_expr {l : Level} (hexpr : p.lhs = .expr l) :
    Tracks (action file span p vs) (action file span' p vs') (p.lhs.Moved f) := by
  cases p
  case name =>
    exact .bind (tracks_identifier file (h.1 (by decide))) fun x x' hx =>
      .pure (congrArg Expr.ident hx)
  case dot =>
    refine .bind (tracks_identifier file (h.2.2.1 (by decide))) fun x x' hx => .pure ?_
    rw [MovesLoc] at hloc
    simp [-Option.map_map] at h ⊢
    simp [h, hx, hloc, -Option.map_map]
  case callNone =>
    exact tracks_call hloc h.1
      (show List.map (Argument.starts id) [] = List.map (Argument.starts f) [] from rfl)
  case callSome => exact tracks_call hloc h.1 h.2.2.1
  case decimal | hexadecimal | octal => exact tracks_integer file (h.1 (by decide))
  case string | longString =>
    exact .bind (tracks_string file (h.1 (by decide))) fun s s' hs =>
      .pure (congrArg Expr.str hs)
  case testOr | negationComparison | unaryPrimary | primaryAtom | single => exact .pure h.1
  case emptyTuple => exact .pure (congrArg (Expr.list [] true) hloc)
  case listEmpty => exact .pure (congrArg (Expr.list [] false) hloc)
  case dictEmpty => exact .pure (congrArg (Expr.dict []) hloc)
  case conditional | not | unary | index | paren | listOne | listOneComma | listMany
      | listManyComma | listCompFor | listCompClauses | dictOne | dictOneComma | dictMany
      | dictManyComma | dictCompFor | dictCompClauses | chain =>
    refine .pure ?_
    rw [MovesLoc] at hloc
    simp [-Option.map_map] at h ⊢
    simp [h, hloc, -Option.map_map]
  all_goals cases hexpr

end Rules

/-- The action of a rule tracks itself. -/
theorem action_tracks (file : String) {f : Point → Point} {span span' : Option Span}
    (p : Production) (vs vs' : Meanings p.rhs) (h : Meanings.Moved f p.rhs vs vs')
    (hspan : p.lhs ∉ [.file, .items, .suite] →
      MovesLoc f (span.map (·.inFile file)) (span'.map (·.inFile file))) :
    Tracks (action file span p vs) (action file span' p vs') (p.lhs.Moved f) := by
  by_cases hgroup : p.lhs ∈ [.file, .items, .suite]
  · exact action_tracks_group file p vs vs' h hgroup
  · have hloc := hspan hgroup
    by_cases hrole : p.lhs.role = .phrase
    · by_cases hexpr : ∃ l, p.lhs = .expr l
      · exact action_tracks_expr file p vs vs' h hloc hexpr.choose_spec
      · exact action_tracks_phrase file p vs vs' h hloc hrole fun l hl => hexpr ⟨l, hl⟩
    · exact action_tracks_statement file p vs vs' h hloc hgroup hrole

end Build

/-! ## Trees -/

theorem Nonterminal.first_plain_of_not_group {A : Nonterminal} (h : A ∉ [.file, .items, .suite]) :
    ∀ t ∈ A.first, t ∉ Layout.kinds := by
  have hall : ∀ A : Nonterminal, A ∉ [.file, .items, .suite] → ∀ t ∈ A.first, t ∉ Layout.kinds :=
    forall_of_all (by decide +kernel)
  exact hall A h

/-- The span of moved tokens is moved. -/
theorem movesLoc_of_begins {f : Point → Point} {p : Production} {xs : Forest p.rhs}
    {us : List Token} {span span' : Option Span} (file : String)
    (hp : p.lhs ∉ [.file, .items, .suite]) (hmoved : Forall₂ (Token.Moved f) xs.tokens us)
    (h : Span.Begins span xs.tokens) (h' : Span.Begins span' us) :
    MovesLoc f (span.map (·.inFile file)) (span'.map (·.inFile file)) := by
  have hfile : Symbol.n p.lhs ≠ .n .file := by
    intro heq
    rw [Symbol.n.inj heq] at hp
    exact hp List.mem_cons_self
  obtain ⟨t, ts, htokens, ht⟩ := (Tree.node p xs).exists_first hfile
  rw [Tree.tokens] at htokens
  rw [htokens] at hmoved h
  cases hmoved with
  | @cons _ u _ us hfirst _ =>
    obtain ⟨s, rfl, hs⟩ := Option.map_eq_some_iff.mp h
    obtain ⟨s', rfl, hs'⟩ := Option.map_eq_some_iff.mp h'
    have hstart := hfirst.start (Nonterminal.first_plain_of_not_group hp _ ht)
    refine congrArg (fun p => some (Point.inFile p file)) (?_ : s'.start = f s.start)
    exact (hs'.trans hstart).trans (congrArg f hs.symm)

mutual

/-- Moved tokens are the leaves of a tree of the same form. -/
theorem Tree.exists_moved (file : String) {f : Point → Point} : ∀ {s : Symbol} (x : Tree s)
    {us : List Token}, Forall₂ (Token.Moved f) x.tokens us → ∃ y : Tree s, y.tokens = us ∧
      Build.Tracks (x.build file) (y.build file) fun v v' => s.Moved f v.1 v'.1
  | _, .leaf t, us, h => by
    rw [Tree.tokens] at h
    cases h with
    | @cons _ u _ _ hmoved hrest =>
      cases hrest
      obtain ⟨kind, text, span⟩ := u
      obtain ⟨hkind, htext, hstart⟩ := hmoved
      dsimp only at hkind
      subst hkind
      refine ⟨.leaf ⟨t.kind, text, span⟩, rfl, .pure fun hlayout => ?_⟩
      exact ⟨htext hlayout, hstart hlayout⟩
  | _, .node p xs, us, h => by
    obtain ⟨ys, rfl, hys⟩ := Forest.exists_moved file xs h
    refine ⟨.node p ys, rfl, ?_⟩
    rw [Tree.build, Tree.build]
    refine .bind (hys.and (Forest.build_show file xs) (Forest.build_show file ys)) ?_
    rintro v v' ⟨hvs, ⟨-, hspan⟩, -, hspan'⟩
    exact .bind (Build.action_tracks file p v.1 v'.1 hvs fun hp =>
      movesLoc_of_begins file hp h hspan hspan') fun a a' ha => .pure ha

theorem Forest.exists_moved (file : String) {f : Point → Point} :
    ∀ {ss : List Symbol} (xs : Forest ss) {us : List Token},
      Forall₂ (Token.Moved f) xs.tokens us → ∃ ys : Forest ss, ys.tokens = us ∧
        Build.Tracks (xs.build file) (ys.build file) fun vs vs' => Meanings.Moved f ss vs.1 vs'.1
  | _, .nil, us, h => by
    cases h
    exact ⟨.nil, rfl, .pure True.intro⟩
  | _, .cons x xs, us, h => by
    rw [Forest.tokens] at h
    obtain ⟨us₁, us₂, h₁, h₂, rfl⟩ : ∃ us₁ us₂, Forall₂ (Token.Moved f) x.tokens us₁ ∧
        Forall₂ (Token.Moved f) xs.tokens us₂ ∧ us = us₁ ++ us₂ :=
      ⟨_, _, (List.forall₂_take_append _ _ _ h.flip).flip,
        (List.forall₂_drop_append _ _ _ h.flip).flip, (List.take_append_drop _ _).symm⟩
    obtain ⟨y, rfl, hy⟩ := Tree.exists_moved file x h₁
    obtain ⟨ys, rfl, hys⟩ := Forest.exists_moved file xs h₂
    refine ⟨.cons y ys, rfl, ?_⟩
    rw [Forest.build, Forest.build]
    exact .bind hy fun v v' hv => .bind hys fun vs vs' hvs => .pure ⟨hv, hvs⟩

end

end Starlark
