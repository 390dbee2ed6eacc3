import Mathlib.Tactic.Simproc.ExistsAndEq
import Starlark.Proofs.Grammar.Located
import Starlark.Proofs.Grammar.Numbering

/-! # Expressions that have a text

An expression has a text exactly if its parts have one, down to its integers. Actions fail on a
numeral that cannot be read and on an integer that cannot be written in an error, so a tree whose
numerals are short has a meaning.
-/
namespace Starlark

def Expr.Written (e : Expr) : Prop := ∃ text, e.text? = some text

def Entry.Written (d : Entry) : Prop := ∃ text, d.text? = some text

def Argument.Written (a : Argument) : Prop := ∃ text, a.text? = some text

def Clause.Written (c : Clause) : Prop := ∃ text, c.text? = some text

def Body.Written (b : Body) : Prop := ∃ text, b.text? = some text

theorem Expr.exists_texts (es : List Expr) :
    (∃ texts, Expr.texts? es = some texts) ↔ ∀ e ∈ es, e.Written := by
  induction es with
  | nil => simp [texts?]
  | cons e es ih =>
    rw [List.forall_mem_cons, ← ih]
    simp [texts?, Written, Option.bind_eq_some_iff]

theorem Expr.exists_textOrEmpty (e : Option Expr) :
    (∃ text, Expr.textOrEmpty? e = some text) ↔ ∀ x ∈ e, x.Written := by
  cases e with
  | none => simp [textOrEmpty?]
  | some e => simp [textOrEmpty?, Written]

theorem Entry.exists_texts (ds : List Entry) :
    (∃ texts, Entry.texts? ds = some texts) ↔ ∀ d ∈ ds, d.Written := by
  induction ds with
  | nil => simp [texts?]
  | cons d ds ih =>
    rw [List.forall_mem_cons, ← ih]
    simp [texts?, Written, Option.bind_eq_some_iff]

theorem Argument.exists_texts (as : List Argument) :
    (∃ texts, Argument.texts? as = some texts) ↔ ∀ a ∈ as, a.Written := by
  induction as with
  | nil => simp [texts?]
  | cons a as ih =>
    rw [List.forall_mem_cons, ← ih]
    simp [texts?, Written, Option.bind_eq_some_iff]

theorem Clause.exists_tailText (cs : List Clause) :
    (∃ text, Clause.tailText? cs = some text) ↔ ∀ c ∈ cs, c.Written := by
  induction cs with
  | nil => simp [tailText?]
  | cons c cs ih =>
    rw [List.forall_mem_cons, ← ih]
    simp [tailText?, Written, Option.bind_eq_some_iff]

namespace Expr
variable {loc : Option Location}

theorem written_list {es : List Expr} {tuple : Bool} :
    (list es tuple loc).Written ↔ ∀ e ∈ es, e.Written := by
  rw [← exists_texts, Written]
  unfold text?
  split <;> simp_all [texts?, Option.bind_eq_some_iff]

theorem written_dict {ds : List Entry} : (dict ds loc).Written ↔ ∀ d ∈ ds, d.Written := by
  rw [← Entry.exists_texts]
  simp [Written, text?, Option.bind_eq_some_iff]

theorem written_binary {x y : Expr} {op : BinaryOp} :
    (binary x op y loc).Written ↔ x.Written ∧ y.Written := by
  simp [Written, text?, Option.bind_eq_some_iff]

theorem written_unary {op : UnaryOp} {x : Expr} : (unary op x loc).Written ↔ x.Written := by
  cases op <;> simp [Written, text?, Option.bind_eq_some_iff]

theorem written_conditional {t c e : Expr} :
    (conditional t c e loc).Written ↔ t.Written ∧ c.Written ∧ e.Written := by
  simp [Written, text?, Option.bind_eq_some_iff]

theorem written_dot {o : Expr} {f : Identifier} : (dot o f loc).Written ↔ o.Written := by
  simp [Written, text?, Option.bind_eq_some_iff]

theorem written_index {o k : Expr} : (index o k loc).Written ↔ o.Written ∧ k.Written := by
  simp [Written, text?, Option.bind_eq_some_iff]

theorem written_slice {o : Expr} {a b c : Option Expr} :
    (slice o a b c loc).Written ↔
      o.Written ∧ (∀ e ∈ a, e.Written) ∧ (∀ e ∈ b, e.Written) ∧ ∀ e ∈ c, e.Written := by
  rw [← exists_textOrEmpty a, ← exists_textOrEmpty b]
  cases c <;> simp [Written, text?, Option.bind_eq_some_iff]

theorem written_call {f : Expr} {as : List Argument} :
    (call f as loc).Written ↔ f.Written ∧ ∀ a ∈ as, a.Written := by
  rw [← Argument.exists_texts]
  simp [Written, text?, Option.bind_eq_some_iff]

theorem written_comprehension {b : Body} {cs : List Clause} {curly : Bool} :
    (comprehension b cs curly loc).Written ↔ b.Written ∧ ∀ c ∈ cs, c.Written := by
  rw [← Clause.exists_tailText]
  cases curly <;> simp [Written, text?, Body.Written, Option.bind_eq_some_iff]

end Expr

variable {loc : Option Location}

theorem Entry.written_mk {k v : Expr} : (mk k v loc).Written ↔ k.Written ∧ v.Written := by
  simp [Written, text?, Expr.Written, Option.bind_eq_some_iff]

theorem Argument.written_mk {kind : ArgumentKind} {v : Expr} {x : Option Identifier} :
    (mk kind v x loc).Written ↔ v.Written := by
  cases kind <;> cases x <;> simp [Written, text?, Expr.Written, Option.bind_eq_some_iff]

theorem Clause.written_each {x e : Expr} : (each x e loc).Written ↔ x.Written ∧ e.Written := by
  simp [Written, text?, Expr.Written, Option.bind_eq_some_iff]

theorem Clause.written_guard {e : Expr} : (guard e loc).Written ↔ e.Written := by
  simp [Written, text?, Expr.Written, Option.bind_eq_some_iff]

theorem written_foldChain {x : Expr} {links : List (BinaryOp × Expr)} :
    (foldChain loc x links).Written ↔ x.Written ∧ ∀ link ∈ links, link.2.Written := by
  rw [foldChain]
  induction links generalizing x with
  | nil => simp
  | cons link links ih =>
    rw [List.foldl_cons, ih, Expr.written_binary, List.forall_mem_cons, and_assoc]

theorem written_parenthesised {e : Expr} :
    (Build.parenthesised loc e).Written ↔ e.Written := by
  unfold Build.parenthesised
  split
  · rw [Expr.written_list, Expr.written_list]
  · rfl

/-- Have the bounds of a slice, or its index, a text? -/
def Subscript.Written : Subscript → Prop
  | .key e => e.Written
  | .range a b c => (∀ e ∈ a, e.Written) ∧ (∀ e ∈ b, e.Written) ∧ ∀ e ∈ c, e.Written

theorem written_subscript {e : Expr} {k : Subscript} :
    (Build.subscript loc e k).Written ↔ e.Written ∧ k.Written := by
  cases k with
  | key k => exact Expr.written_index
  | range a b c => exact Expr.written_slice

/-- Have the expressions in a meaning a text? -/
def Nonterminal.Written : (x : Nonterminal) → x.Meaning → Prop
  | .exprList | .targetList | .expr _ => Expr.Written
  | .exprRest | .targetRest => fun es => ∀ e ∈ es, e.Written
  | .rest _ => fun links => ∀ link ∈ links, link.2.Written
  | .arguments | .argumentRest => fun as => ∀ a ∈ as, a.Written
  | .argument => Argument.Written
  | .subscript => Subscript.Written
  | .entry => Entry.Written
  | .entryRest => fun ds => ∀ d ∈ ds, d.Written
  | .clauses => fun cs => ∀ c ∈ cs, c.Written
  | .clause | .compFor => Clause.Written
  | _ => fun _ => True

/-- Is a token, if it is a numeral, one that can be read and written again? -/
def Token.Short (t : Token) : Prop :=
  t.kind ∈ [Terminal.decimal, .hexadecimal, .octal] →
    ∃ n text, decodeInteger t.text = .ok n ∧ integerText? n = some text

def Symbol.Written : (s : Symbol) → s.Meaning → Prop
  | .t kind => fun t => t.kind = kind ∧ t.Short
  | .n x => x.Written

def Meanings.Written : (ss : List Symbol) → Meanings ss → Prop
  | [] => fun _ => True
  | s :: ss => fun vs => s.Written vs.1 ∧ Meanings.Written ss vs.2

namespace Build

theorem integer_written (file : String) {t : Token}
    (h : ∃ n text, decodeInteger t.text = .ok n ∧ integerText? n = some text) (n : Notes) :
    ∃ e, (integer file t).run.run n = (.ok e, n) ∧ e.Written := by
  obtain ⟨value, text, hvalue, htext⟩ := h
  refine ⟨.int value (t.span.inFile file), ?_, text, htext⟩
  rw [integer, hvalue]
  rfl

theorem returns_integer (file : String) {t : Token}
    (h : ∃ n text, decodeInteger t.text = .ok n ∧ integerText? n = some text) :
    Returns (integer file t) Expr.Written := by
  intro n e n' hrun
  obtain ⟨e', hrun', he⟩ := integer_written file h n
  rw [hrun'] at hrun
  cases hrun
  exact he

theorem returns_call (loc : Option Location) {f : Expr} {as : List Argument} (hf : f.Written)
    (has : ∀ a ∈ as, a.Written) : Returns (call loc f as) Expr.Written := by
  unfold call
  split
  · exact .bind (.trivial _) fun _ _ => .pure (Expr.written_call.mpr ⟨hf, has⟩)
  · exact .pure (Expr.written_call.mpr ⟨hf, has⟩)

theorem returns_keywordArgument (loc : Option Location) (name : Expr) {value : Expr}
    (h : value.Written) : Returns (keywordArgument loc name value) Argument.Written := by
  unfold keywordArgument
  split
  · exact .pure (Argument.written_mk.mpr h)
  · exact .bind (.trivial _) fun _ _ => .bind (.trivial _) fun _ _ => .bind (.trivial _) fun _ _ =>
      .pure (Argument.written_mk.mpr h)

/-- What an action makes has a text if what it is given has one. -/
theorem action_written (file : String) (span : Option Span) (p : Production) (vs : Meanings p.rhs)
    (h : Meanings.Written p.rhs vs) : Returns (action file span p vs) p.lhs.Written := by
  cases p
  case exprListSingle | targetListSingle | testOr | negationComparison | unaryPrimary
      | primaryAtom | subscriptKey | clauseFor | single =>
    exact .pure h.1
  case exprListManyComma | exprListMany | targetListManyComma | targetListMany =>
    exact .pure (Expr.written_list.mpr (List.forall_mem_cons.mpr ⟨h.1, h.2.1⟩))
  case exprListOneComma | targetListOneComma =>
    exact .pure (Expr.written_list.mpr (List.forall_mem_singleton.mpr h.1))
  case exprRestOne | targetRestOne | argumentRestOne | entryRestOne =>
    exact .pure (List.forall_mem_singleton.mpr h.2.1)
  case exprRestMore | targetRestMore | argumentRestMore | entryRestMore =>
    exact .pure (List.forall_mem_append.mpr ⟨h.1, List.forall_mem_singleton.mpr h.2.2.1⟩)
  case conditional => exact .pure (Expr.written_conditional.mpr ⟨h.1, h.2.2.1, h.2.2.2.2.1⟩)
  case not | unary => exact .pure (Expr.written_unary.mpr h.2.1)
  case callNone => exact returns_call _ h.1 (List.forall_mem_nil _)
  case callSome => exact returns_call _ h.1 h.2.2.1
  case index => exact .pure (written_subscript.mpr ⟨h.1, h.2.2.1⟩)
  case dot => exact .bind (.trivial _) fun _ _ => .pure (Expr.written_dot.mpr h.1)
  case argumentsManyComma | argumentsMany =>
    exact .pure (List.forall_mem_cons.mpr ⟨h.1, h.2.1⟩)
  case argumentsOneComma | argumentsOne | clausesOne =>
    exact .pure (List.forall_mem_singleton.mpr h.1)
  case argumentPositional => exact .pure (Argument.written_mk.mpr h.1)
  case argumentKeyword => exact returns_keywordArgument _ _ h.2.2.1
  case argumentStar | argumentStarStar => exact .pure (Argument.written_mk.mpr h.2.1)
  case sliceStartStopStep | sliceStartStopColon | sliceStartStop | sliceStartStep
      | sliceStartColon | sliceStart | sliceStopStep | sliceStopColon | sliceStop | sliceStep
      | sliceColon | slice =>
    exact .pure (by simp_all [Nonterminal.Written, Subscript.Written, Meanings.Written,
      Symbol.Written])
  case name => exact .bind (.trivial _) fun _ _ => .pure ⟨_, rfl⟩
  case decimal | hexadecimal | octal =>
    exact returns_integer file (h.1.2 (by rw [h.1.1]; decide))
  case string | longString => exact .bind (.trivial _) fun _ _ => .pure ⟨_, rfl⟩
  case emptyTuple | listEmpty => exact .pure (Expr.written_list.mpr (List.forall_mem_nil _))
  case paren => exact .pure (written_parenthesised.mpr h.2.1)
  case listOne | listOneComma =>
    exact .pure (Expr.written_list.mpr (List.forall_mem_singleton.mpr h.2.1))
  case listMany | listManyComma =>
    exact .pure (Expr.written_list.mpr (List.forall_mem_cons.mpr ⟨h.2.1, h.2.2.1⟩))
  case listCompFor | dictCompFor =>
    exact .pure (Expr.written_comprehension.mpr
      ⟨h.2.1, List.forall_mem_singleton.mpr h.2.2.1⟩)
  case listCompClauses | dictCompClauses =>
    exact .pure (Expr.written_comprehension.mpr
      ⟨h.2.1, List.forall_mem_cons.mpr ⟨h.2.2.1, h.2.2.2.1⟩⟩)
  case dictEmpty => exact .pure (Expr.written_dict.mpr (List.forall_mem_nil _))
  case dictOne | dictOneComma =>
    exact .pure (Expr.written_dict.mpr (List.forall_mem_singleton.mpr h.2.1))
  case dictMany | dictManyComma =>
    exact .pure (Expr.written_dict.mpr (List.forall_mem_cons.mpr ⟨h.2.1, h.2.2.1⟩))
  case entry => exact .pure (Entry.written_mk.mpr ⟨h.1, h.2.2.1⟩)
  case clausesMore =>
    exact .pure (List.forall_mem_append.mpr ⟨h.1, List.forall_mem_singleton.mpr h.2.1⟩)
  case clauseIf => exact .pure (Clause.written_guard.mpr h.2.1)
  case compFor => exact .pure (Clause.written_each.mpr ⟨h.2.1, h.2.2.2.1⟩)
  case chain => exact .pure (written_foldChain.mpr ⟨h.1, h.2.1⟩)
  case restOne => exact .pure (List.forall_mem_singleton.mpr h.2.1)
  case restMore =>
    exact .pure (List.forall_mem_append.mpr ⟨h.1, List.forall_mem_singleton.mpr h.2.2.1⟩)
  -- The other meanings hold statements and names.
  all_goals exact fun _ _ _ _ => True.intro

theorem keeps_written (file : String) :
    Keeps file Token.Short (fun s => s.Written) Meanings.Written where
  leaf _ ht := ⟨rfl, ht⟩
  nil := True.intro
  cons hv hvs := ⟨hv, hvs⟩
  action := action_written file

variable {α β : Type}

/-- A computation that has a result, whatever was noted before. -/
def Succeeds (m : Build α) : Prop := ∀ n, ∃ a n', m.run.run n = (.ok a, n')

namespace Succeeds
variable {m : Build α}

theorem pure (a : α) : Succeeds (Pure.pure a : Build α) := fun n => ⟨a, n, rfl⟩

theorem bind {Q : α → Prop} {k : α → Build β} (hm : Succeeds m) (hq : Returns m Q)
    (hk : ∀ a, Q a → Succeeds (k a)) : Succeeds (m >>= k) := by
  intro n
  obtain ⟨a, n', hrun⟩ := hm n
  rw [run_bind, hrun]
  exact hk a (hq n a n' hrun) n'

/-- Where what follows does not depend on the result. -/
theorem andThen {k : α → Build β} (hm : Succeeds m) (hk : ∀ a, Succeeds (k a)) :
    Succeeds (m >>= k) := hm.bind (.trivial m) fun a _ => hk a

theorem report (message : String) (loc : Option Location) : Succeeds (report message loc) :=
  fun _ => ⟨_, _, rfl⟩

theorem newIdentifier (name : String) (loc : Option Location) : Succeeds (newIdentifier name loc) :=
  fun _ => ⟨_, _, rfl⟩

theorem string (file : String) (t : Token) : Succeeds (string file t) := fun _ => ⟨_, _, rfl⟩

theorem quote {e : Expr} (h : e.Written) : Succeeds (quote e) := by
  obtain ⟨text, htext⟩ := h
  intro n
  refine ⟨text, n, ?_⟩
  rw [Build.quote, htext]
  rfl

theorem integer (file : String) {t : Token}
    (h : ∃ n text, decodeInteger t.text = .ok n ∧ integerText? n = some text) :
    Succeeds (integer file t) := by
  intro n
  obtain ⟨e, hrun, -⟩ := integer_written file h n
  exact ⟨e, n, hrun⟩

theorem call (loc : Option Location) (f : Expr) (as : List Argument) :
    Succeeds (call loc f as) := by
  unfold Build.call
  split
  · exact .andThen (.report _ _) fun _ => .pure _
  · exact .pure _

theorem keywordArgument (loc : Option Location) {name : Expr} (h : name.Written) (value : Expr) :
    Succeeds (keywordArgument loc name value) := by
  unfold Build.keywordArgument
  split
  · exact .pure _
  · exact .andThen (.quote h) fun _ => .andThen (.report _ _) fun _ =>
      .andThen (.newIdentifier _ _) fun _ => .pure _

theorem loadBinding (localName : Identifier) (exported : StringLiteral) :
    Succeeds (loadBinding localName exported) := by
  unfold Build.loadBinding
  split
  · exact .andThen (.report _ _) fun _ => .andThen (.newIdentifier _ _) fun _ => .pure _
  · exact .andThen (.newIdentifier _ _) fun _ => .pure _

theorem load (file : String) (loc : Option Location) (source : Token) (bs : List LoadBinding) :
    Succeeds (load file loc source bs) := by
  unfold Build.load
  split
  · exact .andThen (.report _ _) fun _ => .andThen (.string _ _) fun _ => .pure _
  · exact .andThen (.string _ _) fun _ => .pure _

theorem action (file : String) (span : Option Span) (p : Production) (vs : Meanings p.rhs)
    (h : Meanings.Written p.rhs vs) : Succeeds (action file span p vs) := by
  cases p
  case defNone | defSome | parameterMandatory | parameterOptional | parameterStar
      | parameterStarStar | dot | name =>
    exact .andThen (.newIdentifier _ _) fun _ => .pure _
  case loadSomeComma | loadSome => exact .load _ _ _ _
  case loadNoneComma | loadNone => exact .load _ _ _ []
  case loadPlain | loadAlias =>
    exact .andThen (.string _ _) fun _ => .andThen (.newIdentifier _ _) fun _ => .loadBinding _ _
  case callNone => exact .call _ _ []
  case callSome => exact .call _ _ _
  case argumentKeyword => exact .keywordArgument _ h.1 _
  case decimal | hexadecimal | octal =>
    exact .integer file (h.1.2 (by rw [h.1.1]; decide))
  case string | longString => exact .andThen (.string _ _) fun _ => .pure _
  all_goals exact .pure _

end Succeeds
end Build

mutual

/-- A tree whose numerals are short has a meaning. -/
theorem Tree.build_succeeds (file : String) : ∀ {s : Symbol} (tree : Tree s),
    (∀ t ∈ tree.tokens, t.Short) → Build.Succeeds (tree.build file)
  | _, .leaf _, _ => .pure _
  | _, .node p xs, h => by
    rw [Tree.build]
    exact .bind (Forest.build_succeeds file xs h) ((Build.keeps_written file).forest xs h) fun v hv =>
      .andThen (.action file v.2 p v.1 hv) fun _ => .pure _

theorem Forest.build_succeeds (file : String) : ∀ {ss : List Symbol} (xs : Forest ss),
    (∀ t ∈ xs.tokens, t.Short) → Build.Succeeds (xs.build file)
  | _, .nil, _ => .pure _
  | _, .cons x xs, h => by
    rw [Forest.tokens, List.forall_mem_append] at h
    rw [Forest.build]
    exact .andThen (Tree.build_succeeds file x h.1) fun _ =>
      .andThen (Forest.build_succeeds file xs h.2) fun _ => .pure _

end

end Starlark
