import Starlark.Proofs.Syntax.Nodes
import Starlark.Syntax.Print

/-! # Trees with the starts of their nodes

A tree with every node at the point where it starts, or where that point is moved to. Where a node
ends is left out.
-/
namespace Starlark

/-- The place that a point is moved to. -/
def Location.startAt (f : Point → Point) (l : Location) : Location := (f l.start).inFile l.file

@[simp] theorem Location.startAt_inFile (f : Point → Point) (s : Span) (file : String) :
    (s.inFile file).startAt f = (f s.start).inFile file := rfl

def Identifier.starts (f : Point → Point) (x : Identifier) : Identifier :=
  ⟨x.name, x.id, x.loc.map (·.startAt f)⟩

@[simp] theorem Identifier.name_starts (f : Point → Point) (x : Identifier) :
    (x.starts f).name = x.name := rfl

def StringLiteral.starts (f : Point → Point) (s : StringLiteral) : StringLiteral :=
  ⟨s.value, s.loc.map (·.startAt f)⟩

mutual

@[simp] def Expr.starts (f : Point → Point) : Expr → Expr
  | .ident x => .ident (x.starts f)
  | .int n l => .int n (l.map (·.startAt f))
  | .str s => .str (s.starts f)
  | .list es isTuple l => .list (Expr.startsAll f es) isTuple (l.map (·.startAt f))
  | .dict ds l => .dict (Entry.startsAll f ds) (l.map (·.startAt f))
  | .binary x op y l => .binary (x.starts f) op (y.starts f) (l.map (·.startAt f))
  | .unary op x l => .unary op (x.starts f) (l.map (·.startAt f))
  | .conditional t c e l =>
    .conditional (t.starts f) (c.starts f) (e.starts f) (l.map (·.startAt f))
  | .dot o x l => .dot (o.starts f) (x.starts f) (l.map (·.startAt f))
  | .index o k l => .index (o.starts f) (k.starts f) (l.map (·.startAt f))
  | .slice o a b c l =>
    .slice (o.starts f) (Expr.startsOpt f a) (Expr.startsOpt f b) (Expr.startsOpt f c)
      (l.map (·.startAt f))
  | .call g as l => .call (g.starts f) (Argument.startsAll f as) (l.map (·.startAt f))
  | .comprehension b cs isDict l =>
    .comprehension (b.starts f) (Clause.startsAll f cs) isDict (l.map (·.startAt f))

@[simp] def Expr.startsAll (f : Point → Point) : List Expr → List Expr
  | [] => []
  | e :: es => e.starts f :: Expr.startsAll f es

@[simp] def Expr.startsOpt (f : Point → Point) : Option Expr → Option Expr
  | none => none
  | some e => some (e.starts f)

@[simp] def Entry.starts (f : Point → Point) : Entry → Entry
  | .mk k v l => .mk (k.starts f) (v.starts f) (l.map (·.startAt f))

@[simp] def Entry.startsAll (f : Point → Point) : List Entry → List Entry
  | [] => []
  | d :: ds => d.starts f :: Entry.startsAll f ds

@[simp] def Argument.starts (f : Point → Point) : Argument → Argument
  | .mk kind v name l =>
    .mk kind (v.starts f) (name.map (Identifier.starts f)) (l.map (·.startAt f))

@[simp] def Argument.startsAll (f : Point → Point) : List Argument → List Argument
  | [] => []
  | a :: as => a.starts f :: Argument.startsAll f as

@[simp] def Clause.starts (f : Point → Point) : Clause → Clause
  | .each x e l => .each (x.starts f) (e.starts f) (l.map (·.startAt f))
  | .guard e l => .guard (e.starts f) (l.map (·.startAt f))

@[simp] def Clause.startsAll (f : Point → Point) : List Clause → List Clause
  | [] => []
  | c :: cs => c.starts f :: Clause.startsAll f cs

@[simp] def Body.starts (f : Point → Point) : Body → Body
  | .item e => .item (e.starts f)
  | .entry d => .entry (d.starts f)

end

@[simp] def Parameter.starts (f : Point → Point) (p : Parameter) : Parameter :=
  ⟨p.kind, p.identifier.map (Identifier.starts f), p.default.map (Expr.starts f),
    p.loc.map (·.startAt f)⟩

@[simp] def LoadBinding.starts (f : Point → Point) (b : LoadBinding) : LoadBinding :=
  ⟨b.localName.starts f, b.exportedName.starts f, b.loc.map (·.startAt f)⟩

mutual

@[simp] def Stmt.starts (f : Point → Point) : Stmt → Stmt
  | .expr e l => .expr (e.starts f) (l.map (·.startAt f))
  | .assign x e l => .assign (x.starts f) (e.starts f) (l.map (·.startAt f))
  | .augmentedAssign op x e l =>
    .augmentedAssign op (x.starts f) (e.starts f) (l.map (·.startAt f))
  | .ifElse c a b l =>
    .ifElse (c.starts f) (Stmt.startsAll f a) (Stmt.startsAll f b) (l.map (·.startAt f))
  | .forLoop x e b l =>
    .forLoop (x.starts f) (e.starts f) (Stmt.startsAll f b) (l.map (·.startAt f))
  | .define x ps b l =>
    .define (x.starts f) (ps.map (Parameter.starts f)) (Stmt.startsAll f b) (l.map (·.startAt f))
  | .returns e l => .returns (e.map (Expr.starts f)) (l.map (·.startAt f))
  | .flow kind l => .flow kind (l.map (·.startAt f))
  | .load s bs l => .load (s.starts f) (bs.map (LoadBinding.starts f)) (l.map (·.startAt f))

@[simp] def Stmt.startsAll (f : Point → Point) : List Stmt → List Stmt
  | [] => []
  | s :: ss => s.starts f :: Stmt.startsAll f ss

end

variable {f : Point → Point}

theorem Expr.startsAll_eq_map (es : List Expr) : startsAll f es = es.map (starts f) := by
  induction es with
  | nil => rfl
  | cons e es ih => rw [startsAll, ih, List.map_cons]

theorem Expr.startsOpt_eq_map (e : Option Expr) : startsOpt f e = e.map (starts f) := by
  cases e <;> rfl

theorem Entry.startsAll_eq_map (ds : List Entry) : startsAll f ds = ds.map (starts f) := by
  induction ds with
  | nil => rfl
  | cons d ds ih => rw [startsAll, ih, List.map_cons]

theorem Argument.startsAll_eq_map (as : List Argument) : startsAll f as = as.map (starts f) := by
  induction as with
  | nil => rfl
  | cons a as ih => rw [startsAll, ih, List.map_cons]

theorem Clause.startsAll_eq_map (cs : List Clause) : startsAll f cs = cs.map (starts f) := by
  induction cs with
  | nil => rfl
  | cons c cs ih => rw [startsAll, ih, List.map_cons]

theorem Stmt.startsAll_eq_map (ss : List Stmt) : startsAll f ss = ss.map (starts f) := by
  induction ss with
  | nil => rfl
  | cons s ss ih => rw [startsAll, ih, List.map_cons]

theorem Expr.loc_starts (e : Expr) : (e.starts f).loc = e.loc.map (·.startAt f) := by
  cases e <;> rfl

theorem Argument.kind_starts (a : Argument) : (a.starts f).kind = a.kind := by
  cases a
  rfl

theorem Expr.starts_eq_ident {e : Expr} {y : Identifier} (h : e.starts f = .ident y) :
    ∃ x, e = .ident x ∧ x.starts f = y := by
  cases e with
  | ident x => exact ⟨x, rfl, Expr.ident.inj h⟩
  | _ => cases h

mutual

/-- The text of an expression does not depend on places. -/
theorem Expr.text?_starts : ∀ e : Expr, (e.starts f).text? = e.text?
  | .ident _ | .int _ _ | .str _ => rfl
  | .list [] true _ | .list [] false _ => rfl
  | .list [e] true _ => by simp [Expr.text?, Expr.text?_starts e]
  | .list (e :: e' :: es) true _ => by
    simp [Expr.text?, Expr.texts?, Expr.text?_starts e, Expr.text?_starts e', Expr.texts?_starts es]
  | .list (e :: es) false _ => by
    simp [Expr.text?, Expr.texts?, Expr.text?_starts e, Expr.texts?_starts es]
  | .dict ds _ => by simp [Expr.text?, Entry.texts?_starts ds]
  | .binary x op y _ => by simp [Expr.text?, Expr.text?_starts x, Expr.text?_starts y]
  | .unary op x _ => by cases op <;> simp [Expr.text?, Expr.text?_starts x]
  | .conditional t c e _ => by
    simp [Expr.text?, Expr.text?_starts t, Expr.text?_starts c, Expr.text?_starts e]
  | .dot o x _ => by simp [Expr.text?, Expr.text?_starts o]
  | .index o k _ => by simp [Expr.text?, Expr.text?_starts o, Expr.text?_starts k]
  | .slice o a b none _ => by
    simp [Expr.text?, Expr.text?_starts o, Expr.textOrEmpty?_starts a, Expr.textOrEmpty?_starts b]
  | .slice o a b (some c) _ => by
    simp [Expr.text?, Expr.text?_starts o, Expr.textOrEmpty?_starts a, Expr.textOrEmpty?_starts b,
      Expr.text?_starts c]
  | .call g as _ => by simp [Expr.text?, Expr.text?_starts g, Argument.texts?_starts as]
  | .comprehension b cs true _ | .comprehension b cs false _ => by
    simp [Expr.text?, Body.text?_starts b, Clause.tailText?_starts cs]

theorem Expr.texts?_starts : ∀ es : List Expr, Expr.texts? (Expr.startsAll f es) = Expr.texts? es
  | [] => rfl
  | e :: es => by simp [Expr.texts?, Expr.text?_starts e, Expr.texts?_starts es]

theorem Expr.textOrEmpty?_starts : ∀ e : Option Expr,
    Expr.textOrEmpty? (Expr.startsOpt f e) = Expr.textOrEmpty? e
  | none => rfl
  | some e => by simp [Expr.textOrEmpty?, Expr.text?_starts e]

theorem Entry.text?_starts : ∀ d : Entry, (d.starts f).text? = d.text?
  | .mk k v _ => by simp [Entry.text?, Expr.text?_starts k, Expr.text?_starts v]

theorem Entry.texts?_starts : ∀ ds : List Entry, Entry.texts? (Entry.startsAll f ds) = Entry.texts? ds
  | [] => rfl
  | d :: ds => by simp [Entry.texts?, Entry.text?_starts d, Entry.texts?_starts ds]

theorem Argument.text?_starts : ∀ a : Argument, (a.starts f).text? = a.text?
  | .mk .positional v _ _ | .mk .star v _ _ | .mk .starStar v _ _ => by
    simp [Argument.text?, Expr.text?_starts v]
  | .mk .keyword v none _ | .mk .keyword v (some _) _ => by
    simp [Argument.text?, Expr.text?_starts v]

theorem Argument.texts?_starts : ∀ as : List Argument,
    Argument.texts? (Argument.startsAll f as) = Argument.texts? as
  | [] => rfl
  | a :: as => by simp [Argument.texts?, Argument.text?_starts a, Argument.texts?_starts as]

theorem Clause.text?_starts : ∀ c : Clause, (c.starts f).text? = c.text?
  | .each x e _ => by simp [Clause.text?, Expr.text?_starts x, Expr.text?_starts e]
  | .guard e _ => by simp [Clause.text?, Expr.text?_starts e]

theorem Clause.tailText?_starts : ∀ cs : List Clause,
    Clause.tailText? (Clause.startsAll f cs) = Clause.tailText? cs
  | [] => rfl
  | c :: cs => by simp [Clause.tailText?, Clause.text?_starts c, Clause.tailText?_starts cs]

theorem Body.text?_starts : ∀ b : Body, (b.starts f).text? = b.text?
  | .item e => by simp [Body.text?, Expr.text?_starts e]
  | .entry d => by simp [Body.text?, Entry.text?_starts d]

end

end Starlark
