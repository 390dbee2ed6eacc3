import Starlark.Grammar.Meaning
import Starlark.Proofs.Lexer.Match
import Starlark.Proofs.Parser.Fuel

/-! # Expressions without need of parentheses

A level admits the expressions that it derives as they are printed, those of its own level and
tighter ones. An expression is plain if every part of it stands where the level admits it and the
leaves can be spelled. Two expressions are equal up to places and numbers of identifiers if they
are equal once these are taken off.
-/
namespace Starlark

/-- The name is spelled as one, and is no keyword. -/
def Identifier.IsPlain (x : Identifier) : Prop :=
  Pattern.IsName x.name.toList ∧ ∀ t ∈ Scan.keywords, Scan.spelling t ≠ x.name.toList

instance (x : Identifier) : Decidable x.IsPlain :=
  inferInstanceAs (Decidable (Pattern.name x.name.toList = some (x.name.toList, []) ∧
    ∀ t ∈ Scan.keywords, Scan.spelling t ≠ x.name.toList))

/-- The level of the operand, and of the whole. -/
def UnaryOp.level : UnaryOp → Level
  | .not => .negation
  | .neg | .pos | .invert => .unary

/-- The tightest level that derives the expression as it is printed. -/
def Expr.level : Expr → Level
  | .ident _ | .int _ _ | .str _ | .list _ _ _ | .dict _ _ | .comprehension _ _ _ _ => .atom
  | .dot _ _ _ | .index _ _ _ | .slice _ _ _ _ _ | .call _ _ _ => .primary
  | .unary op _ _ => op.level
  | .binary _ op _ _ => .binary op.level
  | .conditional _ _ _ _ => .test

/-- The level derives the expression as it is printed. -/
def Level.Admits (l : Level) (e : Expr) : Prop := l.rank ≤ e.level.rank

instance (l : Level) (e : Expr) : Decidable (l.Admits e) :=
  inferInstanceAs (Decidable (l.rank ≤ e.level.rank))

def Body.isEntry : Body → Bool
  | .item _ => false
  | .entry _ => true

def Clause.isEach : Clause → Bool
  | .each _ _ _ => true
  | .guard _ _ => false

mutual

/-- Nothing in the expression needs parentheses, and all can be spelled, the integers being of a
given kind. Where every expression may stand, its level is not mentioned. -/
def Expr.Plain (ints : Int → Prop) : Expr → Prop
  | .ident x => x.IsPlain
  | .int n _ => ints n
  | .str _ => True
  | .list es _ _ => Expr.PlainAll ints es
  | .dict ds _ => Entry.PlainAll ints ds
  | .binary x op y _ =>
    ((Level.binary op.level).Admits x ∧ x.Plain ints) ∧ (op.level.operand.Admits y ∧ y.Plain ints)
  | .unary op x _ => op.level.Admits x ∧ x.Plain ints
  | .conditional t c e _ =>
    ((Level.binary .or).Admits t ∧ t.Plain ints) ∧ ((Level.binary .or).Admits c ∧ c.Plain ints) ∧
      e.Plain ints
  | .dot o f _ => (Level.primary.Admits o ∧ o.Plain ints) ∧ f.IsPlain
  | .index o k _ => (Level.primary.Admits o ∧ o.Plain ints) ∧ k.Plain ints
  | .slice o a b c _ =>
    (Level.primary.Admits o ∧ o.Plain ints) ∧ Expr.PlainOpt ints a ∧ Expr.PlainOpt ints b ∧
      Expr.PlainOpt ints c
  | .call f as _ =>
    (Level.primary.Admits f ∧ f.Plain ints) ∧ Argument.PlainAll ints as ∧
      misplacedArgument? false false false as = none
  | .comprehension b cs isDict _ =>
    (b.isEntry = isDict ∧ b.Plain ints) ∧ Clause.PlainAll ints cs ∧
      cs.head?.any Clause.isEach = true

def Expr.PlainAll (ints : Int → Prop) : List Expr → Prop
  | [] => True
  | e :: es => e.Plain ints ∧ Expr.PlainAll ints es

def Expr.PlainOpt (ints : Int → Prop) : Option Expr → Prop
  | none => True
  | some e => e.Plain ints

def Entry.Plain (ints : Int → Prop) : Entry → Prop
  | .mk k v _ => k.Plain ints ∧ v.Plain ints

def Entry.PlainAll (ints : Int → Prop) : List Entry → Prop
  | [] => True
  | d :: ds => d.Plain ints ∧ Entry.PlainAll ints ds

def Argument.Plain (ints : Int → Prop) : Argument → Prop
  | .mk kind v name _ =>
    v.Plain ints ∧ (name.isSome = true ↔ kind = .keyword) ∧ ∀ x ∈ name, x.IsPlain

def Argument.PlainAll (ints : Int → Prop) : List Argument → Prop
  | [] => True
  | a :: as => a.Plain ints ∧ Argument.PlainAll ints as

def Clause.Plain (ints : Int → Prop) : Clause → Prop
  | .each x e _ =>
    ((Level.binary .bitOr).Admits x ∧ x.Plain ints) ∧ ((Level.binary .or).Admits e ∧ e.Plain ints)
  | .guard e _ => (Level.binary .or).Admits e ∧ e.Plain ints

def Clause.PlainAll (ints : Int → Prop) : List Clause → Prop
  | [] => True
  | c :: cs => c.Plain ints ∧ Clause.PlainAll ints cs

def Body.Plain (ints : Int → Prop) : Body → Prop
  | .item e => e.Plain ints
  | .entry d => d.Plain ints

end

@[simp] def Identifier.bare (x : Identifier) : Identifier := ⟨x.name, 0, none⟩

mutual

/-- The expression without places and without numbers of identifiers. -/
@[simp] def Expr.bare : Expr → Expr
  | .ident x => .ident x.bare
  | .int n _ => .int n none
  | .str s => .str ⟨s.value, none⟩
  | .list es isTuple _ => .list (Expr.bareAll es) isTuple none
  | .dict ds _ => .dict (Entry.bareAll ds) none
  | .binary x op y _ => .binary x.bare op y.bare none
  | .unary op x _ => .unary op x.bare none
  | .conditional t c e _ => .conditional t.bare c.bare e.bare none
  | .dot o f _ => .dot o.bare f.bare none
  | .index o k _ => .index o.bare k.bare none
  | .slice o a b c _ => .slice o.bare (Expr.bareOpt a) (Expr.bareOpt b) (Expr.bareOpt c) none
  | .call f as _ => .call f.bare (Argument.bareAll as) none
  | .comprehension b cs isDict _ => .comprehension b.bare (Clause.bareAll cs) isDict none

@[simp] def Expr.bareAll : List Expr → List Expr
  | [] => []
  | e :: es => e.bare :: Expr.bareAll es

@[simp] def Expr.bareOpt : Option Expr → Option Expr
  | none => none
  | some e => some e.bare

@[simp] def Entry.bare : Entry → Entry
  | .mk k v _ => .mk k.bare v.bare none

@[simp] def Entry.bareAll : List Entry → List Entry
  | [] => []
  | d :: ds => d.bare :: Entry.bareAll ds

@[simp] def Argument.bare : Argument → Argument
  | .mk kind v name _ => .mk kind v.bare (name.map Identifier.bare) none

@[simp] def Argument.bareAll : List Argument → List Argument
  | [] => []
  | a :: as => a.bare :: Argument.bareAll as

@[simp] def Clause.bare : Clause → Clause
  | .each x e _ => .each x.bare e.bare none
  | .guard e _ => .guard e.bare none

@[simp] def Clause.bareAll : List Clause → List Clause
  | [] => []
  | c :: cs => c.bare :: Clause.bareAll cs

@[simp] def Body.bare : Body → Body
  | .item e => .item e.bare
  | .entry d => .entry d.bare

end

theorem Expr.bareAll_eq_map (es : List Expr) : bareAll es = es.map bare := by
  induction es with
  | nil => rfl
  | cons e es ih => rw [bareAll, ih, List.map_cons]

theorem Expr.bareOpt_eq_map (e : Option Expr) : bareOpt e = e.map bare := by
  cases e <;> rfl

theorem Entry.bareAll_eq_map (ds : List Entry) : bareAll ds = ds.map bare := by
  induction ds with
  | nil => rfl
  | cons d ds ih => rw [bareAll, ih, List.map_cons]

theorem Argument.bareAll_eq_map (as : List Argument) : bareAll as = as.map bare := by
  induction as with
  | nil => rfl
  | cons a as ih => rw [bareAll, ih, List.map_cons]

theorem Clause.bareAll_eq_map (cs : List Clause) : bareAll cs = cs.map bare := by
  induction cs with
  | nil => rfl
  | cons c cs ih => rw [bareAll, ih, List.map_cons]

theorem Argument.bare_kind (a : Argument) : a.bare.kind = a.kind := by
  cases a
  rfl

/-- Whether the arguments are in order depends on their kinds only. -/
theorem misplacedArgument?_bare {as bs : List Argument}
    (h : as.map Argument.bare = bs.map Argument.bare) (k s d : Bool) :
    misplacedArgument? k s d as = none ↔ misplacedArgument? k s d bs = none := by
  induction as generalizing bs k s d with
  | nil =>
    obtain rfl : bs = [] := List.map_eq_nil_iff.mp h.symm
    exact Iff.rfl
  | cons a as ih =>
    cases bs with
    | nil => cases h
    | cons b bs =>
      obtain ⟨hab, hrest⟩ := List.cons.inj h
      have hkind : a.kind = b.kind := by rw [← a.bare_kind, ← b.bare_kind, hab]
      rw [misplacedArgument?, misplacedArgument?, hkind]
      cases d with
      | true => simp
      | false =>
        cases b.kind with
        | positional => cases k <;> cases s <;> simp [ih hrest]
        | keyword => cases s <;> simp [ih hrest]
        | star => cases s <;> simp [ih hrest]
        | starStar => simp [ih hrest]

end Starlark
