import Starlark.Proofs.Resolve.Order
import Starlark.Proofs.Resolve.Preceding

/-! # What a collection declares and reports

A block is collected into a new block of the arena. The names bound there come in groups, one for
each target, function and load of the block. The new block gets all of them and nothing else
changes; an occurrence is reported if its name occurs before it, within its load in any case, and
anywhere in the block if names may be bound once only.
-/
namespace Starlark

mutual

/-- What is left of a target when its lists and tuples are opened. -/
def Expr.parts : Expr → List Expr
  | .list es _ _ => Expr.partsAll es
  | e => [e]

def Expr.partsAll : List Expr → List Expr
  | [] => []
  | e :: es => e.parts ++ Expr.partsAll es

end

/-- The identifier that an expression is, if it is one. -/
def Expr.identifier? : Expr → Option Identifier
  | .ident x => some x
  | _ => none

/-- Names that are bound together: those of a target, of a function, or of a load. -/
structure Binder where
  isLoad : Bool
  names : List Identifier

def Binder.ofTarget (lhs : Expr) : Binder := ⟨false, lhs.parts.filterMap Expr.identifier?⟩

mutual

/-- The names that a statement binds in its block, through `if` and `for` but not into functions
or comprehensions. -/
def Stmt.binders : Stmt → List Binder
  | .assign lhs _ _ => [.ofTarget lhs]
  | .augmentedAssign _ lhs _ _ => [.ofTarget lhs]
  | .ifElse _ a b _ => Stmt.bindersAll a ++ Stmt.bindersAll b
  | .forLoop lhs _ b _ => .ofTarget lhs :: Stmt.bindersAll b
  | .define f _ _ _ => [⟨false, [f]⟩]
  | .load _ bs _ => [⟨true, bs.map (·.localName)⟩]
  | .expr _ _ => []
  | .returns _ _ => []
  | .flow _ _ => []

def Stmt.bindersAll : List Stmt → List Binder
  | [] => []
  | s :: ss => s.binders ++ Stmt.bindersAll ss

end

/-- The names of some groups, in order. -/
def Binder.allNames (bs : List Binder) : List String :=
  (bs.flatMap (·.names)).map (·.name)

/-- The identifiers whose name was seen or is that of an earlier one. -/
def repeats (seen : List String) (xs : List Identifier) : List Identifier :=
  (preceded xs).filterMap fun p =>
    if p.2.name ∈ seen ++ p.1.map (·.name) then some p.2 else none

def loadRepeatError (x : Identifier) : Diagnostic :=
  { message := "load statement defines '" ++ x.name ++ "' more than once", loc := x.loc }

/-- The errors of names that are bound together, after the names already seen: first the names
that a load repeats, then, in a strict block, all that are bound again. -/
def Binder.errors (strict : Bool) (seen : List String) (b : Binder) : List Diagnostic :=
  (if b.isLoad then (repeats [] b.names).map loadRepeatError else [])
    ++ (if strict then (repeats seen b.names).map fun x => readOnlyError x.name x.loc else [])

/-! ## The groups of a block are what it declares -/

theorem repeats_cons (seen : List String) (x : Identifier) (xs : List Identifier) :
    repeats seen (x :: xs) =
      (if x.name ∈ seen then [x] else []) ++ repeats (x.name :: seen) xs := by
  have hmem : ∀ (y : String) (ys : List Identifier),
      y ∈ seen ++ (x :: ys).map (·.name) ↔ y ∈ (x.name :: seen) ++ ys.map (·.name) := by
    intro y ys
    simp only [List.map_cons, List.mem_append, List.mem_cons]
    tauto
  rw [repeats, preceded_cons, List.filterMap_cons, List.filterMap_map, repeats]
  simp only [Function.comp_def, hmem, List.map_nil, List.append_nil]
  by_cases hx : x.name ∈ seen
  · simp only [if_pos hx, List.singleton_append]
  · simp only [if_neg hx, List.nil_append]

/-- The errors of a load are those of the local names that it repeats. -/
theorem repeatedLoads_eq (seen : List String) (bs : List LoadBinding) :
    repeatedLoads seen bs = (repeats seen (bs.map (·.localName))).map loadRepeatError := by
  induction bs generalizing seen with
  | nil => rfl
  | cons b bs ih =>
    rw [List.map_cons, repeats_cons, repeatedLoads, ih]
    simp only [List.contains_iff_mem]
    split
    · rfl
    · rfl

mutual

theorem Expr.boundIdentifiers_eq : ∀ e : Expr,
    e.boundIdentifiers = e.parts.filterMap Expr.identifier?
  | .list es _ _ => by
    rw [Expr.boundIdentifiers, Expr.parts, Expr.boundIdentifiersAll_eq es]
  | .ident _ => rfl
  | .int _ _ => rfl
  | .str _ => rfl
  | .dict _ _ => rfl
  | .binary _ _ _ _ => rfl
  | .unary _ _ _ => rfl
  | .conditional _ _ _ _ => rfl
  | .dot _ _ _ => rfl
  | .index _ _ _ => rfl
  | .slice _ _ _ _ _ => rfl
  | .call _ _ _ => rfl
  | .comprehension _ _ _ _ => rfl

theorem Expr.boundIdentifiersAll_eq : ∀ es : List Expr,
    Expr.boundIdentifiersAll es = (Expr.partsAll es).filterMap Expr.identifier?
  | [] => rfl
  | e :: es => by
    rw [Expr.boundIdentifiersAll, Expr.partsAll, List.filterMap_append,
      Expr.boundIdentifiers_eq e, Expr.boundIdentifiersAll_eq es]

end

/-- What is declared for names that are bound together. -/
def Binder.declared (b : Binder) : List Declared :=
  (if b.isLoad then ((repeats [] b.names).map loadRepeatError).map .noted else [])
    ++ b.names.map .bound

theorem Binder.declared_ofTarget (lhs : Expr) :
    (Binder.ofTarget lhs).declared = lhs.boundIdentifiers.map .bound := by
  rw [Expr.boundIdentifiers_eq]
  rfl

mutual

theorem Stmt.declared_eq : ∀ s : Stmt, s.declared = s.binders.flatMap Binder.declared
  | .assign lhs _ _ => by
    rw [Stmt.declared, Stmt.binders, List.flatMap_singleton, Binder.declared_ofTarget]
  | .augmentedAssign _ lhs _ _ => by
    rw [Stmt.declared, Stmt.binders, List.flatMap_singleton, Binder.declared_ofTarget]
  | .ifElse _ a b _ => by
    rw [Stmt.declared, Stmt.binders, List.flatMap_append, Stmt.declaredAll_binders a,
      Stmt.declaredAll_binders b]
  | .forLoop lhs _ b _ => by
    rw [Stmt.declared, Stmt.binders, List.flatMap_cons, Binder.declared_ofTarget,
      Stmt.declaredAll_binders b]
  | .define _ _ _ _ => rfl
  | .load _ bs _ => by
    rw [Stmt.declared, Stmt.binders, List.flatMap_singleton, repeatedLoads_eq, Binder.declared,
      if_pos rfl, List.map_map, List.map_map]
    rfl
  | .expr _ _ => rfl
  | .returns _ _ => rfl
  | .flow _ _ => rfl

theorem Stmt.declaredAll_binders : ∀ ss : List Stmt,
    Stmt.declaredAll ss = (Stmt.bindersAll ss).flatMap Binder.declared
  | [] => rfl
  | s :: ss => by
    rw [Stmt.declaredAll, Stmt.bindersAll, List.flatMap_append, Stmt.declared_eq s,
      Stmt.declaredAll_binders ss]

end

theorem Binder.identifiers_declared (b : Binder) :
    b.declared.filterMap Declared.identifier? = b.names := by
  rw [declared, List.filterMap_append, Declared.identifiers_bound]
  split
  · rw [Declared.identifiers_noted, List.nil_append]
  · rfl

/-! ## The errors of the groups -/

namespace Declared

/-- Declarations that follow others see the names of these besides. -/
theorem errors_append (strict : Bool) (seen : List String) (ds es : List Declared) :
    errors strict seen (ds ++ es) = errors strict seen ds
      ++ errors strict (seen ++ (ds.filterMap identifier?).map (·.name)) es := by
  induction ds generalizing seen with
  | nil => simp [errors]
  | cons d ds ih =>
    cases d with
    | noted d => simp [errors, ih, identifier?, List.filterMap_cons]
    | bound x =>
      have hcongr : errors strict (x.name :: (seen ++ (ds.filterMap identifier?).map (·.name))) es =
          errors strict (seen ++ x.name :: (ds.filterMap identifier?).map (·.name)) es := by
        refine errors_congr strict es fun y => ?_
        simp only [List.mem_append, List.mem_cons]
        tauto
      simp only [List.cons_append, errors, ih, hcongr, List.append_assoc, identifier?,
        List.filterMap_cons, List.map_cons]

theorem errors_noted (strict : Bool) (seen : List String) (ds : List Diagnostic) :
    errors strict seen (ds.map .noted) = ds := by
  induction ds with
  | nil => rfl
  | cons d ds ih => rw [List.map_cons, errors, ih]

theorem errors_bound (strict : Bool) (seen : List String) (xs : List Identifier) :
    errors strict seen (xs.map .bound) =
      if strict then (repeats seen xs).map fun x => readOnlyError x.name x.loc else [] := by
  induction xs generalizing seen with
  | nil => cases strict <;> rfl
  | cons x xs ih =>
    rw [List.map_cons, errors, ih, repeats_cons]
    cases strict with
    | false => rfl
    | true =>
      simp only [Bool.true_and, List.contains_iff_mem, ↓reduceIte, List.map_append]
      split
      · rfl
      · rfl

end Declared

theorem Binder.errors_declared (strict : Bool) (seen : List String) (b : Binder) :
    Declared.errors strict seen b.declared = b.errors strict seen := by
  rw [declared, Binder.errors]
  split
  · rw [Declared.errors_append, Declared.errors_noted, Declared.identifiers_noted, List.map_nil,
      List.append_nil, Declared.errors_bound]
  · exact Declared.errors_bound strict seen b.names

/-- Each group makes its errors after the names of the groups before it. -/
theorem Binder.errors_flatMap (strict : Bool) (seen : List String) (bs : List Binder) :
    Declared.errors strict seen (bs.flatMap Binder.declared) =
      (preceded bs).flatMap fun p => p.2.errors strict (seen ++ allNames p.1) := by
  induction bs generalizing seen with
  | nil => rfl
  | cons b bs ih =>
    have hseen : ∀ before : List Binder,
        seen ++ b.names.map (·.name) ++ allNames before = seen ++ allNames (b :: before) := by
      intro before
      simp only [allNames, List.flatMap_cons, List.map_append, List.append_assoc]
    have hnil : seen ++ allNames [] = seen := List.append_nil seen
    rw [List.flatMap_cons, Declared.errors_append, errors_declared, identifiers_declared, ih,
      preceded_cons, List.flatMap_cons, List.flatMap_map, hnil]
    simp only [hseen]

/-! ## The new block of the arena -/

namespace ScopeChain

/-- A chain with a new current block of some names. -/
def openedWith (chain : ScopeChain) (scope : Scope) (names : List String) : ScopeChain :=
  { chain with
    blocks := chain.blocks ++ [⟨scope, some chain.index, names⟩]
    index := chain.blocks.length }

/-- To declare a name changes the new block alone. -/
theorem declare_openedWith (chain : ScopeChain) (scope : Scope) (names : List String)
    (name : String) :
    (chain.openedWith scope names).declare name = chain.openedWith scope (names.insert name) := by
  simp [openedWith, declare, List.modify_eq_take_cons_drop]

@[simp] theorem current_openedWith (chain : ScopeChain) (scope : Scope) (names : List String) :
    (chain.openedWith scope names).current = ⟨scope, some chain.index, names⟩ := by
  simp [openedWith, current, List.getD_eq_getElem?_getD]

theorem rebinds_openedWith (chain : ScopeChain) (scope : Scope) (names : List String)
    (name : String) :
    (chain.openedWith scope names).rebinds name =
      ((scope == .global && !chain.legacy) && names.contains name) := by
  rw [rebinds, current_openedWith, Bool.and_right_comm]
  rfl

end ScopeChain

namespace Declarations

/-- One declaration into the new block: a name is put into it, and it may be reported. -/
theorem take_openedWith (chain : ScopeChain) (scope : Scope) (names : List String)
    (errors : List Diagnostic) (d : Declared) :
    ∃ names', take ⟨chain.openedWith scope names, errors⟩ d =
        ⟨chain.openedWith scope names',
          errors ++ Declared.errors (scope == .global && !chain.legacy) names [d]⟩ ∧
      ∀ x, x ∈ names' ↔ x ∈ names ∨ x ∈ ([d].filterMap Declared.identifier?).map (·.name) := by
  cases d with
  | noted e =>
    refine ⟨names, rfl, fun x => ?_⟩
    simp [Declared.identifier?]
  | bound y =>
    refine ⟨names.insert y.name, ?_, fun x => ?_⟩
    · rw [take, declare, ScopeChain.declare_openedWith, ScopeChain.rebinds_openedWith]
      simp only [Declared.errors, List.append_nil]
      split
      · rfl
      · rw [List.append_nil]
    · simp [Declared.identifier?, or_comm]

/-- Declarations into the new block put their names into it, and append their errors. -/
theorem foldl_take_openedWith (chain : ScopeChain) (scope : Scope) (names : List String)
    (errors : List Diagnostic) (ds : List Declared) :
    ∃ names', ds.foldl take ⟨chain.openedWith scope names, errors⟩ =
        ⟨chain.openedWith scope names',
          errors ++ Declared.errors (scope == .global && !chain.legacy) names ds⟩ ∧
      ∀ x, x ∈ names' ↔ x ∈ names ∨ x ∈ (ds.filterMap Declared.identifier?).map (·.name) := by
  induction ds generalizing names errors with
  | nil => exact ⟨names, by rw [Declared.errors, List.append_nil]; rfl, fun x => by simp⟩
  | cons d ds ih =>
    obtain ⟨names₁, htake, hnames₁⟩ := take_openedWith chain scope names errors d
    obtain ⟨names₂, hfold, hnames₂⟩ := ih names₁ _
    have hmem : ∀ x, x ∈ names ++ ([d].filterMap Declared.identifier?).map (·.name) ↔
        x ∈ names₁ := by
      intro x
      rw [List.mem_append, hnames₁]
    have hseen := Declared.errors_congr (scope == .global && !chain.legacy) ds hmem
    have herrors := Declared.errors_append (scope == .global && !chain.legacy) names [d] ds
    rw [List.singleton_append, hseen] at herrors
    have hidentifiers : (d :: ds).filterMap Declared.identifier? =
        [d].filterMap Declared.identifier? ++ ds.filterMap Declared.identifier? :=
      List.filterMap_append (l := [d])
    refine ⟨names₂, ?_, fun x => ?_⟩
    · rw [List.foldl_cons, htake, hfold, herrors, List.append_assoc]
    · rw [hnames₂, hnames₁, or_assoc, hidentifiers, List.map_append, List.mem_append]

/-- A block that is collected into a new block binds there exactly the names of its binding
occurrences, and nothing else changes in the arena. The errors are those of its groups in order:
for a load the occurrences of a local name that it bound before, and then, in a module block whose
names may be bound once, the occurrences of a name that the block bound before. -/
theorem collectAll_openBlock (d : Declarations) (scope : Scope) (ss : List Stmt) :
    ∃ names,
      ({ d with chain := d.chain.openBlock scope }.collectAll ss).chain =
        d.chain.openedWith scope names ∧
      (∀ x, x ∈ names ↔ ∃ b ∈ Stmt.bindersAll ss, ∃ y ∈ b.names, y.name = x) ∧
      ({ d with chain := d.chain.openBlock scope }.collectAll ss).errors = d.errors
        ++ (preceded (Stmt.bindersAll ss)).flatMap fun p =>
          p.2.errors (scope == .global && !d.chain.legacy) (Binder.allNames p.1) := by
  obtain ⟨names, hfold, hnames⟩ := foldl_take_openedWith d.chain scope [] d.errors
    (Stmt.declaredAll ss)
  have hcollect : { d with chain := d.chain.openBlock scope }.collectAll ss =
      ⟨d.chain.openedWith scope names, d.errors ++ Declared.errors
        (scope == .global && !d.chain.legacy) [] (Stmt.declaredAll ss)⟩ :=
    (collectAll_eq _ ss).trans hfold
  refine ⟨names, by rw [hcollect], fun x => ?_, ?_⟩
  · simp only [hnames, Stmt.declaredAll_binders, List.filterMap_flatMap,
      Binder.identifiers_declared, List.not_mem_nil, false_or, List.mem_map, List.mem_flatMap]
    constructor
    · rintro ⟨y, ⟨b, hb, hy⟩, rfl⟩
      exact ⟨b, hb, y, hy, rfl⟩
    · rintro ⟨b, hb, y, hy, rfl⟩
      exact ⟨y, ⟨b, hb, hy⟩, rfl⟩
  · rw [hcollect, Stmt.declaredAll_binders, Binder.errors_flatMap]
    rfl

end Declarations
end Starlark
