import Starlark.Resolve.Binding
import Starlark.Proofs.Scope.Stack

/-! # What a block declares

Collecting a block meets its binding occurrences and the errors of its loads in one fixed order.
The list of them determines both the names of the block and what is reported: at module level
every binding occurrence of a name that was bound before, elsewhere only the errors of the loads.
-/
namespace Starlark

/-- A binding occurrence, or an error that does not depend on what was bound before. -/
inductive Declared
  | bound (x : Identifier)
  | noted (d : Diagnostic)

namespace Declared

def identifier? : Declared → Option Identifier
  | .bound x => some x
  | .noted _ => none

def note? : Declared → Option Diagnostic
  | .bound _ => none
  | .noted d => some d

theorem identifiers_bound (xs : List Identifier) : (xs.map bound).filterMap identifier? = xs := by
  simp [List.filterMap_map, Function.comp_def, identifier?]

theorem identifiers_noted (ds : List Diagnostic) : (ds.map noted).filterMap identifier? = [] := by
  simp [List.filterMap_map, Function.comp_def, identifier?]

/-- The errors of a collection: in a strict block also the repeated bindings of a name. -/
def errors (strict : Bool) (seen : List String) : List Declared → List Diagnostic
  | [] => []
  | .noted d :: ds => d :: errors strict seen ds
  | .bound x :: ds =>
    (if strict && seen.contains x.name then [readOnlyError x.name x.loc] else [])
      ++ errors strict (x.name :: seen) ds

theorem errors_lenient (seen : List String) (ds : List Declared) :
    errors false seen ds = ds.filterMap note? := by
  induction ds generalizing seen with
  | nil => rfl
  | cons d ds ih => cases d <;> simp [errors, note?, ih, List.filterMap_cons]

end Declared

mutual

/-- What a statement declares in its block, through `if` and `for` but not into functions. -/
def Stmt.declared : Stmt → List Declared
  | .assign lhs _ _ => lhs.boundIdentifiers.map .bound
  | .augmentedAssign _ lhs _ _ => lhs.boundIdentifiers.map .bound
  | .ifElse _ a b _ => Stmt.declaredAll a ++ Stmt.declaredAll b
  | .forLoop lhs _ b _ => lhs.boundIdentifiers.map .bound ++ Stmt.declaredAll b
  | .define f _ _ _ => [.bound f]
  | .load _ bs _ => (repeatedLoads [] bs).map .noted ++ bs.map fun b => .bound b.localName
  | .expr _ _ => []
  | .returns _ _ => []
  | .flow _ _ => []

def Stmt.declaredAll : List Stmt → List Declared
  | [] => []
  | s :: ss => s.declared ++ Stmt.declaredAll ss

end

/-- The binding occurrences of a block. -/
def Stmt.bindings (ss : List Stmt) : List Identifier :=
  (Stmt.declaredAll ss).filterMap Declared.identifier?

def Parameter.bindings (ps : List Parameter) : List Identifier := ps.filterMap (·.identifier)

/-- The binding occurrences of the `for` clauses of a comprehension. -/
def Clause.bindings : List Clause → List Identifier
  | [] => []
  | .each vars _ _ :: cs => vars.boundIdentifiers ++ Clause.bindings cs
  | .guard _ _ :: cs => Clause.bindings cs

namespace Declarations

def take (d : Declarations) : Declared → Declarations
  | .bound x => d.declare x.name x.loc
  | .noted e => d.report [e]

theorem foldl_take_bound (d : Declarations) (xs : List Identifier) :
    (xs.map .bound).foldl take d = d.declareAll xs := by
  rw [List.foldl_map]
  rfl

theorem foldl_take_noted (d : Declarations) (es : List Diagnostic) :
    (es.map .noted).foldl take d = d.report es := by
  induction es generalizing d with
  | nil => simp [report]
  | cons e es ih =>
    simp only [List.map_cons, List.foldl_cons, ih, take, report, List.append_assoc,
      List.singleton_append]

mutual

/-- Collecting a statement is taking what it declares, one by one. -/
theorem collect_eq (d : Declarations) : ∀ s : Stmt, d.collect s = s.declared.foldl take d
  | .assign lhs _ _ => (foldl_take_bound d lhs.boundIdentifiers).symm
  | .augmentedAssign _ lhs _ _ => (foldl_take_bound d lhs.boundIdentifiers).symm
  | .ifElse _ a b _ => by
    simp only [collect, Stmt.declared, List.foldl_append, collectAll_eq _ a, collectAll_eq _ b]
  | .forLoop lhs _ b _ => by
    simp only [collect, Stmt.declared, List.foldl_append, foldl_take_bound, collectAll_eq _ b]
    rfl
  | .define _ _ _ _ => rfl
  | .load _ bs _ => by
    rw [collect, Stmt.declared, List.foldl_append, foldl_take_noted, ← foldl_take_bound,
      List.map_map]
    rfl
  | .expr _ _ => rfl
  | .returns _ _ => rfl
  | .flow _ _ => rfl

theorem collectAll_eq (d : Declarations) :
    ∀ ss : List Stmt, d.collectAll ss = (Stmt.declaredAll ss).foldl take d
  | [] => rfl
  | s :: ss => by
    simp only [collectAll, Stmt.declaredAll, List.foldl_append, collect_eq d s,
      collectAll_eq _ ss]

end

theorem collectClauses_eq (d : Declarations) (cs : List Clause) :
    d.collectClauses cs = ((Clause.bindings cs).map .bound).foldl take d := by
  rw [collectClauses]
  induction cs generalizing d with
  | nil => rfl
  | cons c cs ih =>
    cases c with
    | each vars _ _ =>
      simp only [List.foldl_cons, Clause.bindings, List.map_append, List.foldl_append,
        foldl_take_bound, ih]
      rfl
    | guard _ _ => exact ih d

/-- A collection that shows the given frames on top of which it works. -/
structure Shows (d : Declarations) (frames : List Frame) (legacy : Bool) : Prop where
  chain : d.chain.Shows frames
  legacy_eq : d.chain.legacy = legacy

/-- Does a collection report repeated bindings in this frame? -/
def isStrict (f : Frame) (legacy : Bool) : Bool := f.scope == .global && !legacy

theorem Shows.take_bound {d : Declarations} {f : Frame} {fs : List Frame} {legacy : Bool}
    (h : d.Shows (f :: fs) legacy) (x : Identifier) :
    (d.take (.bound x)).Shows (⟨f.scope, x.name :: f.names⟩ :: fs) legacy ∧
      (d.take (.bound x)).errors =
        d.errors ++ Declared.errors (isStrict f legacy) f.names [.bound x] := by
  refine ⟨⟨h.chain.declare x.name, h.legacy_eq⟩, ?_⟩
  have hb : d.chain.rebinds x.name = (isStrict f legacy && f.names.contains x.name) := by
    rw [Bool.eq_iff_iff, h.chain.rebinds_iff, h.legacy_eq]
    simp only [isStrict, Bool.and_eq_true, beq_iff_eq, Bool.not_eq_eq_eq_not, Bool.not_true,
      List.contains_iff_mem]
    exact ⟨fun ⟨hs, hn, hl⟩ => ⟨⟨hs, hl⟩, hn⟩, fun ⟨⟨hs, hl⟩, hn⟩ => ⟨hs, hn, hl⟩⟩
  simp only [take, declare, hb, Declared.errors]
  split <;> simp

/-- Taking declarations puts their names into the innermost frame and appends their errors. -/
theorem Shows.foldl_take {d : Declarations} {f : Frame} {fs : List Frame} {legacy : Bool}
    (h : d.Shows (f :: fs) legacy) (ds : List Declared) :
    (ds.foldl take d).Shows
        (⟨f.scope, (ds.filterMap Declared.identifier?).reverse.map (·.name) ++ f.names⟩ :: fs)
        legacy ∧
      (ds.foldl take d).errors =
        d.errors ++ Declared.errors (isStrict f legacy) f.names ds := by
  induction ds generalizing d f with
  | nil => exact ⟨h, by simp [Declared.errors]⟩
  | cons x ds ih =>
    cases x with
    | bound x =>
      obtain ⟨hs, he⟩ := h.take_bound x
      obtain ⟨ihs, ihe⟩ := ih hs
      refine ⟨by simpa [Declared.identifier?] using ihs, ?_⟩
      rw [List.foldl_cons, ihe, he]
      simp only [Declared.errors, isStrict, List.append_assoc, List.nil_append]
    | noted e =>
      have hs : (d.take (.noted e)).Shows (f :: fs) legacy := ⟨h.chain, h.legacy_eq⟩
      obtain ⟨ihs, ihe⟩ := ih hs
      refine ⟨by simpa [Declared.identifier?, List.filterMap_cons] using ihs, ?_⟩
      rw [List.foldl_cons, ihe]
      simp [take, report, Declared.errors]

end Declarations
end Starlark
