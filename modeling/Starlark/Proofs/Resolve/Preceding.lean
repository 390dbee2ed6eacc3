import Mathlib.Data.List.Forall2
import Mathlib.Data.List.Infix
import Starlark.Resolve.Problem

/-! # What comes before

Whether a load comes too late, or a name is bound again, depends on what comes before it. The loads
of a file are reported as soon as some other statement with a location came before, and each of
them cites the first such statement.
-/
namespace Starlark

/-- The elements of a list, each with those before it. -/
def preceded {α : Type} (xs : List α) : List (List α × α) := xs.inits.zip xs

theorem preceded_cons {α : Type} (x : α) (xs : List α) :
    preceded (x :: xs) = ([], x) :: (preceded xs).map fun p => (x :: p.1, p.2) := by
  rw [preceded, List.inits, List.zip_cons_cons, List.zip_map_left]
  rfl

/-- What comes before an element are the first elements of the list. -/
theorem prefix_of_mem_preceded {α : Type} {xs : List α} {p : List α × α} (h : p ∈ preceded xs) :
    p.1 <+: xs :=
  (List.mem_inits _ _).mp (List.of_mem_zip h).1

/-- Is a statement neither a load nor a docstring, so that no load may come after it? -/
def Stmt.endsLoads (s : Stmt) : Bool := !s.isLoad && !s.isDocstring

/-- The place of the first statement after which no load may come, among those that have one. -/
def Stmt.endOfLoads? (ss : List Stmt) : Option Location :=
  (ss.filter (·.endsLoads)).findSome? (·.loc)

theorem Stmt.endOfLoads?_cons (s : Stmt) (ss : List Stmt) :
    endOfLoads? (s :: ss) = (if s.endsLoads then s.loc else none).or (endOfLoads? ss) := by
  rw [endOfLoads?, endOfLoads?, List.filter_cons]
  split
  · rw [List.findSome?_cons]
    cases s.loc <;> rfl
  · rfl

theorem Stmt.not_endsLoads_of_isDocstring {s : Stmt} (h : s.isDocstring = true) :
    s.isLoad = false ∧ s.endsLoads = false := by
  have hl : s.isLoad = false := by
    cases s <;> first | rfl | cases h
  exact ⟨hl, by rw [endsLoads, h, Bool.not_true, Bool.and_false]⟩

/-- One statement: a load is reported if the place is known, and it may be the first to have it. -/
theorem loadOrderErrors_cons (first : Option Location) (s : Stmt) (ss : List Stmt) :
    loadOrderErrors first (s :: ss) =
      (if s.isLoad then (first.map (loadOrderError · s.loc)).toList else [])
        ++ loadOrderErrors (first.or (if s.endsLoads then s.loc else none)) ss := by
  by_cases hd : s.isDocstring = true
  · obtain ⟨hl, he⟩ := Stmt.not_endsLoads_of_isDocstring hd
    simp [loadOrderErrors, hd, hl, he]
  · have he : s.endsLoads = !s.isLoad := by simp [Stmt.endsLoads, hd]
    cases first with
    | none =>
      cases hl : s.isLoad with
      | true => simp [loadOrderErrors, hd, he, hl]
      | false => simp [loadOrderErrors, hd, he, hl]
    | some l =>
      cases hl : s.isLoad with
      | true => simp [loadOrderErrors, hd, hl]
      | false => simp [loadOrderErrors, hd, hl]

/-- The report of a load, given the statements before it. -/
def Stmt.lateLoad? (first : Option Location) (p : List Stmt × Stmt) : Option Diagnostic :=
  if p.2.isLoad then (first.or (endOfLoads? p.1)).map (loadOrderError · p.2.loc) else none

/-- The reports are those of the loads before which some statement with a location ended the
loads. -/
theorem loadOrderErrors_eq (first : Option Location) (ss : List Stmt) :
    loadOrderErrors first ss = (preceded ss).filterMap (Stmt.lateLoad? first) := by
  induction ss generalizing first with
  | nil => rfl
  | cons s ss ih =>
    have hhead : (Stmt.lateLoad? first ([], s)).toList =
        if s.isLoad then (first.map (loadOrderError · s.loc)).toList else [] := by
      have hnone : Stmt.endOfLoads? [] = none := rfl
      rw [Stmt.lateLoad?, hnone, Option.or_none]
      split <;> rfl
    have htail : ∀ p : List Stmt × Stmt, Stmt.lateLoad? first (s :: p.1, p.2) =
        Stmt.lateLoad? (first.or (if s.endsLoads then s.loc else none)) p := by
      intro p
      rw [Stmt.lateLoad?, Stmt.lateLoad?, Stmt.endOfLoads?_cons, Option.or_assoc]
    rw [loadOrderErrors_cons, ih, preceded_cons, List.filterMap_cons, List.filterMap_map, ← hhead]
    simp only [Function.comp_def, htail]
    cases Stmt.lateLoad? first ([], s) <;> rfl

/-- The loads before which a statement ended the loads, each with all that is before it. -/
def Stmt.lateLoads (ss : List Stmt) : List (List Stmt × Stmt) :=
  (preceded ss).filter fun p => p.2.isLoad && p.1.any (·.endsLoads)

/-- Is a diagnostic at the place of a late load, and does it cite the first statement that ended
the loads? -/
def Stmt.ReportedLate (p : List Stmt × Stmt) (d : Diagnostic) : Prop :=
  ∃ first l, p.1.find? (·.endsLoads) = some first ∧ first.loc = some l ∧
    d = loadOrderError l p.2.loc

/-- A list that is filtered and mapped at once follows the filtered list. -/
theorem forall₂_filter_filterMap {α β : Type} {R : α → β → Prop} {c : α → Bool}
    {f : α → Option β} {xs : List α}
    (h : ∀ x ∈ xs, (c x = true ∧ ∃ y, f x = some y ∧ R x y) ∨ (c x = false ∧ f x = none)) :
    List.Forall₂ R (xs.filter c) (xs.filterMap f) := by
  induction xs with
  | nil => exact .nil
  | cons x xs ih =>
    have ih := ih fun y hy => h y (List.mem_cons_of_mem x hy)
    rcases h x List.mem_cons_self with ⟨hc, y, hf, hR⟩ | ⟨hc, hf⟩
    · rw [List.filter_cons_of_pos hc, List.filterMap_cons_some hf]
      exact .cons hR ih
    · rw [List.filter_cons_of_neg (by simp [hc]), List.filterMap_cons_none hf]
      exact ih

/-- Where the first statement that ends the loads has a location, every late load is reported. -/
theorem loadOrderErrors_complete {ss : List Stmt}
    (located : ∀ s, ss.find? (·.endsLoads) = some s → s.loc ≠ none) :
    List.Forall₂ Stmt.ReportedLate (Stmt.lateLoads ss) (loadOrderErrors none ss) := by
  rw [loadOrderErrors_eq]
  refine forall₂_filter_filterMap fun p hp => ?_
  obtain ⟨before, s⟩ := p
  have hprefix : before <+: ss := prefix_of_mem_preceded hp
  dsimp only
  cases hl : s.isLoad with
  | false => exact .inr ⟨rfl, by simp [Stmt.lateLoad?, hl]⟩
  | true =>
    cases hfind : before.find? (·.endsLoads) with
    | none =>
      have hnone : before.filter (·.endsLoads) = [] := by
        rw [List.filter_eq_nil_iff]
        exact List.find?_eq_none.mp hfind
      refine .inr ⟨?_, ?_⟩
      · rw [Bool.true_and, List.any_eq_false]
        exact List.find?_eq_none.mp hfind
      · simp [Stmt.lateLoad?, hl, Stmt.endOfLoads?, hnone]
    | some first =>
      have hfirst : ss.find? (·.endsLoads) = some first := hprefix.find?_eq_some hfind
      obtain ⟨l, hloc⟩ := Option.ne_none_iff_exists'.mp (located first hfirst)
      have hend : Stmt.endOfLoads? before = some l := by
        obtain ⟨he, as, bs, rfl, has⟩ := List.find?_eq_some_iff_append.mp hfind
        have hnone : as.filter (·.endsLoads) = [] := by
          rw [List.filter_eq_nil_iff]
          simpa using has
        simp [Stmt.endOfLoads?, List.filter_append, hnone, he, hloc]
      refine .inl ⟨?_, loadOrderError l s.loc, ?_, first, l, hfind, hloc, rfl⟩
      · rw [Bool.true_and, List.any_eq_true]
        exact ⟨first, List.mem_of_find?_eq_some hfind, List.find?_some hfind⟩
      · simp [Stmt.lateLoad?, hl, hend]

end Starlark
