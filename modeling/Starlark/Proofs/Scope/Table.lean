import Starlark.Scope.Table

/-! # Recording tags

A list of tags that agrees with a function from numbers to scopes can be recorded into a table
that agrees with the same function, and the table then holds exactly what it held and the list.
-/
namespace Starlark

namespace ScopeTable

/-- Records some tags in order, up to the first fault. -/
def recordAll (t : ScopeTable) (xs : List (Identifier × Scope)) : Except Fault ScopeTable :=
  xs.foldlM (fun t p => t.record p.1 p.2) t

theorem recordAll_append_ok {t u : ScopeTable} {xs : List (Identifier × Scope)}
    (h : t.recordAll xs = .ok u) (ys : List (Identifier × Scope)) :
    t.recordAll (xs ++ ys) = u.recordAll ys := by
  rw [recordAll] at h
  simp only [recordAll, List.foldlM_append, h]
  rfl

theorem recordAll_append_error {t : ScopeTable} {xs : List (Identifier × Scope)} {fault : Fault}
    (h : t.recordAll xs = .error fault) (ys : List (Identifier × Scope)) :
    t.recordAll (xs ++ ys) = .error fault := by
  rw [recordAll] at h
  simp only [recordAll, List.foldlM_append, h]
  rfl

theorem recordAll_cons {t u : ScopeTable} {p : Identifier × Scope}
    (h : t.record p.1 p.2 = .ok u) (xs : List (Identifier × Scope)) :
    t.recordAll (p :: xs) = u.recordAll xs := by
  simp only [recordAll, List.foldlM_cons, h]
  rfl

theorem recordAll_singleton (t : ScopeTable) (x : Identifier) (scope : Scope) :
    t.recordAll [(x, scope)] = t.record x scope := by
  rw [recordAll, List.foldlM_cons]
  cases t.record x scope with
  | ok u => rfl
  | error fault => rfl

/-- To repeat tags changes nothing. -/
theorem recordAll_same {t : ScopeTable} {xs : List (Identifier × Scope)}
    (h : ∀ p ∈ xs, t.get? p.1 = some p.2) : t.recordAll xs = .ok t := by
  induction xs with
  | nil => rfl
  | cons p xs ih =>
    have hp : t.record p.1 p.2 = .ok t := by
      simp only [record, h p List.mem_cons_self, ↓reduceIte]
    rw [recordAll_cons hp]
    exact ih fun q hq => h q (List.mem_cons_of_mem p hq)

/-- Every tag of a table is the one that a function gives. -/
def Agrees (t : ScopeTable) (g : Nat → Option Scope) : Prop :=
  ∀ x s, t.get? x = some s → g x.id = some s

/-- A table with some tags besides. -/
def Extends (t u : ScopeTable) (xs : List (Identifier × Scope)) : Prop :=
  ∀ x s, u.get? x = some s ↔ t.get? x = some s ∨ ∃ p ∈ xs, p.1.id = x.id ∧ p.2 = s

theorem agrees_empty (g : Nat → Option Scope) : empty.Agrees g := by
  intro x s h
  cases h

/-- A tag that is recorded is in the table besides what it held. -/
theorem extends_of_record {t u : ScopeTable} {x : Identifier} {scope : Scope}
    (h : t.record x scope = .ok u) : t.Extends u [(x, scope)] := by
  intro y s
  simp only [List.mem_singleton, exists_eq_left]
  rw [record] at h
  cases hget : t.get? x with
  | none =>
    simp only [hget] at h
    cases h
    have hget' : get? ⟨(x.id, scope) :: t.tags⟩ y =
        if y.id = x.id then some scope else t.get? y := by
      simp only [get?, List.lookup_cons]
      by_cases hy : y.id = x.id
      · simp only [hy, beq_self_eq_true, ↓reduceIte]
      · simp only [beq_false_of_ne hy, hy, ↓reduceIte]
    rw [hget']
    by_cases hy : y.id = x.id
    · have hnone : t.get? y = none := by rwa [get?, hy]
      simp [hy, hnone]
    · simp [hy, Ne.symm hy]
  | some previous =>
    simp only [hget] at h
    split at h
    · next heq =>
      cases h
      constructor
      · exact Or.inl
      · rintro (hy | ⟨hid, rfl⟩)
        · exact hy
        · rw [get?, ← hid]
          exact heq ▸ hget
    · cases h

theorem Extends.trans {t u v : ScopeTable} {xs ys : List (Identifier × Scope)}
    (h : t.Extends u xs) (h' : u.Extends v ys) : t.Extends v (xs ++ ys) := by
  intro x s
  rw [h' x s, h x s, or_assoc]
  simp only [List.mem_append, or_and_right, exists_or]

/-- Tags that are recorded are in the table besides what it held. -/
theorem extends_of_recordAll {t u : ScopeTable} {xs : List (Identifier × Scope)}
    (h : t.recordAll xs = .ok u) : t.Extends u xs := by
  induction xs generalizing t with
  | nil =>
    cases h
    exact fun x s => by simp
  | cons p xs ih =>
    cases hp : t.record p.1 p.2 with
    | error fault =>
      rw [recordAll, List.foldlM_cons, hp] at h
      cases h
    | ok v =>
      rw [recordAll_cons hp] at h
      exact (extends_of_record hp).trans (ih h)

/-- One tag that agrees with the function can be recorded. -/
theorem Agrees.record {t : ScopeTable} {g : Nat → Option Scope} (ht : t.Agrees g)
    {x : Identifier} {scope : Scope} (hx : g x.id = some scope) :
    ∃ u, t.record x scope = .ok u ∧ u.Agrees g := by
  have hok : ∃ u, t.record x scope = .ok u := by
    cases hget : t.get? x with
    | none => exact ⟨⟨(x.id, scope) :: t.tags⟩, by simp only [ScopeTable.record, hget]⟩
    | some previous =>
      have hp : previous = scope := Option.some.inj ((ht x previous hget).symm.trans hx)
      exact ⟨t, by simp only [ScopeTable.record, hget, hp, ↓reduceIte]⟩
  obtain ⟨u, hu⟩ := hok
  refine ⟨u, hu, fun y s hy => ?_⟩
  rcases (extends_of_record hu y s).mp hy with hy | ⟨p, hp, hid, rfl⟩
  · exact ht y s hy
  · rw [List.mem_singleton.mp hp] at hid ⊢
    rw [← hid, hx]

/-- Tags that agree with the function can all be recorded. -/
theorem Agrees.recordAll {t : ScopeTable} {g : Nat → Option Scope} (ht : t.Agrees g)
    {xs : List (Identifier × Scope)} (hxs : ∀ p ∈ xs, g p.1.id = some p.2) :
    ∃ u, t.recordAll xs = .ok u ∧ u.Agrees g ∧ t.Extends u xs := by
  have hok : ∃ u, t.recordAll xs = .ok u ∧ u.Agrees g := by
    induction xs generalizing t with
    | nil => exact ⟨t, rfl, ht⟩
    | cons p xs ih =>
      obtain ⟨u, hu, hagrees⟩ := ht.record (hxs p List.mem_cons_self)
      obtain ⟨v, hv, hv'⟩ := ih hagrees fun q hq => hxs q (List.mem_cons_of_mem p hq)
      exact ⟨v, (recordAll_cons hu xs).trans hv, hv'⟩
  obtain ⟨u, hu, hagrees⟩ := hok
  exact ⟨u, hu, hagrees, extends_of_recordAll hu⟩

end ScopeTable
end Starlark
