import Starlark.Proofs.Scope.Table

/-! # Conflicting tags

A number may be tagged again with the scope that it has, and with no other one. So tags are
recorded only while no number comes with two scopes, those in the table included, and the tag that
cannot be recorded is the one that brings a second scope.
-/
namespace Starlark

/-- Does some number come with two scopes? -/
def Conflicting (ps : List (Nat × Scope)) : Prop := ∃ p ∈ ps, ∃ q ∈ ps, p.1 = q.1 ∧ p.2 ≠ q.2

instance (ps : List (Nat × Scope)) : Decidable (Conflicting ps) :=
  inferInstanceAs (Decidable (∃ p ∈ ps, ∃ q ∈ ps, p.1 = q.1 ∧ p.2 ≠ q.2))

theorem conflicting_congr {ps qs : List (Nat × Scope)} (h : ∀ p, p ∈ ps ↔ p ∈ qs) :
    Conflicting ps ↔ Conflicting qs := by
  simp only [Conflicting, h]

namespace ScopeTable
variable {t u : ScopeTable} {xs : List (Identifier × Scope)}

/-- The tags in a table. An entry behind another one of its number is never read. -/
def entries (t : ScopeTable) : List (Nat × Scope) :=
  t.tags.filter fun p => t.tags.lookup p.1 = some p.2

/-- The numbers and scopes of some tags. -/
def pairs (xs : List (Identifier × Scope)) : List (Nat × Scope) := xs.map fun p => (p.1.id, p.2)

theorem mem_entries {p : Nat × Scope} : p ∈ t.entries ↔ t.tags.lookup p.1 = some p.2 := by
  rw [entries, List.mem_filter, decide_eq_true_eq]
  constructor
  · exact And.right
  · intro h
    obtain ⟨before, after, htags, -⟩ := List.lookup_eq_some_iff.mp h
    have hmem : p ∈ t.tags := by
      rw [htags]
      exact List.mem_append_right before List.mem_cons_self
    exact ⟨hmem, h⟩

theorem not_conflicting_entries (t : ScopeTable) : ¬Conflicting t.entries := by
  rintro ⟨p, hp, q, hq, hid, hne⟩
  rw [mem_entries] at hp hq
  rw [hid, hq] at hp
  exact hne (Option.some.inj hp).symm

/-- A table with some tags besides has its entries and those of the tags. -/
theorem Extends.mem_entries (h : t.Extends u xs) (p : Nat × Scope) :
    p ∈ u.entries ↔ p ∈ t.entries ++ pairs xs := by
  have hx := h ⟨"", p.1, none⟩ p.2
  rw [List.mem_append, ScopeTable.mem_entries, ScopeTable.mem_entries, pairs, List.mem_map]
  refine hx.trans (or_congr_right ?_)
  simp only [Prod.ext_iff]

/-- A tag that cannot be recorded brings a second scope for its number. -/
theorem record_error {x : Identifier} {scope : Scope} {fault : Fault}
    (h : t.record x scope = .error fault) :
    ∃ previous, (x.id, previous) ∈ t.entries ∧ previous ≠ scope ∧
      fault = .retagged x.name previous scope := by
  rw [record] at h
  cases hget : t.get? x with
  | none =>
    rw [hget] at h
    cases h
  | some previous =>
    simp only [hget] at h
    by_cases hp : previous = scope
    · rw [if_pos hp] at h
      cases h
    · rw [if_neg hp] at h
      cases h
      exact ⟨previous, ScopeTable.mem_entries.mpr hget, hp, rfl⟩

/-- Tags that are recorded do not conflict, with each other or with the table. -/
theorem not_conflicting_of_recordAll (h : t.recordAll xs = .ok u) :
    ¬Conflicting (t.entries ++ pairs xs) := by
  rw [← conflicting_congr (extends_of_recordAll h).mem_entries]
  exact not_conflicting_entries u

end ScopeTable
end Starlark
