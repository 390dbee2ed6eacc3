import Starlark.Resolve.Problem

/-! # Suggestions depend on a set of candidates

The nearest candidate is the least one in the order of distance and then of code points, so
neither the order of the candidates nor their number of occurrences shows in a message.
-/
namespace Starlark
namespace Spelling

/-- Nearer, or as near and not later in code point order. -/
def Precedes (a b : Nat × String) : Prop := a.1 < b.1 ∨ a.1 = b.1 ∧ a.2 ≤ b.2

theorem precedes_refl (a : Nat × String) : Precedes a a := Or.inr ⟨rfl, String.le_refl a.2⟩

theorem Precedes.trans {a b c : Nat × String} (hab : Precedes a b) (hbc : Precedes b c) :
    Precedes a c := by
  rcases hab with h | ⟨h, hs⟩ <;> rcases hbc with k | ⟨k, ks⟩
  · exact Or.inl (Nat.lt_trans h k)
  · exact Or.inl (k ▸ h)
  · exact Or.inl (h ▸ k)
  · exact Or.inr ⟨h.trans k, String.le_trans hs ks⟩

theorem Precedes.antisymm {a b : Nat × String} (hab : Precedes a b) (hba : Precedes b a) :
    a = b := by
  rcases hab with h | ⟨h, hs⟩ <;> rcases hba with k | ⟨k, ks⟩
  · omega
  · omega
  · omega
  · exact Prod.ext h (String.le_antisymm hs ks)

theorem nearer_spec (a b : Nat × String) :
    (nearer a b = a ∨ nearer a b = b) ∧ Precedes (nearer a b) a ∧ Precedes (nearer a b) b := by
  unfold nearer
  split
  · rename_i h
    exact ⟨Or.inl rfl, precedes_refl a, h⟩
  · rename_i h
    refine ⟨Or.inr rfl, ?_, precedes_refl b⟩
    rcases Nat.lt_trichotomy a.1 b.1 with hlt | heq | hgt
    · exact absurd (Or.inl hlt) h
    · have hs : ¬ a.2 ≤ b.2 := fun hs => h (Or.inr ⟨heq, hs⟩)
      exact Or.inr ⟨heq.symm, (String.le_total b.2 a.2).resolve_right hs⟩
    · exact Or.inl hgt

theorem nearest?_spec {l : List (Nat × String)} {m : Nat × String} (h : nearest? l = some m) :
    m ∈ l ∧ ∀ a ∈ l, Precedes m a := by
  induction l generalizing m with
  | nil => cases h
  | cons a l ih =>
    simp only [nearest?] at h
    cases hl : nearest? l with
    | none =>
      simp only [hl, Option.some.injEq] at h
      subst h
      cases l with
      | nil => simp [precedes_refl]
      | cons b l =>
        simp only [nearest?] at hl
        split at hl <;> cases hl
    | some b =>
      simp only [hl, Option.some.injEq] at h
      subst h
      obtain ⟨hb, hle⟩ := ih hl
      obtain ⟨hor, hpa, hpb⟩ := nearer_spec a b
      constructor
      · rcases hor with h | h <;> rw [h]
        · exact List.mem_cons_self
        · exact List.mem_cons_of_mem a hb
      · intro c hc
        rcases List.mem_cons.mp hc with rfl | hc
        · exact hpa
        · exact hpb.trans (hle c hc)

theorem nearest?_eq_none {l : List (Nat × String)} (h : nearest? l = none) : l = [] := by
  cases l with
  | nil => rfl
  | cons a l =>
    simp only [nearest?] at h
    split at h <;> cases h

theorem nearest?_congr {l k : List (Nat × String)} (same : ∀ a, a ∈ l ↔ a ∈ k) :
    nearest? l = nearest? k := by
  cases hl : nearest? l with
  | none =>
    obtain rfl := nearest?_eq_none hl
    have hk : k = [] := List.eq_nil_iff_forall_not_mem.mpr fun a ha => by simpa using (same a).mpr ha
    rw [hk, nearest?]
  | some m =>
    obtain ⟨hm, hle⟩ := nearest?_spec hl
    cases hk : nearest? k with
    | none =>
      obtain rfl := nearest?_eq_none hk
      simpa using (same m).mp hm
    | some n =>
      obtain ⟨hn, hle'⟩ := nearest?_spec hk
      exact congrArg some ((hle n ((same n).mpr hn)).antisymm (hle' m ((same m).mp hm)))

theorem suggest?_congr (word : String) {xs ys : List String} (same : ∀ x, x ∈ xs ↔ x ∈ ys) :
    suggest? word xs = suggest? word ys := by
  rw [suggest?, suggest?, nearest?_congr]
  intro a
  simp only [List.mem_filterMap, same]

end Spelling

/-- The message for an unknown name sees its candidates as a set. -/
theorem unknownNameMessage_congr (name : String) {xs ys : List String}
    (same : ∀ x, x ∈ xs ↔ x ∈ ys) : unknownNameMessage name xs = unknownNameMessage name ys := by
  simp only [unknownNameMessage, Spelling.didYouMean, Spelling.suggest?_congr name same]

end Starlark
