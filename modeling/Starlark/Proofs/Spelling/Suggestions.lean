import Starlark.Proofs.Spelling.Candidates
import Starlark.Proofs.Spelling.Rows

/-! # The suggestion is the nearest candidate

A candidate may be suggested if it is another name within the limit of the word. The one that is
suggested has the least distance of all, and is the first in code point order of those that share
it.
-/
namespace Starlark.Spelling

/-- The distance of two words, without regard to case. -/
def apart (word x : String) : Nat := distance (Text.lower word).toList (Text.lower x).toList

theorem apart_isLeast (word x : String) :
    IsLeast {n | Edits n (Text.lower word).toList (Text.lower x).toList} (apart word x) :=
  distance_isLeast _ _

/-- Is a name near enough to a word, and another one? -/
def IsNear (word x : String) : Prop := x ≠ word ∧ apart word x ≤ min 5 ((word.length + 1) / 2)

instance (word x : String) : Decidable (IsNear word x) :=
  inferInstanceAs (Decidable (_ ∧ _))

theorem near?_eq (word x : String) :
    near? word x = if IsNear word x then some (apart word x, x) else none := by
  have hlimit : (apart word x : Int) ≤ limit word ↔
      apart word x ≤ min 5 ((word.length + 1) / 2) := Int.ofNat_le
  rw [near?, distance?_eq]
  by_cases hx : x = word
  · rw [if_pos hx, if_neg fun h => h.1 hx]
  · rw [if_neg hx, ← apart]
    by_cases hle : apart word x ≤ min 5 ((word.length + 1) / 2)
    · rw [if_pos (hlimit.mpr hle), if_pos ⟨hx, hle⟩, Option.map_some]
    · rw [if_neg fun h => hle (hlimit.mp h), if_neg fun h => hle h.2, Option.map_none]

/-- The distances of the candidates that may be suggested. -/
theorem mem_near {word : String} {candidates : List String} {a : Nat × String} :
    a ∈ candidates.filterMap (near? word) ↔
      a.2 ∈ candidates ∧ IsNear word a.2 ∧ a.1 = apart word a.2 := by
  rw [List.mem_filterMap]
  constructor
  · rintro ⟨x, hx, h⟩
    rw [near?_eq] at h
    split at h
    · next hnear =>
      cases h
      exact ⟨hx, hnear, rfl⟩
    · cases h
  · rintro ⟨hx, hnear, ha⟩
    exact ⟨a.2, hx, by rw [near?_eq, if_pos hnear, ← ha]⟩

/-- A candidate within the limit of a word, nearer to it than all others but the word itself, or as
near as some of them and the first of these in code point order. -/
structure Nearest (word : String) (candidates : List String) (x : String) : Prop where
  mem : x ∈ candidates
  near : IsNear word x
  least : ∀ y ∈ candidates, y ≠ word →
    apart word x < apart word y ∨ apart word x = apart word y ∧ x ≤ y

theorem Nearest.unique {word : String} {candidates : List String} {x y : String}
    (hx : Nearest word candidates x) (hy : Nearest word candidates y) : x = y := by
  have hxy : Precedes (apart word x, x) (apart word y, y) := hx.least y hy.mem hy.near.1
  have hyx : Precedes (apart word y, y) (apart word x, x) := hy.least x hx.mem hx.near.1
  exact congrArg Prod.snd (hxy.antisymm hyx)

theorem nearest_of_suggest? {word : String} {candidates : List String} {x : String}
    (h : suggest? word candidates = some x) : Nearest word candidates x := by
  obtain ⟨m, hm, rfl⟩ := Option.map_eq_some_iff.mp h
  obtain ⟨hmem, hle⟩ := nearest?_spec hm
  obtain ⟨hx, hnear, hdistance⟩ := mem_near.mp hmem
  refine ⟨hx, hnear, fun y hy hne => ?_⟩
  by_cases hnearY : IsNear word y
  · have h := hle (apart word y, y) (mem_near.mpr ⟨hy, hnearY, rfl⟩)
    rwa [Precedes, hdistance] at h
  · have hfar : ¬ apart word y ≤ min 5 ((word.length + 1) / 2) := fun h => hnearY ⟨hne, h⟩
    exact .inl (hnear.2.trans_lt (Nat.lt_of_not_le hfar))

/-- Nothing is suggested exactly if every candidate but the word itself is too far away. -/
theorem suggest?_eq_none_iff (word : String) (candidates : List String) :
    suggest? word candidates = none ↔
      ∀ x ∈ candidates, x ≠ word → ¬ apart word x ≤ min 5 ((word.length + 1) / 2) := by
  constructor
  · intro h x hx hne hle
    have hnone := nearest?_eq_none (Option.map_eq_none_iff.mp h)
    have hmem : (apart word x, x) ∈ candidates.filterMap (near? word) :=
      mem_near.mpr ⟨hx, ⟨hne, hle⟩, rfl⟩
    rw [hnone] at hmem
    cases hmem
  · intro h
    cases hs : suggest? word candidates with
    | none => rfl
    | some x =>
      have hx := nearest_of_suggest? hs
      exact absurd hx.near.2 (h x hx.mem hx.near.1)

theorem suggest?_eq_some_iff (word : String) (candidates : List String) (x : String) :
    suggest? word candidates = some x ↔ Nearest word candidates x := by
  constructor
  · exact nearest_of_suggest?
  · intro hx
    cases hs : suggest? word candidates with
    | none =>
      exact absurd hx.near.2 ((suggest?_eq_none_iff word candidates).mp hs x hx.mem hx.near.1)
    | some y => rw [(nearest_of_suggest? hs).unique hx]

/-- Of two names one edit away, the first in code point order is suggested. -/
example : suggest? "lenn" ["lens", "Len", "lenn", "length"] = some "Len" := by decide +kernel

end Starlark.Spelling
