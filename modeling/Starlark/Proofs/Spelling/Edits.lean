import Mathlib.Order.Bounds.Defs
import Mathlib.Order.MinMax
import Starlark.Spelling.Distance

/-! # Edits

The edit distance as what it counts: the least number of characters to insert, delete or replace,
one after the other and anywhere in the text. Edits may be put in the order of the text, so this
is the number that is found by a recursion on the first characters.
-/
namespace Starlark.Spelling

/-- One character of a text is inserted, deleted or replaced. -/
inductive Edit : List Char → List Char → Prop
  | insert (c : Char) (s : List Char) : Edit s (c :: s)
  | delete (c : Char) (s : List Char) : Edit (c :: s) s
  | replace (c d : Char) (s : List Char) : Edit (c :: s) (d :: s)
  | later (c : Char) {s t : List Char} (h : Edit s t) : Edit (c :: s) (c :: t)

/-- A number of edits, one after the other, from one text to another. -/
inductive Edits : Nat → List Char → List Char → Prop
  | none (s : List Char) : Edits 0 s s
  | more {n : Nat} {s t u : List Char} (h : Edits n s t) (e : Edit t u) : Edits (n + 1) s u

namespace Edit
variable {s t : List Char}

theorem append_left (front : List Char) (h : Edit s t) : Edit (front ++ s) (front ++ t) := by
  induction front with
  | nil => exact h
  | cons c front ih => exact .later c ih

theorem append_right (h : Edit s t) (back : List Char) : Edit (s ++ back) (t ++ back) := by
  induction h with
  | insert c s => exact .insert c _
  | delete c s => exact .delete c _
  | replace c d s => exact .replace c d _
  | later c _ ih => exact .later c ih

theorem reverse (h : Edit s t) : Edit s.reverse t.reverse := by
  induction h with
  | insert c s =>
    have h := (Edit.insert c []).append_left s.reverse
    rwa [List.append_nil, ← List.reverse_cons] at h
  | delete c s =>
    have h := (Edit.delete c []).append_left s.reverse
    rwa [List.append_nil, ← List.reverse_cons] at h
  | replace c d s =>
    have h := (Edit.replace c d []).append_left s.reverse
    rwa [← List.reverse_cons, ← List.reverse_cons] at h
  | later c _ ih =>
    rw [List.reverse_cons, List.reverse_cons]
    exact ih.append_right [c]

/-- An edit changes the length by one at most. -/
theorem length_le (h : Edit s t) : s.length ≤ t.length + 1 ∧ t.length ≤ s.length + 1 := by
  induction h with
  | insert c s => simp only [List.length_cons]; omega
  | delete c s => simp only [List.length_cons]; omega
  | replace c d s => simp only [List.length_cons]; omega
  | later c _ ih => simp only [List.length_cons]; omega

end Edit

namespace Edits
variable {n : Nat} {s t : List Char}

theorem later (c : Char) (h : Edits n s t) : Edits n (c :: s) (c :: t) := by
  induction h with
  | none s => exact .none _
  | more _ e ih => exact .more ih (.later c e)

/-- An edit may also come first. -/
theorem first {u : List Char} (e : Edit s t) (h : Edits n t u) : Edits (n + 1) s u := by
  induction h with
  | none t => exact .more (.none s) e
  | more _ e' ih => exact .more (ih e) e'

theorem reverse (h : Edits n s t) : Edits n s.reverse t.reverse := by
  induction h with
  | none s => exact .none _
  | more _ e ih => exact .more ih e.reverse

theorem length_le (h : Edits n s t) : s.length ≤ t.length + n ∧ t.length ≤ s.length + n := by
  induction h with
  | none s => exact ⟨Nat.le_refl _, Nat.le_refl _⟩
  | more _ e ih =>
    have := e.length_le
    omega

end Edits

/-- Edits in the order of the text: each character of both texts is passed once. -/
inductive Aligned : Nat → List Char → List Char → Prop
  | nil : Aligned 0 [] []
  | keep (c : Char) {n : Nat} {s t : List Char} (h : Aligned n s t) : Aligned n (c :: s) (c :: t)
  | replace (c d : Char) {n : Nat} {s t : List Char} (h : Aligned n s t) :
      Aligned (n + 1) (c :: s) (d :: t)
  | insert (d : Char) {n : Nat} {s t : List Char} (h : Aligned n s t) : Aligned (n + 1) s (d :: t)
  | delete (c : Char) {n : Nat} {s t : List Char} (h : Aligned n s t) : Aligned (n + 1) (c :: s) t

namespace Aligned
variable {n : Nat} {s t : List Char}

theorem refl (s : List Char) : Aligned 0 s s := by
  induction s with
  | nil => exact .nil
  | cons c s ih => exact .keep c ih

theorem edits (h : Aligned n s t) : Edits n s t := by
  induction h with
  | nil => exact .none []
  | keep c _ ih => exact ih.later c
  | replace c d _ ih => exact .first (.replace c d _) (ih.later d)
  | insert d _ ih => exact .more ih (.insert d _)
  | delete c _ ih => exact .first (.delete c _) ih

/-- One more edit of the second text fits in at its place. -/
theorem edit {u : List Char} (h : Aligned n s t) (e : Edit t u) :
    ∃ m ≤ n + 1, Aligned m s u := by
  induction h generalizing u with
  | nil =>
    cases e with
    | insert c _ => exact ⟨1, Nat.le_refl 1, .insert c .nil⟩
  | keep c h ih =>
    cases e with
    | insert d _ => exact ⟨_, Nat.le_refl _, .insert d (.keep c h)⟩
    | delete _ _ => exact ⟨_, Nat.le_refl _, .delete c h⟩
    | replace _ d _ => exact ⟨_, Nat.le_refl _, .replace c d h⟩
    | later _ e =>
      obtain ⟨m, hm, h'⟩ := ih e
      exact ⟨m, hm, .keep c h'⟩
  | replace c d h ih =>
    cases e with
    | insert d' _ => exact ⟨_, Nat.le_refl _, .insert d' (.replace c d h)⟩
    | delete _ _ => exact ⟨_, Nat.le_succ _, .delete c h⟩
    | replace _ d' _ => exact ⟨_, Nat.le_succ _, .replace c d' h⟩
    | later _ e =>
      obtain ⟨m, hm, h'⟩ := ih e
      exact ⟨m + 1, Nat.succ_le_succ hm, .replace c d h'⟩
  | @insert d n s t h ih =>
    cases e with
    | insert d' _ => exact ⟨_, Nat.le_refl _, .insert d' (.insert d h)⟩
    | delete _ _ => exact ⟨n, by omega, h⟩
    | replace _ d' _ => exact ⟨_, Nat.le_succ _, .insert d' h⟩
    | later _ e =>
      obtain ⟨m, hm, h'⟩ := ih e
      exact ⟨m + 1, Nat.succ_le_succ hm, .insert d h'⟩
  | delete c _ ih =>
    obtain ⟨m, hm, h'⟩ := ih e
    exact ⟨m + 1, Nat.succ_le_succ hm, .delete c h'⟩

theorem of_edits (h : Edits n s t) : ∃ m ≤ n, Aligned m s t := by
  induction h with
  | none s => exact ⟨0, Nat.le_refl 0, .refl s⟩
  | more _ e ih =>
    obtain ⟨m, hm, h⟩ := ih
    obtain ⟨k, hk, h'⟩ := h.edit e
    exact ⟨k, by omega, h'⟩

end Aligned

/-- The edit distance, by the first characters of both texts. -/
def distance : List Char → List Char → Nat
  | [], t => t.length
  | c :: s, [] => (c :: s).length
  | c :: s, d :: t =>
    min (min (distance s (d :: t) + 1) (distance (c :: s) t + 1))
      (distance s t + if c = d then 0 else 1)
termination_by s t => s.length + t.length

theorem distance_nil_left (t : List Char) : distance [] t = t.length := by
  rw [distance]

theorem distance_nil_right (s : List Char) : distance s [] = s.length := by
  cases s with
  | nil => rw [distance]
  | cons c s => rw [distance]

theorem distance_cons (c d : Char) (s t : List Char) : distance (c :: s) (d :: t) =
    min (min (distance s (d :: t) + 1) (distance (c :: s) t + 1))
      (distance s t + if c = d then 0 else 1) := by
  rw [distance]

theorem aligned_distance (s t : List Char) : Aligned (distance s t) s t := by
  induction s generalizing t with
  | nil =>
    rw [distance_nil_left]
    induction t with
    | nil => exact .nil
    | cons d t ih => exact .insert d ih
  | cons c s ihs =>
    induction t with
    | nil =>
      have h := ihs []
      rw [distance_nil_right] at h ⊢
      exact .delete c h
    | cons d t iht =>
      rw [distance_cons]
      rcases min_choice (min (distance s (d :: t) + 1) (distance (c :: s) t + 1))
        (distance s t + if c = d then 0 else 1) with h | h
      · rw [h]
        rcases min_choice (distance s (d :: t) + 1) (distance (c :: s) t + 1) with h | h
        · rw [h]
          exact .delete c (ihs (d :: t))
        · rw [h]
          exact .insert d iht
      · rw [h]
        split
        · next heq =>
          subst heq
          exact .keep c (ihs t)
        · exact .replace c d (ihs t)

theorem Aligned.distance_le {n : Nat} {s t : List Char} (h : Aligned n s t) :
    distance s t ≤ n := by
  induction h with
  | nil => rw [distance_nil_left, List.length_nil]
  | keep c _ ih =>
    rw [distance_cons, if_pos rfl]
    omega
  | replace c d _ ih =>
    rw [distance_cons]
    split <;> omega
  | @insert d n s t h ih =>
    cases s with
    | nil =>
      rw [distance_nil_left] at ih ⊢
      exact Nat.succ_le_succ ih
    | cons c s =>
      rw [distance_cons]
      omega
  | @delete c n s t h ih =>
    cases t with
    | nil =>
      rw [distance_nil_right] at ih ⊢
      exact Nat.succ_le_succ ih
    | cons d t =>
      rw [distance_cons]
      omega

/-- The distance is the least number of edits. -/
theorem distance_isLeast (s t : List Char) : IsLeast {n | Edits n s t} (distance s t) := by
  refine ⟨(aligned_distance s t).edits, fun n h => ?_⟩
  obtain ⟨m, hm, haligned⟩ := Aligned.of_edits h
  exact haligned.distance_le.trans hm

theorem distance_reverse (s t : List Char) : distance s.reverse t.reverse = distance s t := by
  refine Nat.le_antisymm ?_ ?_
  · exact (distance_isLeast _ _).2 (distance_isLeast s t).1.reverse
  · have h := (distance_isLeast s.reverse t.reverse).1.reverse
    rw [List.reverse_reverse, List.reverse_reverse] at h
    exact (distance_isLeast s t).2 h

end Starlark.Spelling
