import Mathlib.Data.List.Infix
import Starlark.Proofs.Spelling.Edits

/-! # Rows of distances

After some characters of the first text, a row has the distances of these to every beginning of
the second text. The least entry of a row never falls from one row to the next, since every way to
edit one text into the other crosses each row; so once a row exceeds the bound, the distance does.
-/
namespace Starlark.Spelling

/-- The distances from a text to another one with some beginnings of `ds` after it. Both texts are
read backwards: the last character comes first. -/
def row (s t ds : List Char) : List Nat := ds.inits.map fun front => distance s (front.reverse ++ t)

theorem row_cons (s t : List Char) (d : Char) (ds : List Char) :
    row s t (d :: ds) = distance s t :: row s (d :: t) ds := by
  simp only [row, List.inits_cons, List.map_cons, List.map_map, List.reverse_nil, List.nil_append,
    Function.comp_def, List.reverse_cons, List.append_assoc, List.singleton_append]

theorem row_exists_cons (s t ds : List Char) :
    ∃ entries, row s t ds = distance s t :: entries := by
  cases ds with
  | nil => exact ⟨[], rfl⟩
  | cons d ds => exact ⟨_, row_cons s t d ds⟩

/-- Before the first character a row counts the characters of the second text. -/
theorem row_nil (t ds : List Char) : row [] t ds = List.range' t.length (ds.length + 1) := by
  induction ds generalizing t with
  | nil =>
    rw [row, List.inits, List.map_singleton, List.reverse_nil, List.nil_append, distance_nil_left]
    rfl
  | cons d ds ih =>
    rw [row_cons, ih, distance_nil_left, List.length_cons, List.range'_succ]
    rfl

theorem getLast?_row (s t ds : List Char) :
    (row s t ds).getLast? = some (distance s (ds.reverse ++ t)) := by
  induction ds generalizing t with
  | nil => rfl
  | cons d ds ih =>
    rw [row_cons, List.getLast?_cons, ih, Option.getD_some, List.reverse_cons, List.append_assoc,
      List.singleton_append]

theorem mem_row {s t ds : List Char} (h : t <:+ ds.reverse) : distance s t ∈ row s [] ds := by
  refine List.mem_map.mpr ⟨t.reverse, (List.mem_inits _ _).mpr ?_, ?_⟩
  · rw [← List.reverse_suffix, List.reverse_reverse]
    exact h
  · rw [List.reverse_reverse, List.append_nil]

/-- The entries of a row are found from those of the row above. -/
theorem rowFrom_row (c : Char) (s t ds : List Char) :
    distance (c :: s) t :: rowFrom c (distance (c :: s) t) ds (row s t ds) = row (c :: s) t ds := by
  induction ds generalizing t with
  | nil => rfl
  | cons d ds ih =>
    obtain ⟨entries, hentries⟩ := row_exists_cons s (d :: t) ds
    have hentry := distance_cons c d s t
    rw [row_cons, row_cons, hentries, rowFrom, ← hentry, ← hentries, ih]

theorem nextRow_row (c : Char) (s ds : List Char) :
    nextRow ds c (s.length + 1) (row s [] ds) = row (c :: s) [] ds := by
  have hfirst : s.length + 1 = distance (c :: s) [] := by
    rw [distance_nil_right, List.length_cons]
  rw [nextRow, hfirst, rowFrom_row]

/-- A row has an entry that is no greater than any one of the next row. -/
theorem exists_suffix_of_cons (c : Char) (s t : List Char) :
    ∃ t', t' <:+ t ∧ distance s t' ≤ distance (c :: s) t := by
  induction t with
  | nil =>
    refine ⟨[], List.suffix_refl [], ?_⟩
    rw [distance_nil_right, distance_nil_right]
    exact Nat.le_succ _
  | cons d t ih =>
    rw [distance_cons]
    rcases min_choice (min (distance s (d :: t) + 1) (distance (c :: s) t + 1))
      (distance s t + if c = d then 0 else 1) with h | h
    · rw [h]
      rcases min_choice (distance s (d :: t) + 1) (distance (c :: s) t + 1) with h | h
      · rw [h]
        exact ⟨d :: t, List.suffix_refl _, Nat.le_succ _⟩
      · rw [h]
        obtain ⟨t', hsuffix, hle⟩ := ih
        exact ⟨t', hsuffix.trans (List.suffix_cons d t), Nat.le_succ_of_le hle⟩
    · rw [h]
      exact ⟨t, List.suffix_cons d t, Nat.le_add_right _ _⟩

theorem exists_suffix_of_append (cs s t : List Char) :
    ∃ t', t' <:+ t ∧ distance s t' ≤ distance (cs ++ s) t := by
  induction cs generalizing t with
  | nil => exact ⟨t, List.suffix_refl t, Nat.le_refl _⟩
  | cons c cs ih =>
    obtain ⟨t', hsuffix, hle⟩ := exists_suffix_of_cons c (cs ++ s) t
    obtain ⟨t'', hsuffix', hle'⟩ := ih t'
    exact ⟨t'', hsuffix'.trans hsuffix, hle'.trans hle⟩

/-- A row that exceeds the bound is given up, and then the distance exceeds it too. -/
theorem lastRow?_row (ds : List Char) (bound : Int) (s cs : List Char) :
    lastRow? ds bound s.length (row s [] ds) cs = some (row (cs.reverse ++ s) [] ds) ∨
      lastRow? ds bound s.length (row s [] ds) cs = none ∧
        bound < distance (cs.reverse ++ s) ds.reverse := by
  induction cs generalizing s with
  | nil => exact .inl rfl
  | cons c cs ih =>
    rw [lastRow?, nextRow_row]
    split
    · have h := ih (c :: s)
      rwa [List.length_cons, ← List.singleton_append, ← List.append_assoc,
        ← List.reverse_cons] at h
    · next hall =>
      refine .inr ⟨rfl, ?_⟩
      obtain ⟨t, hsuffix, hle⟩ := exists_suffix_of_append cs.reverse (c :: s) ds.reverse
      have hentry : ¬ (distance (c :: s) t : Int) ≤ bound := by
        intro hbound
        exact hall (List.any_eq_true.mpr ⟨_, mem_row hsuffix, decide_eq_true hbound⟩)
      rw [List.reverse_cons, List.append_assoc, List.singleton_append]
      omega

/-- The difference of the lengths is no greater than the distance. -/
theorem length_sub_le_distance (s t : List Char) :
    max s.length t.length - min s.length t.length ≤ distance s t := by
  have h := (distance_isLeast s t).1.length_le
  omega

/-- The cut-off distance is the distance where that is within the bound. -/
theorem distance?_eq (s t : List Char) (bound : Int) :
    distance? s t bound = if (distance s t : Int) ≤ bound then some (distance s t) else none := by
  rw [distance?]
  split
  · next hlength =>
    have h := length_sub_le_distance s t
    rw [if_neg (by omega)]
  · have hstart : List.range (t.length + 1) = row [] [] t := by
      rw [row_nil, List.range_eq_range', List.length_nil]
    have hrows := lastRow?_row t bound [] s
    rw [List.length_nil, List.append_nil, distance_reverse] at hrows
    rw [hstart]
    rcases hrows with h | ⟨h, hbound⟩
    · rw [h]
      dsimp only
      rw [getLast?_row, List.append_nil, distance_reverse, Option.filter_some]
      simp only [decide_eq_true_eq]
    · rw [h, if_neg (Int.not_le.mpr hbound)]

/-- The cut-off distance of two texts is the least number of edits that turn one into the other,
where that is within the bound, and otherwise there is none. -/
theorem distance?_eq_least (s t : List Char) (bound : Int) :
    ∃ least, IsLeast {n | Edits n s t} least ∧
      distance? s t bound = if (least : Int) ≤ bound then some least else none :=
  ⟨distance s t, distance_isLeast s t, distance?_eq s t bound⟩

/-- The third row exceeds a bound of two, whatever comes after it. -/
example : distance? "abcd".toList "wxyz".toList 4 = some 4 ∧
    distance? "abcd".toList "wxyz".toList 2 = none := by decide

end Starlark.Spelling
