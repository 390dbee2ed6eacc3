import Mathlib.Data.Bool.AllAny
import Mathlib.Tactic.IntervalCases
import Starlark.Literal.Numeral

/-! # Numerals read back

The decimal digits of a number are read as that number, unless there are too many of them. Its
hexadecimal digits are read as that number however many they are.
-/
namespace Starlark

def asciiDigits : List Char := ['0', '1', '2', '3', '4', '5', '6', '7', '8', '9']

theorem mem_asciiDigits {c : Char} (h : c.isDigit = true) : c ∈ asciiDigits := by
  rw [Char.isDigit, Bool.and_eq_true, decide_eq_true_eq, decide_eq_true_eq] at h
  have hlow : 48 ≤ c.toNat := h.1
  have hhigh : c.toNat ≤ 57 := h.2
  rw [← Char.ofNat_toNat c]
  generalize c.toNat = n at hlow hhigh
  interval_cases n <;> decide

/-- The characters of a numeral in lower case: digits, the letters among them, and the marks of
octal and hexadecimal ones. -/
def numeralChars : List Char := asciiDigits ++ ['a', 'b', 'c', 'd', 'e', 'f', 'o', 'x']

theorem mem_numeralChars {cs : List Char} (h : ∀ c ∈ cs, c ∈ asciiDigits) :
    ∀ c ∈ cs, c ∈ numeralChars :=
  fun c hc => List.mem_append_left _ (h c hc)

/-- The decimal digits of a number. -/
def decimalText (n : Nat) : List Char := Nat.toDigits 10 n

theorem decimalText_toString (n : Nat) : (toString (n : Int)).toList = decimalText n := by
  have htext : toString (n : Int) = n.repr := rfl
  rw [htext, Nat.repr_eq_ofList_toDigits, String.toList_ofList, decimalText]

theorem decimalText_digits (n : Nat) : ∀ c ∈ decimalText n, c ∈ asciiDigits :=
  fun _ hc => mem_asciiDigits (Nat.isDigit_of_mem_toDigits (by decide) (by decide) hc)

theorem decimalText_ne_nil (n : Nat) : decimalText n ≠ [] := Nat.toDigits_ne_nil

theorem Text.lowerFrom_numeral {cs : List Char} (h : ∀ c ∈ cs, c ∈ numeralChars)
    (before : List Char) : lowerFrom before cs = cs := by
  have hlower : ∀ c ∈ numeralChars, c ≠ capitalSigma ∧ c ≠ 'İ' ∧ lowerChar c = c :=
    List.all_iff_forall_prop.mp (by decide)
  induction cs generalizing before with
  | nil => rfl
  | cons c cs ih =>
    rw [List.forall_mem_cons] at h
    obtain ⟨hsigma, hdotted, hc⟩ := hlower c h.1
    rw [lowerFrom, if_neg hsigma, if_neg hdotted, hc, ih h.2]

theorem trimBlanks_numeral {cs : List Char} (h : ∀ c ∈ cs, c ∈ numeralChars) :
    trimBlanks cs = cs := by
  have hblank : ∀ c ∈ numeralChars, Text.isNumeralBlank c = false :=
    List.all_iff_forall_prop.mp (by decide)
  have hdrop : ∀ ds : List Char, (∀ c ∈ ds, c ∈ numeralChars) →
      ds.dropWhile Text.isNumeralBlank = ds := by
    intro ds hds
    cases ds with
    | nil => rfl
    | cons c ds =>
      rw [List.dropWhile_cons_of_neg]
      simp [hblank c (hds c List.mem_cons_self)]
  rw [trimBlanks, hdrop cs h, hdrop cs.reverse (by simpa using h), List.reverse_reverse]

/-- Digits without underscores have their values. -/
theorem Radix.digits?_eq_map {r : Radix} {value : Char → Nat} {cs : List Char} (hne : cs ≠ [])
    (h : ∀ c ∈ cs, c ≠ '_' ∧ r.digit? c = some (value c)) : r.digits? cs = some (cs.map value) := by
  induction cs with
  | nil => exact absurd rfl hne
  | cons c cs ih =>
    rw [List.forall_mem_cons] at h
    cases cs with
    | nil => simp [digits?, h.1.2]
    | cons d ds =>
      have hd := (h.2 d List.mem_cons_self).1
      rw [digits?.eq_4 _ _ _ (by simp) (by simpa using hd), h.1.2, ih (List.cons_ne_nil d ds) h.2]
      rfl

/-- Digits without the mark of a radix are read as they are. -/
theorem readNumeral_eq {r : Radix} {value : Char → Nat} {cs : List Char} (hne : cs ≠ [])
    (hcs : ∀ c ∈ cs, c ∈ numeralChars) (hmark : r.dropMark cs = cs)
    (h : ∀ c ∈ cs, c ≠ '_' ∧ r.digit? c = some (value c)) :
    readNumeral r cs =
      if r = .decimal ∧ maxDecimalDigits < cs.length then .error (.tooLong cs.length)
      else .ok (r.ofDigits (cs.map value)) := by
  have hsign : ∀ c ∈ numeralChars, c ≠ '-' ∧ c ≠ '+' :=
    List.all_iff_forall_prop.mp (by decide)
  rw [readNumeral, trimBlanks_numeral hcs]
  split
  rename_i negative body hbody
  split at hbody
  · exact absurd rfl (hsign '-' (hcs '-' List.mem_cons_self)).1
  · exact absurd rfl (hsign '+' (hcs '+' List.mem_cons_self)).2
  · cases hbody
    simp only [hmark, Radix.digits?_eq_map hne h, List.length_map, Bool.false_eq_true, ↓reduceIte]

/-! ## Decimal digits -/

theorem Radix.dropMark_decimal (cs : List Char) : dropMark .decimal cs = cs := by
  unfold dropMark
  split
  · rw [if_neg]
    simp [mark?]
  · rfl

theorem readNumeral_digits {cs : List Char} (hne : cs ≠ []) (h : ∀ c ∈ cs, c ∈ asciiDigits) :
    readNumeral .decimal cs =
      if maxDecimalDigits < cs.length then .error (.tooLong cs.length)
      else .ok (Radix.ofDigits .decimal (cs.map fun c => c.toNat - '0'.toNat)) := by
  have hdigit : ∀ c ∈ asciiDigits, c ≠ '_' ∧
      Radix.decimal.digit? c = some (c.toNat - '0'.toNat) :=
    List.all_iff_forall_prop.mp (by decide)
  rw [readNumeral_eq hne (mem_numeralChars h) (Radix.dropMark_decimal cs)
    fun c hc => hdigit c (h c hc)]
  simp only [true_and]

/-- ASCII digits are read as a decimal numeral. -/
theorem decodeInteger_digits {cs : List Char} (hne : cs ≠ []) (h : ∀ c ∈ cs, c ∈ asciiDigits) :
    decodeInteger cs = readNumeral .decimal cs := by
  have hmark : ∀ c ∈ asciiDigits, c ≠ 'o' ∧ c ≠ 'x' :=
    List.all_iff_forall_prop.mp (by decide)
  have hsecond : ∀ c d ds, cs = c :: d :: ds → d ≠ 'o' ∧ d ≠ 'x' := by
    rintro c d ds rfl
    exact hmark d (h d (List.mem_cons_of_mem _ List.mem_cons_self))
  rw [decodeInteger, Text.lowerFrom_numeral (mem_numeralChars h)]
  split
  · exact absurd rfl (hsecond _ _ _ rfl).1
  · exact absurd rfl (hsecond _ _ _ rfl).2
  · rfl

/-- The digits of a number are read as that number, if there are not too many of them. -/
theorem decodeInteger_decimalText (n : Nat) :
    decodeInteger (decimalText n) =
      if n < 10 ^ maxDecimalDigits then .ok n else .error (.tooLong (decimalText n).length) := by
  have hvalue : Radix.ofDigits .decimal ((decimalText n).map fun c => c.toNat - '0'.toNat) = n := by
    rw [Radix.ofDigits, List.foldl_map]
    exact Nat.ofDigitChars_eq_foldl.symm.trans
      (Nat.ofDigitChars_toDigits (by decide) (by decide))
  have hlength : (decimalText n).length ≤ maxDecimalDigits ↔ n < 10 ^ maxDecimalDigits :=
    Nat.length_toDigits_le_iff (by decide) (by decide)
  rw [decodeInteger_digits (decimalText_ne_nil n) (decimalText_digits n),
    readNumeral_digits (decimalText_ne_nil n) (decimalText_digits n), hvalue]
  by_cases hn : n < 10 ^ maxDecimalDigits
  · rw [if_pos hn, if_neg (Nat.not_lt.mpr (hlength.mpr hn))]
  · rw [if_neg hn, if_pos (Nat.lt_of_not_le fun hle => hn (hlength.mp hle))]

/-! ## Hexadecimal digits -/

/-- The hexadecimal digits of a number. -/
def hexadecimalText (n : Nat) : List Char := Nat.toDigits 16 n

def hexadecimalDigits : List Char := asciiDigits ++ ['a', 'b', 'c', 'd', 'e', 'f']

theorem hexadecimalText_ne_nil (n : Nat) : hexadecimalText n ≠ [] := Nat.toDigits_ne_nil

/-- The value of a character as a hexadecimal digit. -/
def hexadecimalValue (c : Char) : Nat := (Radix.hexadecimal.digit? c).getD 0

theorem digitChar_hexadecimal : ∀ d < 16,
    Nat.digitChar d ∈ hexadecimalDigits ∧ hexadecimalValue (Nat.digitChar d) = d := by
  decide

theorem hexadecimalText_digits (n : Nat) : ∀ c ∈ hexadecimalText n, c ∈ hexadecimalDigits := by
  induction n using Nat.strongRecOn with
  | ind n ih =>
    rw [hexadecimalText, Nat.toDigits_eq_if (by decide)]
    split
    · next hsmall => exact List.forall_mem_singleton.mpr (digitChar_hexadecimal n hsmall).1
    · rw [List.forall_mem_append, ← hexadecimalText]
      refine ⟨ih (n / 16) (by omega), List.forall_mem_singleton.mpr ?_⟩
      exact (digitChar_hexadecimal (n % 16) (Nat.mod_lt n (by decide))).1

theorem ofDigits_hexadecimalText (n : Nat) :
    Radix.hexadecimal.ofDigits ((hexadecimalText n).map hexadecimalValue) = n := by
  induction n using Nat.strongRecOn with
  | ind n ih =>
    rw [hexadecimalText, Nat.toDigits_eq_if (by decide)]
    split
    · next hsmall =>
      rw [List.map_singleton, (digitChar_hexadecimal n hsmall).2]
      exact Nat.zero_add n
    · have hrest := ih (n / 16) (by omega)
      rw [Radix.ofDigits] at hrest
      rw [List.map_append, List.map_singleton, ← hexadecimalText, Radix.ofDigits, List.foldl_append,
        hrest, (digitChar_hexadecimal (n % 16) (Nat.mod_lt n (by decide))).2]
      exact Nat.div_add_mod n 16

/-- A number in hexadecimal digits, with the mark in front. -/
def hexadecimalNumeral (n : Nat) : List Char := '0' :: 'x' :: hexadecimalText n

theorem hexadecimalText_chars (n : Nat) : ∀ c ∈ hexadecimalText n, c ∈ numeralChars := by
  have hdigit : ∀ c ∈ hexadecimalDigits, c ∈ numeralChars :=
    List.all_iff_forall_prop.mp (by decide)
  exact fun c hc => hdigit c (hexadecimalText_digits n c hc)

theorem hexadecimalNumeral_chars (n : Nat) : ∀ c ∈ hexadecimalNumeral n, c ∈ numeralChars := by
  rw [hexadecimalNumeral, List.forall_mem_cons, List.forall_mem_cons]
  exact ⟨by decide, by decide, hexadecimalText_chars n⟩

/-- A hexadecimal numeral is read as its number. -/
theorem decodeInteger_hexadecimalNumeral (n : Nat) :
    decodeInteger (hexadecimalNumeral n) = .ok n := by
  have hdigits := hexadecimalText_digits n
  have hdigit : ∀ c ∈ hexadecimalDigits, c ≠ 'x' ∧ c ≠ '_' ∧
      Radix.hexadecimal.digit? c = some (hexadecimalValue c) :=
    List.all_iff_forall_prop.mp (by decide)
  have hmark : Radix.hexadecimal.dropMark (hexadecimalText n) = hexadecimalText n := by
    unfold Radix.dropMark
    split
    · next z c cs htext =>
      have hc : c ∈ hexadecimalText n := by
        rw [htext]
        exact List.mem_cons_of_mem _ List.mem_cons_self
      rw [if_neg, ← htext]
      rintro ⟨-, hx⟩
      exact (hdigit c (hdigits c hc)).1 (Option.some.inj hx).symm
    · rfl
  have hread := readNumeral_eq (r := .hexadecimal) (hexadecimalText_ne_nil n)
    (hexadecimalText_chars n) hmark fun c hc => (hdigit c (hdigits c hc)).2
  rw [if_neg (fun h => nomatch h.1), ofDigits_hexadecimalText] at hread
  rw [decodeInteger, Text.lowerFrom_numeral (hexadecimalNumeral_chars n)]
  exact hread

/-- The number of a row of the last digit. -/
theorem hexadecimalText_replicate {k : Nat} (h : k ≠ 0) :
    hexadecimalText (16 ^ k - 1) = List.replicate k 'f' := by
  obtain ⟨k, rfl⟩ := Nat.exists_eq_succ_of_ne_zero h
  clear h
  induction k with
  | zero => rfl
  | succ k ih =>
    have hpos : 1 ≤ 16 ^ k := Nat.one_le_pow k 16 (by decide)
    have hlarge : ¬ 16 ^ (k + 1 + 1) - 1 < 16 := by
      rw [Nat.pow_succ, Nat.pow_succ]
      omega
    have hquotient : (16 ^ (k + 1 + 1) - 1) / 16 = 16 ^ (k + 1) - 1 := by
      rw [Nat.pow_succ 16 (k + 1)]
      omega
    have hremainder : (16 ^ (k + 1 + 1) - 1) % 16 = 15 := by
      rw [Nat.pow_succ 16 (k + 1), Nat.pow_succ]
      omega
    rw [hexadecimalText, Nat.toDigits_eq_if (by decide), if_neg hlarge, hquotient, hremainder,
      ← hexadecimalText, ih]
    exact List.replicate_succ'.symm

end Starlark
