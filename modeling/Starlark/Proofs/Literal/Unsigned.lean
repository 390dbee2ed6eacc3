import Starlark.Proofs.Lexer.InStep
import Starlark.Proofs.Lexer.Matched

/-! # Numerals without a sign

The minus before a number is an operator. No token of a number has one, lower case letters are no
signs, and so no integer literal is negative.
-/
namespace Starlark

namespace Text

theorem minus_lt_lowerRuns : ∀ r ∈ lowerRuns, 45 < (r.first : Int) + r.offset := by decide +kernel

theorem toLower_ne_minus : ∀ n < 0x80, n ≠ 45 → (Char.ofNat n).toLower ≠ '-' := by decide

theorem ofNat_ne_minus {n : Nat} (h : 45 < n) : Char.ofNat n ≠ '-' := by
  intro heq
  by_cases hvalid : n.isValidChar
  · rw [Char.ofNat, dif_pos hvalid] at heq
    have hvalue : n = 45 := congrArg Char.toNat heq
    omega
  · rw [Char.ofNat, dif_neg hvalid] at heq
    exact absurd heq (by decide)

theorem lowerChar_ne_minus {c : Char} (h : c ≠ '-') : lowerChar c ≠ '-' := by
  rw [lowerChar]
  split
  · next hascii =>
    have hcode : c.toNat ≠ 45 := by
      intro heq
      refine h ?_
      rw [← Char.ofNat_toNat c, heq]
    have hlower := toLower_ne_minus c.toNat hascii hcode
    rwa [Char.ofNat_toNat] at hlower
  · split
    · next r hr =>
      have hmaps := List.find?_some hr
      have hrun := minus_lt_lowerRuns r (List.mem_of_find?_eq_some hr)
      simp only [CaseRun.maps, Bool.and_eq_true, decide_eq_true_eq] at hmaps
      exact ofNat_ne_minus (by omega)
    · exact h

theorem minus_not_mem_lowerFrom {cs : List Char} (h : '-' ∉ cs) (before : List Char) :
    '-' ∉ lowerFrom before cs := by
  induction cs generalizing before with
  | nil => exact List.not_mem_nil
  | cons c cs ih =>
    rw [List.mem_cons, not_or] at h
    have htail := ih h.2 (c :: before)
    rw [lowerFrom]
    split
    · split <;> simp [htail]
    · split
      · simp [htail]
      · simp [htail, (lowerChar_ne_minus (Ne.symm h.1)).symm]

end Text

theorem mem_of_mem_trimBlanks {c : Char} {cs : List Char} (h : c ∈ trimBlanks cs) : c ∈ cs := by
  rw [trimBlanks, List.mem_reverse] at h
  have hfront := (List.dropWhile_sublist _).subset h
  rw [List.mem_reverse] at hfront
  exact (List.dropWhile_sublist _).subset hfront

theorem readNumeral_nonneg {r : Radix} {cs : List Char} {n : Int} (hcs : '-' ∉ cs)
    (h : readNumeral r cs = .ok n) : 0 ≤ n := by
  rw [readNumeral] at h
  split at h
  rename_i negative body hbody
  have hsign : negative = false := by
    split at hbody
    · next htrim =>
      have hmem : '-' ∈ trimBlanks cs := by
        rw [htrim]
        exact List.mem_cons_self
      exact absurd (mem_of_mem_trimBlanks hmem) hcs
    · cases hbody
      rfl
    · cases hbody
      rfl
  dsimp only at h
  split at h
  · cases h
  · split at h
    · cases h
    · cases h
      rw [hsign]
      exact Int.natCast_nonneg _

/-- A numeral without a sign is not negative. -/
theorem decodeInteger_nonneg {text : List Char} {n : Int} (htext : '-' ∉ text)
    (h : decodeInteger text = .ok n) : 0 ≤ n := by
  have hlower := Text.minus_not_mem_lowerFrom htext []
  rw [decodeInteger] at h
  split at h
  · next heq =>
    rw [heq] at hlower
    exact readNumeral_nonneg (fun hmem => hlower (by simp [hmem])) h
  · next heq =>
    rw [heq] at hlower
    exact readNumeral_nonneg (fun hmem => hlower (by simp [hmem])) h
  · exact readNumeral_nonneg hlower h

/-- The kinds of number token. -/
def numerals : List Terminal := [.decimal, .hexadecimal, .octal]

namespace Pattern

theorem minus_not_mem_takeWhile {p : Char → Bool} (hp : p '-' = false) (cs : List Char) :
    '-' ∉ cs.takeWhile p := by
  intro hmem
  have hminus := List.mem_takeWhile_imp hmem
  rw [hp] at hminus
  cases hminus

variable {cs text rest : List Char}

theorem minus_not_mem_decimal (h : decimal cs = some (text, rest)) : '-' ∉ text := by
  cases cs with
  | nil => cases h
  | cons c cs =>
    rw [decimal] at h
    split at h
    · next hzero =>
      cases h
      simp [hzero]
    · split at h
      · next hdigit =>
        cases h
        have hne : '-' ≠ c := by
          rintro rfl
          exact absurd hdigit (by decide)
        simp [hne, minus_not_mem_takeWhile (p := Text.isDecimal) (by decide)]
      · cases h

theorem minus_not_mem_marked {p : Char → Bool} (hp : p '-' = false) {c : Char} (hc : c ≠ '-')
    (h : (some? p cs).map (fun s => push '0' (push c s)) = some (text, rest)) : '-' ∉ text := by
  obtain ⟨⟨digits, tail⟩, hdigits, heq⟩ := Option.map_eq_some_iff.mp h
  simp only [push, Prod.mk.injEq] at heq
  obtain ⟨rfl, rfl⟩ := heq
  obtain ⟨rfl, -, -⟩ := Cursor.some?_eq_some hdigits
  simp [hc.symm, minus_not_mem_takeWhile hp]

theorem minus_not_mem_hexadecimal (h : hexadecimal cs = some (text, rest)) : '-' ∉ text := by
  rw [hexadecimal.eq_def] at h
  split at h
  · split at h
    · next hmark =>
      refine minus_not_mem_marked (p := isHexDigit) (by decide) ?_ h
      rcases hmark with rfl | rfl <;> decide
    · cases h
  · cases h

theorem minus_not_mem_octal (h : octal cs = some (text, rest)) : '-' ∉ text := by
  rw [octal.eq_def] at h
  split at h
  · split at h
    · next hmark =>
      refine minus_not_mem_marked (p := isOctalDigit) (by decide) ?_ h
      rcases hmark with rfl | rfl <;> decide
    · cases h
  · cases h

end Pattern

/-- No numeral that is read has a sign. -/
theorem Scan.minus_not_mem_of_match? {candidates : List Terminal} {kind : Terminal}
    {cs text rest : List Char} (h : match? candidates cs = some (.token kind, text, rest))
    (hkind : kind ∈ numerals) : '-' ∉ text := by
  have hword : ∀ t ∈ Terminal.name :: keywords, t ∉ numerals := by decide
  have hspelled : ∀ t ∈ Terminal.spelled, t ∉ numerals := by decide
  rcases match?_token h with ⟨rfl, -⟩ | ⟨-, ⟨-, h⟩ | ⟨-, h⟩ | ⟨rfl, -⟩ | ⟨rfl, -⟩ | ⟨-, h⟩ |
    ⟨-, -, rfl⟩ | ⟨ht, -⟩⟩
  · exact absurd hkind (by decide)
  · exact Pattern.minus_not_mem_hexadecimal h
  · exact Pattern.minus_not_mem_octal h
  · exact absurd hkind (by decide)
  · exact absurd hkind (by decide)
  · exact Pattern.minus_not_mem_decimal h
  · exact absurd hkind (hword _ (Cursor.wordKind_mem candidates text))
  · exact absurd hkind (hspelled _ (List.mem_filter.mp ht).1)

end Starlark
