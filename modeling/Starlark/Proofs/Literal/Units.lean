import Mathlib.Data.Bool.AllAny
import Mathlib.Data.Nat.Digits.Lemmas
import Starlark.Proofs.Literal.Quoted

/-! # Units of a string body

Which units there are, and what follows each of them, leaves one way only to split a body. The
units have their meanings one by one, and all that is reported is an error for each unsupported
unit and a note for each unknown one.
-/
namespace Starlark

/-- The escapes that stand for another character, or for themselves. -/
def simpleMeanings : List (Char × Char) :=
  [('n', '\n'), ('r', '\r'), ('t', '\t'), ('\\', '\\'), ('\'', '\''), ('"', '"')]

def octalDigits : List Char := ['0', '1', '2', '3', '4', '5', '6', '7']

def unsupportedEscapes : List Char := ['a', 'b', 'f', 'N', 'u', 'U', 'v', 'x']

namespace Piece

/-- Is this a unit of a body that goes on with the rest? A backslash stands alone only at the very
end, and an octal escape takes fewer than three digits only where no other one follows. -/
inductive Fits : Piece → List Char → Prop
  | plain {c : Char} {rest : List Char} (h : c ≠ '\\') : Fits (.plain c) rest
  | lone : Fits (.plain '\\') []
  | joined {rest : List Char} : Fits .joined rest
  | simple {c : Char} {rest : List Char} (h : c ∈ simpleMeanings.map Prod.fst) :
    Fits (.simple c) rest
  | octal {ds rest : List Char} (digits : ∀ d ∈ ds, d ∈ octalDigits)
    (length : 1 ≤ ds.length ∧ ds.length ≤ 3)
    (greedy : ds.length < 3 → ∀ c ∈ rest.head?, c ∉ octalDigits) : Fits (.octal ds) rest
  | unsupported {c : Char} {rest : List Char} (h : c ∈ unsupportedEscapes) :
    Fits (.unsupported c) rest
  | unknown {c : Char} {rest : List Char} (line : c ≠ '\n')
    (simple : c ∉ simpleMeanings.map Prod.fst) (octal : c ∉ octalDigits)
    (unsupported : c ∉ unsupportedEscapes) : Fits (.unknown c) rest

/-- Is a body made of these units? -/
inductive Splits : List Char → List Piece → Prop
  | nil : Splits [] []
  | cons {x : Piece} {rest : List Char} {xs : List Piece} (fits : x.Fits rest)
    (splits : Splits rest xs) : Splits (x.source ++ rest) (x :: xs)

/-- What a unit stands for. -/
inductive Means : Piece → List Char → Prop
  | plain (c : Char) : Means (.plain c) [c]
  | joined : Means .joined []
  | simple {c d : Char} (h : (c, d) ∈ simpleMeanings) : Means (.simple c) [d]
  | octal {ds : List Char} {c : Char}
    (h : c.toNat = Nat.ofDigits 8 (ds.reverse.map fun d => d.toNat - '0'.toNat)) :
    Means (.octal ds) [c]
  | unsupported (c : Char) : Means (.unsupported c) ['\\', c]
  | unknown (c : Char) : Means (.unknown c) ['\\', c]

theorem isOctal_iff (c : Char) : isOctal c = true ↔ c ∈ octalDigits := by
  constructor
  · intro h
    have hbounds : '0' ≤ c ∧ c ≤ '7' := by simpa [isOctal] using h
    have hlow : 48 ≤ c.toNat := hbounds.1
    have hhigh : c.toNat ≤ 55 := hbounds.2
    have hc := Char.ofNat_toNat c
    interval_cases c.toNat
    all_goals
      rw [← hc]
      decide
  · intro h
    have hall : octalDigits.all isOctal = true := by decide
    exact List.all_eq_true.mp hall c h

theorem isOctal_eq_false {c : Char} (h : c ∉ octalDigits) : isOctal c = false :=
  Bool.eq_false_iff.mpr fun hc => h ((isOctal_iff c).mp hc)

theorem isSome_simpleValue? (c : Char) :
    (simpleValue? c).isSome ↔ c ∈ simpleMeanings.map Prod.fst := by
  unfold simpleValue?
  split
  all_goals simp_all [simpleMeanings]

/-- An escape that is not octal takes one character. -/
theorem source_ofEscaped (c : Char) : (ofEscaped c).source = ['\\', c] := by
  unfold ofEscaped
  split
  · next h =>
    subst h
    rfl
  · split
    · rfl
    · split <;> rfl

theorem fits_ofEscaped {c : Char} (h : c ∉ octalDigits) (rest : List Char) :
    (ofEscaped c).Fits rest := by
  unfold ofEscaped
  split
  · exact .joined
  · next hline =>
    split
    · next hsimple => exact .simple ((isSome_simpleValue? c).mp hsimple)
    · next hsimple =>
      rw [isSome_simpleValue?] at hsimple
      split
      · next hunsupported => exact .unsupported (of_decide_eq_true hunsupported)
      · next hunsupported =>
        exact .unknown hline hsimple h fun hc => hunsupported (decide_eq_true hc)

/-- A unit is split off by itself, and then the rest is split. -/
theorem Fits.split_eq {x : Piece} {rest : List Char} (h : x.Fits rest) :
    split (x.source ++ rest) = x :: split rest := by
  cases h with
  | plain hc => exact split_plain hc rest
  | lone => rfl
  | joined => exact split_escape rfl rest
  | @simple c _ hc =>
    have hall : ∀ c ∈ simpleMeanings.map Prod.fst, isOctal c = false ∧ ofEscaped c = .simple c :=
      List.all_iff_forall_prop.mp (by decide)
    rw [source, List.cons_append, List.singleton_append, split_escape (hall c hc).1, (hall c hc).2]
  | @unsupported c _ hc =>
    have hall : ∀ c ∈ unsupportedEscapes, isOctal c = false ∧ ofEscaped c = .unsupported c :=
      List.all_iff_forall_prop.mp (by decide)
    rw [source, List.cons_append, List.singleton_append, split_escape (hall c hc).1, (hall c hc).2]
  | @unknown c _ hline hsimple hoctal hunsupported =>
    have hc : ofEscaped c = .unknown c := by
      rw [ofEscaped, if_neg hline, if_neg fun h => hsimple ((isSome_simpleValue? c).mp h),
        if_neg fun h : isUnsupported c = true => hunsupported (of_decide_eq_true h)]
    rw [source, List.cons_append, List.singleton_append, split_escape (isOctal_eq_false hoctal), hc]
  | @octal ds _ hdigits hlength hgreedy =>
    have hoctal : ∀ d ∈ ds, isOctal d = true := fun d hd => (isOctal_iff d).mpr (hdigits d hd)
    have hnext : ds.length < 3 → ∀ c ∈ rest.head?, isOctal c = false :=
      fun h c hc => isOctal_eq_false (hgreedy h c hc)
    rw [source]
    match ds, hlength with
    | [a], _ =>
      rw [split.eq_def]
      cases rest with
      | nil => simp_all [split.eq_def []]
      | cons c rest => simp_all
    | [a, b], _ =>
      rw [split.eq_def]
      cases rest with
      | nil => simp_all [split.eq_def []]
      | cons c rest => simp_all
    | [a, b, c], _ =>
      rw [split.eq_def]
      simp_all

theorem Fits.splits {x : Piece} {rest : List Char} (h : x.Fits rest)
    (hrest : Splits rest (split rest)) :
    Splits (x.source ++ rest) (split (x.source ++ rest)) := by
  rw [h.split_eq]
  exact .cons h hrest

theorem fits_octal (ds : List Char) {rest : List Char} (hdigits : ∀ d ∈ ds, isOctal d = true)
    (hlength : 1 ≤ ds.length ∧ ds.length ≤ 3)
    (hgreedy : ds.length < 3 → ∀ c ∈ rest.head?, ¬ isOctal c = true) : (octal ds).Fits rest := by
  simp only [isOctal_iff] at hdigits hgreedy
  exact .octal hdigits hlength hgreedy

/-- Every body is made of the units that it is split into. -/
theorem splits_split (body : List Char) : Splits body (split body) := by
  induction body using split.induct with
  | case1 => exact .nil
  | case2 c hc => exact (fits_octal [c] (by simp [hc]) (by simp) (by simp)).splits .nil
  | case3 c hc d hd =>
    exact (fits_octal [c, d] (by simp [hc, hd]) (by simp) (by simp)).splits .nil
  | case4 c hc d hd e rest he ih =>
    exact (fits_octal [c, d, e] (by simp [hc, hd, he]) (by simp) (by simp)).splits ih
  | case5 c hc d hd e rest he ih =>
    exact (fits_octal [c, d] (by simp [hc, hd]) (by simp) (by simp [he])).splits ih
  | case6 c hc d rest hd ih =>
    exact (fits_octal [c] (by simp [hc]) (by simp) (by simp [hd])).splits ih
  | case7 c rest hc ih =>
    have hfits := fits_ofEscaped (fun h => hc ((isOctal_iff c).mpr h)) rest
    have h := hfits.splits ih
    rwa [source_ofEscaped] at h
  | case8 c rest hescape ih =>
    by_cases hc : c = '\\'
    · subst hc
      cases rest with
      | nil => exact Fits.lone.splits ih
      | cons d rest => exact (hescape d rest rfl rfl).elim
    · exact (Fits.plain hc).splits ih

theorem Splits.eq_split {body : List Char} {xs : List Piece} (h : Splits body xs) :
    xs = split body := by
  induction h with
  | nil => rfl
  | cons hfits _ ih => rw [hfits.split_eq, ih]

theorem octalValue_eq (ds : List Char) :
    octalValue ds = Nat.ofDigits 8 (ds.reverse.map fun d => d.toNat - '0'.toNat) := by
  induction ds using List.reverseRecOn with
  | nil => rfl
  | append_singleton ds d ih =>
    rw [octalValue, List.foldl_append, ← octalValue, ih, List.reverse_append]
    simp [Nat.ofDigits_cons, Nat.add_comm]

/-- The value of an octal escape is that of a character. -/
theorem toNat_octalValue {ds : List Char} (hdigits : ∀ d ∈ ds, d ∈ octalDigits)
    (hlength : ds.length ≤ 3) : (Char.ofNat (octalValue ds)).toNat = octalValue ds := by
  have hdigit : ∀ d ∈ octalDigits, d.toNat - '0'.toNat < 8 :=
    List.all_iff_forall_prop.mp (by decide)
  have hlt : octalValue ds < 8 ^ 3 := by
    rw [octalValue_eq]
    refine (Nat.ofDigits_lt_base_pow_length (by decide) ?_).trans_le
      (Nat.pow_le_pow_right (by decide) ?_)
    · simpa using fun d hd => hdigit d (hdigits d hd)
    · simpa using hlength
  have hvalid : (octalValue ds).isValidChar := .inl (by omega)
  rw [Char.ofNat, dif_pos hvalid]
  rfl

theorem Fits.means {x : Piece} {rest : List Char} (h : x.Fits rest) : x.Means x.value := by
  cases h with
  | plain hc => exact .plain _
  | lone => exact .plain _
  | joined => exact .joined
  | @simple c _ hc =>
    obtain ⟨⟨_, d⟩, hmem, rfl⟩ := List.mem_map.mp hc
    have hall : ∀ m ∈ simpleMeanings, simpleValue? m.1 = some m.2 :=
      List.all_iff_forall_prop.mp (by decide)
    rw [value, hall _ hmem]
    exact .simple hmem
  | octal hdigits hlength _ =>
    exact .octal (by rw [toNat_octalValue hdigits hlength.2, octalValue_eq])
  | unsupported _ => exact .unsupported _
  | unknown _ _ _ _ => exact .unknown _

theorem Splits.means {body : List Char} {xs : List Piece} (h : Splits body xs) :
    List.Forall₂ Means xs (xs.map value) := by
  induction h with
  | nil => exact .nil
  | cons hfits _ ih => exact .cons hfits.means ih

/-- The character of an unsupported escape. -/
def unsupported? : Piece → Option Char
  | .unsupported c => some c
  | _ => none

/-- The character of an unknown escape. -/
def unknown? : Piece → Option Char
  | .unknown c => some c
  | _ => none

theorem map_snd_place (p : Point) (xs : List Piece) : (place p xs).map Prod.snd = xs := by
  induction xs generalizing p with
  | nil => rfl
  | cons x xs ih => rw [place, List.map_cons, ih]

/-- Each kind of diagnostic is made of the units of one kind, in order. -/
theorem messages_place {made : Point × Piece → Option Diagnostic} {escape? : Piece → Option Char}
    {message : Char → String}
    (hmade : ∀ p x, (made (p, x)).map (·.message) = (escape? x).map message) (p : Point)
    (xs : List Piece) :
    ((place p xs).filterMap made).map (·.message) = (xs.filterMap escape?).map message := by
  have hmade' : ∀ q : Point × Piece, (made q).map (·.message) = ((escape? q.2).map message) :=
    fun q => hmade q.1 q.2
  rw [List.map_filterMap, List.map_filterMap, funext hmade']
  have hpieces := map_snd_place p xs
  conv_rhs => rw [← hpieces]
  rw [List.filterMap_map]
  rfl

end Piece

/-- A token without a raw mark: its body between three quotes, or between single ones where the
first is not one of three. -/
inductive StringToken.Quotes (body : List Char) : List Char → Prop
  | long {q : Char} (quote : q = '"' ∨ q = '\'') : Quotes body ([q, q, q] ++ body ++ [q, q, q])
  | short {q : Char} (quote : q = '"' ∨ q = '\'') (single : ¬ [q, q] <+: body ++ [q]) :
    Quotes body (q :: (body ++ [q]))

theorem StringToken.Quotes.ofText_eq {body text : List Char} (h : Quotes body text) :
    (ofText text).raw = false ∧ (ofText text).body = body := by
  cases h with
  | @long q hq =>
    have heq : ofText ([q, q, q] ++ body ++ [q, q, q]) = ⟨false, [q, q, q], body⟩ :=
      ofText_between hq [q, q] body (by rcases hq with rfl | rfl <;> rfl)
    rw [heq]
    exact ⟨rfl, rfl⟩
  | short hq hsingle =>
    rw [ofText_short hq hsingle]
    exact ⟨rfl, rfl⟩

/-- A token without a raw mark is decoded unit by unit. There is one way to split its body into
units; the value is what they mean, one after the other; and all that is reported is an error for
each unsupported unit and a note for each unknown one, in order. -/
theorem decodeString_units (file : String) (start : Point) (text : List Char)
    (hraw : (StringToken.ofText text).raw = false) :
    (∀ body, StringToken.Quotes body text → (StringToken.ofText text).body = body) ∧
      ∃ units, Piece.Splits (StringToken.ofText text).body units ∧
        (∀ others, Piece.Splits (StringToken.ofText text).body others → others = units) ∧
        (∃ meanings, List.Forall₂ Piece.Means units meanings ∧
          (decodeString file start text).value = meanings.flatten) ∧
        ((decodeString file start text).errors.map (·.message) =
          (units.filterMap Piece.unsupported?).map fun c =>
            "escape sequence not implemented: \\" ++ c.toString) ∧
        (decodeString file start text).events.map (·.message) =
          (units.filterMap Piece.unknown?).map fun c => "invalid escape sequence: \\" ++ c.toString
            ++ ". You can enable unknown escape sequences by passing the flag --"
            ++ "incompatible_restrict_string_escapes" ++ "=false" := by
  have hsplits := Piece.splits_split (StringToken.ofText text).body
  refine ⟨fun body h => h.ofText_eq.2, Piece.split (StringToken.ofText text).body, hsplits,
    fun others h => h.eq_split, ⟨_, hsplits.means, ?_⟩, ?_, ?_⟩
  · simp only [decodeString, hraw, Bool.false_eq_true, ↓reduceIte, List.flatMap_def]
  · simp only [decodeString, hraw, Bool.false_eq_true, ↓reduceIte]
    refine Piece.messages_place (fun p x => ?_) _ _
    cases x <;> rfl
  · simp only [decodeString, hraw, Bool.false_eq_true, ↓reduceIte]
    refine Piece.messages_place (fun p x => ?_) _ _
    cases x <;> rfl

/-- An octal escape ends before the digit eight, and the escapes around it are kept. -/
theorem decodeString_units_octal : ∃ text body, StringToken.Quotes body text ∧
    (StringToken.ofText text).raw = false ∧
    (decodeString "f.bzl" ⟨1, 1⟩ text).value = "\\dA8\\a".toList ∧
    ∃ units, units.length = 4 ∧ Piece.Splits body units ∧
      ∀ others, Piece.Splits body others → others = units := by
  have hquotes : StringToken.Quotes "\\d\\1018\\a".toList "\"\\d\\1018\\a\"".toList :=
    .short (.inl rfl) (by decide +kernel)
  obtain ⟨hbody, units, hsplits, honly, -⟩ :=
    decodeString_units "f.bzl" ⟨1, 1⟩ "\"\\d\\1018\\a\"".toList (by decide +kernel)
  rw [hbody _ hquotes] at hsplits honly
  have hunits : units = [.unknown 'd', .octal ['1', '0', '1'], .plain '8', .unsupported 'a'] :=
    hsplits.eq_split.trans (by decide +kernel)
  have hlength : units.length = 4 := by rw [hunits]; rfl
  exact ⟨_, _, hquotes, by decide +kernel, by decide +kernel, units, hlength, hsplits, honly⟩

end Starlark
