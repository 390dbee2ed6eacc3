import Starlark.Proofs.Diagnostic.Wording
import Starlark.Proofs.Lexer.Places
import Starlark.Proofs.Literal.Units

/-! # Where the escapes of a token stand

The pieces of a body are placed one after the other, from the end of the opening quotes on. So what
is reported about an escape is reported at its backslash, and later pieces are reported later.
-/
namespace Starlark

namespace Piece

theorem source_ne_nil (x : Piece) : x.source ≠ [] := by
  cases x <;> exact List.cons_ne_nil _ _

theorem Splits.source_eq {body : List Char} {xs : List Piece} (h : Splits body xs) :
    xs.flatMap source = body := by
  induction h with
  | nil => rfl
  | cons _ _ ih => rw [List.flatMap_cons, ih]

theorem Splits.fits_of_mem {body : List Char} {xs : List Piece} (h : Splits body xs) {x : Piece}
    (hx : x ∈ xs) : ∃ rest, x.Fits rest := by
  induction h with
  | nil => cases hx
  | @cons y rest _ hfits _ ih =>
    rcases List.mem_cons.mp hx with rfl | hx
    · exact ⟨rest, hfits⟩
    · exact ih hx

/-- A piece is placed after the pieces before it. -/
theorem exists_of_mem_place {p : Point} {xs : List Piece} {q : Point × Piece}
    (h : q ∈ place p xs) :
    ∃ earlier later, xs = earlier ++ q.2 :: later ∧ q.1 = p.after (earlier.flatMap source) := by
  induction xs generalizing p with
  | nil => cases h
  | cons x xs ih =>
    rcases List.mem_cons.mp h with rfl | h
    · exact ⟨[], xs, rfl, rfl⟩
    · obtain ⟨earlier, later, rfl, hq⟩ := ih h
      refine ⟨x :: earlier, later, rfl, ?_⟩
      rw [hq, ← Point.after_append, List.flatMap_cons]

/-- Later pieces are placed later. -/
theorem pairwise_place (p : Point) (xs : List Piece) :
    (place p xs).Pairwise fun q r => q.1.Before r.1 := by
  induction xs generalizing p with
  | nil => exact .nil
  | cons x xs ih =>
    refine .cons (fun r hr => ?_) (ih _)
    obtain ⟨earlier, -, -, hr⟩ := exists_of_mem_place hr
    rw [hr, ← Point.after_append]
    exact p.before_after fun h => x.source_ne_nil (List.append_eq_nil_iff.mp h).1

end Piece

/-- The opening quotes of a token and its body are followed by quotes that close it. -/
theorem StringToken.exists_closing {text : List Char} (h : (ofText text).body ≠ []) :
    ∃ closing, closing ≠ [] ∧ text = (ofText text).opening ++ (ofText text).body ++ closing := by
  have htake : ∀ k n : Nat, 0 < n → (text.take (text.length - n)).drop k ≠ [] →
      ∃ closing, closing ≠ [] ∧
        text = text.take k ++ (text.take (text.length - n)).drop k ++ closing := by
    intro k n hn hbody
    have hlength : k < text.length - n := by
      have hne := List.length_pos_iff.mpr hbody
      rw [List.length_drop, List.length_take] at hne
      omega
    refine ⟨text.drop (text.length - n), ?_, ?_⟩
    · refine List.length_pos_iff.mp ?_
      rw [List.length_drop]
      omega
    · have hopening : text.take k = (text.take (text.length - n)).take k := by
        rw [List.take_take, Nat.min_eq_left hlength.le]
      rw [hopening, List.take_append_drop, List.take_append_drop]
  have hpos : ∀ (c : Prop) [Decidable c], 0 < if c then 3 else 1 := by
    intro c _
    split <;> decide
  exact htake _ _ (hpos _) h

/-- The text of a piece stands in its token where the piece is placed, and does not end it. -/
theorem StringToken.exists_of_mem_place {start : Point} {text : List Char} {q : Point × Piece}
    (hq : q ∈ Piece.place (start.after (ofText text).opening) (Piece.split (ofText text).body)) :
    ∃ front back, text = front ++ q.2.source ++ back ∧ back ≠ [] ∧ q.1 = start.after front := by
  obtain ⟨earlier, later, hpieces, hpoint⟩ := Piece.exists_of_mem_place hq
  have hbody := (Piece.splits_split (ofText text).body).source_eq
  rw [hpieces, List.flatMap_append, List.flatMap_cons] at hbody
  have hne : (ofText text).body ≠ [] := by
    intro hnil
    rw [hnil] at hbody
    have hsource := (List.append_eq_nil_iff.mp (List.append_eq_nil_iff.mp hbody).2).1
    exact q.2.source_ne_nil hsource
  obtain ⟨closing, hclosing, htext⟩ := exists_closing hne
  refine ⟨(ofText text).opening ++ earlier.flatMap Piece.source,
    later.flatMap Piece.source ++ closing, ?_, ?_, ?_⟩
  · rw [← hbody] at htext
    simpa only [List.append_assoc] using htext
  · exact fun h => hclosing (List.append_eq_nil_iff.mp h).2
  · rw [hpoint, Point.after_append]

/-- The message about an escape that the language lacks. -/
def unsupportedMessage (c : Char) : String := "escape sequence not implemented: \\" ++ c.toString

/-- The message about an escape that means nothing. -/
def unknownMessage (c : Char) : String :=
  "invalid escape sequence: \\" ++ c.toString
    ++ ". You can enable unknown escape sequences by passing the flag --"
    ++ "incompatible_restrict_string_escapes" ++ "=false"

/-- Is a diagnostic about an escape that the language lacks? -/
def Diagnostic.IsUnsupported (d : Diagnostic) : Prop :=
  "escape sequence not implemented: ".toList <+: d.message.toList

instance : DecidablePred Diagnostic.IsUnsupported := fun d =>
  inferInstanceAs (Decidable ("escape sequence not implemented: ".toList <+: d.message.toList))

/-- Does a diagnostic about an escape of a text that begins at a point stand at the backslash, and
quote the character after it in its message? Neither of them ends the text. -/
def Diagnostic.PointsInto (d : Diagnostic) (file : String) (start : Point) (text : List Char)
    (message : Char → String) : Prop :=
  ∃ front c back, text = front ++ '\\' :: c :: back ∧ back ≠ [] ∧ c ≠ '\n' ∧
    d.message = message c ∧ d.loc = (start.after front).inFile file

/-- Is a diagnostic about an earlier place than another one? -/
def Diagnostic.Precedes (d e : Diagnostic) : Prop :=
  ∃ (file : String) (p q : Point), d.loc = p.inFile file ∧ e.loc = q.inFile file ∧ p.Before q

theorem isUnsupported_unsupportedMessage (c : Char) (loc : Option Location) :
    Diagnostic.IsUnsupported { message := unsupportedMessage c, loc } := by
  unfold unsupportedMessage
  exact BeginsWith.singleton_iff.mp (.append ⟨_, List.mem_singleton_self _, by decide⟩ _)

theorem not_isUnsupported_unknownMessage (c : Char) (loc : Option Location) :
    ¬ Diagnostic.IsUnsupported { message := unknownMessage c, loc } := by
  have hfront : BeginsWith ["invalid "] (unknownMessage c) := by
    unfold unknownMessage
    exact .append (.append (.append (.append ⟨"invalid ", by decide, by decide⟩ _) _) _) _
  exact hfront.not_begins (by decide)

namespace Piece

/-- What is reported about a placed piece, be it an error or a note. -/
def diagnostic? (file : String) (q : Point × Piece) : Option Diagnostic :=
  (error? file q).or (event? file q)

theorem filter_diagnostic?_unsupported (file : String) (q : Point × Piece) :
    (diagnostic? file q).filter (·.IsUnsupported) = error? file q := by
  obtain ⟨p, x⟩ := q
  cases x with
  | unsupported c =>
    have h := decide_eq_true (isUnsupported_unsupportedMessage c (p.inFile file))
    exact Option.filter_some.trans (if_pos h)
  | unknown c =>
    have h := decide_eq_false (not_isUnsupported_unknownMessage c (p.inFile file))
    exact Option.filter_some_neg h
  | _ => rfl

theorem filter_diagnostic?_unknown (file : String) (q : Point × Piece) :
    (diagnostic? file q).filter (¬ ·.IsUnsupported) = event? file q := by
  obtain ⟨p, x⟩ := q
  cases x with
  | unsupported c =>
    have h := decide_eq_false (not_not.mpr (isUnsupported_unsupportedMessage c (p.inFile file)))
    exact Option.filter_some_neg h
  | unknown c =>
    have h := decide_eq_true (not_isUnsupported_unknownMessage c (p.inFile file))
    exact Option.filter_some.trans (if_pos h)
  | _ => rfl

/-- What is reported about a placed piece is about a character after a backslash. -/
theorem diagnostic?_eq_some {file : String} {q : Point × Piece} {d : Diagnostic}
    (h : diagnostic? file q = some d) :
    ∃ c, q.2.source = ['\\', c] ∧ (∀ rest, q.2.Fits rest → c ≠ '\n') ∧
      d.message = (if d.IsUnsupported then unsupportedMessage else unknownMessage) c ∧
      d.loc = q.1.inFile file := by
  obtain ⟨p, x⟩ := q
  cases x with
  | unsupported c =>
    have hd : { message := unsupportedMessage c, loc := p.inFile file } = d := Option.some.inj h
    have hkind := isUnsupported_unsupportedMessage c (p.inFile file)
    subst hd
    refine ⟨c, rfl, fun rest hfits => ?_, by rw [if_pos hkind], rfl⟩
    cases hfits with
    | unsupported hc => exact fun hline => absurd (hline ▸ hc) (by decide)
  | unknown c =>
    have hd : { message := unknownMessage c, loc := p.inFile file } = d := Option.some.inj h
    have hkind := not_isUnsupported_unknownMessage c (p.inFile file)
    subst hd
    refine ⟨c, rfl, fun rest hfits => ?_, by rw [if_neg hkind], rfl⟩
    cases hfits with
    | unknown hline _ _ _ => exact hline
  | _ => cases h

end Piece

/-- What is reported about a token, in the order of the escapes: its errors and its events. -/
def StringToken.reported (file : String) (start : Point) (text : List Char) : List Diagnostic :=
  let s := ofText text
  if s.raw then []
  else (Piece.place (start.after s.opening) (Piece.split s.body)).filterMap
    (Piece.diagnostic? file)

section
variable (file : String) (start : Point) (text : List Char)

theorem errors_decodeString : (decodeString file start text).errors =
    (StringToken.reported file start text).filter (·.IsUnsupported) := by
  rw [decodeString, StringToken.reported]
  split
  · rfl
  · rw [List.filter_filterMap, funext (Piece.filter_diagnostic?_unsupported file)]

theorem events_decodeString : (decodeString file start text).events =
    (StringToken.reported file start text).filter (¬ ·.IsUnsupported) := by
  rw [decodeString, StringToken.reported]
  split
  · rfl
  · rw [List.filter_filterMap, funext (Piece.filter_diagnostic?_unknown file)]

/-- What is reported about a token stands at its backslashes. -/
theorem StringToken.reported_pointsInto :
    ∀ d ∈ reported file start text, d.PointsInto file start text
      (if d.IsUnsupported then unsupportedMessage else unknownMessage) := by
  intro d hd
  rw [reported] at hd
  split at hd
  · cases hd
  · obtain ⟨q, hq, h⟩ := List.mem_filterMap.mp hd
    obtain ⟨c, hsource, hfits, hmessage, hloc⟩ := Piece.diagnostic?_eq_some h
    obtain ⟨front, back, htext, hback, hpoint⟩ := exists_of_mem_place hq
    obtain ⟨rest, hrest⟩ := (Piece.splits_split _).fits_of_mem (Piece.mem_of_mem_place hq)
    refine ⟨front, c, back, ?_, hback, hfits rest hrest, hmessage, by rw [hloc, hpoint]⟩
    rw [htext, hsource, List.append_assoc]
    rfl

/-- What is reported about a token is reported from left to right. -/
theorem StringToken.reported_pairwise :
    (reported file start text).Pairwise Diagnostic.Precedes := by
  rw [reported]
  split
  · exact .nil
  · refine List.Pairwise.filterMap _ (fun q r hqr d hd e he => ?_) (Piece.pairwise_place _ _)
    obtain ⟨-, -, -, -, hloc⟩ := Piece.diagnostic?_eq_some hd
    obtain ⟨-, -, -, -, hloc'⟩ := Piece.diagnostic?_eq_some he
    exact ⟨file, q.1, r.1, hloc, hloc', hqr⟩

end

end Starlark
