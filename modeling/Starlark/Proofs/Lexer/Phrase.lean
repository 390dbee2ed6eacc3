import Starlark.Lexer.Layout
import Starlark.Proofs.Lexer.Match

/-! # Phrases

A printed text is made of marks: tokens, and blanks between them. A phrase is a sequence of marks
that is read mark by mark before whatever may follow an operand, and that closes the brackets
that it opens. Phrases are put together without being read again: what follows a phrase matters
by its first character only.
-/
namespace Starlark

/-- A token with its text, or a blank. -/
inductive Mark
  | token (kind : Terminal) (text : List Char)
  | blank

namespace Mark

/-- A word or a sign. -/
def spelled (t : Terminal) : Mark := .token t (Scan.spelling t)

def source : Mark → List Char
  | .token _ text => text
  | .blank => [' ']

def track (l : Layout) : Mark → Layout
  | .token kind _ => l.track kind
  | .blank => l

/-- A mark is read as it is before a rest. -/
def Legible : Mark → List Char → Prop
  | .token kind text, rest =>
    (text ≠ [] ∧ '\n' ∉ text ∧ kind ≠ .newline) ∧ Scan.Reads kind text rest
  | .blank, rest => Pattern.Avoids Pattern.isBlank rest

end Mark

def sources (ms : List Mark) : List Char := ms.flatMap Mark.source

@[simp] theorem sources_nil : sources [] = [] := rfl

@[simp] theorem sources_cons (m : Mark) (ms : List Mark) :
    sources (m :: ms) = m.source ++ sources ms := List.flatMap_cons

@[simp] theorem sources_append (ms ns : List Mark) :
    sources (ms ++ ns) = sources ms ++ sources ns := List.flatMap_append

/-- Each mark is read as it is before those that follow it and a rest. -/
def Legible : List Mark → List Char → Prop
  | [], _ => True
  | m :: ms, rest => m.Legible (sources ms ++ rest) ∧ Legible ms rest

theorem legible_append {ms ns : List Mark} {rest : List Char} :
    Legible (ms ++ ns) rest ↔ Legible ms (sources ns ++ rest) ∧ Legible ns rest := by
  induction ms with
  | nil => simp [Legible]
  | cons m ms ih => simp only [List.cons_append, Legible, ih, sources_append, List.append_assoc,
      and_assoc]

theorem Mark.Legible.ne_nil {m : Mark} {rest : List Char} (h : m.Legible rest) :
    m.source ≠ [] := by
  cases m with
  | token kind text => exact h.1.1
  | blank => exact List.cons_ne_nil _ _

theorem Legible.length_le {ms : List Mark} {rest : List Char} (h : Legible ms rest) :
    ms.length ≤ (sources ms).length := by
  induction ms with
  | nil => exact Nat.le_refl 0
  | cons m ms ih =>
    have hm := List.length_pos_iff.mpr h.1.ne_nil
    have hms := ih h.2
    rw [List.length_cons, sources_cons, List.length_append]
    omega

theorem Legible.not_mem {ms : List Mark} {rest : List Char} (h : Legible ms rest) :
    '\n' ∉ sources ms := by
  induction ms with
  | nil => exact List.not_mem_nil
  | cons m ms ih =>
    rw [sources_cons, List.mem_append, not_or]
    refine ⟨?_, ih h.2⟩
    cases m with
    | token kind text => exact h.1.1.2.1
    | blank => decide

/-- A sequence of marks that reads as it is before what may follow an operand. -/
structure Phrase (ms : List Mark) : Prop where
  legible : ∀ rest, Scan.Closes rest → Legible ms rest
  balanced : ∀ l, ms.foldl Mark.track l = l

/-- The first character is none of some. -/
def Begins (avoided : List Char) (ms : List Mark) : Prop :=
  ∃ c ∈ (sources ms).head?, c ∉ avoided

def blanks : List Char := ['\t', ' ', '\x0c']

/-- The characters by which a sign goes on. -/
def joints : List Char := ['=', '*', '/', '<', '>']

namespace Begins
variable {avoided : List Char} {ms : List Mark}

theorem of_cons {c : Char} {cs : List Char} (h : sources ms = c :: cs) (hc : c ∉ avoided) :
    Begins avoided ms := ⟨c, by rw [h]; exact rfl, hc⟩

theorem append (h : Begins avoided ms) (ns : List Mark) : Begins avoided (ms ++ ns) := by
  obtain ⟨c, hhead, hc⟩ := h
  obtain ⟨cs, hcs⟩ := List.head?_eq_some_iff.mp hhead
  exact .of_cons (by rw [sources_append, hcs, List.cons_append]) hc

theorem mono {fewer : List Char} (h : Begins avoided ms) (hsub : fewer ⊆ avoided) :
    Begins fewer ms := by
  obtain ⟨c, hhead, hc⟩ := h
  exact ⟨c, hhead, fun hmem => hc (hsub hmem)⟩

/-- The first character is that of the phrase, whatever follows. -/
theorem head (h : Begins avoided ms) {rest : List Char} :
    ∀ c ∈ (sources ms ++ rest).head?, c ∉ avoided := by
  obtain ⟨c, hhead, hc⟩ := h
  obtain ⟨cs, hcs⟩ := List.head?_eq_some_iff.mp hhead
  intro d hd
  rw [hcs] at hd
  cases hd
  exact hc

end Begins

/-! ## Words and signs -/

namespace Terminal

def brackets : List Terminal := [.lparen, .rparen, .lbracket, .rbracket, .lbrace, .rbrace]

def bracketPairs : List (Terminal × Terminal) :=
  [(.lparen, .rparen), (.lbracket, .rbracket), (.lbrace, .rbrace)]

/-- The signs beside brackets. -/
def signs : List Terminal := spelled.filter fun t => t ∉ Scan.keywords && t ∉ brackets

def separators : List Terminal := [.comma, .colon, .dot, .semicolon]

/-- The signs that may follow an operand without a blank. -/
def closing : List Terminal :=
  [.comma, .colon, .dot, .semicolon, .equal, .lparen, .rparen, .lbracket, .rbracket, .rbrace]

end Terminal

theorem Layout.track_of_not_bracket {t : Terminal} (h : t ∉ Terminal.brackets) (l : Layout) :
    l.track t = l := by
  unfold Layout.track
  split <;> first | rfl | exact absurd (by decide) h

theorem spelled_legible : ∀ t ∈ Terminal.spelled,
    Scan.spelling t ≠ [] ∧ '\n' ∉ Scan.spelling t ∧ t ≠ .newline := by
  decide

/-- What is checked of the first character of a spelling holds of a first character. -/
theorem exists_cons_of_any {p : Char → Bool} {cs : List Char} (h : cs.head?.any p = true) :
    ∃ c cs', cs = c :: cs' ∧ p c = true := by
  cases cs with
  | nil => cases h
  | cons c cs' => exact ⟨c, cs', rfl, h⟩

theorem isSign {t : Terminal} (h : t ∈ Terminal.spelled) (hword : t ∉ Scan.keywords) :
    Scan.IsSign t := by
  have hfirst : ∀ t ∈ Terminal.spelled, t ∉ Scan.keywords → (Scan.spelling t).head?.any (fun c =>
      Scan.IsPlain c ∧ c ∉ ['0', 'r', 'R'] ∧ (c.isAlpha || c == '_') = false ∧
        c.isDigit = false ∧ Pattern.isBlank c = false) = true := by
    decide
  obtain ⟨c, cs, hspelling, hc⟩ := exists_cons_of_any (hfirst t h hword)
  exact ⟨h, hword, c, cs, hspelling, of_decide_eq_true hc⟩

theorem extensions_subset : ∀ t ∈ Terminal.spelled, t ∉ Scan.keywords →
    Scan.extensions t ⊆ joints := by
  decide

/-- No longer sign begins with these. -/
theorem extensions_eq_nil : ∀ t ∈ Terminal.separators ++ Terminal.brackets,
    Scan.extensions t = [] := by
  decide

theorem Begins.spelled {avoided : List Char} {t : Terminal} {c : Char} {cs : List Char}
    (h : Scan.spelling t = c :: cs) (hc : c ∉ avoided) (ms : List Mark) :
    Begins avoided (.spelled t :: ms) := by
  have hsource : sources (.spelled t :: ms) = c :: (cs ++ sources ms) := by
    rw [sources_cons, Mark.spelled, Mark.source, h, List.cons_append]
  exact of_cons hsource hc

theorem closes_spelled {t : Terminal} (h : t ∈ Terminal.closing) (ms : List Mark)
    (rest : List Char) : Scan.Closes (sources (.spelled t :: ms) ++ rest) := by
  have hclosers : ∀ t ∈ Terminal.closing,
      (Scan.spelling t).head?.any (· ∈ Scan.closers) = true := by
    decide
  obtain ⟨c, cs, hspelling, hc⟩ := exists_cons_of_any (hclosers t h)
  intro d hd
  rw [sources_cons, Mark.spelled, Mark.source, hspelling] at hd
  cases hd
  exact of_decide_eq_true hc

theorem closes_blank (ms : List Mark) (rest : List Char) :
    Scan.Closes (sources (.blank :: ms) ++ rest) := by
  intro c hc
  cases hc
  decide

/-! ## Phrases put together -/

namespace Phrase
variable {ms ns : List Mark}

theorem nil : Phrase [] := ⟨fun _ _ => trivial, fun _ => rfl⟩

/-- Two phrases make one, if the first may be followed by the second. -/
theorem append (h : Phrase ms) (h' : Phrase ns)
    (hcloses : ∀ rest, Scan.Closes rest → Scan.Closes (sources ns ++ rest)) :
    Phrase (ms ++ ns) where
  legible rest hrest := legible_append.mpr ⟨h.legible _ (hcloses rest hrest), h'.legible rest hrest⟩
  balanced l := by rw [List.foldl_append, h.balanced, h'.balanced]

/-- A sign that may follow an operand needs no blank before it. -/
theorem follow {t : Terminal} (ht : t ∈ Terminal.closing) (h : Phrase ms)
    (h' : Phrase (.spelled t :: ns)) : Phrase (ms ++ .spelled t :: ns) :=
  h.append h' fun rest _ => closes_spelled ht ns rest

theorem blank (h : Phrase ms) (hbegins : Begins blanks ms) : Phrase (.blank :: ms) where
  legible rest hrest := by
    refine ⟨fun c hc => ?_, h.legible rest hrest⟩
    have hblank := hbegins.head c hc
    simpa [Pattern.isBlank, blanks, and_assoc] using hblank
  balanced l := h.balanced l

/-- A token that may be followed by what follows an operand. -/
theorem operand {kind : Terminal} {text : List Char} (hkind : kind ∉ .newline :: Terminal.brackets)
    (htext : text ≠ [] ∧ '\n' ∉ text)
    (hreads : ∀ rest, Scan.Closes rest → Scan.Reads kind text rest) :
    Phrase [.token kind text] where
  legible rest hrest := by
    have hnewline : kind ≠ .newline := fun h => hkind (h ▸ List.mem_cons_self)
    exact ⟨⟨⟨htext.1, htext.2, hnewline⟩, hreads rest hrest⟩, trivial⟩
  balanced l :=
    Layout.track_of_not_bracket (fun h => hkind (List.mem_cons_of_mem _ h)) l

theorem word {t : Terminal} (ht : t ∈ Scan.keywords) : Phrase [.spelled t] := by
  have hword : ∀ t ∈ Scan.keywords, t ∈ Terminal.spelled ∧ t ∉ .newline :: Terminal.brackets := by
    decide
  obtain ⟨hne, hline, -⟩ := spelled_legible t (hword t ht).1
  exact operand (hword t ht).2 ⟨hne, hline⟩ fun rest hrest => Scan.reads_keyword ht hrest

/-- A sign before a phrase that does not make a longer sign of it. -/
theorem signed {t : Terminal} (ht : t ∈ Terminal.signs) (h : Phrase ms)
    (hextends : ∀ rest, Scan.Closes rest →
      ∀ c ∈ (sources ms ++ rest).head?, c ∉ Scan.extensions t) :
    Phrase (.spelled t :: ms) := by
  obtain ⟨hspelled, hother⟩ := List.mem_filter.mp ht
  simp only [Bool.and_eq_true, decide_eq_true_eq] at hother
  refine ⟨fun rest hrest => ⟨⟨?_, ?_⟩, h.legible rest hrest⟩, fun l => ?_⟩
  · obtain ⟨hne, hline, hnewline⟩ := spelled_legible t hspelled
    exact ⟨hne, hline, hnewline⟩
  · exact Scan.reads_sign (isSign hspelled hother.1) (hextends rest hrest)
  · have htrack : Mark.track l (.spelled t) = l := Layout.track_of_not_bracket hother.2 l
    rw [List.foldl_cons, htrack, h.balanced]

theorem sign {t : Terminal} (ht : t ∈ Terminal.signs) (h : Phrase ms) (hbegins : Begins joints ms) :
    Phrase (.spelled t :: ms) := by
  obtain ⟨hspelled, hother⟩ := List.mem_filter.mp ht
  simp only [Bool.and_eq_true, decide_eq_true_eq] at hother
  exact signed ht h fun rest _ c hc hmem =>
    hbegins.head c hc (extensions_subset t hspelled hother.1 hmem)

theorem separator {t : Terminal} (ht : t ∈ Terminal.separators) (h : Phrase ms) :
    Phrase (.spelled t :: ms) := by
  have hsign : ∀ t ∈ Terminal.separators, t ∈ Terminal.signs := by decide
  refine signed (hsign t ht) h fun _ _ c _ => ?_
  rw [extensions_eq_nil t (List.mem_append_left _ ht)]
  exact List.not_mem_nil

/-- A phrase in brackets is read before anything. -/
theorem enclosed {o c : Terminal} (h : (o, c) ∈ Terminal.bracketPairs) (hms : Phrase ms) :
    Phrase (.spelled o :: (ms ++ [Mark.spelled c])) := by
  have hpairs : ∀ p ∈ Terminal.bracketPairs,
      p.1 ∈ Terminal.brackets ∧ p.2 ∈ Terminal.brackets ∧ p.2 ∈ Terminal.closing := by decide
  obtain ⟨ho, hc, hclosing⟩ := hpairs _ h
  have hread : ∀ t ∈ Terminal.brackets, ∀ rest, Mark.Legible (.spelled t) rest := by
    intro t ht rest
    have hspelled : ∀ t ∈ Terminal.brackets, t ∈ Terminal.spelled ∧ t ∉ Scan.keywords := by
      decide
    obtain ⟨hne, hline, hnewline⟩ := spelled_legible t (hspelled t ht).1
    refine ⟨⟨hne, hline, hnewline⟩, Scan.reads_sign (isSign (hspelled t ht).1 (hspelled t ht).2) ?_⟩
    rw [extensions_eq_nil t (List.mem_append_right _ ht)]
    exact fun c _ => List.not_mem_nil
  refine ⟨fun rest hrest => ⟨hread o ho _, ?_⟩, fun l => ?_⟩
  · have hlegible := hms.legible _ (closes_spelled hclosing [] rest)
    exact legible_append.mpr ⟨hlegible, hread c hc _, trivial⟩
  · rw [List.foldl_cons, List.foldl_append, hms.balanced]
    simp only [Terminal.bracketPairs, List.mem_cons, Prod.mk.injEq, List.not_mem_nil, or_false] at h
    rcases h with ⟨rfl, rfl⟩ | ⟨rfl, rfl⟩ | ⟨rfl, rfl⟩ <;> rfl

end Phrase
end Starlark
