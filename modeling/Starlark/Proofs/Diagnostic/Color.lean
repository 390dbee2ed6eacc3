import Mathlib.Data.List.Forall2
import Starlark.Proofs.Diagnostic.Carets

/-! # Colour adds escape codes only

A text with colour is put together from the same parts as the one without, some of them between
escape codes. Where the parts hold no escape character, no code can begin in one of them, so
deleting the codes deletes what colour has added and nothing else.
-/
namespace Starlark

/-- Is a text free of the character that begins an escape code? -/
def EscapeFree (text : String) : Prop := '\x1b' ∉ text.toList

instance (text : String) : Decidable (EscapeFree text) :=
  inferInstanceAs (Decidable ('\x1b' ∉ text.toList))

structure Diagnostic.IsEscapeFree (d : Diagnostic) : Prop where
  message : EscapeFree d.message
  file : ∀ loc ∈ d.loc, EscapeFree loc.file
  code : ∀ text ∈ d.code, EscapeFree text
  help : ∀ text ∈ d.help, EscapeFree text
  note : ∀ text ∈ d.note, EscapeFree text
  label : ∀ text ∈ d.label, EscapeFree text

/-- What follows the escape code that a text begins with: an escape character, a bracket, digits and
semicolons, and the letter `m`. -/
def afterCode? : List Char → Option (List Char)
  | '\x1b' :: '[' :: cs =>
    match cs.dropWhile fun c => c.isDigit || c == ';' with
    | 'm' :: rest => some rest
    | _ => none
  | _ => none

theorem length_afterCode? {cs rest : List Char} (h : afterCode? cs = some rest) :
    rest.length < cs.length := by
  rw [afterCode?.eq_def] at h
  split at h
  · next cs =>
    split at h
    · next hdrop =>
      cases h
      have hle := List.length_dropWhile_le (fun c => c.isDigit || c == ';') cs
      rw [hdrop] at hle
      simp only [List.length_cons] at hle ⊢
      omega
    · cases h
  · cases h

/-- A text without its escape codes. -/
def withoutCodes : List Char → List Char
  | [] => []
  | c :: cs =>
    match h : afterCode? (c :: cs) with
    | some rest =>
      have := length_afterCode? h
      withoutCodes rest
    | none => c :: withoutCodes cs
termination_by cs => cs.length
decreasing_by
  · exact this
  · exact Nat.lt_add_one cs.length

theorem withoutCodes_of_code {cs rest : List Char} (h : afterCode? cs = some rest) :
    withoutCodes cs = withoutCodes rest := by
  cases cs with
  | nil => cases h
  | cons c cs =>
    rw [withoutCodes]
    split
    · next h' => rw [Option.some.inj (h.symm.trans h')]
    · next h' =>
      rw [h] at h'
      cases h'

theorem withoutCodes_cons {c : Char} (hc : c ≠ '\x1b') (cs : List Char) :
    withoutCodes (c :: cs) = c :: withoutCodes cs := by
  have hnone : afterCode? (c :: cs) = none := by
    rw [afterCode?.eq_def]
    split
    · next heq =>
      cases heq
      exact absurd rfl hc
    · rfl
  rw [withoutCodes]
  split
  · next h =>
    rw [hnone] at h
    cases h
  · rfl

/-- Is one text with its codes deleted the other, whatever follows it? Parts with this property can
be put together, as no code of what follows begins in them. -/
def Strips (colored plain : String) : Prop :=
  ∀ rest, withoutCodes (colored.toList ++ rest) = plain.toList ++ withoutCodes rest

namespace EscapeFree

theorem append {s t : String} (hs : EscapeFree s) (ht : EscapeFree t) : EscapeFree (s ++ t) := by
  rw [EscapeFree, String.toList_append, List.mem_append]
  exact not_or.mpr ⟨hs, ht⟩

theorem ofList {cs : List Char} (h : '\x1b' ∉ cs) : EscapeFree (String.ofList cs) := by
  rwa [EscapeFree, String.toList_ofList]

theorem repeated {c : Char} (hc : c ≠ '\x1b') (n : Nat) : EscapeFree (Render.repeated c n) :=
  .ofList fun hmem => hc (List.eq_of_mem_replicate hmem).symm

theorem spaces (n : Nat) : EscapeFree (Render.spaces n) := .repeated (by decide) n

theorem number (n : Int) : EscapeFree (toString n) := by
  have hnat : ∀ n : Nat, EscapeFree (toString (n : Int)) := by
    intro n hmem
    rw [decimalText_toString] at hmem
    exact absurd (decimalText_digits n _ hmem) (by decide)
  cases n with
  | ofNat n => exact hnat n
  | negSucc n => exact append (s := "-") (by decide) (hnat (n + 1))

theorem location {loc : Location} (h : EscapeFree loc.file) : EscapeFree loc.text :=
  (((h.append (t := ":") (by decide)).append (.number _)).append (t := ":") (by decide)).append
    (.number _)

end EscapeFree

namespace Strips
variable {s s' t t' : String}

theorem withoutCodes_eq (h : Strips s t) : withoutCodes s.toList = t.toList := by
  have heq := h []
  rwa [List.append_nil, withoutCodes, List.append_nil] at heq

theorem same (h : EscapeFree s) : Strips s s := by
  intro rest
  rw [EscapeFree] at h
  -- No code begins in the text, so the scan reaches what follows one character at a time.
  generalize s.toList = cs at h
  induction cs with
  | nil => rfl
  | cons c cs ih =>
    obtain ⟨hc, hcs⟩ := List.ne_and_not_mem_of_not_mem_cons h
    rw [List.cons_append, withoutCodes_cons hc.symm, ih hcs, List.cons_append]

theorem append (h : Strips s t) (h' : Strips s' t') : Strips (s ++ s') (t ++ t') := by
  intro rest
  rw [String.toList_append, String.toList_append, List.append_assoc, h, h', List.append_assoc]

theorem intercalate {sep : String} (hsep : EscapeFree sep) {ss ts : List String}
    (h : List.Forall₂ Strips ss ts) : Strips (sep.intercalate ss) (sep.intercalate ts) := by
  induction h with
  | nil =>
    rw [String.intercalate_nil]
    exact same (by decide)
  | cons hs hrest ih =>
    cases hrest with
    | nil => simpa using hs
    | cons _ _ =>
      rw [String.intercalate_cons_cons, String.intercalate_cons_cons]
      exact (hs.append (same hsep)).append ih

end Strips

namespace Render

theorem strips_codes (style : Style) : Strips style.codes "" := by
  intro rest
  cases style with
  | bold => exact withoutCodes_of_code rfl
  | boldRed => exact (withoutCodes_of_code rfl).trans (withoutCodes_of_code rfl)
  | boldBlue => exact (withoutCodes_of_code rfl).trans (withoutCodes_of_code rfl)
  | boldCyan => exact (withoutCodes_of_code rfl).trans (withoutCodes_of_code rfl)

theorem strips_reset : Strips reset "" := fun _ => withoutCodes_of_code rfl

theorem strips_styled (style : Style) {text : String} (h : EscapeFree text) :
    Strips (styled true style text) (styled false style text) := by
  have hcodes := ((strips_codes style).append (.same h)).append strips_reset
  rwa [String.empty_append, String.append_empty] at hcodes

theorem present_eq_some {o : Option String} {text : String} (h : present o = some text) :
    text ∈ o := by
  rw [present.eq_def] at h
  split at h
  · cases h
  · exact h

/-- A part that is left out where its text is missing or empty. -/
theorem escapeFree_present {o : Option String} (part : String → String)
    (h : ∀ text ∈ o, EscapeFree (part text)) :
    EscapeFree (match present o with
      | some text => part text
      | none => "") := by
  cases hpresent : present o with
  | none => exact List.not_mem_nil
  | some text => exact h text (present_eq_some hpresent)

theorem mem_of_mem_splitLines {text line : List Char} {c : Char} (hline : line ∈ splitLines text)
    (hc : c ∈ line) : c ∈ text := by
  obtain ⟨first, others, hsplit⟩ := List.exists_cons_of_ne_nil (List.splitOn_ne_nil '\n' text)
  have hjoin : first ++ others.flatMap ('\n' :: ·) = text := by
    rw [← intercalate_lines, ← hsplit, List.intercalate_splitOn]
  rw [splitLines_eq_splitOn, hsplit, List.mem_cons] at hline
  rw [← hjoin, List.mem_append, List.mem_flatMap]
  rcases hline with rfl | hline
  · exact .inl hc
  · exact .inr ⟨line, hline, List.mem_cons_of_mem _ hc⟩

theorem escapeFree_sourceLine {sources : List (String × String)} {loc : Location}
    {line : List Char} (hsources : ∀ p ∈ sources, EscapeFree p.2)
    (h : sourceLine? sources loc = some line) : EscapeFree (String.ofList line) := by
  rw [sourceLine?] at h
  cases hfile : sources.lookup loc.file with
  | none =>
    rw [hfile] at h
    cases h
  | some text =>
    simp only [hfile] at h
    split at h
    · obtain ⟨before, after, hsplit, _⟩ := List.lookup_eq_some_iff.mp hfile
      have htext : EscapeFree text := hsources (loc.file, text) (by simp [hsplit])
      exact .ofList fun hmem => htext (mem_of_mem_splitLines (List.mem_of_getElem? h) hmem)
    · cases h

variable {d : Diagnostic}

theorem strips_headline (hd : d.IsEscapeFree) : Strips (headline true d) (headline false d) := by
  have hcode := escapeFree_present (fun code => "[" ++ code ++ "]") fun code hmem =>
    (EscapeFree.append (s := "[") (by decide) (hd.code code hmem)).append (by decide)
  exact (strips_styled .boldRed (.append (by decide) hcode)).append
    (strips_styled .bold (.append (by decide) hd.message))

theorem strips_annotation {pad text : String} (kind : String) (hpad : EscapeFree pad)
    (hkind : EscapeFree kind) (htext : EscapeFree text) :
    Strips (styled true .boldCyan (pad ++ "= ") ++ styled true .bold (kind ++ ": ") ++ text)
      (styled false .boldCyan (pad ++ "= ") ++ styled false .bold (kind ++ ": ") ++ text) :=
  ((strips_styled .boldCyan (hpad.append (by decide))).append
    (strips_styled .bold (hkind.append (by decide)))).append (.same htext)

theorem strips_annotations (hd : d.IsEscapeFree) (gutter : Nat) :
    List.Forall₂ Strips (annotations true gutter d) (annotations false gutter d) := by
  have hpad := EscapeFree.spaces (gutter + 1)
  have hbar := strips_styled .boldBlue (hpad.append (t := "|") (by decide))
  have hhelp {text} (h : present d.help = some text) :=
    strips_annotation "help" hpad (by decide) (hd.help text (present_eq_some h))
  have hnote {text} (h : present d.note = some text) :=
    strips_annotation "note" hpad (by decide) (hd.note text (present_eq_some h))
  rw [annotations, annotations]
  cases h : present d.help with
  | none =>
    cases h' : present d.note with
    | none => exact .nil
    | some note => exact .cons hbar (.cons (hnote h') .nil)
  | some help =>
    cases h' : present d.note with
    | none => exact .cons hbar (.cons (hhelp h) .nil)
    | some note => exact .cons hbar (.cons (hhelp h) (.cons (hnote h') .nil))

theorem strips_snippet (hd : d.IsEscapeFree) {loc : Location} (hloc : EscapeFree loc.file)
    {line : List Char} (hline : EscapeFree (String.ofList line)) :
    List.Forall₂ Strips (snippet true d loc line) (snippet false d loc line) := by
  have hlabel := escapeFree_present (" " ++ ·) fun label hmem =>
    EscapeFree.append (s := " ") (by decide) (hd.label label hmem)
  have hnumber := EscapeFree.number loc.line
  have hbar := strips_styled .boldBlue
    ((EscapeFree.spaces ((toString loc.line).length + 1)).append (t := "|") (by decide))
  refine .cons ?arrow (.cons hbar (.cons ?source (.cons ?carets (strips_annotations hd _))))
  case arrow =>
    exact (strips_styled .boldBlue ((EscapeFree.spaces _).append (by decide))).append
      (.same (.location hloc))
  case source =>
    exact (strips_styled .boldBlue (hnumber.append (by decide))).append (.same hline)
  case carets =>
    exact (hbar.append (.same (by decide))).append (strips_styled .boldRed
      (((EscapeFree.spaces _).append (.repeated (by decide) _)).append hlabel))

variable {sources : List (String × String)}

theorem strips_diagnostic (hsources : ∀ p ∈ sources, EscapeFree p.2) (hd : d.IsEscapeFree) :
    Strips (diagnostic sources true d) (diagnostic sources false d) := by
  have harrow : Strips (styled true .boldBlue " --> ") (styled false .boldBlue " --> ") :=
    strips_styled .boldBlue (by decide)
  refine .intercalate (by decide) (.cons (strips_headline hd) ?_)
  cases hloc : d.loc with
  | none => exact .cons (harrow.append (.same (by decide))) (strips_annotations hd 1)
  | some loc =>
    have hfile := hd.file loc hloc
    cases hline : sourceLine? sources loc with
    | none =>
      simp only [hline]
      exact .cons (harrow.append (.same (.location hfile))) (strips_annotations hd 1)
    | some line =>
      simp only [hline]
      exact strips_snippet hd hfile (escapeFree_sourceLine hsources hline)

theorem strips_summary (count : Nat) : Strips (summary true count) (summary false count) := by
  have hplural : EscapeFree (if count = 1 then "" else "s") := by
    split
    · decide
    · decide
  refine (strips_styled .boldRed (by decide)).append (strips_styled .bold ?_)
  exact (((EscapeFree.append (by decide) (.number count)).append (by decide)).append hplural)

/-- Colour adds escape codes only. Where no source text and no part of a diagnostic has an escape
character, the text with colour is the one without once its codes are deleted, for the diagnostics
together with their count and for each of them. -/
theorem all_withoutCodes {r : Reporter}
    (hsources : ∀ p ∈ r.sources, EscapeFree p.2)
    (herrors : ∀ d ∈ r.errors, d.IsEscapeFree) :
    withoutCodes (all r true).toList = (all r false).toList ∧
      ∀ d, d.IsEscapeFree →
        withoutCodes (diagnostic r.sources true d).toList
          = (diagnostic r.sources false d).toList := by
  have hdiagnostic : ∀ d : Diagnostic, d.IsEscapeFree →
      Strips (diagnostic r.sources true d) (diagnostic r.sources false d) :=
    fun _ => strips_diagnostic hsources
  refine ⟨Strips.withoutCodes_eq (.intercalate (by decide) ?_),
    fun d hd => (hdiagnostic d hd).withoutCodes_eq⟩
  refine List.rel_append ?_ (.cons (strips_summary _) .nil)
  rw [List.forall₂_map_left_iff, List.forall₂_map_right_iff, List.forall₂_same]
  exact fun d hd => hdiagnostic d (herrors d hd)

/-- A diagnostic whose texts look like the rest of an escape code. -/
def codeLike : Diagnostic where
  message := "[1m"
  loc := some ⟨"31m", 1, 2, 1, 4⟩
  code := some "0;1m"
  help := some "m"
  label := some "[0m"

theorem all_withoutCodes_codeLike :
    (∀ p ∈ [("31m", "[1;31m")], EscapeFree p.2) ∧ (∀ d ∈ [codeLike], d.IsEscapeFree) ∧
      withoutCodes (all ⟨[("31m", "[1;31m")], [codeLike]⟩ true).toList
        = (all ⟨[("31m", "[1;31m")], [codeLike]⟩ false).toList ∧
      ∀ d, d.IsEscapeFree →
        withoutCodes (diagnostic [("31m", "[1;31m")] true d).toList
          = (diagnostic [("31m", "[1;31m")] false d).toList := by
  have hsources : ∀ p ∈ [("31m", "[1;31m")], EscapeFree p.2 := by decide
  have herrors : ∀ d ∈ [codeLike], d.IsEscapeFree := by
    rintro d (_ | ⟨_, ⟨⟩⟩)
    exact ⟨by decide, by decide, by decide, by decide, nofun, by decide⟩
  exact ⟨hsources, herrors, all_withoutCodes hsources herrors⟩

end Render
end Starlark
