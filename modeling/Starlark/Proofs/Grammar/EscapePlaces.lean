import Starlark.Proofs.Grammar.Events
import Starlark.Proofs.Parser.Standing

/-! # Diagnostics about escapes point at the backslash

Strings stand in the source where their spans say, and what is decoded is placed from there on. So
what a parse reports about an escape is found in the lines of the source: a backslash, and after it
the character that the message quotes.
-/
namespace Starlark

/-- Is a diagnostic about a backslash of a source, and is the next character of the source the one
that its message quotes? -/
def Diagnostic.QuotesAt (d : Diagnostic) (file : String) (source : List Char)
    (message : Char → String) : Prop :=
  ∃ (p : Point) (c : Char), d.loc = p.inFile file ∧ charAt? source p = some '\\' ∧
    charAt? source ⟨p.line, p.column + 1⟩ = some c ∧ d.message = message c

theorem Token.StandsIn.quotesAt {t : Token} {source : List Char} (h : t.StandsIn source)
    {file : String} {d : Diagnostic} {message : Char → String}
    (hd : d.PointsInto file t.span.start t.text message) : d.QuotesAt file source message := by
  obtain ⟨front, c, back, htext, hback, hline, hmessage, hloc⟩ := hd
  obtain ⟨hbackslash, hnext⟩ := h.charAt? htext hback (by decide) hline
  exact ⟨t.span.start.after front, c, hloc, hbackslash, hnext, hmessage⟩

/-- What is reported about a token of a source quotes the source. -/
theorem Token.StandsIn.reported_quotesAt {t : Token} {source : List Char} (h : t.StandsIn source)
    (file : String) : ∀ d ∈ StringToken.reported file t.span.start t.text,
      d.QuotesAt file source (if d.IsUnsupported then unsupportedMessage else unknownMessage) :=
  fun d hd => h.quotesAt (StringToken.reported_pointsInto _ _ _ d hd)

theorem Token.IsString.not_layout {t : Token} (h : t.IsString) : t.kind ∉ Layout.kinds := by
  rcases h with h | h
  · rw [h]
    decide
  · rw [h]
    decide

/-- What a parse decodes are strings of the source. -/
theorem parseStatements_standsIn (text file : String) (firstId : Nat) :
    ∃ literals : List Token, (∀ t ∈ literals, t.IsString ∧ t.StandsIn text.toList) ∧
      (parseStatements text file firstId).2.events =
        literals.flatMap (fun t => (t.decoded file).events) ∧
      (parseStatements text file firstId).2.errors.filter (·.IsUnsupported) =
        literals.flatMap fun t => (t.decoded file).errors := by
  obtain ⟨literals, hliterals, hreported⟩ := parseStatements_decodes text file firstId
  refine ⟨literals, fun t ht => ?_, hreported⟩
  obtain ⟨hstring, tree, hderive, hmem⟩ := hliterals t ht
  exact ⟨hstring, (Parser.takes_of_derive hderive).standsIn t hmem hstring.not_layout⟩

/-- Diagnostics about escapes point at the backslash: in the lines of the source there is a
backslash at the place of each of them, and then the character that its message quotes. They are
those of strings of the source, one after the other, and each string has its own, errors and events
together, at places that strictly increase. -/
theorem parseStatements_escapes (text file : String) (firstId : Nat) :
    (∀ d ∈ (parseStatements text file firstId).2.events,
      d.QuotesAt file text.toList unknownMessage) ∧
    (∀ d ∈ (parseStatements text file firstId).2.errors, d.IsUnsupported →
      d.QuotesAt file text.toList unsupportedMessage) ∧
    ∃ literals : List Token, (∀ t ∈ literals, t.IsString ∧ t.StandsIn text.toList) ∧
      (parseStatements text file firstId).2.events =
        literals.flatMap (fun t => (t.decoded file).events) ∧
      (parseStatements text file firstId).2.errors.filter (·.IsUnsupported) =
        literals.flatMap (fun t => (t.decoded file).errors) ∧
      ∀ t ∈ literals, ∃ reported : List Diagnostic, reported.Pairwise Diagnostic.Precedes ∧
        (t.decoded file).errors = reported.filter (·.IsUnsupported) ∧
        (t.decoded file).events = reported.filter (¬ ·.IsUnsupported) := by
  obtain ⟨literals, hstands, hevents, herrors⟩ := parseStatements_standsIn text file firstId
  refine ⟨fun d hd => ?_, fun d hd hkind => ?_, literals, hstands, hevents, herrors,
    fun t ht => ⟨StringToken.reported file t.span.start t.text, ?_, ?_, ?_⟩⟩
  · rw [hevents] at hd
    obtain ⟨t, ht, hdt⟩ := List.mem_flatMap.mp hd
    rw [Token.decoded, events_decodeString] at hdt
    obtain ⟨hreported, hkind⟩ := List.mem_filter.mp hdt
    have hquotes := (hstands t ht).2.reported_quotesAt file d hreported
    rwa [if_neg (of_decide_eq_true hkind)] at hquotes
  · have hfilter : d ∈ (parseStatements text file firstId).2.errors.filter (·.IsUnsupported) :=
      List.mem_filter.mpr ⟨hd, decide_eq_true hkind⟩
    rw [herrors] at hfilter
    obtain ⟨t, ht, hdt⟩ := List.mem_flatMap.mp hfilter
    rw [Token.decoded, errors_decodeString] at hdt
    have hquotes := (hstands t ht).2.reported_quotesAt file d (List.mem_filter.mp hdt).1
    rwa [if_pos hkind] at hquotes
  · exact StringToken.reported_pairwise _ _ _
  · exact errors_decodeString _ _ _
  · exact events_decodeString _ _ _

/-- A note on the second line of a string that names a loaded file, and an error beside it. -/
example :
    let notes := (parseStatements "load(\"\"\"a\n\\d\"\"\", b = '\\x')\n" "f.bzl" 0).2
    notes.events.map (·.loc) = [some ⟨"f.bzl", 2, 1, 0, 0⟩] ∧
      notes.errors.map (·.loc) = [some ⟨"f.bzl", 2, 13, 0, 0⟩] := by
  decide +kernel

end Starlark
