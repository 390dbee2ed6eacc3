import Starlark.Proofs.Lexer.Matched
import Starlark.Proofs.Parser.Standing

/-! # Tokens in the order of the text

The tokens of a parse are read one after the other. Each begins after the one before it, but for
the marks of the layout, which share the place of a line break.
-/
namespace Starlark

namespace Point

theorem Before.trans {p q r : Point} (h : p.Before q) (h' : q.Before r) : p.Before r := by
  unfold Before at *
  omega

theorem Before.irrefl (p : Point) : ¬ p.Before p := by
  unfold Before
  omega

/-- At the same place in a text, or earlier. -/
def NotAfter (p q : Point) : Prop := p = q ∨ p.Before q

theorem NotAfter.refl (p : Point) : p.NotAfter p := .inl rfl

theorem NotAfter.trans {p q r : Point} (h : p.NotAfter q) (h' : q.NotAfter r) : p.NotAfter r := by
  rcases h with rfl | h
  · exact h'
  · rcases h' with rfl | h'
    · exact .inr h
    · exact .inr (h.trans h')

theorem Before.trans_notAfter {p q r : Point} (h : p.Before q) (h' : q.NotAfter r) :
    p.Before r := by
  rcases h' with rfl | h'
  · exact h
  · exact h.trans h'

theorem notAfter_after (p : Point) (text : List Char) : p.NotAfter (p.after text) := by
  cases text with
  | nil => exact .refl p
  | cons c cs => exact .inr (p.before_after (List.cons_ne_nil c cs))

end Point

/-- A text goes on from a point. -/
def Point.InText (p : Point) (source : List Char) : Prop :=
  ∃ before rest, rest ≠ [] ∧ Parser.endLine source = before ++ rest ∧ p = Point.after ⟨1, 1⟩ before

/-- A token was matched where its span says. -/
def Token.ReadFrom (t : Token) (source : List Char) : Prop :=
  ∃ before rest candidates, Parser.endLine source = before ++ (t.text ++ rest) ∧
    t.span = ⟨Point.after ⟨1, 1⟩ before, Point.after ⟨1, 1⟩ (before ++ t.text)⟩ ∧
    Scan.match? candidates (t.text ++ rest) = some (.token t.kind, t.text, rest)

/-- A token begins before another one, or also where that is if that is a mark. -/
def Token.Precedes (t u : Token) : Prop :=
  t.span.start.NotAfter u.span.start ∧
    (u.kind ∉ Parser.placeless → t.span.start.Before u.span.start)

namespace Parser
open Automaton

/-- What a parse at some point of a source knows of a token to come. -/
structure Progress.Awaits (m : Progress) (source : List Char) (here : Point) (t : Token) :
    Prop where
  inText : t.span.start.InText source
  read : t.kind ∉ placeless → t.ReadFrom source ∧ here.NotAfter t.span.start
  mark : t.kind ∈ placeless → m.previous.span.start.NotAfter t.span.start

theorem Progress.awaits_closing {m : Progress} {source : List Char} {here : Point}
    (hin : m.previous.span.start.InText source) :
    (∀ t ∈ m.closing, m.Awaits source here t) ∧ m.closing.Pairwise Token.Precedes := by
  have hall : ∀ t ∈ m.closing, t.kind = .dedent ∧ t.span = m.previous.span := by
    intro t ht
    obtain ⟨level, -, rfl⟩ := List.mem_map.mp ht
    exact ⟨rfl, rfl⟩
  constructor
  · intro t ht
    obtain ⟨hkind, hspan⟩ := hall t ht
    have hmark : t.kind ∈ placeless := by
      rw [hkind]
      decide
    refine ⟨by rwa [hspan], fun h => absurd hmark h, fun _ => ?_⟩
    rw [hspan]
    exact .refl _
  · refine List.pairwise_of_forall_mem_list fun t ht u hu => ?_
    obtain ⟨-, hspan⟩ := hall t ht
    obtain ⟨hkind, hspan'⟩ := hall u hu
    refine ⟨?_, fun h => absurd ?_ h⟩
    · rw [hspan, hspan']
      exact .refl _
    · rw [hkind]
      decide

theorem Progress.span_of_mem_handed {m : Progress} {t u : Token} (hu : u ∈ m.handed t) :
    u.span = t.span := by
  rcases mem_handed hu with rfl | ⟨kind, -, rfl⟩
  · rfl
  · rfl

/-- Only the first of the tokens handed over is no mark. -/
theorem Progress.handed_precedes (m : Progress) (t : Token) :
    (m.handed t).Pairwise Token.Precedes := by
  have hprecedes : ∀ u ∈ m.handed t, ∀ kind ∈ [Terminal.indent, .dedent],
      u.Precedes (t.mark kind) := by
    intro u hu kind hmark
    refine ⟨?_, fun h => absurd (mark_mem_placeless kind hmark) h⟩
    rw [span_of_mem_handed hu]
    exact .refl _
  rcases m.handed_cases t with hnone | ⟨marks, hhanded, hmarks⟩
  · rw [hnone]
    exact .nil
  · rw [hhanded] at hprecedes ⊢
    have hall : ∀ u ∈ t :: marks, ∀ v ∈ marks, u.Precedes v := by
      intro u hu v hv
      obtain ⟨kind, hmark, rfl⟩ := hmarks v hv
      exact hprecedes u hu kind hmark
    refine List.pairwise_cons.mpr ⟨hall t List.mem_cons_self, ?_⟩
    exact List.pairwise_of_forall_mem_list fun u hu => hall u (List.mem_cons_of_mem t hu)

theorem previous_of_take {m m' : Progress} {t : Token} (h : m.take t = .ok m') :
    m'.previous = t := (take_cases h).1

/-- What a parse hands over for the next token comes before all that it hands over later. -/
theorem Progress.Awaits.precedes {m' : Progress} {source : List Char} {t u v : Token}
    (hspan : u.span = t.span) (hprevious : m'.previous = t)
    (hafter : t.span.start.Before t.span.stop) (h : m'.Awaits source t.span.stop v) :
    u.Precedes v := by
  rw [Token.Precedes, hspan]
  by_cases hmark : v.kind ∈ placeless
  · have hnotAfter := h.mark hmark
    rw [hprevious] at hnotAfter
    exact ⟨hnotAfter, fun hkind => absurd hmark hkind⟩
  · have hbefore := hafter.trans_notAfter (h.read hmark).2
    exact ⟨.inr hbefore, fun _ => hbefore⟩

/-- The next token of a parse is read from the source where the parse is or later. -/
theorem Progress.Reads.scanned {m : Progress} {source before cs rest : List Char} {t : Token}
    (hreads : m.Reads source before cs)
    (hnext : Scan.next (candidates m.stack) (cs.length + 1) (Point.after ⟨1, 1⟩ before) cs =
      .token t rest) :
    t.span.start.InText source ∧ t.ReadFrom source ∧
      (Point.after ⟨1, 1⟩ before).NotAfter t.span.start ∧ t.span.start.Before t.span.stop := by
  have hmatch := Scan.match?_of_next hnext hreads.endsLines
  obtain ⟨gap, -, hgap, -⟩ := Cursor.exists_gap_of_next hnext hreads.atRest hreads.endsLines
  obtain ⟨place, hstart, hstop, hplace, hfollows⟩ := hreads.exists_place hnext
  refine ⟨⟨place, t.text ++ rest, by simp [hfollows.ne_nil], hplace.text, hstart⟩,
    ⟨place, rest, candidates m.stack, hplace.text, ?_, hmatch⟩, ?_, ?_⟩
  · rw [Point.after_append, ← hstart, ← hstop]
  · rw [hgap]
    exact Point.notAfter_after _ gap
  · rw [hstop]
    exact Point.before_after _ hfollows.ne_nil

/-- A parse that reads a token awaits all that it hands over for it. -/
theorem Progress.awaits_handed {m : Progress} {source : List Char} {here : Point} {t : Token}
    (hin : t.span.start.InText source) (hread : t.ReadFrom source)
    (hprevious : m.previous.span.start.NotAfter here) (hhere : here.NotAfter t.span.start) :
    ∀ u ∈ m.handed t, m.Awaits source here u := by
  intro u hu
  have hspan := span_of_mem_handed hu
  refine ⟨hspan ▸ hin, fun hkind => ?_, fun _ => ?_⟩
  · rcases mem_handed hu with rfl | ⟨kind, hmark, rfl⟩
    · exact ⟨hread, hhere⟩
    · exact absurd (mark_mem_placeless kind hmark) hkind
  · rw [hspan]
    exact hprevious.trans hhere

/-- What a parse awaits after a token it has awaited before the token. -/
theorem Progress.Awaits.later {m m' : Progress} {source : List Char} {here : Point} {t u : Token}
    (h : m'.Awaits source t.span.stop u) (htake : m.take t = .ok m')
    (hprevious : m.previous.span.start.NotAfter here) (hhere : here.NotAfter t.span.start)
    (hafter : t.span.start.Before t.span.stop) : m.Awaits source here u := by
  obtain ⟨hin, hread, hmark⟩ := h
  refine ⟨hin, fun hkind => ?_, fun hkind => ?_⟩
  · obtain ⟨hread', hlater⟩ := hread hkind
    exact ⟨hread', hhere.trans (.inr (hafter.trans_notAfter hlater))⟩
  · have hlater := hmark hkind
    rw [previous_of_take htake] at hlater
    exact (hprevious.trans hhere).trans hlater

/-- A parse hands over tokens in the order of the text. -/
theorem Progress.Reads.inOrder {fuel : Nat} {m : Progress} {source before cs : List Char}
    {tree : Tree (.n .file)} (hreads : m.Reads source before cs)
    (hin : m.previous.span.start.InText source)
    (hprevious : m.previous.span.start.NotAfter (Point.after ⟨1, 1⟩ before))
    (h : run fuel m (Point.after ⟨1, 1⟩ before) cs = .ok tree) :
    (∀ t ∈ Parser.handed fuel m (Point.after ⟨1, 1⟩ before) cs,
      m.Awaits source (Point.after ⟨1, 1⟩ before) t) ∧
    (Parser.handed fuel m (Point.after ⟨1, 1⟩ before) cs).Pairwise Token.Precedes := by
  induction fuel generalizing m before cs with
  | zero => exact awaits_closing hin
  | succ fuel ih =>
    cases hnext : Scan.next (candidates m.stack) (cs.length + 1) (Point.after ⟨1, 1⟩ before) cs with
    | finished =>
      rw [Parser.handed, hnext]
      exact awaits_closing hin
    | stuck place rest =>
      rw [run, hnext] at h
      cases h
    | token t rest =>
      obtain ⟨m', htake⟩ := exists_take hnext h
      obtain ⟨hinText, hread, hhere, hafter⟩ := hreads.scanned hnext
      obtain ⟨before', hstop, hreads'⟩ := hreads.exists_next hnext htake
      have hprev := previous_of_take htake
      rw [run_of_token hnext htake, hstop] at h
      obtain ⟨hawaits, hordered⟩ := ih hreads' (by rwa [hprev])
        (by rw [hprev, ← hstop]; exact .inr hafter) h
      rw [← hstop] at hawaits hordered
      rw [handed_of_token hnext htake]
      constructor
      · intro u hu
        rcases List.mem_append.mp hu with hu | hu
        · exact awaits_handed hinText hread hprevious hhere u hu
        · exact (hawaits u hu).later htake hprevious hhere hafter
      · refine List.pairwise_append.mpr ⟨m.handed_precedes t, hordered, fun u hu v hv => ?_⟩
        exact Progress.Awaits.precedes (span_of_mem_handed hu) hprev hafter (hawaits v hv)

/-- The tokens of a parsed source are in the order of the text, and each of them but the marks was
matched where its span says. -/
theorem inOrder_of_derive {source : List Char} {tree : Tree (.n .file)}
    (h : derive source = .ok tree) :
    (∀ t ∈ tree.tokens, t.span.start.InText source ∧
      (t.kind ∉ placeless → t.ReadFrom source)) ∧ tree.tokens.Pairwise Token.Precedes := by
  have hne : endLine source ≠ [] := by
    rw [endLine]
    split
    · next hlast =>
      rintro rfl
      cases hlast
    · simp
  obtain ⟨hawaits, hordered⟩ :=
    (reads_initial source).inOrder ⟨[], endLine source, hne, rfl, rfl⟩ (.refl _) h
  rw [tokens_of_derive h]
  exact ⟨fun t ht => ⟨(hawaits t ht).inText, fun hkind => ((hawaits t ht).read hkind).1⟩, hordered⟩

end Parser
end Starlark
