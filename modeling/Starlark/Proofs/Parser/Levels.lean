import Starlark.Proofs.Lexer.InStep
import Starlark.Proofs.Parser.Sound

/-! # Levels and lines

The marks that a parse hands to the automaton open and close levels, and any other token stands on
a logical line as wide as the innermost open level.
-/
namespace Starlark

/-- The open levels before and after some tokens, innermost first, where the widths of lines are
known. -/
inductive OnLevels (width : Token → Option Nat) : List Nat → List Token → List Nat → Prop
  | nil (levels : List Nat) : OnLevels width levels [] levels
  | newline {levels levels' : List Nat} {t : Token} {ts : List Token} (kind : t.kind = .newline)
      (rest : OnLevels width levels ts levels') : OnLevels width levels (t :: ts) levels'
  | indent {levels levels' : List Nat} {t : Token} {ts : List Token} {wider : Nat}
      (kind : t.kind = .indent) (wide : levels.headD 0 < wider)
      (rest : OnLevels width (wider :: levels) ts levels') :
      OnLevels width levels (t :: ts) levels'
  | dedent {levels levels' : List Nat} {t : Token} {ts : List Token} {closed : Nat}
      (kind : t.kind = .dedent) (rest : OnLevels width levels ts levels') :
      OnLevels width (closed :: levels) (t :: ts) levels'
  | plain {levels levels' : List Nat} {t : Token} {ts : List Token}
      (kind : t.kind ∉ Layout.kinds) (line : width t = some (levels.headD 0))
      (rest : OnLevels width levels ts levels') : OnLevels width levels (t :: ts) levels'

namespace OnLevels
variable {width : Token → Option Nat} {levels levels' levels'' : List Nat} {ts us : List Token}

theorem append (h : OnLevels width levels ts levels') (h' : OnLevels width levels' us levels'') :
    OnLevels width levels (ts ++ us) levels'' := by
  induction h with
  | nil => exact h'
  | newline kind _ ih => exact .newline kind (ih h')
  | indent kind wide _ ih => exact .indent kind wide (ih h')
  | dedent kind _ ih => exact .dedent kind (ih h')
  | plain kind line _ ih => exact .plain kind line (ih h')

theorem split (h : OnLevels width levels (ts ++ us) levels'') :
    ∃ levels', OnLevels width levels ts levels' ∧ OnLevels width levels' us levels'' := by
  induction ts generalizing levels with
  | nil => exact ⟨levels, .nil levels, h⟩
  | cons t ts ih =>
    cases h with
    | newline kind rest =>
      obtain ⟨levels', h, h'⟩ := ih rest
      exact ⟨levels', .newline kind h, h'⟩
    | indent kind wide rest =>
      obtain ⟨levels', h, h'⟩ := ih rest
      exact ⟨levels', .indent kind wide h, h'⟩
    | dedent kind rest =>
      obtain ⟨levels', h, h'⟩ := ih rest
      exact ⟨levels', .dedent kind h, h'⟩
    | plain kind line rest =>
      obtain ⟨levels', h, h'⟩ := ih rest
      exact ⟨levels', .plain kind line h, h'⟩

/-- A mark for each of some levels closes them. -/
theorem of_dedents (width : Token → Option Nat) (closed levels : List Nat) (t : Token) :
    OnLevels width (closed ++ levels) (closed.map fun _ => t.mark .dedent) levels := by
  induction closed with
  | nil => exact .nil levels
  | cons level closed ih => exact .dedent rfl ih

end OnLevels

/-- A line break whose width is met leaves the level of that width innermost. -/
theorem Layout.enter_onLevels {levels levels' : List Nat} {w : Nat} {t : Token}
    {marks : List Token} (h : Layout.enter levels w t = (marks, levels', true))
    (width : Token → Option Nat) :
    levels'.headD 0 = w ∧ OnLevels width levels marks levels' := by
  rw [Layout.enter] at h
  split at h
  · next hwide =>
    cases h
    exact ⟨rfl, .indent rfl hwide (.nil _)⟩
  · simp only [Prod.mk.injEq, beq_iff_eq] at h
    obtain ⟨rfl, rfl, hmet⟩ := h
    refine ⟨hmet, ?_⟩
    have hclosed :=
      OnLevels.of_dedents width (levels.takeWhile (w < ·)) (levels.dropWhile (w < ·)) t
    rwa [List.takeWhile_append_dropWhile] at hclosed

namespace Parser

/-- The width of the logical line on which a token of a source begins. -/
def tokenWidth (source : List Char) (t : Token) : Option Nat := lineWidth? source t.span.start

/-- A parse has taken a beginning of a source: a cursor after this beginning has the depth and the
width of its layout. -/
structure Progress.Reads (m : Progress) (source before rest : List Char) : Prop where
  text : endLine source = before ++ rest
  atRest : (Cursor.start.after before).AtRest rest
  depth : (Cursor.start.after before).depth = m.layout.brackets
  width : (Cursor.start.after before).width = m.layout.levels.headD 0

theorem endsLines_endLine (cs : List Char) : Cursor.EndsLines (endLine cs) := by
  rw [endLine]
  split
  · next hlast => exact .inr hlast
  · exact .inr (by simp)

/-- What is left of a source ends its last line. -/
theorem Progress.Reads.endsLines {m : Progress} {source before rest : List Char}
    (h : m.Reads source before rest) : Cursor.EndsLines rest := by
  have hends := endsLines_endLine source
  rw [h.text] at hends
  exact hends.of_append

theorem reads_initial (source : List Char) : Progress.initial.Reads source [] (endLine source) :=
  ⟨rfl, fun _ _ => rfl, rfl, rfl⟩

/-- A place before the last line break of a source is in the source itself. -/
theorem prefix_of_endLine {source before rest : List Char} (hne : rest ≠ [])
    (h : endLine source = before ++ rest) : before <+: source := by
  rw [endLine] at h
  split at h
  · exact ⟨rest, h.symm⟩
  · have hlength : before.length ≤ source.length := by
      have := congrArg List.length h
      have := List.length_pos_iff.mpr hne
      simp only [List.length_append, List.length_singleton] at *
      omega
    exact List.prefix_of_prefix_length_le ⟨rest, h.symm⟩ (List.prefix_append _ _) hlength

theorem lineWidth?_of_endLine {source before rest : List Char} (hne : rest ≠ [])
    (h : endLine source = before ++ rest) :
    lineWidth? source (Point.after ⟨1, 1⟩ before) = some (Cursor.start.after before).width := by
  obtain ⟨after, rfl⟩ := prefix_of_endLine hne h
  exact lineWidth?_append before after

/-- The parse is before its next token: the blanks and hidden line breaks there are passed over. -/
theorem Progress.Reads.exists_place {m : Progress} {source before cs rest : List Char} {t : Token}
    {fuel : Nat} (hreads : m.Reads source before cs)
    (hnext : Scan.next (candidates m.stack) fuel (Point.after ⟨1, 1⟩ before) cs = .token t rest) :
    ∃ place, t.span.start = Point.after ⟨1, 1⟩ place ∧ t.span.stop = t.span.start.after t.text ∧
      m.Reads source place (t.text ++ rest) ∧
      (Cursor.start.after place).Follows (t.text ++ rest) (.token t.kind, t.text, rest) := by
  have hends := hreads.endsLines
  obtain ⟨htext, hrest, hdepth, hwidth⟩ := hreads
  obtain ⟨gap, rfl, hstart, hstop, hpasses, hfollows⟩ :=
    Cursor.exists_gap_of_next hnext hrest hends
  obtain ⟨hrest', hdepth', hwidth'⟩ := hpasses
  rw [← Cursor.after_append] at hrest' hdepth' hwidth' hfollows
  rw [← Point.after_append] at hstart
  refine ⟨before ++ gap, hstart, hstop, ⟨?_, hrest', hdepth'.trans hdepth, ?_⟩, hfollows⟩
  · rw [htext, List.append_assoc]
  · exact hwidth'.trans hwidth

/-- What a parse hands over for one token is on the levels that it leaves open. -/
theorem Progress.Reads.take {m m' : Progress} {source place rest : List Char} {t : Token}
    (hreads : m.Reads source place (t.text ++ rest))
    (hstart : t.span.start = Point.after ⟨1, 1⟩ place)
    (hfollows : (Cursor.start.after place).Follows (t.text ++ rest) (.token t.kind, t.text, rest))
    (h : m.take t = .ok m') :
    OnLevels (tokenWidth source) m.layout.levels (m.handed t) m'.layout.levels ∧
      m'.Reads source (place ++ t.text) rest := by
  obtain ⟨htext, -, hdepth, hwidth⟩ := hreads
  obtain ⟨-, hne, hrest, hdepth', hwidth', hplain⟩ := hfollows
  dsimp only at hne hrest hdepth' hwidth' hplain
  rw [← Cursor.after_append] at hrest hdepth' hwidth'
  rw [hdepth] at hdepth' hwidth'
  rw [hwidth] at hwidth'
  have htext' : endLine source = (place ++ t.text) ++ rest := by
    rw [htext, List.append_assoc]
  obtain ⟨-, ⟨hline, hbrackets, hhanded, -, hlayout⟩ | ⟨hline, hbrackets, marks, levels, henter,
    hhanded, -, hlayout⟩ | ⟨hline, hhanded, -, hlayout⟩⟩ := take_cases h
  · -- a line break inside brackets
    rw [if_neg fun h => hbrackets h.2] at hwidth'
    rw [hline] at hdepth'
    rw [hhanded, hlayout]
    exact ⟨.nil _, htext', hrest, hlayout ▸ hdepth', hlayout ▸ hwidth'⟩
  · -- a line break with its marks
    obtain ⟨hmet, hmarks⟩ := Layout.enter_onLevels henter (tokenWidth source)
    rw [if_pos ⟨by rw [hline], hbrackets⟩] at hwidth'
    rw [hline, hbrackets] at hdepth'
    rw [hhanded, hlayout]
    exact ⟨.newline hline hmarks, htext', hrest, hlayout ▸ hdepth',
      hlayout ▸ hwidth'.trans hmet.symm⟩
  · -- a token of the text
    have hkind : Scan.Lexeme.token t.kind ≠ .token .newline := by simpa using hline
    rw [if_neg fun h => hkind h.1] at hwidth'
    rw [hhanded, hlayout, Layout.track_levels]
    refine ⟨.plain (hplain hkind _ rfl) ?_ (.nil _), htext', hrest, ?_, ?_⟩
    · rw [tokenWidth, hstart, lineWidth?_of_endLine (by simp [hne]) htext, hwidth]
    · rw [hlayout, Layout.track_brackets]
      exact hdepth'
    · rw [hlayout, Layout.track_levels]
      exact hwidth'

/-- After the next token the parse is where the token stops. -/
theorem Progress.Reads.exists_next {m m' : Progress} {source before cs rest : List Char} {t : Token}
    {fuel : Nat} (hreads : m.Reads source before cs)
    (hnext : Scan.next (candidates m.stack) fuel (Point.after ⟨1, 1⟩ before) cs = .token t rest)
    (htake : m.take t = .ok m') :
    ∃ before', t.span.stop = Point.after ⟨1, 1⟩ before' ∧ m'.Reads source before' rest := by
  obtain ⟨place, hstart, hstop, hplace, hfollows⟩ := hreads.exists_place hnext
  obtain ⟨-, hreads'⟩ := hplace.take hstart hfollows htake
  refine ⟨place ++ t.text, ?_, hreads'⟩
  rw [hstop, hstart, Point.after_append]

/-- At the end of input the marks close all levels but the outermost. -/
theorem Progress.closing_onLevels (m : Progress) (width : Token → Option Nat) :
    ∃ levels, OnLevels width m.layout.levels m.closing levels := by
  rw [Progress.closing, Layout.finish]
  rcases List.eq_nil_or_concat m.layout.levels with hlevels | ⟨closed, outermost, hlevels⟩
  · rw [hlevels]
    exact ⟨_, .nil _⟩
  · rw [hlevels, List.concat_eq_append, List.dropLast_concat]
    exact ⟨_, OnLevels.of_dedents width closed [outermost] m.previous⟩

/-- A parse takes the tokens of a source, each where it stands, up to the end of input. -/
inductive Progress.Takes (source : List Char) : Progress → List Token → Prop
  | finish (m : Progress) : Takes source m m.closing
  | take {m m' : Progress} {place rest : List Char} {t : Token} {ts : List Token}
      (start : t.span.start = Point.after ⟨1, 1⟩ place)
      (reads : m.Reads source place (t.text ++ rest))
      (follows : (Cursor.start.after place).Follows (t.text ++ rest) (.token t.kind, t.text, rest))
      (taken : m.take t = .ok m') (others : Takes source m' ts) :
      Takes source m (m.handed t ++ ts)

theorem Progress.Reads.takes {fuel : Nat} {m : Progress} {source before cs : List Char}
    {tree : Tree (.n .file)} (hreads : m.Reads source before cs)
    (h : run fuel m (Point.after ⟨1, 1⟩ before) cs = .ok tree) :
    m.Takes source (Parser.handed fuel m (Point.after ⟨1, 1⟩ before) cs) := by
  induction fuel generalizing m before cs with
  | zero => exact .finish m
  | succ fuel ih =>
    cases hnext : Scan.next (candidates m.stack) (cs.length + 1) (Point.after ⟨1, 1⟩ before) cs with
    | finished =>
      rw [Parser.handed, hnext]
      exact .finish m
    | stuck place rest =>
      rw [run, hnext] at h
      cases h
    | token t rest =>
      obtain ⟨m', htake⟩ := exists_take hnext h
      obtain ⟨place, hstart, hstop, hplace, hfollows⟩ := hreads.exists_place hnext
      obtain ⟨-, hreads'⟩ := hplace.take hstart hfollows htake
      rw [run_of_token hnext htake, hstop, hstart, ← Point.after_append] at h
      rw [handed_of_token hnext htake, hstop, hstart, ← Point.after_append]
      exact .take hstart hplace hfollows htake (ih hreads' h)

theorem takes_of_derive {source : List Char} {tree : Tree (.n .file)}
    (h : derive source = .ok tree) : Progress.initial.Takes source tree.tokens := by
  rw [tokens_of_derive h]
  exact (reads_initial source).takes h

/-- The tokens that a successful parse hands over are on its levels. -/
theorem Progress.Takes.onLevels {m : Progress} {source : List Char} {ts : List Token}
    (h : m.Takes source ts) :
    ∃ levels, OnLevels (tokenWidth source) m.layout.levels ts levels := by
  induction h with
  | finish m => exact m.closing_onLevels _
  | take hstart hreads hfollows htake _ ih =>
    obtain ⟨hhanded, -⟩ := hreads.take hstart hfollows htake
    obtain ⟨levels, hrest⟩ := ih
    exact ⟨levels, hhanded.append hrest⟩

theorem onLevels_of_derive {source : List Char} {tree : Tree (.n .file)}
    (h : derive source = .ok tree) :
    ∃ levels, OnLevels (tokenWidth source) [0] tree.tokens levels :=
  (takes_of_derive h).onLevels

end Parser
end Starlark
