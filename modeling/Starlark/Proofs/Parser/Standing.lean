import Starlark.Proofs.Lexer.Places
import Starlark.Proofs.Parser.Levels

/-! # Tokens stand in their source

But for the marks of the layout, every token of a parse is a stretch of the source that begins
where its span says. So a character inside of a token is found at its point in the source.
-/
namespace Starlark

/-- Is a token a stretch of a source, where its span begins? The last line break of the source may
be missing. -/
def Token.StandsIn (t : Token) (source : List Char) : Prop :=
  ∃ before after, Parser.endLine source = before ++ (t.text ++ after) ∧
    t.span.start = Point.after ⟨1, 1⟩ before

/-- Two neighbours on a line inside of a token are neighbours in the source. -/
theorem Token.StandsIn.charAt? {t : Token} {source front back : List Char} {c d : Char}
    (h : t.StandsIn source) (htext : t.text = front ++ c :: d :: back) (hback : back ≠ [])
    (hc : c ≠ '\n') (hd : d ≠ '\n') :
    Starlark.charAt? source (t.span.start.after front) = some c ∧
      Starlark.charAt? source ((t.span.start.after front).next c) = some d := by
  obtain ⟨before, after, hsource, hstart⟩ := h
  have hsource' : Parser.endLine source = (before ++ front ++ [c, d]) ++ (back ++ after) := by
    rw [hsource, htext]
    simp
  obtain ⟨rest, rfl⟩ := Parser.prefix_of_endLine (by simp [hback]) hsource'
  rw [hstart, ← Point.after_append]
  constructor
  · have hat := charAt?_after hc (before ++ front) (d :: rest)
    simpa using hat
  · have hat := charAt?_after hd (before ++ front ++ [c]) rest
    rw [Point.after_append _ (before ++ front)] at hat
    simpa [Point.after] using hat

namespace Parser

/-- The kinds of token that have no place of their own. -/
def placeless : List Terminal := [.indent, .dedent, .endOfInput]

/-- The marks of a line break open or close levels. -/
theorem mem_enter {levels : List Nat} {width : Nat} {t u : Token}
    (hu : u ∈ (Layout.enter levels width t).1) :
    ∃ kind ∈ [Terminal.indent, .dedent], u = t.mark kind := by
  rw [Layout.enter] at hu
  split at hu
  · exact ⟨.indent, by decide, List.mem_singleton.mp hu⟩
  · obtain ⟨level, -, rfl⟩ := List.mem_map.mp hu
    exact ⟨.dedent, by decide, rfl⟩

/-- What is handed over for a token is nothing, or the token with marks of it. -/
theorem Progress.handed_cases (m : Progress) (t : Token) :
    m.handed t = [] ∨ ∃ marks, m.handed t = t :: marks ∧
      ∀ u ∈ marks, ∃ kind ∈ [Terminal.indent, .dedent], u = t.mark kind := by
  rw [Progress.handed]
  split
  · split
    · exact .inl rfl
    · exact .inr ⟨_, rfl, fun u hu => mem_enter hu⟩
  · exact .inr ⟨[], rfl, List.forall_mem_nil _⟩

theorem Progress.mem_handed {m : Progress} {t u : Token} (hu : u ∈ m.handed t) :
    u = t ∨ ∃ kind ∈ [Terminal.indent, .dedent], u = t.mark kind := by
  rcases m.handed_cases t with hnone | ⟨marks, hhanded, hmarks⟩
  · rw [hnone] at hu
    cases hu
  · rw [hhanded] at hu
    exact (List.mem_cons.mp hu).imp_right (hmarks u)

theorem mark_mem_kinds : ∀ kind ∈ [Terminal.indent, .dedent], kind ∈ Layout.kinds := by decide

theorem mark_mem_placeless : ∀ kind ∈ [Terminal.indent, .dedent], kind ∈ placeless := by decide

theorem dedent_mem_kinds : Terminal.dedent ∈ Layout.kinds := by decide

/-- Every token of a parse but the marks of the layout stands in the source. -/
theorem Progress.Takes.standsIn {m : Progress} {source : List Char} {ts : List Token}
    (h : m.Takes source ts) : ∀ t ∈ ts, t.kind ∉ Layout.kinds → t.StandsIn source := by
  induction h with
  | finish m =>
    intro t ht hkind
    obtain ⟨level, -, rfl⟩ := List.mem_map.mp ht
    exact absurd dedent_mem_kinds hkind
  | take hstart hreads _ _ _ ih =>
    intro u hu hkind
    rcases List.mem_append.mp hu with hu | hu
    · rcases mem_handed hu with rfl | ⟨kind, hmark, rfl⟩
      · exact ⟨_, _, hreads.text, hstart⟩
      · exact absurd (mark_mem_kinds kind hmark) hkind
    · exact ih u hu hkind

end Parser
end Starlark
