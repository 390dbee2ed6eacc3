/-! # How texts begin and end

A message has names in it that may be any text, but its beginning or its end is fixed. Of two
beginnings of one text one is a beginning of the other, so a text cannot begin in two ways that
differ, and the same holds of its ends.
-/
namespace Starlark

/-- Does a text begin with one of these? -/
def BeginsWith (fronts : List String) (text : String) : Prop :=
  ∃ t ∈ fronts, t.toList <+: text.toList

namespace BeginsWith
variable {fronts : List String} {text : String}

theorem append (h : BeginsWith fronts text) (rest : String) : BeginsWith fronts (text ++ rest) := by
  obtain ⟨t, ht, hprefix⟩ := h
  refine ⟨t, ht, hprefix.trans ?_⟩
  rw [String.toList_append]
  exact List.prefix_append _ _

theorem singleton_iff {front : String} :
    BeginsWith [front] text ↔ front.toList <+: text.toList := by
  simp [BeginsWith]

theorem not_begins (h : BeginsWith fronts text) {front : String}
    (hapart : ∀ t ∈ fronts, ¬ t.toList <+: front.toList ∧ ¬ front.toList <+: t.toList) :
    ¬ front.toList <+: text.toList := by
  intro hfront
  obtain ⟨t, ht, hprefix⟩ := h
  rcases List.prefix_or_prefix_of_prefix hprefix hfront with hle | hle
  · exact (hapart t ht).1 hle
  · exact (hapart t ht).2 hle

end BeginsWith

/-- Does a text end with one of these? -/
def EndsWith (endings : List String) (text : String) : Prop :=
  ∃ t ∈ endings, t.toList <:+ text.toList

namespace EndsWith
variable {endings : List String} {text : String}

theorem append (h : EndsWith endings text) (front : String) : EndsWith endings (front ++ text) := by
  obtain ⟨t, ht, hsuffix⟩ := h
  refine ⟨t, ht, hsuffix.trans ?_⟩
  rw [String.toList_append]
  exact List.suffix_append _ _

theorem not_suffix (h : EndsWith endings text) {ending : String}
    (hapart : ∀ t ∈ endings, ¬ t.toList <:+ ending.toList ∧ ¬ ending.toList <:+ t.toList) :
    ¬ ending.toList <:+ text.toList := by
  intro hending
  obtain ⟨t, ht, hsuffix⟩ := h
  rcases List.suffix_or_suffix_of_suffix hsuffix hending with hle | hle
  · exact (hapart t ht).1 hle
  · exact (hapart t ht).2 hle

end EndsWith

end Starlark
