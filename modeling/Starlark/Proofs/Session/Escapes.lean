import Mathlib.Data.Finset.Card
import Mathlib.Data.Finset.Option
import Starlark.Proofs.Grammar.Events
import Starlark.Proofs.Resolve.Loops
import Starlark.Proofs.Session.Steps

/-! # Escape notes of a file and its views

The views of a file share its reporter and its escape notes, but each has a mark of its own that
says whether the notes were turned into errors. So every note is reported as often as there are
views that turned them into errors, and not more often.
-/
namespace Starlark

/-- What may be done with a parsed file and its views, each named by its position. -/
inductive ViewStep
  | subTree (view : Nat) (first last : Int)
  | withPrelude (view : Nat) (prelude : List Stmt)
  | addEscapes (view : Nat)
  | validate (view : Nat) (settings : Settings)

theorem Diagnostic.IsFlowError.not_isEscapeNote {d : Diagnostic} (h : d.IsFlowError) :
    ¬ d.IsEscapeNote := by
  intro hnote
  rcases List.suffix_or_suffix_of_suffix h.suffix hnote with hle | hle
  · exact absurd hle (by decide)
  · exact absurd hle (by decide)

theorem EndsAsListed.not_isEscapeNote {d : Diagnostic} (h : EndsAsListed d.message) :
    ¬ d.IsEscapeNote :=
  h.not_suffix (by decide)

/-- What a validation finds is no note of an escape. -/
theorem SourceFile.findings_not_isEscapeNote (f : SourceFile) {settings : Settings}
    (known : settings.env.KnownFlags) :
    ∀ d ∈ (f.findings settings).filterMap (Finding.diagnostic? settings.env),
      ¬ d.IsEscapeNote := by
  intro d hd
  obtain ⟨e, he, hde⟩ := List.mem_filterMap.mp hd
  have hends := Settings.findings_endsAsListed known settings.env.predeclared f.statements e he
  cases hflow : e.flow? with
  | none => exact (hends hflow d hde).not_isEscapeNote
  | some p =>
    obtain rfl := Finding.eq_of_flow?_eq_some hflow
    cases hde
    exact Diagnostic.IsFlowError.not_isEscapeNote ⟨p.1, rfl⟩

namespace Session

/-- One step on the views. What a validation has written before a fault stays. -/
def act (s : Session) : ViewStep → Session
  | .subTree i first last => match s.files[i]? with
    | none => s
    | some f => s.add (f.subTree first last) s.workspace
  | .withPrelude i prelude => match s.files[i]? with
    | none => s
    | some f => s.add (f.withPrelude prelude) s.workspace
  | .addEscapes i => match s.files[i]? with
    | none => s
    | some f => s.put i (s.workspace.addEscapes f).1 (s.workspace.addEscapes f).2
  | .validate i settings => match s.files[i]? with
    | none => s
    | some f => s.put i (s.workspace.validate f settings).2.1 (s.workspace.validate f settings).2.2

def actAll (s : Session) (steps : List ViewStep) : Session := steps.foldl act s

/-- The view whose escape notes a step is to turn into errors. A validation in an environment with
an unknown flag does not come to that. -/
def promotes (s : Session) : ViewStep → Option Nat
  | .subTree _ _ _ => none
  | .withPrelude _ _ => none
  | .addEscapes i => if i < s.files.length then some i else none
  | .validate i settings =>
    if i < s.files.length ∧ settings.env.variableNames.isOk ∧
      settings.env.semantics.restrictStringEscapes then some i else none

/-- The views that some steps are to promote, in order. -/
def promotions (s : Session) : List ViewStep → List Nat
  | [] => []
  | a :: steps => (s.promotes a).toList ++ (s.act a).promotions steps

/-- The views that are marked. -/
def marked (s : Session) : Finset Nat :=
  (Finset.range s.files.length).filter fun i => s.files[i]?.any (·.escapesAdded)

/-- The files of a session are views of one: they share its reporter and its escape notes. Since
there were errors `before`, each note was reported once for each marked view. -/
structure Views (s : Session) (root : SourceFile) (before : List Diagnostic) : Prop where
  reporter_lt : root.reporter < s.workspace.reporters.length
  reporter_eq : ∀ f ∈ s.files, f.reporter = root.reporter
  escapes_eq : ∀ f ∈ s.files, f.escapes = root.escapes
  notes : ∃ new, s.workspace.errors root = before ++ new ∧
    new.filter (·.IsEscapeNote) = (List.replicate s.marked.card root.escapes).flatten

variable {s : Session} {root f g : SourceFile} {before : List Diagnostic} {i : Nat}

theorem mem_marked : i ∈ s.marked ↔ ∃ f, s.files[i]? = some f ∧ f.escapesAdded = true := by
  rw [marked, Finset.mem_filter, Finset.mem_range, Option.any_eq_true]
  constructor
  · rintro ⟨-, h⟩
    exact h
  · rintro ⟨f, hf, h⟩
    exact ⟨(List.getElem?_eq_some_iff.mp hf).1, f, hf, h⟩

/-- A new view is not marked. -/
theorem marked_add (hg : g.escapesAdded = false) (w : Workspace) :
    (s.add g w).marked = s.marked := by
  ext i
  rw [mem_marked, mem_marked, add]
  dsimp only
  rcases Nat.lt_trichotomy i s.files.length with hi | rfl | hi
  · rw [List.getElem?_append_left hi]
  · simp [hg]
  · rw [List.getElem?_append_right hi.le, List.getElem?_eq_none hi.le,
      List.getElem?_eq_none (by simpa using Nat.succ_le_of_lt (Nat.sub_pos_of_lt hi))]

/-- A view that is replaced is marked if it was, or if it was promoted. -/
theorem marked_put (hf : s.files[i]? = some f) (promoted : Bool)
    (hg : g.escapesAdded = (f.escapesAdded || promoted)) (w : Workspace) :
    (s.put i g w).marked = s.marked ∪ (if promoted then some i else none).toFinset := by
  have hi := (List.getElem?_eq_some_iff.mp hf).1
  ext j
  rw [mem_marked, Finset.mem_union, mem_marked, put]
  dsimp only
  by_cases hij : i = j
  · subst hij
    rw [List.getElem?_set_self hi, hf]
    cases promoted <;> simp [hg]
  · rw [List.getElem?_set_ne hij]
    cases promoted <;> simp [Ne.symm hij]

/-- A view that is promoted brings its notes once more, if it was not marked before. -/
theorem flatten_promoted (hf : s.files[i]? = some f) (promoted : Bool) :
    (List.replicate (s.marked ∪ (if promoted then some i else none).toFinset).card
      f.escapes).flatten =
        (List.replicate s.marked.card f.escapes).flatten ++ f.unreported promoted := by
  rw [SourceFile.unreported]
  cases promoted with
  | false => simp
  | true =>
    cases hadded : f.escapesAdded with
    | true =>
      have hmem : i ∈ s.marked := mem_marked.mpr ⟨f, hf, hadded⟩
      simp [hmem]
    | false =>
      have hmem : i ∉ s.marked := by
        rw [mem_marked]
        rintro ⟨k, hk, hadded'⟩
        obtain rfl := Option.some.inj (hf.symm.trans hk)
        rw [hadded] at hadded'
        cases hadded'
      have hcard : (s.marked ∪ (some i).toFinset).card = s.marked.card + 1 := by
        rw [Option.toFinset_some, Finset.union_singleton, Finset.card_insert_of_notMem hmem]
      simp only [Bool.not_false, Bool.and_self, ↓reduceIte, hcard, List.replicate_succ',
        List.flatten_append, List.flatten_singleton]

namespace Views

theorem addView (h : s.Views root before) (hr : g.reporter = root.reporter)
    (he : g.escapes = root.escapes) (hg : g.escapesAdded = false) :
    (s.add g s.workspace).Views root before := by
  refine ⟨h.reporter_lt, ?_, ?_, ?_⟩
  · exact List.forall_mem_append.mpr ⟨h.reporter_eq, List.forall_mem_singleton.mpr hr⟩
  · exact List.forall_mem_append.mpr ⟨h.escapes_eq, List.forall_mem_singleton.mpr he⟩
  · rw [marked_add hg]
    exact h.notes

/-- What is written for a view: its escape notes, if it is promoted and was not marked before, and
then errors of another kind. -/
theorem put (h : s.Views root before) (hnotes : ∀ d ∈ root.escapes, d.IsEscapeNote)
    (hf : s.files[i]? = some f) (promoted : Bool) {own : List Diagnostic}
    (hown : ∀ d ∈ own, ¬ d.IsEscapeNote) (hr : g.reporter = f.reporter)
    (he : g.escapes = f.escapes) (hg : g.escapesAdded = (f.escapesAdded || promoted)) :
    (s.put i g (s.workspace.modifyReporter f
      (·.extend (f.unreported promoted ++ own)))).Views root before := by
  have hin : f ∈ s.files := List.mem_of_getElem? hf
  have hfr := h.reporter_eq f hin
  have hfe := h.escapes_eq f hin
  have hlt : f.reporter < s.workspace.reporters.length := hfr ▸ h.reporter_lt
  obtain ⟨new, hnew, hfilter⟩ := h.notes
  refine ⟨by simpa [Session.put, Workspace.modifyReporter] using h.reporter_lt, ?_, ?_,
    new ++ (f.unreported promoted ++ own), ?_, ?_⟩
  · intro k hk
    rcases List.mem_or_eq_of_mem_set hk with hk | rfl
    · exact h.reporter_eq k hk
    · exact hr.trans hfr
  · intro k hk
    rcases List.mem_or_eq_of_mem_set hk with hk | rfl
    · exact h.escapes_eq k hk
    · exact he.trans hfe
  · rw [Session.put, Workspace.errors_extend hlt hfr.symm, Workspace.errors,
      Workspace.reporter_congr hfr, ← Workspace.errors, hnew, List.append_assoc]
  · have hownFilter : own.filter (·.IsEscapeNote) = [] := by
      simpa [List.filter_eq_nil_iff] using hown
    have hescFilter : (f.unreported promoted).filter (·.IsEscapeNote) = f.unreported promoted := by
      rw [List.filter_eq_self]
      intro d hd
      rw [SourceFile.unreported, hfe] at hd
      split at hd
      · exact decide_eq_true (hnotes d hd)
      · cases hd
    rw [marked_put hf promoted hg, List.filter_append, List.filter_append, hfilter, hownFilter,
      hescFilter, List.append_nil, ← hfe, flatten_promoted hf]

end Views

/-- Every step keeps the views together, and marks the view that it promotes. -/
theorem Views.act (h : s.Views root before) (hnotes : ∀ d ∈ root.escapes, d.IsEscapeNote)
    (a : ViewStep) :
    (s.act a).Views root before ∧ (s.act a).marked = s.marked ∪ (s.promotes a).toFinset := by
  cases a with
  | subTree i first last =>
    rw [Session.act, promotes, Option.toFinset_none, Finset.union_empty]
    cases hf : s.files[i]? with
    | none => exact ⟨h, rfl⟩
    | some f =>
      have hin : f ∈ s.files := List.mem_of_getElem? hf
      exact ⟨h.addView (h.reporter_eq f hin) (h.escapes_eq f hin) rfl, marked_add rfl _⟩
  | withPrelude i prelude =>
    rw [Session.act, promotes, Option.toFinset_none, Finset.union_empty]
    cases hf : s.files[i]? with
    | none => exact ⟨h, rfl⟩
    | some f =>
      have hin : f ∈ s.files := List.mem_of_getElem? hf
      exact ⟨h.addView (h.reporter_eq f hin) (h.escapes_eq f hin) rfl, marked_add rfl _⟩
  | addEscapes i =>
    rw [Session.act, promotes]
    cases hf : s.files[i]? with
    | none =>
      rw [if_neg (Nat.not_lt.mpr (List.getElem?_eq_none_iff.mp hf))]
      exact ⟨h, by simp⟩
    | some f =>
      have hmark : true = (f.escapesAdded || true) := (Bool.or_true _).symm
      have hviews := h.put (g := { f with escapesAdded := true }) hnotes hf true
        (List.forall_mem_nil _) rfl rfl hmark
      rw [if_pos (List.getElem?_eq_some_iff.mp hf).1]
      dsimp only
      rw [Workspace.addEscapes_writes]
      rw [List.append_nil] at hviews
      exact ⟨hviews, marked_put hf true hmark _⟩
  | validate i settings =>
    rw [Session.act, promotes]
    cases hf : s.files[i]? with
    | none =>
      rw [if_neg fun hi => Nat.not_lt.mpr (List.getElem?_eq_none_iff.mp hf) hi.1]
      exact ⟨h, by simp⟩
    | some f =>
      have hin : f ∈ s.files := List.mem_of_getElem? hf
      obtain ⟨promoted, own, t, hpromoted, hfound, hv⟩ := s.workspace.validate_writes f settings
        (h.reporter_eq f hin ▸ h.reporter_lt)
      have hown : ∀ d ∈ own, ¬ d.IsEscapeNote := fun d hd =>
        f.findings_not_isEscapeNote (hfound d hd).1 d (hfound d hd).2
      have hif : (if i < s.files.length ∧ settings.env.variableNames.isOk ∧
          settings.env.semantics.restrictStringEscapes then some i else none) =
            if promoted then some i else none := by
        simp [hpromoted, (List.getElem?_eq_some_iff.mp hf).1]
      dsimp only
      rw [hif, hv]
      dsimp only
      exact ⟨h.put hnotes hf promoted hown (by rfl) (by rfl) (by rfl),
        marked_put hf promoted (by rfl) _⟩

/-- The marked views are those that were promoted. -/
theorem Views.actAll (h : s.Views root before) (hnotes : ∀ d ∈ root.escapes, d.IsEscapeNote)
    (steps : List ViewStep) :
    (s.actAll steps).Views root before ∧
      (s.actAll steps).marked = s.marked ∪ (s.promotions steps).toFinset := by
  induction steps generalizing s with
  | nil => exact ⟨h, by simp [Session.actAll, promotions]⟩
  | cons a steps ih =>
    obtain ⟨hviews, hmarked⟩ := h.act hnotes a
    obtain ⟨hviews', hmarked'⟩ := ih hviews
    refine ⟨hviews', hmarked'.trans ?_⟩
    rw [hmarked, Finset.union_assoc, promotions, List.toFinset_append]
    cases s.promotes a <;> rfl

theorem escapes_of_parse {w w₁ : Workspace} {text name : String}
    (hparse : w.parse text name = (f, w₁)) : ∀ d ∈ f.escapes, d.IsEscapeNote := by
  have hevents := parseStatements_events text name w.nextId
  rw [Workspace.parse] at hparse
  rcases hp : parseStatements text name w.nextId with ⟨e | ss, notes⟩
  · simp only [hp, Prod.mk.injEq] at hparse
    obtain ⟨rfl, -⟩ := hparse
    exact fun _ hd => by cases hd
  · rw [hp] at hevents
    simp only [hp, Prod.mk.injEq] at hparse
    obtain ⟨rfl, -⟩ := hparse
    exact hevents

theorem views_of_parse {w w₁ : Workspace} {text name : String}
    (hparse : w.parse text name = (f, w₁)) :
    (Session.mk w₁ [f]).Views f (w₁.errors f) ∧ (Session.mk w₁ [f]).marked = ∅ := by
  have hp := Workspace.parsed_of_parse hparse
  have hmarked : (Session.mk w₁ [f]).marked = ∅ := by
    simp [marked, hp.escapesAdded_eq]
  refine ⟨⟨hp.reporter_lt, by simp, by simp, [], (List.append_nil _).symm, ?_⟩, hmarked⟩
  rw [hmarked]
  rfl

/-- A parsed file and its views, after any steps on them: each of the escape notes was reported
once for each view that was promoted, and never if none was. -/
theorem escapes_per_view {w w₁ : Workspace} {text name : String}
    (hparse : w.parse text name = (f, w₁)) (steps : List ViewStep) :
    (∀ d ∈ f.escapes, d.IsEscapeNote) ∧ ∃ new,
      ((Session.mk w₁ [f]).actAll steps).workspace.errors f = w₁.errors f ++ new ∧
      new.filter (·.IsEscapeNote) =
        (List.replicate ((Session.mk w₁ [f]).promotions steps).toFinset.card
          f.escapes).flatten := by
  have hnotes := escapes_of_parse hparse
  obtain ⟨hviews, hnone⟩ := views_of_parse hparse
  obtain ⟨hafter, hmarked⟩ := hviews.actAll hnotes steps
  obtain ⟨new, hnew, hfilter⟩ := hafter.notes
  rw [hnone, Finset.empty_union] at hmarked
  rw [hmarked] at hfilter
  exact ⟨hnotes, new, hnew, hfilter⟩

/-- A file whose notes are reported again and again, by itself alone. -/
theorem escapes_per_view_of_one :
    ∃ f w₁, Workspace.empty.parse "x = \"\\d\"\n" "f.bzl" = (f, w₁) ∧ f.escapes.length = 1 ∧
      (Session.mk w₁ [f]).promotions [.addEscapes 0, .addEscapes 0] = [0, 0] ∧
      (∀ d ∈ f.escapes, d.IsEscapeNote) ∧ ∃ new,
        ((Session.mk w₁ [f]).actAll [.addEscapes 0, .addEscapes 0]).workspace.errors f =
          w₁.errors f ++ new ∧
        new.filter (·.IsEscapeNote) =
          (List.replicate ((Session.mk w₁ [f]).promotions
            [.addEscapes 0, .addEscapes 0]).toFinset.card f.escapes).flatten :=
  ⟨_, _, (Prod.eta _).symm, by decide +kernel, by decide +kernel,
    escapes_per_view (Prod.eta _).symm [.addEscapes 0, .addEscapes 0]⟩

/-- The mark of a file is not that of a view of it: both report the one note that they share. -/
theorem escapes_per_view_of_two :
    ∃ f w₁, Workspace.empty.parse "x = \"\\d\"\n" "f.bzl" = (f, w₁) ∧ f.escapes.length = 1 ∧
      ((Session.mk w₁ [f]).actAll
        [.subTree 0 0 1, .addEscapes 0, .addEscapes 1]).workspace.errors f =
          f.escapes ++ f.escapes := by
  refine ⟨_, _, (Prod.eta _).symm, ?_, ?_⟩
  · decide +kernel
  · decide +kernel

end Session
end Starlark
