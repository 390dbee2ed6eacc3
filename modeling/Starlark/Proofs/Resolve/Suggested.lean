import Starlark.Proofs.Resolve.Messages
import Starlark.Proofs.Resolve.Sites
import Starlark.Proofs.Spelling.Suggestions

/-! # Suggested names

A message suggests a name only for a reference whose own name no open block binds, and what it
suggests is a name that some open block binds. So the suggestion resolves where the name does not.
-/
namespace Starlark

/-- Is a diagnostic about an unknown name, with a suggestion? -/
def Diagnostic.Suggests (d : Diagnostic) (name suggestion : String) : Prop :=
  d.message = "name '" ++ name ++ "' is not defined (did you mean '" ++ suggestion ++ "'?)"

/-- A diagnostic that suggests another name for one that is not visible, and one that is. -/
structure Diagnostic.Corrects (d : Diagnostic) (name : String) (Visible : String → Prop) :
    Prop where
  unknown : ¬ Visible name
  suggests : ∃ y, d.Suggests name y
  visible : ∀ y, d.Suggests name y → y ≠ name ∧ Visible y

namespace Diagnostic.Suggests
variable {d : Diagnostic} {name suggestion : String}

theorem begins (h : d.Suggests name suggestion) : "name '".toList <+: d.message.toList := by
  rw [h, String.append_assoc, String.append_assoc, String.append_assoc, String.toList_append]
  exact List.prefix_append _ _

theorem ends (h : d.Suggests name suggestion) : "'?)".toList <:+ d.message.toList := by
  rw [h, String.toList_append]
  exact List.suffix_append _ _

end Diagnostic.Suggests

/-- A text that begins in another way suggests nothing. -/
theorem BeginsWith.not_suggests {fronts : List String} {d : Diagnostic}
    (h : BeginsWith fronts d.message)
    (hapart : ∀ t ∈ fronts, ¬ t.toList <+: "name '".toList ∧ ¬ "name '".toList <+: t.toList)
    {n y : String} : ¬ d.Suggests n y :=
  fun hsuggests => h.not_begins hapart hsuggests.begins

/-- The message for an unknown name suggests what is the nearest of the candidates. -/
theorem suggests_of_unknownNameMessage {d : Diagnostic} {name : String} {candidates : List String}
    (hd : d.message = unknownNameMessage name candidates) {n y : String} (h : d.Suggests n y) :
    ∃ x, Spelling.suggest? name candidates = some x ∧ ∀ z, d.Suggests name z ↔ z = x := by
  unfold unknownNameMessage at hd
  split at hd
  · have hfront := h.begins
    rw [hd] at hfront
    exact absurd hfront (by decide)
  · split at hd
    · next message hobsolete =>
      rw [← hd] at hobsolete
      exact absurd h.begins ((obsoleteMessage?_beginsWith hobsolete).not_begins (by decide))
    · rw [Spelling.didYouMean] at hd
      cases hs : Spelling.suggest? name candidates with
      | none =>
        have hdefined : "' is not defined".toList <:+ d.message.toList := by
          rw [hd, hs, String.append_empty, String.toList_append]
          exact List.suffix_append _ _
        have hends : EndsWith ["' is not defined"] d.message :=
          ⟨_, List.mem_singleton_self _, hdefined⟩
        exact absurd h.ends (hends.not_suffix (by decide))
      | some x =>
        have hmiddle : "' is not defined (did you mean '" =
            "' is not defined" ++ " (did you mean '" := by decide
        refine ⟨x, rfl, fun z => ?_⟩
        rw [hs] at hd
        rw [Diagnostic.Suggests, hd, hmiddle]
        simp only [String.append_assoc, String.append_right_inj, String.append_left_inj]
        exact eq_comm

/-- The message for a guarded name suggests nothing: it ends with a flag or its value. -/
theorem GuardedName.not_suggests {g : GuardedName} (h : Semantics.Knows g.flag) {d : Diagnostic}
    (hd : d.message = g.accessMessage) (n y : String) : ¬ d.Suggests n y := by
  have hends : EndsWith ["_statement", "_escapes", "=false"] g.accessMessage := by
    unfold accessMessage
    cases g.guard with
    | deprecated => exact .append ⟨"=false", by decide, by decide⟩ _
    | experimental =>
      rcases h with h | h
      · rw [h]
        exact .append ⟨"_statement", by decide, by decide⟩ _
      · rw [h]
        exact .append ⟨"_escapes", by decide, by decide⟩ _
  rw [← hd] at hends
  exact fun hsuggests => hends.not_suffix (by decide) hsuggests.ends

/-- The error for a name that is not among the visible ones. -/
theorem corrects_of_unresolved {env : Environment} (known : env.KnownFlags) {x : Identifier}
    {candidates : List String} {Visible : String → Prop}
    (hvisible : ∀ y, Visible y ↔ y ∈ candidates) (hunknown : ¬ Visible x.name)
    {d : Diagnostic} (hd : d = match env.hiddenNames.find? (·.name == x.name) with
      | some g => { message := g.accessMessage, loc := x.loc }
      | none => { message := unknownNameMessage x.name candidates, loc := x.loc })
    {n y : String} (h : d.Suggests n y) : d.loc = x.loc ∧ d.Corrects x.name Visible := by
  split at hd
  · next g hg =>
    have hguarded : g ∈ env.guarded := List.mem_of_mem_filter (List.mem_of_find?_eq_some hg)
    rw [hd] at h
    exact absurd h (GuardedName.not_suggests (known g hguarded) rfl n y)
  · obtain ⟨z, hz, honly⟩ := suggests_of_unknownNameMessage (congrArg Diagnostic.message hd) h
    have hnearest := Spelling.nearest_of_suggest? hz
    refine ⟨by rw [hd], hunknown, ⟨z, (honly z).mpr rfl⟩, fun y hy => ?_⟩
    rw [(honly y).mp hy]
    exact ⟨hnearest.near.1, (hvisible z).mpr hnearest.mem⟩

namespace Resolve

/-- A reference suggests a name only where its own does not resolve and the suggestion does. -/
theorem reference_suggests (settings : Settings) (x : Identifier) (r : Resolution) :
    ∃ own, ((reference settings x).run.run r).2.errors = r.errors ++ own ∧
      ∀ d ∈ own, ∀ n y, d.Suggests n y →
        d.loc = x.loc ∧ d.Corrects x.name fun y => (r.chain.resolve? y).isSome := by
  cases hx : r.chain.resolve? x.name with
  | some block =>
    refine ⟨[], ?_, by simp⟩
    have hrun : (reference settings x).run.run r =
        (tag settings x block.scope).run.run r := by
      rw [reference, run_bind, run_get]
      simp only [hx]
    rw [hrun, tag_run, List.append_nil]
    split
    · rfl
    · split <;> rfl
  | none =>
    rcases settings.env.guardedWhere_fault false with known | ⟨name, hname⟩
    · rw [reference_run known, hx]
      refine ⟨_, rfl, fun d hd n y h => ?_⟩
      refine corrects_of_unresolved known r.chain.isSome_resolve?_iff ?_
        (List.mem_singleton.mp hd) h
      simp [hx]
    · refine ⟨[], ?_, by simp⟩
      rw [reference, run_bind, run_get, List.append_nil]
      simp only [hx, Environment.restricted, hname, run_bind, run_lift]

end Resolve

/-- A finding that suggests a name is a reference where the suggestion resolves. -/
def Finding.SuggestsVisible (env : Environment) (e : Finding) : Prop :=
  ∀ d ∈ e.diagnostic? env, ∀ n y, d.Suggests n y → ∃ site, e.site? = some site ∧
    d.loc = site.1.loc ∧ d.Corrects site.1.name fun y => (Frame.find? site.2 y).isSome

theorem Finding.kinds_suggestsVisible {env : Environment} (known : env.KnownFlags) :
    Kinds (·.SuggestsVisible env) := by
  refine ⟨fun x frames d hd n y h => ⟨(x, frames), rfl, ?_⟩, fun m loc => ?_, fun bs d hd => ?_,
    nofun⟩
  · rw [diagnostic?] at hd
    split at hd
    · cases hd
    · next hx =>
      have hvisible : ∀ y, (Frame.find? frames y).isSome ↔ y ∈ frames.flatMap (·.names) := by
        intro y
        rw [Frame.isSome_find?, List.mem_flatMap]
      exact corrects_of_unresolved known hvisible (by simp [hx]) (Option.some.inj hd).symm h
  · rintro _ ⟨⟩ n y h
    exact absurd h (m.message_beginsWith.not_suggests (by decide))
  · rintro _ ⟨⟩ n y h
    exact absurd h ((repeatedLoads_beginsWith [] bs d hd).not_suggests (by decide))

/-- What a file gives rise to suggests a name only at a reference where the suggestion resolves. -/
theorem Settings.findings_suggest {settings : Settings} (known : settings.env.KnownFlags)
    (predeclared : List String) (ss : List Stmt) :
    ∀ d ∈ (settings.findings predeclared ss).filterMap (Finding.diagnostic? settings.env),
      ∀ n y, d.Suggests n y → ∃ site ∈ Stmt.sites predeclared ss,
        d.loc = site.1.loc ∧ d.Corrects site.1.name fun y => (Frame.find? site.2 y).isSome := by
  intro d hd n y h
  obtain ⟨e, he, hde⟩ := List.mem_filterMap.mp hd
  have hall : ∀ e ∈ settings.findings predeclared ss, e.SuggestsVisible settings.env := by
    refine forall_findings (Finding.kinds_suggestsVisible known) (fun name loc => ?_)
      (fun d hd => ?_)
    · rintro _ ⟨⟩ n y h
      exact absurd h ((readOnlyError_beginsWith name loc).not_suggests (by decide))
    · rintro _ ⟨⟩ n y h
      exact absurd h ((loadOrderErrors_beginsWith none ss d hd).not_suggests (by decide))
  obtain ⟨site, hsite, hcorrects⟩ := hall e he d hde n y h
  refine ⟨site, (Stmt.reachedSites_isPrefix predeclared ss).subset ?_, hcorrects⟩
  rw [← settings.findings_sites]
  exact List.mem_filterMap.mpr ⟨e, he, hsite⟩

end Starlark
