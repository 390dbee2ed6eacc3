import Starlark.Proofs.Resolve.Outermost
import Starlark.Proofs.Session.Unwritable

/-! # Lexical resolution

A parsed file that is validated for the first time: each identifier that is looked up is tagged
with the scope of the innermost block that binds its name, and where no block does it is left
untagged and reported once. The numbers of a parsed file are different, so no look-up writes the
tag of another one. A target that cannot be reported ends the visit, so this holds up to there.
-/
namespace Starlark

/-- In a consistent file a number belongs to one site. -/
theorem Stmt.Consistent.site_eq {ss : List Stmt} (h : Consistent ss) {predeclared : List String}
    {a b : Identifier × List Frame} (ha : a ∈ sites predeclared ss)
    (hb : b ∈ sites predeclared ss) (hid : a.1.id = b.1.id) : a = b := by
  rw [sites_eq] at ha hb
  obtain ⟨c, hc, rfl⟩ := List.mem_map.mp ha
  obtain ⟨d, hd, rfl⟩ := List.mem_map.mp hb
  rw [h c hc d hd hid]

/-- A table that records the tags of some sites holds the tag of each of them, and no other. -/
theorem ScopeTable.extends_sites {ss : List Stmt} {predeclared : List String} {t : ScopeTable}
    {sites : List (Identifier × List Frame)} (h : Stmt.Consistent ss)
    (hsub : sites ⊆ Stmt.sites predeclared ss) (ht : empty.Extends t (sites.filterMap siteTag?)) :
    (∀ site ∈ sites, t.get? site.1 = (Frame.find? site.2 site.1.name).map (·.scope)) ∧
    ∀ x s, t.get? x = some s → ∃ site ∈ sites, site.1.id = x.id := by
  have hget : ∀ x s, t.get? x = some s ↔ ∃ site ∈ sites,
      site.1.id = x.id ∧ (Frame.find? site.2 site.1.name).map (·.scope) = some s := by
    intro x s
    rw [ht x s]
    constructor
    · rintro (hx | ⟨p, hp, hid, rfl⟩)
      · cases hx
      · obtain ⟨site, hsite, htag⟩ := List.mem_filterMap.mp hp
        obtain ⟨f, hf, rfl⟩ := Option.map_eq_some_iff.mp htag
        exact ⟨site, hsite, hid, by rw [hf, Option.map_some]⟩
    · rintro ⟨site, hsite, hid, hs⟩
      obtain ⟨f, hf, rfl⟩ := Option.map_eq_some_iff.mp hs
      refine Or.inr ⟨(site.1, f.scope), ?_, hid, rfl⟩
      exact List.mem_filterMap.mpr ⟨site, hsite, by rw [siteTag?, hf, Option.map_some]⟩
  refine ⟨fun site hsite => Option.ext fun s => ?_, fun x s hx => ?_⟩
  · rw [hget]
    constructor
    · rintro ⟨other, hother, hid, hs⟩
      rwa [h.site_eq (hsub hother) (hsub hsite) hid] at hs
    · intro hs
      exact ⟨site, hsite, rfl, hs⟩
  · obtain ⟨site, hsite, hid, -⟩ := (hget x s).mp hx
    exact ⟨site, hsite, hid⟩

namespace Workspace

/-- Lexical resolution of a parsed file: every site that the visit comes to has the scope of the
innermost block that binds its name, nothing else has a tag, and the errors are those of the
findings in order, of which a site has one, at its own location, exactly if no block binds its name.
The visit comes to all sites in order, unless it stops at a target that cannot be reported. -/
theorem validate_resolves_lexically {w w₁ : Workspace} {text name : String} {f : SourceFile}
    (hparse : w.parse text name = (f, w₁)) {env : Environment} (known : env.KnownFlags) :
    ∃ predeclared fine f' w', env.variableNames = .ok predeclared ∧
      w₁.validate f ⟨env, false⟩ =
        (if f.statements.any Stmt.halts then .error .unwritable else .ok fine, f', w') ∧
      Stmt.reachedSites predeclared f.statements <+: Stmt.sites predeclared f.statements ∧
      (f.statements.any Stmt.halts = false →
        Stmt.reachedSites predeclared f.statements = Stmt.sites predeclared f.statements) ∧
      (∀ site ∈ Stmt.reachedSites predeclared f.statements,
        f'.tags.get? site.1 = (Frame.find? site.2 site.1.name).map (·.scope)) ∧
      (∀ x s, f'.tags.get? x = some s →
        ∃ site ∈ Stmt.reachedSites predeclared f.statements, site.1.id = x.id) ∧
      w'.errors f' = w₁.errors f
        ++ (if env.semantics.restrictStringEscapes then f.escapes else [])
        ++ (Settings.findings ⟨env, false⟩ predeclared f.statements).filterMap
            (Finding.diagnostic? env) := by
  have hp := parsed_of_parse hparse
  have hr := hp.reporter_lt
  have hcons : Stmt.Consistent f.statements := .of_subset hp.nodup fun _ hs => hs
  obtain ⟨t, ht, -, hext⟩ := (ScopeTable.agrees_empty _).recordAll
    (Stmt.scopeOf_tags hcons ⟨env, false⟩ env.predeclared)
  rw [@Settings.tags_findings ⟨env, false⟩ rfl] at hext
  rw [← hp.tags_eq] at ht
  have hprefix := Stmt.reachedSites_isPrefix env.predeclared f.statements
  obtain ⟨hsites, honly⟩ := ScopeTable.extends_sites hcons hprefix.subset hext
  refine ⟨env.predeclared, _, _, _, Environment.variableNames_eq known,
    @validate_eq w₁ f ⟨env, false⟩ known hr t ht, hprefix, Stmt.reachedSites_eq, hsites, honly, ?_⟩
  change ((w₁.modifyReporter f _).reporter f).errors = _
  rw [reporter_modifyReporter hr]
  simp [Reporter.extend, SourceFile.newErrors, SourceFile.pendingEscapes, SourceFile.findings,
    hp.escapesAdded_eq, errors]

theorem validate_resolves_comprehension :
    ∃ f w₁ predeclared fine f' w', empty.parse "y = [x for x in y] + z\n" "f.bzl" = (f, w₁) ∧
      (Environment.standard {} []).KnownFlags ∧
      (Environment.standard {} []).variableNames = .ok predeclared ∧
      w₁.validate f ⟨.standard {} [], false⟩ = (.ok fine, f', w') ∧
      Stmt.reachedSites predeclared f.statements = Stmt.sites predeclared f.statements ∧
      (∀ site ∈ Stmt.reachedSites predeclared f.statements,
        f'.tags.get? site.1 = (Frame.find? site.2 site.1.name).map (·.scope)) ∧
      (∀ x s, f'.tags.get? x = some s →
        ∃ site ∈ Stmt.reachedSites predeclared f.statements, site.1.id = x.id) ∧
      w'.errors f' = w₁.errors f ++ []
        ++ (Settings.findings ⟨.standard {} [], false⟩ predeclared f.statements).filterMap
            (Finding.diagnostic? (.standard {} [])) := by
  have known : (Environment.standard {} []).KnownFlags := by
    intro g hg
    cases hg
  have hhalts : (empty.parse "y = [x for x in y] + z\n" "f.bzl").1.statements.any
      Stmt.halts = false := by
    decide +kernel
  cases hparse : empty.parse "y = [x for x in y] + z\n" "f.bzl" with
  | mk f w₁ =>
    obtain ⟨predeclared, fine, f', w', hnames, hv, -, hall, hsites, honly, herrors⟩ :=
      validate_resolves_lexically hparse known
    rw [hparse] at hhalts
    rw [hhalts, if_neg Bool.false_ne_true] at hv
    exact ⟨f, w₁, predeclared, fine, f', w', rfl, known, hnames, hv, hall hhalts, hsites, honly,
      herrors⟩

/-- Behind a target that cannot be reported, a name that the file binds gets neither its tag nor an
error. -/
theorem validate_unwritableSource_untagged :
    ∃ f w₁ predeclared f' w' site, empty.parse unwritableSource "f.bzl" = (f, w₁) ∧
      (Environment.standard {} []).KnownFlags ∧
      (Environment.standard {} []).variableNames = .ok predeclared ∧
      w₁.validate f ⟨.standard {} [], false⟩ = (.error .unwritable, f', w') ∧
      site ∈ Stmt.sites predeclared f.statements ∧
      (Frame.find? site.2 site.1.name).map (·.scope) = some .global ∧
      f'.tags.get? site.1 = none ∧ w'.errors f' = [] := by
  have known : (Environment.standard {} []).KnownFlags := by
    intro g hg
    cases hg
  obtain ⟨f, w₁, f', w', site, hparse, -, hv, herrors, hsite, hscope, htag⟩ :=
    @validate_hexadecimal _ unwritable_sixteen_pow _ unwritableSource_toList empty "f.bzl"
      ⟨.standard {} [], false⟩ known
  exact ⟨f, w₁, _, f', w', site, hparse, known, Environment.variableNames_eq known, hv, hsite,
    hscope, htag, herrors⟩

end Workspace
end Starlark
