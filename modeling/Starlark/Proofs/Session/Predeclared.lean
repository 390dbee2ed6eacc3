import Starlark.Proofs.Resolve.Reports
import Starlark.Proofs.Session.Independence

/-! # More predeclared names

A file that is validated under more predeclared names loses the errors for these names, and the
identifiers of the lost errors are tagged. Nothing else changes but texts of errors for names that
are still unbound.
-/
namespace Starlark

theorem Environment.knownFlags_of_variableNames {env : Environment} {names : List String}
    (h : env.variableNames = .ok names) : env.KnownFlags := by
  rcases env.knownFlags_or_fault with known | ⟨name, hfault⟩
  · exact known
  · rw [hfault] at h
    cases h

/-- What a validation reports, in order. -/
def SourceFile.reports (f : SourceFile) (settings : Settings) : List Report :=
  (f.pendingEscapes settings).map (⟨none, ·⟩) ++
    (f.findings settings).filterMap (Finding.report? settings.env)

namespace SourceFile
variable (f : SourceFile)

theorem map_reports (settings : Settings) :
    (f.reports settings).map (·.diagnostic) = f.newErrors settings := by
  rw [reports, newErrors, List.map_append, List.map_map, List.map_filterMap]
  simp only [Finding.map_report?]
  congr 1
  exact List.map_id _

/-- The reports with an identifier are those of the look-ups that no block answers. -/
theorem unbound_reports (settings : Settings) :
    (f.reports settings).filterMap (·.unbound) =
      ((Stmt.reachedSites settings.env.predeclared f.statements).filter fun site =>
        (Frame.find? site.2 site.1.name).isNone).map (·.1) := by
  have hsite : ∀ e : Finding, (e.report? settings.env).bind (·.unbound) =
      (e.site?.filter fun site => (Frame.find? site.2 site.1.name).isNone).map (·.1) := by
    intro e
    cases e with
    | name x frames =>
      rw [Finding.report?, Finding.site?, Option.filter_some]
      cases Frame.find? frames x.name <;> rfl
    | misplaced _ _ | noted _ | unwritable => rfl
  have hescapes : ((f.pendingEscapes settings).map (Report.mk none)).filterMap (·.unbound) =
      [] := by
    simp [List.filterMap_map]
  rw [reports, List.filterMap_append, hescapes, List.nil_append, List.filterMap_filterMap,
    findings]
  simp only [hsite]
  rw [← List.map_filterMap, ← List.filter_filterMap, Settings.findings_sites]

/-- A report with an identifier is that of a finding. -/
theorem exists_report_iff (settings : Settings) (x : Identifier) :
    (∃ r ∈ f.reports settings, r.unbound = some x) ↔
      ∃ e ∈ f.findings settings, ∃ d, e.report? settings.env = some ⟨some x, d⟩ := by
  constructor
  · rintro ⟨⟨unbound, d⟩, hr, rfl⟩
    rcases List.mem_append.mp hr with hr | hr
    · obtain ⟨_, -, h⟩ := List.mem_map.mp hr
      cases h
    · obtain ⟨e, he, h⟩ := List.mem_filterMap.mp hr
      exact ⟨e, he, d, h⟩
  · rintro ⟨e, he, d, h⟩
    exact ⟨_, List.mem_append_right _ (List.mem_filterMap.mpr ⟨e, he, h⟩), rfl⟩

variable {f} {env env' : Environment} {build : Bool}

/-- The findings under two environments with the same flags differ in the outermost block. -/
theorem findings_congr (hsem : env'.semantics = env.semantics) :
    ∃ found : List Finding,
      f.findings ⟨env, build⟩ = found.map (Finding.under [⟨.builtin, env.predeclared⟩]) ∧
      f.findings ⟨env', build⟩ = found.map (Finding.under [⟨.builtin, env'.predeclared⟩]) := by
  have hloads : Settings.checksLoadOrder ⟨env', build⟩ = Settings.checksLoadOrder ⟨env, build⟩ := by
    rw [Settings.checksLoadOrder, hsem, Settings.checksLoadOrder]
  refine ⟨Stmt.innerFindings (Settings.checksLoadOrder ⟨env, build⟩) (!build) f.statements, ?_, ?_⟩
  · rw [findings, Settings.findings_under]
  · rw [findings, Settings.findings_under, hloads]

theorem reports_alike (hsem : env'.semantics = env.semantics)
    (hsub : ∀ x ∈ env.predeclared, x ∈ env'.predeclared) :
    List.Forall₂ Report.Alike
      ((f.reports ⟨env, build⟩).filter
        (!·.isFor (env'.predeclared.removeAll env.predeclared)))
      (f.reports ⟨env', build⟩) := by
  obtain ⟨found, hfound, hfound'⟩ := @findings_congr f env env' build hsem
  have hescapes : f.pendingEscapes ⟨env', build⟩ = f.pendingEscapes ⟨env, build⟩ := by
    simp only [pendingEscapes, hsem]
  rw [reports, reports, hescapes, hfound, hfound', List.filter_append, List.filterMap_map,
    List.filterMap_map, List.filter_filterMap]
  refine List.rel_append ?_ ?_
  · rw [List.filter_eq_self.mpr]
    · exact List.forall₂_same.mpr fun r _ => Report.Alike.refl r
    · intro r hr
      obtain ⟨d, -, rfl⟩ := List.mem_map.mp hr
      rfl
  · refine List.rel_filterMap ?_ (List.forall₂_same.mpr fun e _ => rfl)
    rintro e _ rfl
    exact Finding.report?_alike hsub env env' e

/-- The tags under more predeclared names: those from before, and those of the reports for the new
names. -/
theorem tags_iff (hsem : env'.semantics = env.semantics)
    (hsub : ∀ x ∈ env.predeclared, x ∈ env'.predeclared) (p : Identifier × Scope) :
    p ∈ Settings.tags ⟨env', false⟩ (f.findings ⟨env', false⟩) ↔
      p ∈ Settings.tags ⟨env, false⟩ (f.findings ⟨env, false⟩) ∨
      p.2 = .builtin ∧ p.1.name ∈ env'.predeclared.removeAll env.predeclared ∧
        ∃ r ∈ f.reports ⟨env, false⟩, r.unbound = some p.1 := by
  obtain ⟨found, hfound, hfound'⟩ := @findings_congr f env env' false hsem
  rw [exists_report_iff, hfound, hfound']
  simp only [Settings.tags, Bool.false_eq_true, ↓reduceIte, List.mem_filterMap, List.mem_map,
    exists_exists_and_eq_and, Finding.tag?_under_iff hsub env]
  constructor
  · rintro ⟨e, he, htag | ⟨hscope, hname, d, hd⟩⟩
    · exact Or.inl ⟨e, he, htag⟩
    · exact Or.inr ⟨hscope, hname, e, he, d, hd⟩
  · rintro (⟨e, he, htag⟩ | ⟨hscope, hname, e, he, d, hd⟩)
    · exact ⟨e, he, Or.inl htag⟩
    · exact ⟨e, he, Or.inr ⟨hscope, hname, d, hd⟩⟩

end SourceFile

/-- More predeclared names only remove errors for names. Of two environments with the same flags
let the second one predeclare all names of the first one. Then a file has the same errors in the
same order under both, but for those of unbound names that only the second one predeclares; and
the identifiers of these errors are tagged as predeclared, besides the same tags. The other errors
for unbound names may differ in their texts. Where the visit stops at a target that cannot be
reported, it does so under both. -/
theorem Workspace.validate_more_predeclared {w : Workspace} {f : SourceFile}
    {env env' : Environment} {builtins builtins' : List String} (build : Bool)
    (hr : f.reporter < w.reporters.length) (hfresh : f.tags = .empty)
    (hnodup : (numbers (Stmt.occurrencesAll f.statements)).Nodup)
    (hsem : env'.semantics = env.semantics) (hnames : env.variableNames = .ok builtins)
    (hnames' : env'.variableNames = .ok builtins') (hsub : ∀ x ∈ builtins, x ∈ builtins') :
    ∃ fine f₁ w₁ fine' f₂ w₂,
      w.validate f ⟨env, build⟩ =
        (if f.statements.any Stmt.halts then .error .unwritable else .ok fine, f₁, w₁) ∧
      w.validate f ⟨env', build⟩ =
        (if f.statements.any Stmt.halts then .error .unwritable else .ok fine', f₂, w₂) ∧
      w₁.errors f₁ = w.errors f ++ (f.reports ⟨env, build⟩).map (·.diagnostic) ∧
      w₂.errors f₂ = w.errors f ++ (f.reports ⟨env', build⟩).map (·.diagnostic) ∧
      (f.reports ⟨env, build⟩).filterMap (·.unbound) =
        ((Stmt.reachedSites builtins f.statements).filter fun site =>
          (Frame.find? site.2 site.1.name).isNone).map (·.1) ∧
      (f.statements.any Stmt.halts = false →
        Stmt.reachedSites builtins f.statements = Stmt.sites builtins f.statements) ∧
      List.Forall₂ Report.Alike
        ((f.reports ⟨env, build⟩).filter (!·.isFor (builtins'.removeAll builtins)))
        (f.reports ⟨env', build⟩) ∧
      if build then f₁.tags = .empty ∧ f₂.tags = .empty
      else ∀ x scope, f₂.tags.get? x = some scope ↔
        f₁.tags.get? x = some scope ∨
        scope = .builtin ∧ ∃ r ∈ f.reports ⟨env, build⟩, ∃ y, r.unbound = some y ∧
          y.name ∈ builtins'.removeAll builtins ∧ y.id = x.id := by
  have known := Environment.knownFlags_of_variableNames hnames
  have known' := Environment.knownFlags_of_variableNames hnames'
  rw [Environment.variableNames_eq known] at hnames
  rw [Environment.variableNames_eq known'] at hnames'
  cases hnames
  cases hnames'
  obtain ⟨fine, f₁, w₁, hv, herrors, hrecord, hext⟩ :=
    @validate_fresh w f ⟨env, build⟩ known hr hfresh hnodup
  obtain ⟨fine', f₂, w₂, hv', herrors', hrecord', hext'⟩ :=
    @validate_fresh w f ⟨env', build⟩ known' hr hfresh hnodup
  rw [← SourceFile.map_reports] at herrors herrors'
  refine ⟨fine, f₁, w₁, fine', f₂, w₂, hv, hv', herrors, herrors', f.unbound_reports ⟨env, build⟩,
    Stmt.reachedSites_eq, SourceFile.reports_alike hsem hsub, ?_⟩
  cases build with
  | true => exact ⟨(Except.ok.inj hrecord).symm, (Except.ok.inj hrecord').symm⟩
  | false =>
    intro x scope
    have hempty : ScopeTable.empty.get? x = some scope ↔ False := ⟨nofun, nofun⟩
    rw [hext x scope, hext' x scope, hempty, false_or, false_or]
    constructor
    · rintro ⟨p, hp, hid, rfl⟩
      rcases (SourceFile.tags_iff hsem hsub p).mp hp with hold | ⟨hscope, hname, r, hr, hunbound⟩
      · exact Or.inl ⟨p, hold, hid, rfl⟩
      · exact Or.inr ⟨hscope, r, hr, p.1, hunbound, hname, hid⟩
    · rintro (⟨p, hp, hid, rfl⟩ | ⟨rfl, r, hr, y, hunbound, hname, hid⟩)
      · exact ⟨p, (SourceFile.tags_iff hsem hsub p).mpr (Or.inl hp), hid, rfl⟩
      · exact ⟨(y, .builtin), (SourceFile.tags_iff hsem hsub _).mpr
          (Or.inr ⟨rfl, hname, r, hr, hunbound⟩), hid, rfl⟩

/-- A name becomes predeclared, and another one becomes a guarded name that is out of reach. -/
theorem Workspace.validate_more_predeclared_of_guarded :
    ∃ w f, ∃ env env' : Environment,
      Workspace.empty.build
        [.assign (.ident ⟨"a", 0, none⟩) (.binary (.ident ⟨"x", 1, none⟩) .add
          (.ident ⟨"y", 2, none⟩) none) none] "f.bzl" = (f, w) ∧
      env = ⟨["len"], [], {}⟩ ∧
      env' = ⟨["x", "len"], [⟨"y", .experimental, Semantics.escapesFlag⟩], {}⟩ ∧
      f.reporter < w.reporters.length ∧ f.tags = .empty ∧
      (numbers (Stmt.occurrencesAll f.statements)).Nodup ∧ env'.semantics = env.semantics ∧
      env.variableNames = .ok ["len"] ∧ env'.variableNames = .ok ["x", "len"] ∧
      (∀ x ∈ ["len"], x ∈ ["x", "len"]) ∧
      ∃ fine f₁ w₁ fine' f₂ w₂,
        w.validate f ⟨env, false⟩ =
          (if f.statements.any Stmt.halts then .error .unwritable else .ok fine, f₁, w₁) ∧
        w.validate f ⟨env', false⟩ =
          (if f.statements.any Stmt.halts then .error .unwritable else .ok fine', f₂, w₂) ∧
        w₁.errors f₁ = w.errors f ++ (f.reports ⟨env, false⟩).map (·.diagnostic) ∧
        w₂.errors f₂ = w.errors f ++ (f.reports ⟨env', false⟩).map (·.diagnostic) ∧
        (f.reports ⟨env, false⟩).filterMap (·.unbound) =
          ((Stmt.reachedSites ["len"] f.statements).filter fun site =>
            (Frame.find? site.2 site.1.name).isNone).map (·.1) ∧
        (f.statements.any Stmt.halts = false →
          Stmt.reachedSites ["len"] f.statements = Stmt.sites ["len"] f.statements) ∧
        List.Forall₂ Report.Alike
          ((f.reports ⟨env, false⟩).filter (!·.isFor (["x", "len"].removeAll ["len"])))
          (f.reports ⟨env', false⟩) ∧
        ∀ x scope, f₂.tags.get? x = some scope ↔
          f₁.tags.get? x = some scope ∨
          scope = .builtin ∧ ∃ r ∈ f.reports ⟨env, false⟩, ∃ y, r.unbound = some y ∧
            y.name ∈ ["x", "len"].removeAll ["len"] ∧ y.id = x.id := by
  have hnames : Environment.variableNames ⟨["len"], [], {}⟩ = .ok ["len"] := by cbv
  have hnames' : Environment.variableNames
      ⟨["x", "len"], [⟨"y", .experimental, Semantics.escapesFlag⟩], {}⟩ =
        .ok ["x", "len"] := by cbv
  exact ⟨_, _, _, _, rfl, rfl, rfl, by decide, rfl, by decide, rfl, hnames, hnames', by decide,
    validate_more_predeclared false (by decide) rfl (by decide) rfl hnames hnames' (by decide)⟩

end Starlark
