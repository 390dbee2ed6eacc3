import Starlark.Proofs.Resolve.Suggested
import Starlark.Proofs.Session.Validate

/-! # Suggestions of a validation

What is suggested for a word depends on the set of the candidates alone: it is the nearest one, if
any is near enough. A reference has the visible names as candidates, so every suggestion that a
validation makes resolves at the reference that it is made for.
-/
namespace Starlark.Workspace

/-- What a validation writes suggests a name only at a reference where the suggestion resolves, in
the blocks around it and in every scope chain that has these open. -/
theorem validate_corrects (w : Workspace) (f : SourceFile) (settings : Settings)
    (hr : f.reporter < w.reporters.length) :
    ∃ notes own, (w.validate f settings).2.2.errors f = w.errors f ++ notes ++ own ∧
      notes.Sublist f.escapes ∧ ∀ d ∈ own, ∀ n y, d.Suggests n y →
        ∃ predeclared, settings.env.variableNames = .ok predeclared ∧
          ∃ site ∈ Stmt.sites predeclared f.statements, d.loc = site.1.loc ∧
            (d.Corrects site.1.name fun y => (Frame.find? site.2 y).isSome) ∧
            ∀ chain : ScopeChain, chain.Shows site.2 →
              d.Corrects site.1.name fun y => (chain.resolve? y).isSome := by
  obtain ⟨promoted, own, t, -, hown, hv⟩ := w.validate_writes f settings hr
  refine ⟨f.unreported promoted, own, ?_, ?_, fun d hd n y h => ?_⟩
  · rw [hv, errors_extend hr rfl, List.append_assoc]
  · unfold SourceFile.unreported
    split
    · exact .refl _
    · exact List.nil_sublist _
  · obtain ⟨known, hfound⟩ := hown d hd
    obtain ⟨site, hsite, hloc, hcorrects⟩ :=
      Settings.findings_suggest known _ f.statements d hfound n y h
    refine ⟨_, Environment.variableNames_eq known, site, hsite, hloc, hcorrects,
      fun chain hshows => ?_⟩
    simp only [hshows.isSome_resolve?]
    exact hcorrects

/-- Suggestions are optimal, stable and visible. Nothing is suggested exactly if no candidate but
the word itself is within the limit of the word, else the nearest one is, the first of these in
code point order; only the set of the candidates counts. A reference that is reported with a
suggestion does not resolve, but the suggestion does. So in every validation the suggestion of a
name error is visible at the reference that the error is about. -/
theorem validate_suggests (w : Workspace) (f : SourceFile) (settings : Settings)
    (hr : f.reporter < w.reporters.length) :
    (∀ word candidates,
      (Spelling.suggest? word candidates = none ↔ ∀ x ∈ candidates, x ≠ word →
        ¬ Spelling.apart word x ≤ min 5 ((word.length + 1) / 2)) ∧
      (∀ x, Spelling.suggest? word candidates = some x ↔ Spelling.Nearest word candidates x) ∧
      (∀ x, IsLeast {n | Spelling.Edits n (Text.lower word).toList (Text.lower x).toList}
        (Spelling.apart word x)) ∧
      ∀ others, (∀ x, x ∈ candidates ↔ x ∈ others) →
        Spelling.suggest? word others = Spelling.suggest? word candidates) ∧
    (∀ x r, ∃ own, ((Resolve.reference settings x).run.run r).2.errors = r.errors ++ own ∧
      ∀ d ∈ own, ∀ n y, d.Suggests n y →
        d.loc = x.loc ∧ d.Corrects x.name fun y => (r.chain.resolve? y).isSome) ∧
    ∃ notes own, (w.validate f settings).2.2.errors f = w.errors f ++ notes ++ own ∧
      notes.Sublist f.escapes ∧ ∀ d ∈ own, ∀ n y, d.Suggests n y →
        ∃ predeclared, settings.env.variableNames = .ok predeclared ∧
          ∃ site ∈ Stmt.sites predeclared f.statements, d.loc = site.1.loc ∧
            (d.Corrects site.1.name fun y => (Frame.find? site.2 y).isSome) ∧
            ∀ chain : ScopeChain, chain.Shows site.2 →
              d.Corrects site.1.name fun y => (chain.resolve? y).isSome := by
  refine ⟨fun word candidates => ⟨?_, ?_, ?_, fun others same => ?_⟩,
    Resolve.reference_suggests settings, w.validate_corrects f settings hr⟩
  · exact Spelling.suggest?_eq_none_iff word candidates
  · exact Spelling.suggest?_eq_some_iff word candidates
  · exact Spelling.apart_isLeast word
  · exact (Spelling.suggest?_congr word same).symm

theorem validate_suggests_parameter :
    ∃ f w, empty.parse "def f(size):\n  return sise\n" "f.bzl" = (f, w) ∧
      f.reporter < w.reporters.length ∧
      ((w.validate f ⟨.standard {} [], false⟩).2.2.errors f).map (·.message) =
        ["name 'sise' is not defined (did you mean 'size'?)"] ∧
      ∃ notes own,
        (w.validate f ⟨.standard {} [], false⟩).2.2.errors f = w.errors f ++ notes ++ own ∧
        notes.Sublist f.escapes ∧ ∀ d ∈ own, ∀ n y, d.Suggests n y →
          ∃ predeclared, (Environment.standard {} []).variableNames = .ok predeclared ∧
            ∃ site ∈ Stmt.sites predeclared f.statements, d.loc = site.1.loc ∧
              (d.Corrects site.1.name fun y => (Frame.find? site.2 y).isSome) ∧
              ∀ chain : ScopeChain, chain.Shows site.2 →
                d.Corrects site.1.name fun y => (chain.resolve? y).isSome := by
  have hr : (empty.parse "def f(size):\n  return sise\n" "f.bzl").1.reporter <
      (empty.parse "def f(size):\n  return sise\n" "f.bzl").2.reporters.length := by
    decide +kernel
  exact ⟨_, _, (Prod.eta _).symm, hr, by decide +kernel,
    (validate_suggests _ _ ⟨.standard {} [], false⟩ hr).2.2⟩

end Starlark.Workspace
