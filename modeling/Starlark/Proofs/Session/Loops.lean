import Starlark.Proofs.Resolve.Loops
import Starlark.Proofs.Session.Validate

/-! # What a validation reports about break and continue

A validation reports the break and continue statements that have no loop around them, in the order
of the file, and nothing about any other of them.
-/
namespace Starlark

def FlowSite.error (s : FlowSite) : Diagnostic := flowError s.kind s.loc

namespace Workspace
variable {w w' : Workspace} {f f' : SourceFile} {settings : Settings} {fine : Bool}

/-- A break or continue is reported exactly if there is no loop around it, in its own function or
outside, and a pass never is. If the only loops around it are outside of its function, a loop at
top level or a function inside a function is reported. -/
theorem validate_flows (hr : f.reporter < w.reporters.length)
    (h : w.validate f settings = (.ok fine, f', w')) :
    ∃ own, w'.errors f' = w.errors f ++ f.pendingEscapes settings ++ own ∧
      own.filter (·.IsFlowError) =
        ((Stmt.flowSitesAll [] f.statements).filter (·.Unenclosed)).map (·.error) ∧
      (∀ d ∈ own, d.message ≠ (Misplacement.flowOutsideLoop .pass).message) ∧
      ∀ site ∈ Stmt.flowSitesAll [] f.statements, site.InLoop → ¬ site.InOwnLoop →
        ∃ d ∈ own, d.message = Misplacement.loopAtTop.message ∨
          d.message = Misplacement.functionInFunction.message := by
  obtain ⟨known, hhalts, -⟩ := recordAll_of_validate hr h
  have herrors := errors_of_validate hr h
  have hflows := Settings.filter_isFlowError known settings.env.predeclared hhalts
  rw [FlowSite.unenclosed, List.map_map] at hflows
  rw [SourceFile.newErrors, ← List.append_assoc] at herrors
  refine ⟨_, herrors, hflows, ?_, ?_⟩
  · intro d hd hpass
    have hflow : d.IsFlowError := ⟨_, hpass⟩
    have hmem : d ∈ ((f.findings settings).filterMap
        (Finding.diagnostic? settings.env)).filter (·.IsFlowError) :=
      List.mem_filter.mpr ⟨hd, decide_eq_true hflow⟩
    rw [SourceFile.findings, hflows] at hmem
    obtain ⟨site, hsite, rfl⟩ := List.mem_map.mp hmem
    have hopen : site.Unenclosed := of_decide_eq_true (List.mem_filter.mp hsite).2
    exact hopen.1 (Misplacement.message_flowOutsideLoop_inj hpass)
  · intro site hsite hloop hown
    have hregular : Regular (Stmt.topFrames settings.env.predeclared f.statements) [] := nofun
    obtain ⟨e, he, loc, hnest⟩ :=
      Stmt.exists_misnestedAll _ 0 hregular hloop hown f.statements hsite
    have hmem : e ∈ f.findings settings :=
      List.mem_append_right _ (by rwa [Stmt.visited_eq hhalts])
    rcases hnest with rfl | rfl
    · exact ⟨_, List.mem_filterMap.mpr ⟨_, hmem, rfl⟩, .inl rfl⟩
    · exact ⟨_, List.mem_filterMap.mpr ⟨_, hmem, rfl⟩, .inr rfl⟩

/-- A break under a loop, and a continue after it, in one function. -/
theorem validate_flows_of_function :
    ∃ w f settings fine f' w',
      Workspace.empty.build
        [.define ⟨"f", 0, none⟩ []
          [.forLoop (.ident ⟨"x", 1, none⟩) (.list [] false none) [.flow .breakLoop none] none,
            .flow .continueLoop none, .flow .pass none] none] "f.bzl" = (f, w) ∧
      settings = ⟨.standard {} [], false⟩ ∧
      f.reporter < w.reporters.length ∧
      w.validate f settings = (.ok fine, f', w') ∧
      ∃ own, w'.errors f' = w.errors f ++ f.pendingEscapes settings ++ own ∧
        own.filter (·.IsFlowError) =
          ((Stmt.flowSitesAll [] f.statements).filter (·.Unenclosed)).map (·.error) ∧
        (∀ d ∈ own, d.message ≠ (Misplacement.flowOutsideLoop .pass).message) ∧
        ∀ site ∈ Stmt.flowSitesAll [] f.statements, site.InLoop → ¬ site.InOwnLoop →
          ∃ d ∈ own, d.message = Misplacement.loopAtTop.message ∨
            d.message = Misplacement.functionInFunction.message := by
  refine ⟨_, _, _, _, _, _, rfl, rfl, by decide, rfl, validate_flows (by decide) rfl⟩

/-- A loop around a function counts inside of it: a break that has no loop in its own function is
not reported there. -/
theorem validate_flows_of_outer_loop :
    ∃ w f fine f' w' site,
      Workspace.empty.build
        [.forLoop (.ident ⟨"x", 0, none⟩) (.list [] false none)
          [.define ⟨"f", 1, none⟩ [] [.flow .breakLoop none] none] none] "f.bzl" = (f, w) ∧
      w.validate f ⟨.standard {} [], false⟩ = (.ok fine, f', w') ∧
      site ∈ Stmt.flowSitesAll [] f.statements ∧ site.kind = .breakLoop ∧ ¬ site.InOwnLoop ∧
      ∀ d ∈ w'.errors f', ¬ d.IsFlowError := by
  refine ⟨_, _, _, _, _, _, rfl, rfl, List.mem_singleton_self _, rfl, by decide, ?_⟩
  decide

end Workspace
end Starlark
