import Starlark.Proofs.Resolve.ReadOnly
import Starlark.Proofs.Session.Independence

/-! # The switches of a validation

A validation can be asked for a build file, for the order of loads and for escape notes. Where no
name is guarded, each of these switches adds or removes errors of its own, and only the first one
says anything about the tags.
-/
namespace Starlark

namespace Environment
variable {env : Environment}

theorem knownFlags_of_unguarded (h : env.guarded = []) : env.KnownFlags := by
  intro g hg
  rw [h] at hg
  cases hg

theorem predeclared_of_unguarded (h : env.guarded = []) :
    env.predeclared = env.globals.eraseDups := by
  rw [predeclared, h, List.filter_nil, List.map_nil, List.append_nil]

theorem hiddenNames_of_unguarded (h : env.guarded = []) : env.hiddenNames = [] := by
  rw [hiddenNames, h, List.filter_nil]

/-- Where no name is guarded, the flags change no diagnostic of a finding. -/
theorem diagnostic?_semantics (h : env.guarded = []) (semantics : Semantics) :
    Finding.diagnostic? { env with semantics } = Finding.diagnostic? env := by
  funext e
  cases e with
  | name x frames =>
    simp only [Finding.diagnostic?, unresolvedError, hiddenNames_of_unguarded h,
      @hiddenNames_of_unguarded { env with semantics } h]
  | misplaced _ _ | noted _ | unwritable => rfl

end Environment

/-- The errors of a file when no switch is on. -/
def SourceFile.plainErrors (f : SourceFile) (env : Environment) : List Diagnostic :=
  Declared.errors true [] (Stmt.declaredAll f.statements) ++
    (Stmt.visited env.predeclared f.statements).filterMap (Finding.diagnostic? env)

/-- What each of the switches adds to the plain errors or removes from them. -/
theorem SourceFile.newErrors_switches {env : Environment} (h : env.guarded = [])
    (f : SourceFile) (build load restrict : Bool) :
    f.newErrors ⟨{ env with semantics := ⟨load, restrict⟩ }, build⟩ =
      (if restrict && !f.escapesAdded then f.escapes else []) ++
        (if !build && load then loadOrderErrors none f.statements else []) ++
        (if build then (f.plainErrors env).filter (¬ ·.IsReadOnly) else f.plainErrors env) := by
  have hsame : Environment.predeclared { env with semantics := ⟨load, restrict⟩ } =
      env.predeclared := by
    rw [Environment.predeclared_of_unguarded h, Environment.predeclared_of_unguarded (by exact h)]
  have hplain : Declared.errors (!build) [] (Stmt.declaredAll f.statements) ++
      (Stmt.visited env.predeclared f.statements).filterMap (Finding.diagnostic? env) =
      if build then (f.plainErrors env).filter (¬ ·.IsReadOnly) else f.plainErrors env := by
    cases build with
    | false => rfl
    | true => exact (Settings.filter_findings h _ _).symm
  rw [newErrors, findings, Settings.diagnostics_findings_eq, hsame,
    Environment.diagnostic?_semantics h, List.append_assoc, List.append_assoc, hplain]
  rfl

/-- In a strict file the tags do not depend on the flags, and a build file has none. -/
theorem SourceFile.tags_switches {env : Environment} (h : env.guarded = [])
    (f : SourceFile) (build load restrict : Bool) :
    Settings.tags ⟨{ env with semantics := ⟨load, restrict⟩ }, build⟩
        (f.findings ⟨{ env with semantics := ⟨load, restrict⟩ }, build⟩) =
      if build then [] else
        Settings.tags ⟨{ env with semantics := ⟨false, false⟩ }, false⟩
          (f.findings ⟨{ env with semantics := ⟨false, false⟩ }, false⟩) := by
  cases build with
  | true => rfl
  | false =>
    rw [if_neg Bool.false_ne_true, findings, findings, Settings.tags_findings rfl,
      Settings.tags_findings rfl, Environment.predeclared_of_unguarded (by exact h),
      Environment.predeclared_of_unguarded (by exact h)]

/-- The three switches of a validation are independent. Let `V` be the errors of a strict file with
both flags off. With any setting of the switches the errors are the escape notes, if they count and
were not added before, then the loads that come too late, if they are checked in a strict file, and
then `V`, of which a build file lacks the repeated bindings and nothing else. The tags are always
the same, except that a build file has none. And where the visit stops at a target that cannot be
reported, it does so with every setting. -/
theorem Workspace.validate_switches {w : Workspace} {f : SourceFile} {env : Environment}
    (hr : f.reporter < w.reporters.length) (hfresh : f.tags = .empty)
    (hnodup : (numbers (Stmt.occurrencesAll f.statements)).Nodup) (hguard : env.guarded = []) :
    ∃ V fine f₀ w₀,
      w.validate f ⟨{ env with semantics := ⟨false, false⟩ }, false⟩ =
        (if f.statements.any Stmt.halts then .error .unwritable else .ok fine, f₀, w₀) ∧
      w₀.errors f₀ = w.errors f ++ V ∧
      ∀ build load restrict : Bool, ∃ fine' f' w',
        w.validate f ⟨{ env with semantics := ⟨load, restrict⟩ }, build⟩ =
          (if f.statements.any Stmt.halts then .error .unwritable else .ok fine', f', w') ∧
        w'.errors f' = w.errors f ++
          ((if restrict && !f.escapesAdded then f.escapes else []) ++
            (if !build && load then loadOrderErrors none f.statements else []) ++
            (if build then V.filter (¬ ·.IsReadOnly) else V)) ∧
        f'.tags = if build then .empty else f₀.tags := by
  have known : ∀ semantics, Environment.KnownFlags { env with semantics } :=
    fun _ => Environment.knownFlags_of_unguarded hguard
  obtain ⟨fine, f₀, w₀, hv, herrors, hrecord, -⟩ := @validate_fresh w f
    ⟨{ env with semantics := ⟨false, false⟩ }, false⟩ (known _) hr hfresh hnodup
  refine ⟨f.plainErrors env, fine, f₀, w₀, hv, ?_, fun build load restrict => ?_⟩
  · rw [herrors, SourceFile.newErrors_switches hguard]
    simp
  · obtain ⟨fine', f', w', hv', herrors', hrecord', -⟩ := @validate_fresh w f
      ⟨{ env with semantics := ⟨load, restrict⟩ }, build⟩ (known _) hr hfresh hnodup
    refine ⟨fine', f', w', hv', ?_, ?_⟩
    · rw [herrors', SourceFile.newErrors_switches hguard]
    · rw [SourceFile.tags_switches hguard] at hrecord'
      cases build with
      | true => exact (Except.ok.inj hrecord').symm
      | false => exact Except.ok.inj (hrecord'.symm.trans hrecord)

/-- A name bound twice and a load after it. -/
theorem Workspace.validate_switches_of_rebinding :
    ∃ w f env,
      Workspace.empty.build
        [.assign (.ident ⟨"a", 0, none⟩) (.ident ⟨"b", 1, none⟩) (some ⟨"f.bzl", 1, 1, 1, 6⟩),
          .assign (.ident ⟨"a", 2, none⟩) (.int 1 none) none,
          .load ⟨"x", none⟩ [⟨⟨"c", 3, none⟩, ⟨"c", 4, none⟩, none⟩] none] "f.bzl" = (f, w) ∧
      env = Environment.standard {} [] ∧ f.reporter < w.reporters.length ∧
      f.tags = .empty ∧ (numbers (Stmt.occurrencesAll f.statements)).Nodup ∧
      env.guarded = [] ∧
      ∃ V fine f₀ w₀,
        w.validate f ⟨{ env with semantics := ⟨false, false⟩ }, false⟩ =
          (if f.statements.any Stmt.halts then .error .unwritable else .ok fine, f₀, w₀) ∧
        w₀.errors f₀ = w.errors f ++ V ∧
        ∀ build load restrict : Bool, ∃ fine' f' w',
          w.validate f ⟨{ env with semantics := ⟨load, restrict⟩ }, build⟩ =
            (if f.statements.any Stmt.halts then .error .unwritable else .ok fine', f', w') ∧
          w'.errors f' = w.errors f ++
            ((if restrict && !f.escapesAdded then f.escapes else []) ++
              (if !build && load then loadOrderErrors none f.statements else []) ++
              (if build then V.filter (¬ ·.IsReadOnly) else V)) ∧
          f'.tags = if build then .empty else f₀.tags :=
  ⟨_, _, _, rfl, rfl, by decide, rfl, by decide, rfl,
    validate_switches (by decide) rfl (by decide) rfl⟩

end Starlark
