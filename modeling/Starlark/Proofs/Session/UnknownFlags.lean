import Starlark.Proofs.Session.Conflicts
import Starlark.Proofs.Session.Steps
import Starlark.Proofs.Session.Unwritable

/-! # Unknown flags

A validation asks for the value of every flag before it writes anything, so a flag that does not
exist stops it with the file as it was. Once all flags have a value, no look-up of the visit can
meet an unknown one, whatever the tree: what may still stop it is a target that cannot be reported.
-/
namespace Starlark

/-- Where all flags are known, no tree and no table can make a look-up meet an unknown one. -/
theorem resolveFile_knows {settings : Settings} (known : settings.env.KnownFlags)
    (ss : List Stmt) (predeclared : List String) (errors : List Diagnostic) (tags : ScopeTable)
    (flag : String) :
    (resolveFile settings ss predeclared errors tags).fault ≠ some (.unknownFlag flag) := by
  cases ht : tags.recordAll (settings.tags (settings.findings predeclared ss)) with
  | ok t =>
    rw [resolveFile_eq known ss predeclared errors ht]
    cases ss.any Stmt.halts with
    | true => exact nofun
    | false => exact nofun
  | error fault =>
    obtain ⟨es, e, ds, t, -, -, hfault, hres⟩ :=
      resolveFile_error known ss predeclared errors ht
    obtain ⟨x, scope, -, hrecord⟩ := Settings.record_of_tags hfault
    obtain ⟨previous, -, -, rfl⟩ := ScopeTable.record_error hrecord
    rw [hres]
    exact nofun

namespace Workspace

/-- A validation raises a fault for an unknown flag, before it writes anything, or at a target that
cannot be reported, or none at all. -/
structure AsksFlagsFirst (w : Workspace) (f : SourceFile) (settings : Settings) : Prop where
  raises_iff : (∃ fault f' w', w.validate f settings = (.error fault, f', w')) ↔
    (∃ g ∈ settings.env.guarded, ¬Semantics.Knows g.flag) ∨ f.statements.any Stmt.halts = true
  /-- An unknown flag comes first: the fault is that of the first one, the file and its reporter are
  as they were, and the escape notes of the file can be promoted. -/
  unchanged : (∃ g ∈ settings.env.guarded, ¬Semantics.Knows g.flag) →
    (∃ flag, settings.env.FirstUnknown flag ∧
      w.validate f settings = (.error (.unknownFlag flag), f, w)) ∧
      (w.addEscapes f).2.errors (w.addEscapes f).1 =
        w.errors f ++ if f.escapesAdded then [] else f.escapes
  stops : settings.env.KnownFlags → f.statements.any Stmt.halts = true →
    ∃ f' w', w.validate f settings = (.error .unwritable, f', w')
  /-- The answer is whether the file has no errors. The restricted names are at hand, and no
  look-up in any tree raises a fault for a flag. -/
  answers : ∀ fine f' w', w.validate f settings = (.ok fine, f', w') →
    fine = (w'.errors f').isEmpty ∧ (∃ names, settings.env.restricted = .ok names) ∧
      ∀ ss predeclared errors tags flag,
        (resolveFile settings ss predeclared errors tags).fault ≠ some (.unknownFlag flag)

variable {w w' : Workspace} {f f' : SourceFile} {settings : Settings} {fine : Bool}

/-- A file that is promoted reports its notes, unless it did so before. -/
theorem errors_addEscapes (hr : f.reporter < w.reporters.length) :
    (w.addEscapes f).2.errors (w.addEscapes f).1 =
      w.errors f ++ if f.escapesAdded then [] else f.escapes := by
  rw [addEscapes_writes]
  refine (errors_extend hr rfl (f.unreported true)).trans ?_
  rw [SourceFile.unreported]
  cases f.escapesAdded with
  | false => rfl
  | true => rfl

theorem validate_answer (hr : f.reporter < w.reporters.length)
    (h : w.validate f settings = (.ok fine, f', w')) : fine = (w'.errors f').isEmpty := by
  obtain ⟨known, hhalts, t, ht⟩ := recordAll_of_validate hr h
  rw [errors_of_validate hr h]
  rw [validate_ok known hr hhalts ht] at h
  cases h
  rfl

theorem asksFlagsFirst_of_unknown (hr : f.reporter < w.reporters.length) {flag : String}
    (hflag : settings.env.FirstUnknown flag) : w.AsksFlagsFirst f settings := by
  have hv := validate_unknownFlag w f hflag.variableNames
  have hunknown : ∃ g ∈ settings.env.guarded, ¬Semantics.Knows g.flag := by
    obtain ⟨before, g, after, hsplit, -, hunknown, -⟩ := hflag
    exact ⟨g, by simp [hsplit], hunknown⟩
  refine ⟨iff_of_true ⟨_, _, _, hv⟩ (.inl hunknown), fun _ => ⟨⟨flag, hflag, hv⟩, ?promoted⟩,
    ?stops, ?answers⟩
  case promoted => exact errors_addEscapes hr
  case stops =>
    intro known
    obtain ⟨g, hg, hnot⟩ := hunknown
    exact absurd (known g hg) hnot
  case answers =>
    intro fine f' w' h
    rw [hv] at h
    cases h

theorem asksFlagsFirst_of_known (hr : f.reporter < w.reporters.length)
    (known : settings.env.KnownFlags)
    (hv : w.validate f settings =
      (if f.statements.any Stmt.halts then .error .unwritable else .ok fine, f', w')) :
    w.AsksFlagsFirst f settings := by
  have hnone : ¬∃ g ∈ settings.env.guarded, ¬Semantics.Knows g.flag := by
    rintro ⟨g, hg, hunknown⟩
    exact hunknown (known g hg)
  refine ⟨?raises, fun hunknown => absurd hunknown hnone, fun _ hhalts => ?stops, ?answers⟩
  case raises =>
    rw [hv, or_iff_right hnone]
    cases f.statements.any Stmt.halts with
    | true => exact iff_of_true ⟨_, _, _, rfl⟩ rfl
    | false => exact iff_of_false (by rintro ⟨_, _, _, ⟨⟩⟩) Bool.false_ne_true
  case stops =>
    rw [hhalts] at hv
    exact ⟨f', w', hv⟩
  case answers =>
    exact fun fine g w₁ h => ⟨validate_answer hr h, ⟨_, Environment.restricted_eq known⟩,
      resolveFile_knows known⟩

end Workspace

namespace Session

/-- An unknown flag fails before anything happens, for every file of a session, whatever was done
with it before. Where all flags are known, only a target that cannot be reported stops a
validation. -/
theorem validate_asksFlagsFirst (steps : List Step) {i : Nat} {f : SourceFile}
    (hf : (empty.run steps).files[i]? = some f) (settings : Settings) :
    (empty.run steps).workspace.AsksFlagsFirst f settings := by
  obtain ⟨hsound, -⟩ := sound_empty.run steps
  have hr := hsound.reporter_lt f (List.mem_of_getElem? hf)
  rcases settings.env.firstUnknown_or_knownFlags with known | ⟨flag, hflag⟩
  · -- The tags of a session never conflict, so they raise no fault.
    obtain ⟨fine, f', hv, -⟩ := hsound.validate_eq hf known
    exact Workspace.asksFlagsFirst_of_known hr known hv
  · exact Workspace.asksFlagsFirst_of_unknown hr hflag

theorem files_parse (text name : String) :
    (empty.run [.parse text name]).files[0]? = some (Workspace.empty.parse text name).1 := rfl

theorem workspace_parse (text name : String) :
    (empty.run [.parse text name]).workspace = (Workspace.empty.parse text name).2 := rfl

/-- An unknown flag after a known one, where the file has an escape note that would count. -/
theorem validate_asksFlagsFirst_of_note :
    ∃ f, ∃ settings : Settings,
      settings.env = ⟨["len"], [⟨"a", .experimental, Semantics.loadFlag⟩,
        ⟨"b", .deprecated, "no_such_flag"⟩], { restrictStringEscapes := true }⟩ ∧
      (empty.run [.parse "x = \"\\d\"\n" "f.bzl"]).files[0]? = some f ∧
      f.escapes.length = 1 ∧
      (empty.run [.parse "x = \"\\d\"\n" "f.bzl"]).workspace.AsksFlagsFirst f settings :=
  ⟨_, ⟨_, false⟩, rfl, files_parse _ _, by decide +kernel,
    validate_asksFlagsFirst _ (files_parse _ _) _⟩

/-- A parsed file whose validation raises a fault though all flags are known. -/
theorem validate_unwritableSource_raises :
    ∃ f f' w', (empty.run [.parse unwritableSource "f.bzl"]).files[0]? = some f ∧
      (¬ ∃ g ∈ (Environment.standard {} []).guarded, ¬Semantics.Knows g.flag) ∧
      (empty.run [.parse unwritableSource "f.bzl"]).workspace.validate f ⟨.standard {} [], false⟩ =
        (.error .unwritable, f', w') := by
  have known : (Environment.standard {} []).KnownFlags := by
    intro g hg
    cases hg
  obtain ⟨f, w₁, f', w', -, hparse, -, hv, -⟩ :=
    @Workspace.validate_hexadecimal _ unwritable_sixteen_pow _ unwritableSource_toList .empty
      "f.bzl" ⟨.standard {} [], false⟩ known
  have hfile := files_parse unwritableSource "f.bzl"
  have hworkspace := workspace_parse unwritableSource "f.bzl"
  rw [hparse] at hfile hworkspace
  refine ⟨f, f', w', hfile, ?_, hworkspace ▸ hv⟩
  rintro ⟨g, hg, -⟩
  cases hg

end Session
end Starlark
