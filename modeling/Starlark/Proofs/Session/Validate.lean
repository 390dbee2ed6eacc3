import Starlark.Proofs.Resolve.File
import Starlark.Session.Workspace

/-! # The outcome of a validation

What a validation writes: the escape notes of the file, if they count and were not added before,
then the diagnostics of the findings, and the tags of the findings.
-/
namespace Starlark

/-- The escape notes that a validation turns into errors. -/
def SourceFile.pendingEscapes (f : SourceFile) (settings : Settings) : List Diagnostic :=
  if settings.env.semantics.restrictStringEscapes && !f.escapesAdded then f.escapes else []

/-- The findings of a file where all flags are known. -/
def SourceFile.findings (f : SourceFile) (settings : Settings) : List Finding :=
  settings.findings settings.env.predeclared f.statements

/-- The notes that become errors when a file is promoted: none if it is marked. -/
def SourceFile.unreported (f : SourceFile) (promoted : Bool) : List Diagnostic :=
  if promoted && !f.escapesAdded then f.escapes else []

/-- What a validation appends to the errors of a file. -/
def SourceFile.newErrors (f : SourceFile) (settings : Settings) : List Diagnostic :=
  f.pendingEscapes settings ++ (f.findings settings).filterMap (Finding.diagnostic? settings.env)

namespace Workspace
variable {w : Workspace} {f : SourceFile}

theorem reporter_congr {g : SourceFile} (h : g.reporter = f.reporter) :
    w.reporter g = w.reporter f := by
  rw [reporter, h, ← reporter]

theorem reporter_modifyReporter (hr : f.reporter < w.reporters.length)
    (change : Reporter → Reporter) :
    (w.modifyReporter f change).reporter f = change (w.reporter f) := by
  simp [reporter, modifyReporter, List.getD_eq_getElem?_getD, hr]

theorem modifyReporter_modifyReporter (change change' : Reporter → Reporter) :
    (w.modifyReporter f change).modifyReporter f change' =
      w.modifyReporter f (change' ∘ change) := by
  simp [modifyReporter, List.modify_modify_eq]

/-- A change of a reporter is known by what it does to that reporter. -/
theorem modifyReporter_congr {change change' : Reporter → Reporter}
    (h : change (w.reporter f) = change' (w.reporter f)) :
    w.modifyReporter f change = w.modifyReporter f change' := by
  rw [modifyReporter, modifyReporter]
  congr 1
  refine List.ext_getElem? fun i => ?_
  simp only [List.getElem?_modify]
  by_cases hi : f.reporter = i
  · subst hi
    cases hw : w.reporters[f.reporter]? with
    | none => rfl
    | some r =>
      rw [reporter, List.getD_eq_getElem?_getD, hw, Option.getD_some] at h
      simp [h]
  · simp [hi]

theorem modifyReporter_extend_nil : w.modifyReporter f (·.extend []) = w := by
  have hid : (fun r : Reporter => r.extend []) = id := by
    funext r
    simp [Reporter.extend]
  simp [modifyReporter, hid]

/-- What is written to the reporter of a file is seen by all files that share it. -/
theorem errors_extend {g : SourceFile} (hr : f.reporter < w.reporters.length)
    (hg : g.reporter = f.reporter) (ds : List Diagnostic) :
    (w.modifyReporter f (·.extend ds)).errors g = w.errors f ++ ds := by
  rw [errors, reporter_congr hg, reporter_modifyReporter hr]
  rfl

/-- Before a file is resolved, its pending escape notes are added. -/
theorem addEscapes_eq (w : Workspace) (f : SourceFile) (settings : Settings) :
    (if settings.env.semantics.restrictStringEscapes then w.addEscapes f else (f, w)) =
      ({ f with
          escapesAdded := f.escapesAdded || settings.env.semantics.restrictStringEscapes },
        w.modifyReporter f (·.extend (f.pendingEscapes settings))) := by
  obtain ⟨statements, reporter, escapes, name, location, tags, added⟩ := f
  rw [SourceFile.pendingEscapes, addEscapes]
  cases settings.env.semantics.restrictStringEscapes with
  | false => simp [modifyReporter_extend_nil]
  | true =>
    cases added with
    | false => simp
    | true => simp [modifyReporter_extend_nil]

theorem addEscapes_writes (w : Workspace) (f : SourceFile) :
    w.addEscapes f = ({ f with escapesAdded := true },
      w.modifyReporter f (·.extend (f.unreported true))) := by
  rw [addEscapes, SourceFile.unreported]
  split
  · next hadded =>
    rw [hadded, Bool.not_true, Bool.and_false, if_neg Bool.false_ne_true,
      modifyReporter_extend_nil, ← hadded]
  · next hadded => simp [hadded]

/-- Where a flag is unknown, a validation changes nothing. -/
theorem validate_unknownFlag (w : Workspace) (f : SourceFile) {settings : Settings} {name : String}
    (h : settings.env.variableNames = .error (.unknownFlag name)) :
    w.validate f settings = (.error (.unknownFlag name), f, w) := by
  rw [validate, h]

/-- The outcome of a validation, given that of the resolution. -/
theorem validate_of_resolveFile {settings : Settings} (known : settings.env.KnownFlags)
    (hr : f.reporter < w.reporters.length) {fault : Option Fault} {own : List Diagnostic}
    {t : ScopeTable}
    (hres : resolveFile settings f.statements settings.env.predeclared
      (w.errors f ++ f.pendingEscapes settings) f.tags =
        ⟨fault, w.errors f ++ f.pendingEscapes settings ++ own, t⟩) :
    w.validate f settings =
      (fault.elim (.ok (w.errors f ++ (f.pendingEscapes settings ++ own)).isEmpty) .error,
        { f with
          escapesAdded := f.escapesAdded || settings.env.semantics.restrictStringEscapes
          tags := t },
        w.modifyReporter f (·.extend (f.pendingEscapes settings ++ own))) := by
  have herrors : ∀ g : SourceFile, g.reporter = f.reporter →
      (w.modifyReporter f (·.extend (f.pendingEscapes settings))).errors g =
        w.errors f ++ f.pendingEscapes settings :=
    fun g hg => errors_extend hr hg (f.pendingEscapes settings)
  have hwrite : ∀ g : SourceFile, g.reporter = f.reporter →
      (w.modifyReporter f (·.extend (f.pendingEscapes settings))).modifyReporter g
          (fun r => { r with errors := w.errors f ++ f.pendingEscapes settings ++ own }) =
        w.modifyReporter f (·.extend (f.pendingEscapes settings ++ own)) := by
    intro g hg
    rw [modifyReporter, hg, ← modifyReporter, modifyReporter_modifyReporter]
    refine modifyReporter_congr ?_
    simp only [Function.comp_apply, Reporter.extend, errors, List.append_assoc]
  have hfine : ∀ g : SourceFile, g.reporter = f.reporter →
      (w.modifyReporter f (·.extend (f.pendingEscapes settings ++ own))).isFine g =
        (w.errors f ++ (f.pendingEscapes settings ++ own)).isEmpty := by
    intro g hg
    rw [isFine, reporter_congr hg, reporter_modifyReporter hr]
    simp only [Reporter.hasErrors, Bool.not_not]
    rfl
  simp only [validate, Environment.variableNames_eq known, addEscapes_eq, herrors, hres, hwrite,
    hfine]
  cases fault with
  | none => rfl
  | some fault => rfl

/-- Where the tags of the findings agree with those of the file, a validation writes what was found.
It succeeds unless the visit comes to a target that cannot be reported. -/
theorem validate_eq {settings : Settings} (known : settings.env.KnownFlags)
    (hr : f.reporter < w.reporters.length) {t : ScopeTable}
    (ht : f.tags.recordAll (settings.tags (f.findings settings)) = .ok t) :
    w.validate f settings =
      (if f.statements.any Stmt.halts then .error .unwritable
        else .ok (w.errors f ++ f.newErrors settings).isEmpty,
        { f with
          escapesAdded := f.escapesAdded || settings.env.semantics.restrictStringEscapes
          tags := t },
        w.modifyReporter f (·.extend (f.newErrors settings))) := by
  have hres := resolveFile_eq known f.statements settings.env.predeclared
    (w.errors f ++ f.pendingEscapes settings) ht
  rw [validate_of_resolveFile known hr hres]
  cases f.statements.any Stmt.halts with
  | true => rfl
  | false => rfl

theorem validate_ok {settings : Settings} (known : settings.env.KnownFlags)
    (hr : f.reporter < w.reporters.length) (hhalts : f.statements.any Stmt.halts = false)
    {t : ScopeTable} (ht : f.tags.recordAll (settings.tags (f.findings settings)) = .ok t) :
    w.validate f settings =
      (.ok (w.errors f ++ f.newErrors settings).isEmpty,
        { f with
          escapesAdded := f.escapesAdded || settings.env.semantics.restrictStringEscapes
          tags := t },
        w.modifyReporter f (·.extend (f.newErrors settings))) := by
  rw [validate_eq known hr ht, hhalts, if_neg Bool.false_ne_true]

/-- Where they do not agree, a validation raises the fault of the first tag that cannot be
recorded, and it writes what was found before that tag. -/
theorem validate_stops {settings : Settings} (known : settings.env.KnownFlags)
    (hr : f.reporter < w.reporters.length) {fault : Fault}
    (ht : f.tags.recordAll (settings.tags (f.findings settings)) = .error fault) :
    ∃ es e ds t, f.findings settings = es ++ e :: ds ∧
      f.tags.recordAll (settings.tags es) = .ok t ∧
      t.recordAll (settings.tags [e]) = .error fault ∧
      w.validate f settings =
        (.error fault,
          { f with
            escapesAdded := f.escapesAdded || settings.env.semantics.restrictStringEscapes
            tags := t },
          w.modifyReporter f (·.extend (f.pendingEscapes settings
            ++ es.filterMap (Finding.diagnostic? settings.env)))) := by
  obtain ⟨es, e, ds, t, hfound, htags, hfault, hres⟩ := resolveFile_error known f.statements
    settings.env.predeclared (w.errors f ++ f.pendingEscapes settings) ht
  exact ⟨es, e, ds, t, hfound, htags, hfault, validate_of_resolveFile known hr hres⟩

/-- So it writes the first errors of what was found. -/
theorem validate_error {settings : Settings} (known : settings.env.KnownFlags)
    (hr : f.reporter < w.reporters.length) {fault : Fault}
    (ht : f.tags.recordAll (settings.tags (f.findings settings)) = .error fault) :
    ∃ own t, w.validate f settings =
      (.error fault,
        { f with
          escapesAdded := f.escapesAdded || settings.env.semantics.restrictStringEscapes
          tags := t },
        w.modifyReporter f (·.extend (f.pendingEscapes settings ++ own))) ∧
      own <+: (f.findings settings).filterMap (Finding.diagnostic? settings.env) := by
  obtain ⟨es, e, ds, t, hfound, -, -, hv⟩ := validate_stops known hr ht
  refine ⟨_, t, hv, ?_⟩
  rw [hfound, List.filterMap_append]
  exact List.prefix_append _ _

/-- What a validation writes, whatever its outcome: the notes of the file, if they count and were
not reported before, and then errors for what it found. -/
theorem validate_writes (w : Workspace) (f : SourceFile) (settings : Settings)
    (hr : f.reporter < w.reporters.length) :
    ∃ promoted own t, promoted = (settings.env.variableNames.isOk &&
        settings.env.semantics.restrictStringEscapes) ∧
      (∀ d ∈ own, settings.env.KnownFlags ∧
        d ∈ (f.findings settings).filterMap (Finding.diagnostic? settings.env)) ∧
      (w.validate f settings).2 =
        ({ f with escapesAdded := f.escapesAdded || promoted, tags := t },
          w.modifyReporter f (·.extend (f.unreported promoted ++ own))) := by
  rcases settings.env.knownFlags_or_fault with known | ⟨name, hname⟩
  · have hpromoted : settings.env.semantics.restrictStringEscapes =
        (settings.env.variableNames.isOk && settings.env.semantics.restrictStringEscapes) := by
      rw [Environment.variableNames_eq known]
      rfl
    cases ht : f.tags.recordAll (settings.tags (f.findings settings)) with
    | ok t =>
      exact ⟨_, _, t, hpromoted, fun d hd => ⟨known, hd⟩, by rw [validate_eq known hr ht]; rfl⟩
    | error fault =>
      obtain ⟨own, t, hv, hreported⟩ := validate_error known hr ht
      exact ⟨_, own, t, hpromoted, fun d hd => ⟨known, hreported.subset hd⟩, by rw [hv]; rfl⟩
  · refine ⟨false, [], f.tags, ?_, by simp, ?_⟩
    · rw [hname]
      rfl
    · rw [validate_unknownFlag w f hname]
      simp [SourceFile.unreported, modifyReporter_extend_nil]

variable {w' : Workspace} {f' : SourceFile} {settings : Settings} {fine : Bool}

/-- A validation that succeeds knows the flags, it comes to the end of the file, and the tags of its
findings agree. -/
theorem recordAll_of_validate (hr : f.reporter < w.reporters.length)
    (h : w.validate f settings = (.ok fine, f', w')) :
    settings.env.KnownFlags ∧ f.statements.any Stmt.halts = false ∧
      ∃ t, f.tags.recordAll (settings.tags (f.findings settings)) = .ok t := by
  rcases settings.env.knownFlags_or_fault with known | ⟨name, hname⟩
  · refine ⟨known, ?_⟩
    cases ht : f.tags.recordAll (settings.tags (f.findings settings)) with
    | ok t =>
      rw [validate_eq known hr ht] at h
      split at h
      · cases h
      · next hhalts => exact ⟨Bool.not_eq_true _ ▸ hhalts, t, rfl⟩
    | error fault =>
      obtain ⟨own, t, hv, -⟩ := validate_error known hr ht
      rw [hv] at h
      cases h
  · rw [validate, hname] at h
    cases h

/-- What a validation that succeeds has written. -/
theorem errors_of_validate (hr : f.reporter < w.reporters.length)
    (h : w.validate f settings = (.ok fine, f', w')) :
    w'.errors f' = w.errors f ++ f.newErrors settings := by
  obtain ⟨known, hhalts, t, ht⟩ := recordAll_of_validate hr h
  rw [validate_ok known hr hhalts ht] at h
  cases h
  exact errors_extend hr rfl (f.newErrors settings)

end Workspace
end Starlark
