import Starlark.Proofs.Resolve.Outermost
import Starlark.Proofs.Session.Parse
import Starlark.Proofs.Session.Validate

/-! # Sessions

A session makes files and views of them, writes to their reporters and validates them, in any
order. What may go wrong is the tag of an identifier that several views share, or that a view
holds twice. It does not: the scope of an identifier is determined by the statements of the view,
so every table agrees with the statements of its view after every step.
-/
namespace Starlark

/-- The files and views made so far, in order. -/
structure Session where
  workspace : Workspace
  files : List SourceFile

/-- A step names the files that it works on by their position. -/
inductive Step
  | parse (text name : String)
  | parseWithPrelude (text name : String) (prelude : Nat)
  | subTree (file : Nat) (first last : Int)
  | withPrelude (file prelude : Nat)
  | addEscapes (file : Nat)
  | report (file : Nat) (d : Diagnostic)
  | checkLoadOrder (file : Nat)
  | validate (file : Nat) (settings : Settings)

namespace Session

def empty : Session := ⟨.empty, []⟩

/-- The statements of a file, none if there is no such file. -/
def statements (s : Session) (i : Nat) : List Stmt :=
  (s.files[i]?.map (·.statements)).getD []

def add (s : Session) (f : SourceFile) (w : Workspace) : Session := ⟨w, s.files ++ [f]⟩

def put (s : Session) (i : Nat) (f : SourceFile) (w : Workspace) : Session :=
  ⟨w, s.files.set i f⟩

/-- Does something to a file, if there is one. -/
def withFile (s : Session) (i : Nat) (act : SourceFile → Option Fault × Session) :
    Option Fault × Session :=
  match s.files[i]? with
  | none => (none, s)
  | some f => act f

/-- One step, and the fault that it raises. What was written before a fault stays. -/
def step (s : Session) : Step → Option Fault × Session
  | .parse text name =>
    let (f, w) := s.workspace.parse text name
    (none, s.add f w)
  | .parseWithPrelude text name prelude =>
    let (f, w) := s.workspace.parse text name
    (none, s.add (f.withPrelude (s.statements prelude)) w)
  | .subTree i first last =>
    s.withFile i fun f => (none, s.add (f.subTree first last) s.workspace)
  | .withPrelude i prelude =>
    s.withFile i fun f => (none, s.add (f.withPrelude (s.statements prelude)) s.workspace)
  | .addEscapes i => s.withFile i fun f =>
    let (f', w) := s.workspace.addEscapes f
    (none, s.put i f' w)
  | .report i d => s.withFile i fun f => (none, s.put i f (s.workspace.report f d))
  | .checkLoadOrder i => s.withFile i fun f => (none, s.put i f (s.workspace.checkLoadOrder f))
  | .validate i settings => s.withFile i fun f =>
    match s.workspace.validate f settings with
    | (.ok _, f', w) => (none, s.put i f' w)
    | (.error fault, f', w) => (some fault, s.put i f' w)

/-- Any number of steps, whether or not one of them raises a fault. -/
def run (s : Session) (steps : List Step) : Session := steps.foldl (fun s a => (s.step a).2) s

/-- Do all statements of a session come from a pool? -/
def Within (s : Session) (pool : List Stmt) : Prop :=
  ∀ f ∈ s.files, ∀ st ∈ f.statements, st ∈ pool

/-- Identifiers are shared only between copies of one statement, every file has a reporter, and
every tag is the one that the statements of the file determine. -/
structure Sound (s : Session) : Prop where
  pool : ∃ pool : List Stmt, (numbers (Stmt.occurrencesAll pool)).Nodup ∧
    (∀ i ∈ numbers (Stmt.occurrencesAll pool), i < s.workspace.nextId) ∧ s.Within pool
  reporter_lt : ∀ f ∈ s.files, f.reporter < s.workspace.reporters.length
  agrees : ∀ f ∈ s.files, f.tags.Agrees (Stmt.scopeOf f.statements)

/-- What later states keep: files and their tags, and the errors of every reporter. -/
structure Grows (s t : Session) : Prop where
  files : ∀ (i : Nat) (f : SourceFile), s.files[i]? = some f → ∃ g, t.files[i]? = some g ∧
    g.statements = f.statements ∧ ∀ x scope, f.tags.get? x = some scope →
      g.tags.get? x = some scope
  errors : ∀ (i : Nat) (r : Reporter), s.workspace.reporters[i]? = some r →
    ∃ r', t.workspace.reporters[i]? = some r' ∧ r.errors <+: r'.errors

theorem sound_empty : empty.Sound := by
  refine ⟨⟨[], List.nodup_nil, ?_, ?_⟩, ?_, ?_⟩
  · intro i hi
    cases hi
  · intro f hf
    cases hf
  · intro f hf
    cases hf
  · intro f hf
    cases hf

namespace Grows
variable {s t u : Session}

theorem refl (s : Session) : s.Grows s := by
  refine ⟨fun i f hf => ⟨f, hf, rfl, fun _ _ h => h⟩, fun i r hr => ⟨r, hr, ?_⟩⟩
  exact List.prefix_refl _

theorem trans (h : s.Grows t) (h' : t.Grows u) : s.Grows u := by
  refine ⟨fun i f hf => ?_, fun i r hr => ?_⟩
  · obtain ⟨g, hg, hgs, hgt⟩ := h.files i f hf
    obtain ⟨k, hk, hks, hkt⟩ := h'.files i g hg
    exact ⟨k, hk, hks.trans hgs, fun x scope hx => hkt x scope (hgt x scope hx)⟩
  · obtain ⟨r₁, hr₁, hp₁⟩ := h.errors i r hr
    obtain ⟨r₂, hr₂, hp₂⟩ := h'.errors i r₁ hr₁
    exact ⟨r₂, hr₂, hp₁.trans hp₂⟩

end Grows

variable {s : Session} {i : Nat} {f g : SourceFile} {w : Workspace}

theorem Sound.consistent (h : s.Sound) (hf : f ∈ s.files) : Stmt.Consistent f.statements := by
  obtain ⟨pool, hnodup, -, hpool⟩ := h.pool
  exact .of_subset hnodup (hpool f hf)

theorem Within.statements {pool : List Stmt} (hpool : s.Within pool) :
    ∀ st ∈ s.statements i, st ∈ pool := by
  intro st hst
  rw [Session.statements] at hst
  cases hf : s.files[i]? with
  | none =>
    rw [hf] at hst
    cases hst
  | some f =>
    rw [hf] at hst
    exact hpool f (List.mem_of_getElem? hf) st hst

/-- A new file keeps the session sound if its statements are new or those of other files. -/
theorem Sound.add (h : s.Sound) {new : List Stmt}
    (hnodup : (numbers (Stmt.occurrencesAll new)).Nodup)
    (hnew : ∀ i ∈ numbers (Stmt.occurrencesAll new),
      s.workspace.nextId ≤ i ∧ i < w.nextId)
    (hle : s.workspace.nextId ≤ w.nextId)
    (hw : s.workspace.reporters.length ≤ w.reporters.length)
    (hr : f.reporter < w.reporters.length) (ht : f.tags = .empty)
    (hss : ∀ pool, s.Within pool → ∀ st ∈ f.statements, st ∈ pool ++ new) : (s.add f w).Sound := by
  obtain ⟨pool, hpool, hlt, hmem⟩ := h.pool
  have hnumbers : numbers (Stmt.occurrencesAll (pool ++ new)) =
      numbers (Stmt.occurrencesAll pool) ++ numbers (Stmt.occurrencesAll new) := by
    simp only [Stmt.occurrencesAll_eq, List.flatMap_append, numbers_append]
  have hfiles : ∀ g ∈ (s.add f w).files, g ∈ s.files ∨ g = f := by
    intro g hg
    simpa [Session.add] using hg
  refine ⟨⟨pool ++ new, ?_, ?_, ?_⟩, ?_, ?_⟩
  · rw [hnumbers]
    refine List.nodup_append.mpr ⟨hpool, hnodup, ?_⟩
    rintro i hi _ hj rfl
    exact Nat.not_lt.mpr (hnew i hj).1 (hlt i hi)
  · intro i hi
    rw [hnumbers] at hi
    rcases List.mem_append.mp hi with hi | hi
    · exact Nat.lt_of_lt_of_le (hlt i hi) hle
    · exact (hnew i hi).2
  · intro g hg st hst
    rcases hfiles g hg with hg | rfl
    · exact List.mem_append_left _ (hmem g hg st hst)
    · exact hss pool hmem st hst
  · intro g hg
    rcases hfiles g hg with hg | rfl
    · exact Nat.lt_of_lt_of_le (h.reporter_lt g hg) hw
    · exact hr
  · intro g hg
    rcases hfiles g hg with hg | rfl
    · exact h.agrees g hg
    · rw [ht]
      exact ScopeTable.agrees_empty _

/-- A file may be replaced by one with the same statements and reporter and more tags. -/
theorem Sound.put (h : s.Sound) (hf : s.files[i]? = some f) (hss : g.statements = f.statements)
    (hr : g.reporter = f.reporter) (ht : g.tags.Agrees (Stmt.scopeOf f.statements))
    (hid : s.workspace.nextId ≤ w.nextId)
    (hw : s.workspace.reporters.length ≤ w.reporters.length) : (s.put i g w).Sound := by
  obtain ⟨pool, hpool, hlt, hmem⟩ := h.pool
  have hin : f ∈ s.files := List.mem_of_getElem? hf
  have hfiles : ∀ k ∈ (s.put i g w).files, k ∈ s.files ∨ k = g := fun k hk =>
    List.mem_or_eq_of_mem_set hk
  refine ⟨⟨pool, hpool, fun i hi => Nat.lt_of_lt_of_le (hlt i hi) hid, ?_⟩, ?_, ?_⟩
  · intro k hk st hst
    rcases hfiles k hk with hk | rfl
    · exact hmem k hk st hst
    · exact hmem f hin st (hss ▸ hst)
  · intro k hk
    rcases hfiles k hk with hk | rfl
    · exact Nat.lt_of_lt_of_le (h.reporter_lt k hk) hw
    · exact Nat.lt_of_lt_of_le (hr ▸ h.reporter_lt f hin) hw
  · intro k hk
    rcases hfiles k hk with hk | rfl
    · exact h.agrees k hk
    · exact hss ▸ ht

theorem grows_add (hw : s.workspace.reporters <+: w.reporters) : s.Grows (s.add f w) := by
  refine ⟨fun i k hk => ⟨k, ?_, rfl, fun _ _ hx => hx⟩, fun i r hr => ⟨r, ?_, ?_⟩⟩
  · exact List.getElem?_append_left (List.getElem?_eq_some_iff.mp hk).1 ▸ hk
  · obtain ⟨rs, hrs⟩ := hw
    exact hrs ▸ List.getElem?_append_left (List.getElem?_eq_some_iff.mp hr).1 ▸ hr
  · exact List.prefix_refl _

theorem grows_put (hf : s.files[i]? = some f) (hss : g.statements = f.statements)
    (ht : ∀ x scope, f.tags.get? x = some scope → g.tags.get? x = some scope)
    (ds : List Diagnostic) : s.Grows (s.put i g (s.workspace.modifyReporter f (·.extend ds))) := by
  refine ⟨fun j k hk => ?_, fun j r hr => ?_⟩
  · by_cases hij : i = j
    · subst hij
      obtain rfl := Option.some.inj (hf.symm.trans hk)
      refine ⟨g, ?_, hss, ht⟩
      exact List.getElem?_set_self (List.getElem?_eq_some_iff.mp hf).1
    · exact ⟨k, (List.getElem?_set_ne hij).trans hk, rfl, fun _ _ hx => hx⟩
  · by_cases hij : f.reporter = j
    · refine ⟨r.extend ds, ?_, List.prefix_append _ _⟩
      simp [Session.put, Workspace.modifyReporter, hij, hr]
    · refine ⟨r, ?_, List.prefix_refl _⟩
      simp [Session.put, Workspace.modifyReporter, hij, hr]

/-- What a step does: the session stays sound and keeps what it had, and no fault of it is an
internal error. -/
structure Safe (s : Session) (out : Option Fault × Session) : Prop where
  sound : out.2.Sound
  grows : s.Grows out.2
  fault : ∀ fault, out.1 = some fault → fault.isInternal = false

theorem Sound.withFile (h : s.Sound) {act : SourceFile → Option Fault × Session}
    (hact : ∀ f, s.files[i]? = some f → s.Safe (act f)) : s.Safe (s.withFile i act) := by
  rw [Session.withFile]
  cases hf : s.files[i]? with
  | none => exact ⟨h, .refl s, fun _ h => by cases h⟩
  | some f => exact hact f hf

/-- A view of files of the session. -/
theorem Sound.addView (h : s.Sound) (hr : f.reporter < s.workspace.reporters.length)
    (ht : f.tags = .empty)
    (hss : ∀ pool, s.Within pool → ∀ st ∈ f.statements, st ∈ pool) :
    s.Safe (none, s.add f s.workspace) := by
  refine ⟨@Sound.add s f s.workspace h [] List.nodup_nil ?_ (Nat.le_refl _) (Nat.le_refl _) hr ht ?_,
    grows_add (List.prefix_refl _), fun _ h => by cases h⟩
  · intro i hi
    cases hi
  · intro pool hpool st hst
    exact List.mem_append_left _ (hss pool hpool st hst)

/-- Something written to the reporter of a file, and perhaps to its marks. -/
theorem Sound.write (h : s.Sound) (hf : s.files[i]? = some f) (hss : g.statements = f.statements)
    (hr : g.reporter = f.reporter) (ht : g.tags = f.tags) (ds : List Diagnostic) :
    s.Safe (none, s.put i g (s.workspace.modifyReporter f (·.extend ds))) := by
  refine ⟨h.put hf hss hr ?_ (Nat.le_refl _) ?_, grows_put hf hss ?_ ds, fun _ h => by cases h⟩
  · rw [ht]
    exact h.agrees f (List.mem_of_getElem? hf)
  · simp [Workspace.modifyReporter]
  · intro x scope hx
    rw [ht]
    exact hx

/-- A parsed file, perhaps with statements of the session in front. -/
theorem Sound.addParsed (h : s.Sound) {text name : String}
    (hw : s.workspace.parse text name = (f, w)) (hr : g.reporter = f.reporter)
    (ht : g.tags = .empty)
    (hss : ∀ pool, s.Within pool → ∀ st ∈ g.statements, st ∈ pool ++ f.statements) :
    s.Safe (none, s.add g w) := by
  have hp := Workspace.parsed_of_parse hw
  obtain ⟨r, hrs⟩ := hp.reporters_eq
  refine ⟨h.add hp.nodup hp.fresh hp.nextId_le ?_ (hr ▸ hp.reporter_lt) ht hss, grows_add ?_,
    fun _ h => by cases h⟩
  · rw [hrs, List.length_append]
    exact Nat.le_add_right _ _
  · rw [hrs]
    exact List.prefix_append _ _

/-- A validation of a file of a sound session, where all flags are known, raises no fault but that of
a target that cannot be reported, and the file then holds the tags of its findings. -/
theorem Sound.validate_eq (h : s.Sound) (hf : s.files[i]? = some f) {settings : Settings}
    (known : settings.env.KnownFlags) :
    ∃ fine g, s.workspace.validate f settings =
        (if f.statements.any Stmt.halts then .error .unwritable else .ok fine, g,
          s.workspace.modifyReporter f (·.extend (f.newErrors settings))) ∧
      g.statements = f.statements ∧ g.reporter = f.reporter ∧
      g.tags.Agrees (Stmt.scopeOf f.statements) ∧
      (∀ x scope, f.tags.get? x = some scope → g.tags.get? x = some scope) ∧
      ∀ p ∈ settings.tags (f.findings settings), g.tags.get? p.1 = some p.2 := by
  have hin : f ∈ s.files := List.mem_of_getElem? hf
  obtain ⟨t, ht, hagrees, hext⟩ := (h.agrees f hin).recordAll
    (Stmt.scopeOf_tags (h.consistent hin) settings settings.env.predeclared)
  refine ⟨_, _, Workspace.validate_eq known (h.reporter_lt f hin) ht, rfl, rfl, hagrees, ?_, ?_⟩
  · intro x scope hx
    exact (hext x scope).mpr (Or.inl hx)
  · intro p hp
    exact (hext p.1 p.2).mpr (Or.inr ⟨p, hp, rfl, rfl⟩)

theorem put_same (hf : s.files[i]? = some f) : s.put i f s.workspace = s := by
  obtain ⟨hi, rfl⟩ := List.getElem?_eq_some_iff.mp hf
  rw [put, List.set_getElem_self]

/-- Every step of a sound session is safe. -/
theorem Sound.step (h : s.Sound) (a : Step) : s.Safe (s.step a) := by
  cases a with
  | parse text name =>
    exact h.addParsed rfl rfl (Workspace.parsed_of_parse rfl).tags_eq fun pool _ st hst =>
      List.mem_append_right _ hst
  | parseWithPrelude text name prelude =>
    refine h.addParsed rfl rfl rfl fun pool hpool st hst => ?_
    rcases List.mem_append.mp hst with hst | hst
    · exact List.mem_append_left _ (hpool.statements st hst)
    · exact List.mem_append_right _ hst
  | subTree i first last =>
    refine h.withFile fun f hf => ?_
    have hin : f ∈ s.files := List.mem_of_getElem? hf
    refine h.addView (h.reporter_lt f hin) rfl fun pool hpool st hst => ?_
    exact hpool f hin st (List.mem_of_mem_take (List.mem_of_mem_drop hst))
  | withPrelude i prelude =>
    refine h.withFile fun f hf => ?_
    have hin : f ∈ s.files := List.mem_of_getElem? hf
    refine h.addView (h.reporter_lt f hin) rfl fun pool hpool st hst => ?_
    rcases List.mem_append.mp hst with hst | hst
    · exact hpool.statements st hst
    · exact hpool f hin st hst
  | addEscapes i =>
    refine h.withFile fun f hf => ?_
    rw [Workspace.addEscapes_writes]
    exact h.write (g := { f with escapesAdded := true }) hf rfl rfl rfl (f.unreported true)
  | report i d => exact h.withFile fun f hf => h.write hf rfl rfl rfl [d]
  | checkLoadOrder i =>
    exact h.withFile fun f hf => h.write hf rfl rfl rfl (loadOrderErrors none f.statements)
  | validate i settings =>
    refine h.withFile fun f hf => ?_
    rcases Environment.knownFlags_or_fault settings.env with known | ⟨name, hname⟩
    · obtain ⟨fine, g, hv, hss, hr, hagrees, hold, -⟩ := h.validate_eq hf known
      have hsound : (s.put i g
          (s.workspace.modifyReporter f (·.extend (f.newErrors settings)))).Sound :=
        h.put hf hss hr hagrees (Nat.le_refl _) (by simp [Workspace.modifyReporter])
      have hgrows := grows_put hf hss hold (f.newErrors settings)
      rw [hv]
      cases f.statements.any Stmt.halts with
      | false => exact ⟨hsound, hgrows, fun _ h => by cases h⟩
      | true =>
        refine ⟨hsound, hgrows, ?_⟩
        rintro _ ⟨⟩
        rfl
    · rw [Workspace.validate_unknownFlag s.workspace f hname]
      dsimp only
      refine ⟨?_, ?_, ?_⟩
      · rw [put_same hf]
        exact h
      · rw [put_same hf]
        exact .refl s
      · rintro _ ⟨⟩
        rfl

theorem Sound.run (h : s.Sound) (steps : List Step) :
    (s.run steps).Sound ∧ s.Grows (s.run steps) := by
  induction steps generalizing s with
  | nil => exact ⟨h, .refl s⟩
  | cons a steps ih =>
    have ha := h.step a
    obtain ⟨hsound, hgrows⟩ := ih ha.sound
    exact ⟨hsound, ha.grows.trans hgrows⟩

/-- The file that a validation leaves behind. -/
theorem files_validate (hf : s.files[i]? = some f) (settings : Settings) :
    (s.step (.validate i settings)).2.files[i]? =
      some (s.workspace.validate f settings).2.1 := by
  have hi := (List.getElem?_eq_some_iff.mp hf).1
  rw [step, withFile, hf]
  dsimp only
  rcases s.workspace.validate f settings with ⟨_ | _, g, w⟩
  · exact List.getElem?_set_self hi
  · exact List.getElem?_set_self hi

/-- A file that holds the tags of its findings keeps its table when it is validated. -/
theorem Sound.validate_same (h : s.Sound) (hf : s.files[i]? = some f) {settings : Settings}
    (known : settings.env.KnownFlags)
    (htags : ∀ p ∈ settings.tags (f.findings settings), f.tags.get? p.1 = some p.2) :
    (s.workspace.validate f settings).2.1.tags = f.tags := by
  rw [Workspace.validate_eq known (h.reporter_lt f (List.mem_of_getElem? hf))
    (ScopeTable.recordAll_same htags)]

/-- To validate a file again, at once or after other steps, leaves its table as it is. -/
theorem Sound.validate_again (h : s.Sound) (hf : s.files[i]? = some f) (settings : Settings)
    (more : List Step) {t : Session} (ht : (s.step (.validate i settings)).2.run more = t)
    (hg : t.files[i]? = some g) :
    (t.workspace.validate g settings).2.1.tags = g.tags := by
  obtain ⟨hsound, hgrows⟩ := (h.step (.validate i settings)).sound.run more
  rw [ht] at hsound hgrows
  rcases Environment.knownFlags_or_fault settings.env with known | ⟨name, hname⟩
  · obtain ⟨fine, k, hv, hss, -, -, -, htags⟩ := h.validate_eq hf known
    -- The file has kept its statements, so its findings, and the tags of them.
    have hk := files_validate hf settings
    rw [hv] at hk
    obtain ⟨g', hg', hss', htags'⟩ := hgrows.files i k hk
    obtain rfl := Option.some.inj (hg'.symm.trans hg)
    refine hsound.validate_same hg known fun p hp => htags' _ _ (htags p ?_)
    rwa [SourceFile.findings, hss', hss] at hp
  · rw [Workspace.validate_unknownFlag t.workspace g hname]

/-- Safety of sessions. After any steps the next one raises no internal error, whatever the
environment and the mode. The tags of every file and the errors of every reporter are kept by
everything that follows, and once a file was validated, to validate it again in the same way
leaves its table as it is. -/
theorem run_safe (steps more : List Step) :
    (∀ a fault, ((empty.run steps).step a).1 = some fault → fault.isInternal = false) ∧
    (empty.run steps).Grows ((empty.run steps).run more) ∧
    ∀ i f settings t g, (empty.run steps).files[i]? = some f →
      ((empty.run steps).step (.validate i settings)).2.run more = t → t.files[i]? = some g →
      ∃ k, (t.step (.validate i settings)).2.files[i]? = some k ∧ k.tags = g.tags := by
  obtain ⟨hsound, -⟩ := sound_empty.run steps
  refine ⟨fun a => (hsound.step a).fault, (hsound.run more).2, ?_⟩
  intro i f settings t g hf ht hg
  exact ⟨_, files_validate hg settings, hsound.validate_again hf settings more ht hg⟩

end Session
end Starlark
