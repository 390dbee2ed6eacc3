import Starlark.Proofs.Resolve.Findings
import Starlark.Proofs.Scope.Table
import Starlark.Proofs.Spelling.Candidates

/-! # The visit follows its findings

A visit is described by the place where it begins, what it finds and the place where it ends. A
place is the stack of frames and the number of open loops; the tags and errors that a visit
writes are those of its findings, in order, up to the first that is a fault. Every statement and
expression ends where it began.
-/
namespace Starlark

/-- The tags that findings call for: none in a build file. -/
def Settings.tags (settings : Settings) (found : List Finding) : List (Identifier × Scope) :=
  if settings.buildFile then [] else found.filterMap Finding.tag?

theorem Settings.tags_append (settings : Settings) (es ds : List Finding) :
    settings.tags (es ++ ds) = settings.tags es ++ settings.tags ds := by
  unfold tags
  split
  · rfl
  · exact List.filterMap_append

/-- The tags after a finding. What a visit stops at is a fault. -/
def Settings.perform (settings : Settings) (t : ScopeTable) (e : Finding) :
    Except Fault ScopeTable :=
  if e.stops then .error .unwritable else t.recordAll (settings.tags [e])

/-- Findings one after the other, up to the first fault. -/
def Settings.performAll (settings : Settings) (t : ScopeTable) (found : List Finding) :
    Except Fault ScopeTable := found.foldlM settings.perform t

/-- Findings that leave the tags alone. -/
def Finding.Quiet (e : Finding) : Prop := e.tag? = none ∧ e.stops = false

namespace Settings
variable {settings : Settings} {t u : ScopeTable} {e : Finding} {es : List Finding}

theorem performAll_append_ok (h : settings.performAll t es = .ok u) (ds : List Finding) :
    settings.performAll t (es ++ ds) = settings.performAll u ds := by
  rw [performAll] at h
  simp only [performAll, List.foldlM_append, h]
  rfl

theorem performAll_append_error {fault : Fault} (h : settings.performAll t es = .error fault)
    (ds : List Finding) : settings.performAll t (es ++ ds) = .error fault := by
  rw [performAll] at h
  simp only [performAll, List.foldlM_append, h]
  rfl

theorem performAll_singleton (t : ScopeTable) (e : Finding) :
    settings.performAll t [e] = settings.perform t e := by
  rw [performAll, List.foldlM_cons]
  cases settings.perform t e <;> rfl

theorem perform_of_quiet (h : e.Quiet) : settings.perform t e = .ok t := by
  have hnone : settings.tags [e] = [] := by
    rw [tags, List.filterMap_cons, h.1, List.filterMap_nil, ite_self]
  rw [perform, h.2, hnone]
  rfl

theorem performAll_of_quiet (h : ∀ e ∈ es, e.Quiet) : settings.performAll t es = .ok t := by
  induction es with
  | nil => rfl
  | cons e es ih =>
    rw [performAll, List.foldlM_cons, perform_of_quiet (h e List.mem_cons_self)]
    exact ih fun d hd => h d (List.mem_cons_of_mem e hd)

/-- What is performed is what is reached: its tags are recorded, and then comes the stop. -/
theorem performAll_eq (settings : Settings) (t : ScopeTable) (found : List Finding) :
    settings.performAll t found =
      match t.recordAll (settings.tags (Finding.reached found)) with
      | .ok u => if found.any Finding.stops then .error .unwritable else .ok u
      | .error fault => .error fault := by
  induction found generalizing t with
  | nil =>
    rw [Finding.reached, List.takeWhile_nil, tags, List.filterMap_nil, ite_self]
    rfl
  | cons e es ih =>
    rw [performAll, List.foldlM_cons, perform, Finding.reached, List.takeWhile_cons, List.any_cons]
    cases he : e.stops with
    | true =>
      simp only [↓reduceIte, Bool.not_true, Bool.false_eq_true, Bool.true_or, tags,
        List.filterMap_nil, ite_self]
      rfl
    | false =>
      have hsplit : settings.tags (e :: es.takeWhile fun e => !e.stops) =
          settings.tags [e] ++ settings.tags (Finding.reached es) := settings.tags_append [e] _
      simp only [Bool.false_eq_true, ↓reduceIte, Bool.not_false, Bool.false_or, hsplit]
      cases hrec : t.recordAll (settings.tags [e]) with
      | error fault =>
        rw [ScopeTable.recordAll_append_error hrec]
        rfl
      | ok u =>
        rw [ScopeTable.recordAll_append_ok hrec]
        exact ih u

end Settings

namespace Resolve

/-- Where a visit stands: the open blocks, innermost first, and the number of open loops. -/
structure Place where
  frames : List Frame
  loops : Nat

structure At (settings : Settings) (p : Place) (r : Resolution) : Prop where
  shows : r.toDeclarations.Shows p.frames settings.buildFile
  loops_eq : r.loops = p.loops

/-- A visit that stops at a finding `e`: what was written before it are the errors and tags of the
findings before it. -/
structure Stops (settings : Settings) (found : List Finding) (fault : Fault) (r r' : Resolution)
    (es : List Finding) (e : Finding) (ds : List Finding) : Prop where
  found_eq : found = es ++ e :: ds
  before : settings.performAll r.tags es = .ok r'.tags
  fault_eq : settings.perform r'.tags e = .error fault
  errors_eq : r'.errors = r.errors ++ es.filterMap (Finding.diagnostic? settings.env)

/-- The outcome of findings on a state: their errors are appended and their tags recorded, up to
the first that is a fault. -/
def Yields (settings : Settings) (found : List Finding) (q : Place) (r : Resolution)
    (out : Except Fault Unit × Resolution) : Prop :=
  match settings.performAll r.tags found with
  | .ok t => ∃ r', out = (.ok (), r') ∧ At settings q r' ∧
      r'.errors = r.errors ++ found.filterMap (Finding.diagnostic? settings.env) ∧ r'.tags = t
  | .error fault => ∃ r' es e ds, out = (.error fault, r') ∧
      Stops settings found fault r r' es e ds

/-- The visit `m` finds `found` on its way from one place to another. -/
def Follows (settings : Settings) (p : Place) (m : Resolve Unit) (found : List Finding)
    (q : Place) : Prop :=
  ∀ r, At settings p r → Yields settings found q r (m.run.run r)

/-- What writes no tag ends well. -/
theorem yields_of_quiet {settings : Settings} {found : List Finding} {q : Place}
    {r r' : Resolution} (ht : ∀ e ∈ found, e.Quiet) (hq : At settings q r')
    (he : r'.errors = r.errors ++ found.filterMap (Finding.diagnostic? settings.env))
    (htags : r'.tags = r.tags) : Yields settings found q r (.ok (), r') := by
  rw [Yields, Settings.performAll_of_quiet ht]
  exact ⟨r', rfl, hq, he, htags⟩

theorem run_bind {α β : Type} (m : Resolve α) (k : α → Resolve β) (r : Resolution) :
    (m >>= k).run.run r = match m.run.run r with
      | (.ok a, r') => (k a).run.run r'
      | (.error fault, r') => (.error fault, r') := by
  simp only [ExceptT.run_bind, StateT.run_bind]
  rcases m.run.run r with ⟨_ | _, _⟩ <;> rfl

theorem run_get (r : Resolution) : (get : Resolve Resolution).run.run r = (.ok r, r) := rfl

theorem run_lift {α : Type} (x : Except Fault α) (r : Resolution) :
    (liftM x : Resolve α).run.run r = (x, r) := by
  cases x <;> rfl

theorem closeBlock_run (r : Resolution) :
    closeBlock.run.run r = match r.chain.closeBlock with
      | .ok (_, chain) => (.ok (), { r with chain })
      | .error fault => (.error fault, r) := by
  simp only [closeBlock, run_bind, run_get, run_lift]
  cases r.chain.closeBlock <;> rfl

theorem tag_run (settings : Settings) (x : Identifier) (scope : Scope) (r : Resolution) :
    (tag settings x scope).run.run r =
      if settings.buildFile then (.ok (), r)
      else match r.tags.record x scope with
        | .ok tags => (.ok (), { r with tags })
        | .error fault => (.error fault, r) := by
  cases h : settings.buildFile with
  | true =>
    simp only [tag, h]
    rfl
  | false =>
    simp only [tag, h, Bool.not_false, ↓reduceIte, run_bind, run_get, run_lift]
    cases r.tags.record x scope <;> rfl

variable {settings : Settings}

namespace Follows
variable {p q s : Place} {m k : Resolve Unit} {es ds : List Finding}

theorem done : Follows settings p (pure ()) [] p := by
  intro r hr
  exact yields_of_quiet (List.forall_mem_nil _) hr (List.append_nil _).symm rfl

theorem bind (hm : Follows settings p m es q) (hk : Follows settings q k ds s) :
    Follows settings p (m >>= fun _ => k) (es ++ ds) s := by
  intro r hr
  have h := hm r hr
  rw [Yields] at h ⊢
  cases ht : settings.performAll r.tags es with
  | error fault =>
    simp only [ht] at h
    obtain ⟨r', as, a, bs, hrun, hstop⟩ := h
    simp only [Settings.performAll_append_error ht]
    refine ⟨r', as, a, bs ++ ds, by rw [run_bind, hrun], ?_, hstop.before, hstop.fault_eq,
      hstop.errors_eq⟩
    rw [hstop.found_eq, List.append_assoc, List.cons_append]
  | ok t =>
    simp only [ht] at h
    obtain ⟨r', hrun, hq, he, rfl⟩ := h
    have h' := hk r' hq
    rw [Yields] at h'
    rw [run_bind, hrun]
    simp only [Settings.performAll_append_ok ht]
    cases hu : settings.performAll r'.tags ds with
    | error fault =>
      simp only [hu] at h'
      obtain ⟨r'', as, a, bs, hrun', hstop⟩ := h'
      refine ⟨r'', es ++ as, a, bs, hrun', ?_, ?_, hstop.fault_eq, ?_⟩
      · rw [hstop.found_eq, List.append_assoc]
      · rw [Settings.performAll_append_ok ht, hstop.before]
      · rw [hstop.errors_eq, he, List.filterMap_append, List.append_assoc]
    | ok u =>
      simp only [hu] at h'
      obtain ⟨r'', hrun', hs, he', rfl⟩ := h'
      refine ⟨r'', hrun', hs, ?_, rfl⟩
      rw [he', he, List.filterMap_append, List.append_assoc]

/-- A step that notes errors and does nothing else. -/
theorem note (errors : List Diagnostic) (hes : ∀ e ∈ es, e.Quiet)
    (hd : es.filterMap (Finding.diagnostic? settings.env) = errors) :
    Follows settings p (modify fun r => { r with errors := r.errors ++ errors }) es p := by
  intro r hr
  exact yields_of_quiet hes ⟨⟨hr.shows.chain, hr.shows.legacy_eq⟩, hr.loops_eq⟩
    (congrArg _ hd.symm) rfl

theorem misplaced (a : Misplacement) (loc : Option Location) :
    Follows settings p (misplaced a loc) [.misplaced a loc] p :=
  note _ (List.forall_mem_singleton.mpr ⟨rfl, rfl⟩) rfl

/-- An expression in the place of a target is reported by its text, if it has one. -/
theorem refusal (e : Expr) : Follows settings p
    (quote e >>= fun text => Resolve.misplaced (.notAssignable text) e.loc) [.refusal e] p := by
  intro r hr
  rw [Finding.refusal, quote]
  cases e.text? with
  | some text => exact misplaced _ _ r hr
  | none => exact ⟨r, [], .unwritable, [], rfl, rfl, rfl, rfl, (List.append_nil _).symm⟩

/-- A check in front of a visit. -/
theorem check {c : Prop} [Decidable c] {a : Misplacement} {loc : Option Location}
    (hk : Follows settings p k ds q) :
    Follows settings p (if c then Resolve.misplaced a loc >>= fun _ => k else k)
      (misplacedIf c a loc ++ ds) q := by
  unfold misplacedIf
  split
  · exact (misplaced a loc).bind hk
  · exact hk

variable {f g : Frame} {fs : List Frame} {n : Nat}

theorem inFunction {k : Bool → Resolve Unit}
    (hk : Follows settings ⟨f :: fs, n⟩ (k (Frame.inFunction (f :: fs))) es q) :
    Follows settings ⟨f :: fs, n⟩ (Resolve.inFunction >>= k) es q := by
  intro r hr
  have hb : Resolve.inFunction.run.run r = (.ok (Frame.inFunction (f :: fs)), r) := by
    change (Except.ok (r.chain.current.scope == .inner), r) = _
    rw [hr.shows.chain.current_scope]
    rfl
  rw [run_bind, hb]
  exact hk r hr

theorem openLoops {k : Nat → Resolve Unit} (hk : Follows settings ⟨fs, n⟩ (k n) es q) :
    Follows settings ⟨fs, n⟩ (get >>= fun r => k r.loops) es q := by
  intro r hr
  have h := hk r hr
  rw [← show r.loops = n from hr.loops_eq] at h
  rw [run_bind, run_get]
  exact h

theorem openBlock (scope : Scope) :
    Follows settings ⟨fs, n⟩ (openBlock scope) [] ⟨⟨scope, []⟩ :: fs, n⟩ := by
  intro r hr
  exact yields_of_quiet (List.forall_mem_nil _)
    ⟨⟨hr.shows.chain.openBlock scope, hr.shows.legacy_eq⟩, hr.loops_eq⟩
    (List.append_nil _).symm rfl

theorem closeBlock : Follows settings ⟨f :: g :: fs, n⟩ closeBlock [] ⟨g :: fs, n⟩ := by
  intro r hr
  obtain ⟨i, hc, hs⟩ := hr.shows.chain.closeBlock
  rw [closeBlock_run, hc]
  exact yields_of_quiet (List.forall_mem_nil _) ⟨⟨hs, hr.shows.legacy_eq⟩, hr.loops_eq⟩
    (List.append_nil _).symm rfl

/-- Declaring names puts them into the innermost frame and notes the errors of it. -/
theorem declaring {F : Declarations → Declarations} {ds : List Declared}
    (hF : ∀ d, F d = ds.foldl Declarations.take d) (scope_eq : f.scope = g.scope)
    (same : ∀ x, x ∈ g.names ↔
      x ∈ (ds.filterMap Declared.identifier?).map (·.name) ∨ x ∈ f.names) :
    Follows settings ⟨f :: fs, n⟩ (declaring F)
      ((Declared.errors (Declarations.isStrict f settings.buildFile) f.names ds).map .noted)
      ⟨g :: fs, n⟩ := by
  intro r hr
  obtain ⟨hs, he⟩ := hr.shows.foldl_take ds
  have hchain := hs.chain.congr scope_eq (g := g) fun x => by
    simp only [same, List.mem_append, List.map_reverse, List.mem_reverse]
  rw [← hF] at he hchain
  refine yields_of_quiet ?_ ⟨⟨hchain, ?_⟩, hr.loops_eq⟩ ?_ rfl
  · exact List.forall_mem_map.mpr fun _ _ => ⟨rfl, rfl⟩
  · rw [← hs.legacy_eq, ← hF]
  · simp only [he, List.filterMap_map, Function.comp_def, Finding.diagnostic?,
      List.filterMap_some]

theorem tag {e : Finding} {x : Identifier} {scope : Scope} (ht : e.tag? = some (x, scope))
    (hd : e.diagnostic? settings.env = none) (hs : e.stops = false) :
    Follows settings p (tag settings x scope) [e] p := by
  intro r hr
  have he : [e].filterMap (Finding.diagnostic? settings.env) = [] := by
    simp [hd]
  have hperform : settings.perform r.tags e =
      if settings.buildFile then .ok r.tags else r.tags.record x scope := by
    rw [Settings.perform, hs, Settings.tags, List.filterMap_cons, ht, List.filterMap_nil]
    cases settings.buildFile with
    | true => rfl
    | false => exact ScopeTable.recordAll_singleton r.tags x scope
  rw [Yields, Settings.performAll_singleton, hperform, tag_run]
  cases hb : settings.buildFile with
  | true => exact ⟨r, rfl, hr, by rw [he, List.append_nil], rfl⟩
  | false =>
    rw [hb] at hperform
    simp only [Bool.false_eq_true, ↓reduceIte] at hperform ⊢
    cases hrec : r.tags.record x scope with
    | error fault =>
      exact ⟨r, [], e, [], rfl, rfl, rfl, hperform.trans hrec, (List.append_nil _).symm⟩
    | ok t =>
      exact ⟨{ r with tags := t }, rfl, ⟨⟨hr.shows.chain, hr.shows.legacy_eq⟩, hr.loops_eq⟩,
        by rw [he, List.append_nil], rfl⟩

end Follows

/-- The error for a name among the visible ones, where all flags are known. -/
theorem reference_run (known : settings.env.KnownFlags) (x : Identifier) (r : Resolution) :
    (reference settings x).run.run r = match r.chain.resolve? x.name with
      | some block => (tag settings x block.scope).run.run r
      | none => (.ok (), { r with errors := r.errors ++ [
          match settings.env.hiddenNames.find? (·.name == x.name) with
          | some g => { message := g.accessMessage, loc := x.loc }
          | none => { message := unknownNameMessage x.name r.chain.allSymbols, loc := x.loc }] }) := by
  rw [reference, run_bind, run_get]
  dsimp only
  cases r.chain.resolve? x.name with
  | some block => rfl
  | none =>
    simp only [Environment.restricted_eq known, run_bind, run_lift]
    cases settings.env.hiddenNames.find? (·.name == x.name) <;> rfl

namespace Follows
variable {f : Frame} {fs : List Frame} {n : Nat}

/-- A reference is tagged or reported. -/
theorem reference (known : settings.env.KnownFlags) (x : Identifier) :
    Follows settings ⟨fs, n⟩ (reference settings x) [.name x fs] ⟨fs, n⟩ := by
  intro r hr
  have hres := hr.shows.chain.resolve?_scope x.name
  rw [reference_run known]
  cases hf : Frame.find? fs x.name with
  | some f =>
    obtain ⟨b, hb, hs⟩ : ∃ b, r.chain.resolve? x.name = some b ∧ b.scope = f.scope := by
      simpa only [hf, Option.map_some, Option.map_eq_some_iff] using hres
    rw [hb]
    dsimp only
    rw [hs]
    exact tag (by simp [Finding.tag?, hf]) (by simp [Finding.diagnostic?, hf]) rfl r hr
  | none =>
    have hb : r.chain.resolve? x.name = none := by
      simpa only [hf, Option.map_none, Option.map_eq_none_iff] using hres
    have hmsg := unknownNameMessage_congr x.name hr.shows.chain.mem_allSymbols
    rw [hb]
    exact note _ (List.forall_mem_singleton.mpr ⟨by simp [Finding.tag?, hf], rfl⟩)
      (by simp only [List.filterMap_cons, Finding.diagnostic?, hf, unresolvedError, hmsg]; rfl) r hr

theorem references (known : settings.env.KnownFlags) (xs : List Identifier) :
    Follows settings ⟨fs, n⟩ (references settings xs) (xs.map (.name · fs)) ⟨fs, n⟩ := by
  induction xs with
  | nil => exact done
  | cons x xs ih => exact (reference known x).bind ih

/-- A name that the innermost block binds is tagged with the scope of that block. -/
theorem assign_ident {x : Identifier} (hx : x.name ∈ f.names) :
    Follows settings ⟨f :: fs, n⟩ (assign settings (.ident x)) [.name x (f :: fs)]
      ⟨f :: fs, n⟩ := by
  intro r hr
  have hf : Frame.find? (f :: fs) x.name = some f := by
    simp [Frame.find?, Frame.binds, hx]
  have hrun : (assign settings (.ident x)).run.run r = (Resolve.tag settings x f.scope).run.run r := by
    rw [assign, run_bind, run_get]
    exact congrArg (fun s => (Resolve.tag settings x s).run.run r) hr.shows.chain.current_scope
  rw [hrun]
  exact tag (by simp [Finding.tag?, hf]) (by simp [Finding.diagnostic?, hf]) rfl r hr

theorem enterLoop : Follows settings ⟨fs, n⟩ enterLoop [] ⟨fs, n + 1⟩ := by
  intro r hr
  exact yields_of_quiet (List.forall_mem_nil _)
    ⟨⟨hr.shows.chain, hr.shows.legacy_eq⟩, congrArg (· + 1) hr.loops_eq⟩
    (List.append_nil _).symm rfl

theorem leaveLoop : Follows settings ⟨fs, n + 1⟩ leaveLoop [] ⟨fs, n⟩ := by
  intro r hr
  have hl : r.loops = n + 1 := hr.loops_eq
  have hrun : Resolve.leaveLoop.run.run r = (.ok (), { r with loops := r.loops - 1 }) := by
    rw [Resolve.leaveLoop, run_bind, run_get]
    dsimp only
    rw [if_neg (hl ▸ Nat.succ_ne_zero n)]
    rfl
  rw [hrun]
  exact yields_of_quiet (List.forall_mem_nil _) ⟨⟨hr.shows.chain, hr.shows.legacy_eq⟩, by simp [hl]⟩
    (List.append_nil _).symm rfl

end Follows
end Resolve
end Starlark
