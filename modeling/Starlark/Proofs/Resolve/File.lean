import Starlark.Proofs.Resolve.Alike
import Starlark.Proofs.Resolve.Visit
import Starlark.Proofs.Scope.Conflicts

/-! # The outcome of resolving a file

The module block binds every name bound at top level, so the file follows its findings from the
universe block back to it, and the chain is balanced at the end. A fault is that of a tag that
conflicts with another one, or of a target that cannot be reported.
-/
namespace Starlark

namespace Resolve
variable {settings : Settings}

/-- The steps of a file, before the chain is checked. -/
theorem follows_file (known : settings.env.KnownFlags) (predeclared : List String)
    (ss : List Stmt) :
    Follows settings ⟨[⟨.builtin, predeclared⟩], 0⟩
      (openBlock .global >>= fun _ => declaring (·.collectAll ss) >>= fun _ =>
        block settings ss >>= fun _ => closeBlock)
      ((Declared.errors (!settings.buildFile) [] (Stmt.declaredAll ss)).map .noted
        ++ Stmt.findingsAll (Stmt.topFrames predeclared ss) 0 ss)
      ⟨[⟨.builtin, predeclared⟩], 0⟩ := by
  have hd : Follows settings ⟨[⟨.global, []⟩, ⟨.builtin, predeclared⟩], 0⟩
      (declaring (·.collectAll ss)) _ ⟨Stmt.topFrames predeclared ss, 0⟩ :=
    .declaring (fun d => Declarations.collectAll_eq d ss) rfl fun x => by
      simp [Stmt.moduleFrame, Stmt.bindings]
  have hb : (Stmt.moduleFrame ss).Holds (Stmt.declaredAll ss) :=
    Frame.holds_of_bindings fun x hx => List.mem_map_of_mem hx
  have h := (Follows.openBlock .global).bind
    (hd.bind ((follows_block known _ _ 0 ss hb).bind Follows.closeBlock))
  simpa only [Stmt.topFrames, List.nil_append, List.append_nil, Declarations.isStrict,
    beq_self_eq_true, Bool.true_and] using h

/-- The check at the end of a file passes. -/
theorem follows_balanced {f : Frame} :
    Follows settings ⟨[f], 0⟩
      (get >>= fun r => if !r.chain.isBalanced then throw .unbalanced else pure ()) []
      ⟨[f], 0⟩ := by
  intro r hr
  have hb : r.chain.isBalanced = true := hr.shows.chain.isBalanced
  rw [run_bind, run_get]
  simp only [hb, Bool.not_true, Bool.false_eq_true, ↓reduceIte]
  exact yields_of_quiet (List.forall_mem_nil _) hr (List.append_nil _).symm rfl

/-- The visit of a file, with what it would find if it never stopped. -/
theorem follows_toplevel (known : settings.env.KnownFlags) (predeclared : List String)
    (ss : List Stmt) :
    Follows settings ⟨[⟨.builtin, predeclared⟩], 0⟩ (toplevel settings ss)
      (settings.noted ss ++ Stmt.findingsAll (Stmt.topFrames predeclared ss) 0 ss)
      ⟨[⟨.builtin, predeclared⟩], 0⟩ := by
  have h := (follows_file known predeclared ss).bind follows_balanced
  rw [List.append_nil] at h
  simp only [bind_assoc] at h
  rw [toplevel, Settings.noted, List.append_assoc]
  split
  · refine Follows.bind (.note _ ?_ ?_) h
    · exact List.forall_mem_map.mpr fun _ _ => ⟨rfl, rfl⟩
    · simp [List.filterMap_map, Function.comp_def, Finding.diagnostic?]
  · exact h

end Resolve

section Outcome
variable {settings : Settings} {t u : ScopeTable} {es : List Finding}

theorem Settings.any_stops_noted (settings : Settings) (ss : List Stmt) :
    (settings.noted ss).any Finding.stops = false := by
  have hnoted : ∀ ds : List Diagnostic, (ds.map Finding.noted).any Finding.stops = false := by
    simp [Finding.stops]
  rw [noted, List.any_append, hnoted, Bool.or_false]
  split
  · exact hnoted _
  · rfl

/-- Whether a visit of some statements of a file stops is for these to say. -/
theorem Settings.any_stops_file (settings : Settings) (predeclared : List String)
    (us ss : List Stmt) :
    (settings.noted us ++ Stmt.findingsAll (Stmt.topFrames predeclared us) 0 ss).any
      Finding.stops = ss.any Stmt.halts := by
  rw [List.any_append, any_stops_noted, Bool.false_or, Stmt.any_stops_findingsAll]

theorem Settings.reached_file (settings : Settings) (predeclared : List String)
    (ss : List Stmt) :
    Finding.reached (settings.noted ss
      ++ Stmt.findingsAll (Stmt.topFrames predeclared ss) 0 ss) = settings.findings predeclared ss :=
  Finding.reached_append (settings.any_stops_noted ss) _

theorem Settings.performAll_file (settings : Settings) (t : ScopeTable)
    (predeclared : List String) (ss : List Stmt) :
    settings.performAll t (settings.noted ss
        ++ Stmt.findingsAll (Stmt.topFrames predeclared ss) 0 ss) =
      match t.recordAll (settings.tags (settings.findings predeclared ss)) with
      | .ok u => if ss.any Stmt.halts then .error .unwritable else .ok u
      | .error fault => .error fault := by
  have hperform := settings.performAll_eq t
    (settings.noted ss ++ Stmt.findingsAll (Stmt.topFrames predeclared ss) 0 ss)
  rw [reached_file, any_stops_file] at hperform
  exact hperform

/-- What is performed without a fault is recorded without one, and has no stop in it. -/
theorem Settings.recordAll_of_performAll (h : settings.performAll t es = .ok u) :
    es.any Finding.stops = false ∧ t.recordAll (settings.tags es) = .ok u := by
  rw [performAll_eq] at h
  cases hes : es.any Finding.stops with
  | true =>
    rw [hes] at h
    split at h <;> cases h
  | false =>
    rw [Finding.reached_eq_self hes, hes] at h
    split at h
    · next hrec =>
      cases h
      exact ⟨rfl, hrec⟩
    · cases h

/-- A fault of a tag is not that of a stop. -/
theorem ScopeTable.recordAll_ne_unwritable (t : ScopeTable) (xs : List (Identifier × Scope)) :
    t.recordAll xs ≠ .error .unwritable := by
  intro h
  induction xs generalizing t with
  | nil => cases h
  | cons p xs ih =>
    cases hp : t.record p.1 p.2 with
    | ok u =>
      rw [recordAll_cons hp] at h
      exact ih u h
    | error fault =>
      rw [recordAll, List.foldlM_cons, hp] at h
      obtain ⟨previous, -, -, rfl⟩ := record_error hp
      cases h

theorem Settings.stops_of_perform {e : Finding} {fault : Fault}
    (h : settings.perform t e = .error fault) :
    e.stops = true ∧ fault = .unwritable ∨
      e.stops = false ∧ t.recordAll (settings.tags [e]) = .error fault ∧ fault ≠ .unwritable := by
  rw [perform] at h
  cases he : e.stops with
  | true =>
    rw [he] at h
    cases h
    exact .inl ⟨rfl, rfl⟩
  | false =>
    rw [he] at h
    refine .inr ⟨rfl, h, ?_⟩
    rintro rfl
    exact ScopeTable.recordAll_ne_unwritable t _ h

end Outcome

/-- Where the tags of what is reached agree, a visit writes them, and the errors with them. It ends
where it should unless it comes to a target that cannot be reported. -/
theorem Resolve.Follows.run_eq {settings : Settings} {p q : Place} {m : Resolve Unit}
    {found : List Finding} (h : Follows settings p m found q) {r : Resolution}
    (hr : At settings p r) {t : ScopeTable}
    (ht : r.tags.recordAll (settings.tags (Finding.reached found)) = .ok t) :
    ∃ r', m.run.run r =
        (if found.any Finding.stops then .error .unwritable else .ok (), r') ∧
      (found.any Finding.stops = false → At settings q r') ∧
      r'.errors =
        r.errors ++ (Finding.reached found).filterMap (Finding.diagnostic? settings.env) ∧
      r'.tags = t := by
  have hyields := h r hr
  rw [Yields, settings.performAll_eq, ht] at hyields
  cases hstops : found.any Finding.stops with
  | false =>
    simp only [hstops, Bool.false_eq_true, ↓reduceIte] at hyields
    obtain ⟨r', hrun, hq, herrors, htags⟩ := hyields
    rw [Finding.reached_eq_self hstops]
    exact ⟨r', hrun, fun _ => hq, herrors, htags⟩
  | true =>
    simp only [hstops, ↓reduceIte] at hyields
    obtain ⟨r', es, e, ds, hrun, hstop⟩ := hyields
    obtain ⟨hes, hrec⟩ := Settings.recordAll_of_performAll hstop.before
    -- The findings before the stop are those that are reached.
    have hreached : Finding.reached found = es := by
      rcases Settings.stops_of_perform hstop.fault_eq with ⟨he, -⟩ | ⟨-, -, hne⟩
      · rw [hstop.found_eq, Finding.reached_append hes, Finding.reached, List.takeWhile_cons, he]
        exact List.append_nil es
      · exact absurd rfl hne
    rw [hreached] at ht ⊢
    exact ⟨r', hrun, fun h => absurd h.symm Bool.false_ne_true, hstop.errors_eq,
      Except.ok.inj (hrec.symm.trans ht)⟩

/-- Where the tags of the findings agree, they are written and the errors of the findings with them.
That is all, unless the visit comes to a target that cannot be reported. -/
theorem resolveFile_eq {settings : Settings} (known : settings.env.KnownFlags)
    (ss : List Stmt) (predeclared : List String) (errors : List Diagnostic)
    {tags t : ScopeTable}
    (ht : tags.recordAll (settings.tags (settings.findings predeclared ss)) = .ok t) :
    resolveFile settings ss predeclared errors tags =
      ⟨if ss.any Stmt.halts then some .unwritable else none,
        errors ++ (settings.findings predeclared ss).filterMap (Finding.diagnostic? settings.env),
        t⟩ := by
  have hstart : Resolve.At settings ⟨[⟨.builtin, predeclared⟩], 0⟩
      ⟨⟨ScopeChain.start predeclared settings.buildFile, errors⟩, 0, tags⟩ :=
    ⟨⟨.start predeclared settings.buildFile, rfl⟩, rfl⟩
  rw [← settings.reached_file] at ht ⊢
  obtain ⟨r, hrun, -, herrors, htags⟩ :=
    (Resolve.follows_toplevel known predeclared ss).run_eq hstart ht
  rw [settings.any_stops_file] at hrun
  cases hhalts : ss.any Stmt.halts with
  | false => simp only [resolveFile, hrun, hhalts, herrors, htags, Bool.false_eq_true, ↓reduceIte]
  | true => simp only [resolveFile, hrun, hhalts, herrors, htags, ↓reduceIte]

/-- A tag that cannot be recorded is a fault, and what is written before it is what was found before
that tag. -/
theorem resolveFile_error {settings : Settings} (known : settings.env.KnownFlags)
    (ss : List Stmt) (predeclared : List String) (errors : List Diagnostic)
    {tags : ScopeTable} {fault : Fault}
    (ht : tags.recordAll (settings.tags (settings.findings predeclared ss)) = .error fault) :
    ∃ es e ds t, settings.findings predeclared ss = es ++ e :: ds ∧
      tags.recordAll (settings.tags es) = .ok t ∧
      t.recordAll (settings.tags [e]) = .error fault ∧
      resolveFile settings ss predeclared errors tags =
        ⟨some fault, errors ++ es.filterMap (Finding.diagnostic? settings.env), t⟩ := by
  have hstart : Resolve.At settings ⟨[⟨.builtin, predeclared⟩], 0⟩
      ⟨⟨ScopeChain.start predeclared settings.buildFile, errors⟩, 0, tags⟩ :=
    ⟨⟨.start predeclared settings.buildFile, rfl⟩, rfl⟩
  have h := Resolve.follows_toplevel known predeclared ss _ hstart
  rw [Resolve.Yields, settings.performAll_file, ht] at h
  obtain ⟨r, es, e, ds, hrun, hstop⟩ := h
  obtain ⟨hes, hrec⟩ := Settings.recordAll_of_performAll hstop.before
  rcases Settings.stops_of_perform hstop.fault_eq with ⟨-, rfl⟩ | ⟨he, htag, -⟩
  · exact absurd ht (ScopeTable.recordAll_ne_unwritable _ _)
  · refine ⟨es, e, Finding.reached ds, r.tags, ?_, hrec, htag, ?_⟩
    · have hall : (es ++ [e]).any Finding.stops = false := by
        rw [List.any_append, hes, List.any_cons, he]
        rfl
      rw [← settings.reached_file, hstop.found_eq, List.append_cons, Finding.reached_append hall,
        ← List.append_cons]
    · simp only [resolveFile, hrun, hstop.errors_eq]

end Starlark
