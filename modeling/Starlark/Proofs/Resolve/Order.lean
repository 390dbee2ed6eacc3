import Starlark.Proofs.Resolve.Alike

/-! # The order of top-level statements

Which occurrence of a name is a repeated binding depends on the order of the statements, but not
how many there are for each name. So the messages of a file are the same in every order of its
statements, apart from those about the order of loads.
-/
namespace Starlark

namespace Declared

/-- The names that were bound before count as a set. -/
theorem errors_congr (strict : Bool) (ds : List Declared) {seen seen' : List String}
    (same : ∀ x, x ∈ seen ↔ x ∈ seen') : errors strict seen ds = errors strict seen' ds := by
  induction ds generalizing seen seen' with
  | nil => rfl
  | cons d ds ih =>
    cases d with
    | noted d => exact congrArg _ (ih same)
    | bound x =>
      have hcontains : seen.contains x.name = seen'.contains x.name := by
        rw [Bool.eq_iff_iff]
        simpa using same x.name
      have hcons : ∀ y, y ∈ x.name :: seen ↔ y ∈ x.name :: seen' := by
        intro y
        simp only [List.mem_cons, same y]
      rw [errors, errors, hcontains, ih hcons]

/-- Two bindings give the same messages in either order: if they bind one name, the later of the
two repeats it. -/
theorem errors_swap (strict : Bool) (seen : List String) (x y : Identifier) (ds : List Declared) :
    ((errors strict seen (.bound x :: .bound y :: ds)).map (·.message)).Perm
      ((errors strict seen (.bound y :: .bound x :: ds)).map (·.message)) := by
  have hrest : errors strict (y.name :: x.name :: seen) ds =
      errors strict (x.name :: y.name :: seen) ds :=
    errors_congr strict ds fun z => by simp only [List.mem_cons, or_left_comm]
  simp only [errors, hrest, ← List.append_assoc, List.map_append]
  refine List.Perm.append_right _ ?_
  by_cases hxy : x.name = y.name
  · have hmessage : ∀ repeated : Bool,
        (if repeated then [readOnlyError y.name x.loc] else []).map (·.message) =
          (if repeated then [readOnlyError y.name y.loc] else []).map (·.message) := by
      intro repeated
      cases repeated with
      | true => rfl
      | false => rfl
    rw [hxy, hmessage, hmessage]
  · have hx : (x.name :: seen).contains y.name = seen.contains y.name := by
      simp [Ne.symm hxy]
    have hy : (y.name :: seen).contains x.name = seen.contains x.name := by
      simp [hxy]
    rw [hx, hy]
    exact List.perm_append_comm

/-- Declarations give the same messages in every order. -/
theorem errors_perm (strict : Bool) {ds es : List Declared} (h : ds.Perm es)
    (seen : List String) :
    ((errors strict seen ds).map (·.message)).Perm
      ((errors strict seen es).map (·.message)) := by
  induction h generalizing seen with
  | nil => exact .refl _
  | cons d _ ih =>
    cases d with
    | noted d => exact (ih seen).cons _
    | bound x =>
      simp only [errors, List.map_append]
      exact (ih (x.name :: seen)).append_left _
  | swap d e ds =>
    cases d with
    | noted d =>
      cases e with
      | noted e => exact .swap _ _ _
      | bound y =>
        simp only [errors, List.map_append, List.map_cons]
        exact List.perm_middle
    | bound x =>
      cases e with
      | noted e =>
        simp only [errors, List.map_append, List.map_cons]
        exact List.perm_middle.symm
      | bound y => exact errors_swap strict seen y x ds
  | trans _ _ ih ih' => exact (ih seen).trans (ih' seen)

end Declared

namespace Stmt
variable {ss ts : List Stmt}

theorem declaredAll_eq (ss : List Stmt) : declaredAll ss = ss.flatMap declared := by
  induction ss with
  | nil => rfl
  | cons s ss ih => rw [declaredAll, ih, List.flatMap_cons]

theorem declaredAll_perm (h : ss.Perm ts) : (declaredAll ss).Perm (declaredAll ts) := by
  rw [declaredAll_eq, declaredAll_eq]
  exact h.flatMap_right _

/-- A file binds the same names in every order of its statements. -/
theorem mem_bindings_perm (h : ss.Perm ts) (x : String) :
    x ∈ (bindings ss).map (·.name) ↔ x ∈ (bindings ts).map (·.name) :=
  (((declaredAll_perm h).filterMap _).map _).mem_iff

theorem numbers_perm (h : ss.Perm ts) :
    (numbers (occurrencesAll ss)).Perm (numbers (occurrencesAll ts)) := by
  rw [occurrencesAll_eq, occurrencesAll_eq]
  exact (h.flatMap_right _).map _

end Stmt

/-- Are the loads of a file checked to come first? -/
def Settings.checksLoadOrder (settings : Settings) : Bool :=
  !settings.buildFile && settings.env.semantics.disallowLoadAfterStatement

namespace Settings
variable {settings : Settings} {ss ts : List Stmt} {predeclared : List String}

theorem filterMap_noted (env : Environment) (ds : List Diagnostic) :
    (ds.map Finding.noted).filterMap (Finding.diagnostic? env) = ds := by
  simp only [List.filterMap_map, Function.comp_def, Finding.diagnostic?, List.filterMap_some]

theorem tags_noted (ss : List Stmt) : settings.tags (settings.noted ss) = [] := by
  have hnoted : ∀ ds : List Diagnostic, settings.tags (ds.map Finding.noted) = [] := by
    simp [tags, List.filterMap_map, Function.comp_def, Finding.tag?]
  rw [noted, tags_append, hnoted, List.append_nil]
  split
  · exact hnoted _
  · simp [tags]

/-- The tags of a file are those of the visit. -/
theorem tags_findings_visit (predeclared : List String) (ss : List Stmt) :
    settings.tags (settings.findings predeclared ss) =
      settings.tags (Stmt.visited predeclared ss) := by
  rw [findings, tags_append, tags_noted, List.nil_append]

theorem tags_findingsAll (fs : List Frame) (n : Nat) (ss : List Stmt) :
    settings.tags (Stmt.findingsAll fs n ss) =
      ss.flatMap fun s => settings.tags (s.findings fs n) := by
  induction ss with
  | nil => simp [tags, Stmt.findingsAll]
  | cons s ss ih => rw [Stmt.findingsAll, tags_append, ih, List.flatMap_cons]

/-- The diagnostics of a file: the loads that come too late, the repeated bindings, and those of
the visit. -/
theorem diagnostics_findings_eq (predeclared : List String) (ss : List Stmt) :
    (settings.findings predeclared ss).filterMap (Finding.diagnostic? settings.env) =
      (if settings.checksLoadOrder then loadOrderErrors none ss else [])
        ++ Declared.errors (!settings.buildFile) [] (Stmt.declaredAll ss)
        ++ (Stmt.visited predeclared ss).filterMap (Finding.diagnostic? settings.env) := by
  rw [findings, noted, List.filterMap_append, List.filterMap_append, filterMap_noted]
  unfold checksLoadOrder
  split
  · rw [filterMap_noted]
  · rfl

/-- A visit that never stops has the diagnostics of its statements, one by one. -/
theorem diagnostics_visited (env : Environment) (hhalts : ss.any Stmt.halts = false) :
    (Stmt.visited predeclared ss).filterMap (Finding.diagnostic? env) =
      ss.flatMap fun s => (s.findings (Stmt.topFrames predeclared ss) 0).filterMap
        (Finding.diagnostic? env) := by
  rw [Stmt.visited_eq hhalts, Stmt.findingsAll_eq, List.filterMap_flatMap]

theorem tags_visited (hhalts : ss.any Stmt.halts = false) :
    settings.tags (Stmt.visited predeclared ss) =
      ss.flatMap fun s => settings.tags (s.findings (Stmt.topFrames predeclared ss) 0) := by
  rw [Stmt.visited_eq hhalts, tags_findingsAll]

theorem tags_findings_perm (hhalts : ss.any Stmt.halts = false) (h : ss.Perm ts) :
    (settings.tags (settings.findings predeclared ss)).Perm
      (settings.tags (settings.findings predeclared ts)) := by
  simp only [tags_findings_visit, tags_visited hhalts, tags_visited (h.any_eq.symm.trans hhalts),
    Stmt.findings_topFrames, Stmt.tags_congr settings (Stmt.mem_bindings_perm h)]
  exact h.flatMap_right _

/-- Without a check of the loads, a file that is visited to its end has the same messages in every
order of its statements. -/
theorem messages_findings_perm (hloads : settings.checksLoadOrder = false)
    (hhalts : ss.any Stmt.halts = false) (h : ss.Perm ts) :
    (((settings.findings predeclared ss).filterMap
      (Finding.diagnostic? settings.env)).map (·.message)).Perm
      (((settings.findings predeclared ts).filterMap
        (Finding.diagnostic? settings.env)).map (·.message)) := by
  simp only [diagnostics_findings_eq, hloads, Bool.false_eq_true, ↓reduceIte, List.nil_append,
    List.map_append, diagnostics_visited _ hhalts,
    diagnostics_visited _ (h.any_eq.symm.trans hhalts), Stmt.findings_topFrames,
    Stmt.diagnostics_congr settings.env (Stmt.mem_bindings_perm h)]
  exact (Declared.errors_perm _ (Stmt.declaredAll_perm h) []).append ((h.flatMap_right _).map _)

end Settings
end Starlark
