import Starlark.Proofs.Session.Unwritable

/-! # Statements are resolved independently

What the visit of a top-level statement reports and tags depends on the rest of the file only by
the set of names bound at top level. So the order of the statements does not matter either,
apart from the check that loads come first.
-/
namespace Starlark

/-- The state in which the resolution of a file without tags begins. -/
def Resolution.initial (settings : Settings) (builtins : List String)
    (errors : List Diagnostic) : Resolution :=
  ⟨⟨ScopeChain.start builtins settings.buildFile, errors⟩, 0, .empty⟩

theorem Settings.tags_numbers (settings : Settings) {fs : List Frame} {n : Nat} {s : Stmt}
    {p : Identifier × Scope} (hp : p ∈ settings.tags (s.findings fs n)) :
    p.1.id ∈ numbers s.occurrences := by
  have hp' : p ∈ (s.findings fs n).filterMap Finding.tag? := by
    unfold Settings.tags at hp
    split at hp
    · cases hp
    · exact hp
  obtain ⟨e, he, htag⟩ := List.mem_filterMap.mp hp'
  have hname : e.name? = some p.1 := by
    cases e with
    | name x frames =>
      obtain ⟨f, -, rfl⟩ := Option.map_eq_some_iff.mp htag
      rfl
    | misplaced _ _ | noted _ | unwritable => cases htag
  have hmem : p.1 ∈ Finding.names (s.findings fs n) := List.mem_filterMap.mpr ⟨e, he, hname⟩
  exact List.mem_map_of_mem ((Stmt.findings_names fs n s).subset hmem)

theorem Settings.tagsAll_numbers (settings : Settings) {fs : List Frame} {n : Nat}
    {ss : List Stmt} {p : Identifier × Scope}
    (hp : p ∈ settings.tags (Stmt.findingsAll fs n ss)) :
    p.1.id ∈ numbers (Stmt.occurrencesAll ss) := by
  rw [Settings.tags_findingsAll] at hp
  obtain ⟨s, hs, hps⟩ := List.mem_flatMap.mp hp
  rw [Stmt.occurrencesAll_eq, numbers, List.map_flatMap]
  exact List.mem_flatMap.mpr ⟨s, hs, settings.tags_numbers hps⟩

theorem Settings.tags_reached_subset (settings : Settings) (found : List Finding) :
    settings.tags (Finding.reached found) ⊆ settings.tags found := by
  unfold Settings.tags
  split
  · exact List.Subset.refl _
  · exact ((List.takeWhile_sublist _).filterMap _).subset

theorem Stmt.moduleFrame_holds (ss : List Stmt) :
    (Stmt.moduleFrame ss).Holds (Stmt.declaredAll ss) :=
  Frame.holds_of_bindings fun _ hx => List.mem_map_of_mem hx

theorem Stmt.declaredAll_append (ss ts : List Stmt) :
    Stmt.declaredAll (ss ++ ts) = Stmt.declaredAll ss ++ Stmt.declaredAll ts := by
  simp only [Stmt.declaredAll_eq, List.flatMap_append]

namespace Resolve
variable {settings : Settings}

/-- Where the tags of what is reached agree with a function, a visit records them, and the only
fault is that of a target that cannot be reported. -/
theorem Follows.run {p q : Place} {m : Resolve Unit} {found : List Finding}
    (h : Follows settings p m found q) {r : Resolution} (hr : At settings p r)
    {g : Nat → Option Scope} (ht : r.tags.Agrees g)
    (hg : ∀ x ∈ settings.tags (Finding.reached found), g x.1.id = some x.2) :
    ∃ r', m.run.run r =
        (if found.any Finding.stops then .error .unwritable else .ok (), r') ∧
      (found.any Finding.stops = false → At settings q r') ∧
      r'.errors =
        r.errors ++ (Finding.reached found).filterMap (Finding.diagnostic? settings.env) ∧
      r.tags.recordAll (settings.tags (Finding.reached found)) = .ok r'.tags ∧
      r'.tags.Agrees g ∧
      r.tags.Extends r'.tags (settings.tags (Finding.reached found)) := by
  obtain ⟨t, hrec, hagrees, hext⟩ := ht.recordAll hg
  obtain ⟨r', hrun, hq, herrors, rfl⟩ := h.run_eq hr hrec
  exact ⟨r', hrun, hq, herrors, hrec, hagrees, hext⟩

/-- The first steps of a file: the loads are checked, the names of the whole file are declared,
and some statements are visited. -/
def upTo (settings : Settings) (statements visited : List Stmt) : Resolve Unit := do
  if !settings.buildFile && settings.env.semantics.disallowLoadAfterStatement then
    modify fun r => { r with errors := r.errors ++ loadOrderErrors none statements }
  openBlock .global
  declaring (·.collectAll statements)
  block settings visited

theorem block_append (ss ts : List Stmt) :
    block settings (ss ++ ts) = block settings ss >>= fun _ => block settings ts := by
  induction ss with
  | nil => simp [block]
  | cons s ss ih => simp only [List.cons_append, block, ih, bind_assoc]

/-- The resolution of a file goes on from its first steps with the next statement. -/
theorem toplevel_eq (pre post : List Stmt) (s : Stmt) :
    toplevel settings (pre ++ s :: post) =
      upTo settings (pre ++ s :: post) pre >>= fun _ => stmt settings s >>= fun _ =>
        block settings post >>= fun _ => closeBlock >>= fun _ =>
          get >>= fun r => if !r.chain.isBalanced then throw .unbalanced else pure () := by
  unfold toplevel upTo
  split
  · simp only [block_append, block, bind_assoc]
  · simp only [block_append, block, bind_assoc]

/-- The first steps of a file find what is noted before the visit, and then what the visited
statements find. -/
theorem follows_upTo (known : settings.env.KnownFlags) (predeclared : List String)
    (pre post : List Stmt) :
    Follows settings ⟨[⟨.builtin, predeclared⟩], 0⟩ (upTo settings (pre ++ post) pre)
      (settings.noted (pre ++ post)
        ++ Stmt.findingsAll (Stmt.topFrames predeclared (pre ++ post)) 0 pre)
      ⟨Stmt.topFrames predeclared (pre ++ post), 0⟩ := by
  have hdeclare : Follows settings ⟨[⟨.global, []⟩, ⟨.builtin, predeclared⟩], 0⟩
      (declaring (·.collectAll (pre ++ post)))
      ((Declared.errors (!settings.buildFile) [] (Stmt.declaredAll (pre ++ post))).map .noted)
      ⟨Stmt.topFrames predeclared (pre ++ post), 0⟩ :=
    .declaring (fun d => Declarations.collectAll_eq d (pre ++ post)) rfl fun x => by
      simp [Stmt.moduleFrame, Stmt.bindings]
  have hholds : (Stmt.moduleFrame (pre ++ post)).Holds (Stmt.declaredAll pre) := by
    have hall := Stmt.moduleFrame_holds (pre ++ post)
    rw [Stmt.declaredAll_append, Frame.holds_append] at hall
    exact hall.1
  have hvisit : Follows settings ⟨Stmt.topFrames predeclared (pre ++ post), 0⟩
      (block settings pre) (Stmt.findingsAll (Stmt.topFrames predeclared (pre ++ post)) 0 pre)
      ⟨Stmt.topFrames predeclared (pre ++ post), 0⟩ := follows_block known _ _ 0 pre hholds
  have h := (Follows.openBlock .global).bind (hdeclare.bind hvisit)
  rw [upTo, Settings.noted, List.append_assoc]
  split
  · exact .bind (.note _ (List.forall_mem_map.mpr fun _ _ => ⟨rfl, rfl⟩)
      (Settings.filterMap_noted _ _)) h
  · exact h

/-- A file comes to one of its statements in a first state, leaves it in a second one and ends in
a third one. Its resolution goes from each to the next by `toplevel_eq`, and it stops where the
statement halts. -/
structure Visits (settings : Settings) (pre : List Stmt) (s : Stmt) (post : List Stmt)
    (start before after last : Resolution) : Prop where
  upTo : (upTo settings (pre ++ s :: post) pre).run.run start = (.ok (), before)
  visit : (stmt settings s).run.run before =
    (if s.halts then .error .unwritable else .ok (), after)
  whole : (toplevel settings (pre ++ s :: post)).run.run start =
    (if (pre ++ s :: post).any Stmt.halts then .error .unwritable else .ok (), last)

/-- A file stops before it comes to one of its statements: the third state is that of the stop. -/
structure Misses (settings : Settings) (pre : List Stmt) (s : Stmt) (post : List Stmt)
    (start last : Resolution) : Prop where
  upTo : (upTo settings (pre ++ s :: post) pre).run.run start = (.error .unwritable, last)
  whole : (toplevel settings (pre ++ s :: post)).run.run start = (.error .unwritable, last)

section Nodup
variable {pre post : List Stmt} {s : Stmt}

/-- Where the identifiers of some statements have different numbers, the other statements bring no
tag for one in a statement. -/
theorem not_mem_tags_of_nodup (h : (numbers (Stmt.occurrencesAll (pre ++ s :: post))).Nodup)
    (fs : List Frame) {x : Identifier} (hx : x ∈ s.occurrences) {p : Identifier × Scope}
    (hid : p.1.id = x.id) :
    p ∉ settings.tags (Finding.reached (Stmt.findingsAll fs 0 pre)) ∧
      p ∉ settings.tags (Finding.reached (Stmt.findingsAll fs 0 post)) := by
  have hnumber : x.id ∈ numbers s.occurrences := List.mem_map_of_mem hx
  rw [Stmt.occurrencesAll_eq, List.flatMap_append, List.flatMap_cons, numbers_append,
    numbers_append, ← Stmt.occurrencesAll_eq, ← Stmt.occurrencesAll_eq] at h
  obtain ⟨-, htail, hleft⟩ := List.nodup_append.mp h
  obtain ⟨-, -, hright⟩ := List.nodup_append.mp htail
  constructor
  · intro hp
    have hmem := settings.tagsAll_numbers (settings.tags_reached_subset _ hp)
    exact hleft _ hmem _ (List.mem_append_left _ hnumber) hid
  · intro hp
    have hmem := settings.tagsAll_numbers (settings.tags_reached_subset _ hp)
    exact hright _ hnumber _ hmem hid.symm

/-- The tags of a file are those of its first statements, of the next one, and of the others. -/
theorem tags_split (settings : Settings) (predeclared : List String)
    (hpre : pre.any Stmt.halts = false) :
    ∃ rest ⊆ settings.tags (Finding.reached
        (Stmt.findingsAll (Stmt.topFrames predeclared (pre ++ s :: post)) 0 post)),
      settings.tags (settings.findings predeclared (pre ++ s :: post)) =
        settings.tags (Finding.reached
          (Stmt.findingsAll (Stmt.topFrames predeclared (pre ++ s :: post)) 0 pre)) ++
        (settings.tags (Finding.reached
          (s.findings (Stmt.topFrames predeclared (pre ++ s :: post)) 0)) ++ rest) := by
  rw [settings.tags_findings_visit, Stmt.visited_append, hpre, if_neg Bool.false_ne_true,
    settings.tags_append, settings.tags_append]
  refine ⟨_, ?_, rfl⟩
  split
  · rw [Settings.tags, List.filterMap_nil, ite_self]
    exact List.nil_subset _
  · exact List.Subset.refl _

/-- A statement of a file whose identifiers have different numbers is visited, unless one before it
halts. It reports and records what it comes to, and nothing else is recorded for its
identifiers. -/
theorem visits_of_nodup (known : settings.env.KnownFlags)
    (h : (numbers (Stmt.occurrencesAll (pre ++ s :: post))).Nodup)
    (hpre : pre.any Stmt.halts = false) (predeclared : List String) (errors : List Diagnostic) :
    ∃ before after last,
      Visits settings pre s post (.initial settings predeclared errors) before after last ∧
      after.errors = before.errors ++
        (Finding.reached (s.findings (Stmt.topFrames predeclared (pre ++ s :: post)) 0)).filterMap
          (Finding.diagnostic? settings.env) ∧
      before.tags.recordAll (settings.tags (Finding.reached
        (s.findings (Stmt.topFrames predeclared (pre ++ s :: post)) 0))) = .ok after.tags ∧
      ∀ x ∈ s.occurrences, ∀ scope, last.tags.get? x = some scope ↔
        ∃ p ∈ settings.tags (Finding.reached
          (s.findings (Stmt.topFrames predeclared (pre ++ s :: post)) 0)),
          p.1.id = x.id ∧ p.2 = scope := by
  have hscope := Stmt.scopeOf_tags (.of_subset h fun _ hs => hs) settings predeclared
  obtain ⟨rest, hrest, htags⟩ := @tags_split pre post s settings predeclared hpre
  have hstart : At settings ⟨[⟨.builtin, predeclared⟩], 0⟩
      (.initial settings predeclared errors) := ⟨⟨.start predeclared settings.buildFile, rfl⟩, rfl⟩
  have hempty : (Resolution.initial settings predeclared errors).tags.Agrees
      (Stmt.scopeOf (pre ++ s :: post)) := ScopeTable.agrees_empty _
  have hfirst := settings.any_stops_file predeclared (pre ++ s :: post) pre
  rw [hpre] at hfirst
  have hvisit : Follows settings ⟨Stmt.topFrames predeclared (pre ++ s :: post), 0⟩
      (stmt settings s) (s.findings (Stmt.topFrames predeclared (pre ++ s :: post)) 0)
      ⟨Stmt.topFrames predeclared (pre ++ s :: post), 0⟩ := by
    have hall := Stmt.moduleFrame_holds (pre ++ s :: post)
    rw [Stmt.declaredAll_append, Frame.holds_append, Stmt.declaredAll, Frame.holds_append] at hall
    exact follows_stmt known _ _ 0 s hall.2.1
  obtain ⟨before, hbefore, hat, -, -, hagrees, -⟩ :=
    (follows_upTo known predeclared pre (s :: post)).run hstart hempty fun p hp => by
      rw [Finding.reached_append (settings.any_stops_noted _), settings.tags_append,
        settings.tags_noted, List.nil_append] at hp
      exact hscope p (htags ▸ List.mem_append_left _ hp)
  rw [hfirst] at hbefore
  obtain ⟨after, hafter, -, herrors, hrecord, -, -⟩ :=
    hvisit.run (hat hfirst) hagrees fun p hp =>
      hscope p (htags ▸ List.mem_append_right _ (List.mem_append_left _ hp))
  rw [Stmt.any_stops_findings] at hafter
  obtain ⟨last, hlast, -, -, -, -, hext⟩ :=
    (follows_toplevel known predeclared (pre ++ s :: post)).run hstart hempty fun p hp =>
      hscope p (settings.reached_file predeclared _ ▸ hp)
  rw [settings.any_stops_file] at hlast
  rw [settings.reached_file, htags] at hext
  refine ⟨before, after, last, ⟨hbefore, hafter, hlast⟩, herrors, hrecord, fun x hx scope => ?_⟩
  rw [hext x scope]
  constructor
  · rintro (hnone | ⟨p, hp, hid, hscope⟩)
    · cases hnone
    · obtain ⟨hbefore, hbehind⟩ := not_mem_tags_of_nodup h _ hx hid
      have hmem := (List.mem_append.mp hp).resolve_left hbefore
      exact ⟨p, (List.mem_append.mp hmem).resolve_right (mt (@hrest p) hbehind), hid, hscope⟩
  · rintro ⟨p, hp, hid, hscope⟩
    exact Or.inr ⟨p, List.mem_append_right _ (List.mem_append_left _ hp), hid, hscope⟩

/-- A statement behind one that halts is missed, and its identifiers get no tags. -/
theorem misses_of_nodup (known : settings.env.KnownFlags)
    (h : (numbers (Stmt.occurrencesAll (pre ++ s :: post))).Nodup)
    (hpre : pre.any Stmt.halts = true) (predeclared : List String) (errors : List Diagnostic) :
    ∃ last, Misses settings pre s post (.initial settings predeclared errors) last ∧
      ∀ x ∈ s.occurrences, last.tags.get? x = none := by
  have hscope := Stmt.scopeOf_tags (.of_subset h fun _ hs => hs) settings predeclared
  rw [settings.tags_findings_visit, Stmt.visited_append, hpre, if_pos rfl,
    List.append_nil] at hscope
  have hstart : At settings ⟨[⟨.builtin, predeclared⟩], 0⟩
      (.initial settings predeclared errors) := ⟨⟨.start predeclared settings.buildFile, rfl⟩, rfl⟩
  have hreached : settings.tags (Finding.reached (settings.noted (pre ++ s :: post)
      ++ Stmt.findingsAll (Stmt.topFrames predeclared (pre ++ s :: post)) 0 pre)) =
      settings.tags (Finding.reached
        (Stmt.findingsAll (Stmt.topFrames predeclared (pre ++ s :: post)) 0 pre)) := by
    rw [Finding.reached_append (settings.any_stops_noted _), settings.tags_append,
      settings.tags_noted, List.nil_append]
  obtain ⟨last, hlast, -, -, -, -, hext⟩ :=
    (follows_upTo known predeclared pre (s :: post)).run hstart (ScopeTable.agrees_empty _)
      (hreached ▸ hscope)
  rw [settings.any_stops_file, hpre, if_pos rfl] at hlast
  rw [hreached] at hext
  refine ⟨last, ⟨hlast, ?_⟩, fun x hx => ?_⟩
  · rw [toplevel_eq, run_bind, hlast]
  · refine Option.eq_none_iff_forall_ne_some.mpr fun scope hsome => ?_
    rcases (hext x scope).mp hsome with hnone | ⟨p, hp, hid, -⟩
    · cases hnone
    · exact (not_mem_tags_of_nodup h _ hx hid).1 hp

end Nodup

end Resolve

namespace Workspace
variable {w : Workspace} {f : SourceFile} {settings : Settings}

/-- A first validation records the tags of the findings and appends their diagnostics. -/
theorem validate_fresh (known : settings.env.KnownFlags) (hr : f.reporter < w.reporters.length)
    (hfresh : f.tags = .empty) (h : (numbers (Stmt.occurrencesAll f.statements)).Nodup) :
    ∃ fine f' w', w.validate f settings =
        (if f.statements.any Stmt.halts then .error .unwritable else .ok fine, f', w') ∧
      w'.errors f' = w.errors f ++ f.newErrors settings ∧
      ScopeTable.empty.recordAll (settings.tags (f.findings settings)) = .ok f'.tags ∧
      ScopeTable.empty.Extends f'.tags (settings.tags (f.findings settings)) := by
  have hcons : Stmt.Consistent f.statements := .of_subset h fun _ hs => hs
  obtain ⟨t, ht, -, hext⟩ := (ScopeTable.agrees_empty _).recordAll
    (Stmt.scopeOf_tags hcons settings settings.env.predeclared)
  have hv := validate_eq known hr (hfresh ▸ ht)
  refine ⟨_, _, _, hv, ?_, ht, hext⟩
  change ((w.modifyReporter f _).reporter f).errors = _
  rw [reporter_modifyReporter hr]
  rfl

/-- Without a check of the loads, a file in which nothing halts has the same tags and messages in
every order of its statements. -/
theorem validate_perm (known : settings.env.KnownFlags) (hr : f.reporter < w.reporters.length)
    (hfresh : f.tags = .empty) (h : (numbers (Stmt.occurrencesAll f.statements)).Nodup)
    (hloads : settings.checksLoadOrder = false) {ts : List Stmt} (hperm : f.statements.Perm ts) :
    ∃ fine f' w' fine' g' w'' errors errors',
      w.validate f settings =
        (if f.statements.any Stmt.halts then .error .unwritable else .ok fine, f', w') ∧
      w.validate { f with statements := ts } settings =
        (if f.statements.any Stmt.halts then .error .unwritable else .ok fine', g', w'') ∧
      w'.errors f' = w.errors f ++ errors ∧ w''.errors g' = w.errors f ++ errors' ∧
      (f.statements.any Stmt.halts = false →
        (errors.map (·.message)).Perm (errors'.map (·.message)) ∧
        ∀ x, f'.tags.get? x = g'.tags.get? x) := by
  obtain ⟨fine, f', w', hv, herrors, -, hext⟩ := validate_fresh known hr hfresh h
  obtain ⟨fine', g', w'', hv', herrors', -, hext'⟩ :=
    @validate_fresh w { f with statements := ts } settings known hr hfresh
      ((Stmt.numbers_perm hperm).nodup_iff.mp h)
  rw [← hperm.any_eq] at hv'
  refine ⟨fine, f', w', fine', g', w'', _, _, hv, hv', herrors, herrors', fun hhalts => ?_⟩
  constructor
  · rw [SourceFile.newErrors, SourceFile.newErrors, List.map_append, List.map_append]
    exact (Settings.messages_findings_perm hloads hhalts hperm).append_left _
  · refine fun x => Option.ext fun scope => ?_
    rw [hext x scope, hext' x scope]
    simp only [SourceFile.findings, (Settings.tags_findings_perm hhalts hperm).mem_iff]

end Workspace

/-- Statements are resolved independently of each other and of their order, up to the first that
halts. In two files that bind the same names at top level, where no statement before it halts, the
visit of a statement ends in the same way, reports the same errors in the same order, records the
same tags, and leaves its identifiers with the same scopes, whatever stands around it. A statement
behind one that halts is missed. And without a check of the loads a permuted file ends in the same
way; where nothing halts, it has the same tags and as often the same messages, those of repeated
bindings included. -/
theorem statements_independent {settings : Settings} (known : settings.env.KnownFlags) :
    (∀ {pre post pre' post' : List Stmt} {s : Stmt},
      (numbers (Stmt.occurrencesAll (pre ++ s :: post))).Nodup →
      (numbers (Stmt.occurrencesAll (pre' ++ s :: post'))).Nodup →
      (∀ x, x ∈ (Stmt.bindings (pre ++ s :: post)).map (·.name) ↔
        x ∈ (Stmt.bindings (pre' ++ s :: post')).map (·.name)) →
      pre.any Stmt.halts = false → pre'.any Stmt.halts = false →
      ∃ builtins, settings.env.variableNames = .ok builtins ∧ ∀ errors errors',
        ∃ r r₁ r₂ q q₁ q₂ found tags,
          Resolve.Visits settings pre s post (.initial settings builtins errors) r r₁ r₂ ∧
          Resolve.Visits settings pre' s post' (.initial settings builtins errors') q q₁ q₂ ∧
          r₁.errors = r.errors ++ found ∧ q₁.errors = q.errors ++ found ∧
          r.tags.recordAll tags = .ok r₁.tags ∧ q.tags.recordAll tags = .ok q₁.tags ∧
          ∀ x ∈ s.occurrences, r₂.tags.get? x = q₂.tags.get? x) ∧
    (∀ {pre post : List Stmt} {s : Stmt},
      (numbers (Stmt.occurrencesAll (pre ++ s :: post))).Nodup → pre.any Stmt.halts = true →
      ∃ builtins, settings.env.variableNames = .ok builtins ∧ ∀ errors, ∃ last,
        Resolve.Misses settings pre s post (.initial settings builtins errors) last ∧
        ∀ x ∈ s.occurrences, last.tags.get? x = none) ∧
    (∀ {w : Workspace} {f : SourceFile} {ts : List Stmt}, f.reporter < w.reporters.length →
      f.tags = .empty → (numbers (Stmt.occurrencesAll f.statements)).Nodup →
      (settings.buildFile = true ∨ settings.env.semantics.disallowLoadAfterStatement = false) →
      f.statements.Perm ts →
      ∃ fine f' w' fine' g' w'' errors errors',
        w.validate f settings =
          (if f.statements.any Stmt.halts then .error .unwritable else .ok fine, f', w') ∧
        w.validate { f with statements := ts } settings =
          (if f.statements.any Stmt.halts then .error .unwritable else .ok fine', g', w'') ∧
        w'.errors f' = w.errors f ++ errors ∧ w''.errors g' = w.errors f ++ errors' ∧
        (f.statements.any Stmt.halts = false →
          (errors.map (·.message)).Perm (errors'.map (·.message)) ∧
          ∀ x, f'.tags.get? x = g'.tags.get? x)) := by
  refine ⟨?_, ?_, ?_⟩
  · intro pre post pre' post' s h h' same hpre hpre'
    refine ⟨_, Environment.variableNames_eq known, fun errors errors' => ?_⟩
    obtain ⟨r, r₁, r₂, hr, hfound, htags, hscopes⟩ :=
      Resolve.visits_of_nodup known h hpre settings.env.predeclared errors
    obtain ⟨q, q₁, q₂, hq, hfound', htags', hscopes'⟩ :=
      Resolve.visits_of_nodup known h' hpre' settings.env.predeclared errors'
    rw [Stmt.findings_topFrames, Finding.reached_under] at hfound htags hscopes
    rw [Stmt.findings_topFrames, Finding.reached_under] at hfound' htags' hscopes'
    rw [← Stmt.diagnostics_congr settings.env same] at hfound'
    rw [← Stmt.tags_congr settings same] at htags' hscopes'
    refine ⟨r, r₁, r₂, q, q₁, q₂, _, _, hr, hq, hfound, hfound', htags, htags',
      fun x hx => Option.ext fun scope => ?_⟩
    rw [hscopes x hx scope, hscopes' x hx scope]
  · intro pre post s h hpre
    exact ⟨_, Environment.variableNames_eq known,
      Resolve.misses_of_nodup known h hpre settings.env.predeclared⟩
  · intro w f ts hr hfresh h hmode hperm
    refine Workspace.validate_perm known hr hfresh h ?_ hperm
    rcases hmode with hbuild | hload
    · rw [Settings.checksLoadOrder, hbuild]
      rfl
    · rw [Settings.checksLoadOrder, hload, Bool.and_false]

/-- A use of a name before and after the two bindings of it, one of which is a repeated one, and the
same use behind a target that cannot be reported. -/
theorem statements_independent_of_use :
    ∃ s t u : Stmt, ∃ settings : Settings, ∃ w f,
      s = .expr (.ident ⟨"a", 0, none⟩) none ∧
      t = .assign (.ident ⟨"a", 1, none⟩) (.int 1 none) none ∧
      u = .assign (.ident ⟨"a", 2, none⟩) (.ident ⟨"b", 3, none⟩) none ∧
      settings = ⟨.standard ⟨false, false⟩ [], false⟩ ∧ settings.env.KnownFlags ∧
      Workspace.empty.build [s, t, u] "f.bzl" = (f, w) ∧
      (∃ builtins r r₁ r₂ q q₁ q₂ found tags, settings.env.variableNames = .ok builtins ∧
        Resolve.Visits settings [] s [t, u] (.initial settings builtins []) r r₁ r₂ ∧
        Resolve.Visits settings [u, t] s [] (.initial settings builtins []) q q₁ q₂ ∧
        r₁.errors = r.errors ++ found ∧ q₁.errors = q.errors ++ found ∧
        r.tags.recordAll tags = .ok r₁.tags ∧ q.tags.recordAll tags = .ok q₁.tags ∧
        ∀ x ∈ s.occurrences, r₂.tags.get? x = q₂.tags.get? x) ∧
      (∃ builtins last, settings.env.variableNames = .ok builtins ∧
        Resolve.Misses settings [t, unwritableTarget] s [u] (.initial settings builtins []) last ∧
        ∀ x ∈ s.occurrences, last.tags.get? x = none) ∧
      ∃ fine f' w' fine' g' w'' errors errors',
        w.validate f settings = (.ok fine, f', w') ∧
        w.validate { f with statements := [u, t, s] } settings = (.ok fine', g', w'') ∧
        w'.errors f' = w.errors f ++ errors ∧ w''.errors g' = w.errors f ++ errors' ∧
        (errors.map (·.message)).Perm (errors'.map (·.message)) ∧
        ∀ x, f'.tags.get? x = g'.tags.get? x := by
  have known : (Environment.standard ⟨false, false⟩ []).KnownFlags := by
    intro g hg
    cases hg
  obtain ⟨hvisit, hmiss, hperm⟩ :=
    @statements_independent ⟨.standard ⟨false, false⟩ [], false⟩ known
  refine ⟨_, _, _, _, _, _, rfl, rfl, rfl, rfl, known, rfl, ?_, ?_, ?_⟩
  · obtain ⟨builtins, hnames, h⟩ := @hvisit []
      [.assign (.ident ⟨"a", 1, none⟩) (.int 1 none) none,
        .assign (.ident ⟨"a", 2, none⟩) (.ident ⟨"b", 3, none⟩) none]
      [.assign (.ident ⟨"a", 2, none⟩) (.ident ⟨"b", 3, none⟩) none,
        .assign (.ident ⟨"a", 1, none⟩) (.int 1 none) none] []
      (.expr (.ident ⟨"a", 0, none⟩) none) (by decide) (by decide) (fun x => by
        simp [Stmt.bindings, Stmt.declaredAll, Stmt.declared, Expr.boundIdentifiers,
          Declared.identifier?]) rfl rfl
    obtain ⟨r, r₁, r₂, q, q₁, q₂, found, tags, h⟩ := h [] []
    exact ⟨builtins, r, r₁, r₂, q, q₁, q₂, found, tags, hnames, h⟩
  · obtain ⟨builtins, hnames, h⟩ := @hmiss
      [.assign (.ident ⟨"a", 1, none⟩) (.int 1 none) none, unwritableTarget]
      [.assign (.ident ⟨"a", 2, none⟩) (.ident ⟨"b", 3, none⟩) none]
      (.expr (.ident ⟨"a", 0, none⟩) none) (by decide) (by decide +kernel)
    obtain ⟨last, hlast, htags⟩ := h []
    exact ⟨builtins, last, hnames, hlast, htags⟩
  · obtain ⟨fine, f', w', fine', g', w'', errors, errors', hv, hv', herrors, herrors', hsame⟩ :=
      @hperm ⟨[.empty], 0⟩ (.ofStatements
        [.expr (.ident ⟨"a", 0, none⟩) none, .assign (.ident ⟨"a", 1, none⟩) (.int 1 none) none,
          .assign (.ident ⟨"a", 2, none⟩) (.ident ⟨"b", 3, none⟩) none] 0 [] "f.bzl" none) _
        (by decide) rfl (by decide) (Or.inr rfl) (List.reverse_perm _).symm
    exact ⟨fine, f', w', fine', g', w'', errors, errors', hv, hv', herrors, herrors', hsame rfl⟩

/-- Two statements of which one halts: in one order the other is visited, and has a tag and an error;
in the other order it is missed, and has none. -/
theorem statements_dependent_on_unwritableTarget :
    let s : Stmt := .assign (.ident ⟨"x", 0, none⟩) (.ident ⟨"b", 1, none⟩) none
    let settings : Settings := ⟨.standard ⟨false, false⟩ [], false⟩
    let file := Workspace.empty.build [s, unwritableTarget] "f.bzl"
    let first := file.2.validate file.1 settings
    let second := file.2.validate { file.1 with statements := [unwritableTarget, s] } settings
    settings.env.KnownFlags ∧ (numbers (Stmt.occurrencesAll [s, unwritableTarget])).Nodup ∧
      first.1 = .error .unwritable ∧ second.1 = .error .unwritable ∧
      first.2.1.tags.get? ⟨"x", 0, none⟩ = some .global ∧
      second.2.1.tags.get? ⟨"x", 0, none⟩ = none ∧
      (first.2.2.errors first.2.1).map (·.message) =
        ["name 'b' is not defined (did you mean 'x'?)"] ∧
      second.2.2.errors second.2.1 = [] := by
  have known : (Environment.standard ⟨false, false⟩ []).KnownFlags := by
    intro g hg
    cases hg
  refine ⟨known, ?_⟩
  decide +kernel

end Starlark
