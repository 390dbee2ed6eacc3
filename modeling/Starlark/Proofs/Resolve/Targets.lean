import Starlark.Proofs.Resolve.Restores

/-! # Targets are bound where they are assigned

The names of a target are tagged with the scope of the current block, and nothing is looked up.
That is right because the block declared them before: each target stands among the steps of a
block that binds its names, and what is visited in between restores the block.
-/
namespace Starlark

namespace Resolve

/-- A name that a target hands on to be tagged, in the state of that moment. The depth tells how
many index expressions of other targets are around. -/
structure Handed where
  identifier : Identifier
  state : Resolution
  depth : Nat

/-- A name that is tagged as if it was looked up: the current block binds it. -/
structure Handed.IsBound (settings : Settings) (h : Handed) : Prop where
  declared : h.identifier.name ∈ h.state.chain.current.names
  resolves : h.state.chain.resolve? h.identifier.name = some h.state.chain.current
  tagged : (assign settings (.ident h.identifier)).run.run h.state =
    (reference settings h.identifier).run.run h.state

namespace Step

section
variable (settings : Settings)

mutual

/-- The names that the targets in a step hand on, in order. A fault ends it. -/
def handed (depth : Nat) : Step → Resolution → List Handed
  | .reference _, _ => []
  | .target x, r => [⟨x, r, depth⟩]
  | .place steps, r => handedAll (depth + 1) steps r
  | .refuse _, _ => []
  | .check _ _ _, _ => []
  | .note _, _ => []
  | .block scope ds steps, r => handedAll depth steps (r.entering scope ds)
  | .loop steps, r => handedAll depth steps r.looping

def handedAll (depth : Nat) : List Step → Resolution → List Handed
  | [], _ => []
  | s :: ss, r => s.handed depth r ++ match (s.run settings).run.run r with
    | (.ok _, r') => handedAll depth ss r'
    | (.error _, _) => []

end

end

mutual

/-- Are the targets of a step among some identifiers, and those in blocks of its own among what
the blocks declare? -/
def TargetsIn (xs : List Identifier) : Step → Prop
  | .reference _ => True
  | .target x => x ∈ xs
  | .place steps => AllTargetsIn xs steps
  | .refuse _ => True
  | .check _ _ _ => True
  | .note _ => True
  | .block _ ds steps => AllTargetsIn (ds.filterMap Declared.identifier?) steps
  | .loop steps => AllTargetsIn xs steps

def AllTargetsIn (xs : List Identifier) : List Step → Prop
  | [] => True
  | s :: ss => s.TargetsIn xs ∧ AllTargetsIn xs ss

end

theorem allTargetsIn_append {xs : List Identifier} {ss ts : List Step} :
    AllTargetsIn xs (ss ++ ts) ↔ AllTargetsIn xs ss ∧ AllTargetsIn xs ts := by
  induction ss with
  | nil => simp [AllTargetsIn]
  | cons s ss ih => simp only [List.cons_append, AllTargetsIn, ih, and_assoc]

theorem allTargetsIn_references (xs ys : List Identifier) :
    AllTargetsIn xs (ys.map reference) := by
  induction ys with
  | nil => trivial
  | cons y ys ih => exact ⟨trivial, ih⟩

theorem allTargetsIn_refuse (xs : List Identifier) (e : Expr) : AllTargetsIn xs [refuse e] :=
  ⟨trivial, trivial⟩

end Step

end Resolve

open Resolve Resolve.Step

mutual

theorem Expr.targetsIn_steps (xs : List Identifier) : ∀ e : Expr, AllTargetsIn xs e.steps
  | .ident _ => by
    rw [Expr.steps]
    exact ⟨trivial, trivial⟩
  | .int _ _ => trivial
  | .str _ => trivial
  | .list es _ _ => by
    rw [Expr.steps]
    exact Expr.targetsIn_stepsAll xs es
  | .dict ds _ => by
    rw [Expr.steps]
    exact Entry.targetsIn_stepsAll xs ds
  | .binary x _ y _ => by
    rw [Expr.steps, allTargetsIn_append]
    exact ⟨Expr.targetsIn_steps xs x, Expr.targetsIn_steps xs y⟩
  | .unary _ x _ => by
    rw [Expr.steps]
    exact Expr.targetsIn_steps xs x
  | .conditional t c e _ => by
    rw [Expr.steps, allTargetsIn_append, allTargetsIn_append]
    exact ⟨Expr.targetsIn_steps xs c, Expr.targetsIn_steps xs t, Expr.targetsIn_steps xs e⟩
  | .dot o _ _ => by
    rw [Expr.steps]
    exact Expr.targetsIn_steps xs o
  | .index o k _ => by
    rw [Expr.steps, allTargetsIn_append]
    exact ⟨Expr.targetsIn_steps xs o, Expr.targetsIn_steps xs k⟩
  | .slice o a b c _ => by
    rw [Expr.steps, allTargetsIn_append, allTargetsIn_append, allTargetsIn_append]
    exact ⟨Expr.targetsIn_steps xs o, Expr.targetsIn_stepsOpt xs a, Expr.targetsIn_stepsOpt xs b,
      Expr.targetsIn_stepsOpt xs c⟩
  | .call f as _ => by
    rw [Expr.steps, allTargetsIn_append]
    exact ⟨Expr.targetsIn_steps xs f, Argument.targetsIn_stepsAll xs as⟩
  | .comprehension b cs _ _ => by
    rw [Expr.steps, AllTargetsIn, TargetsIn, Declared.identifiers_bound, allTargetsIn_append]
    exact ⟨⟨Clause.targetsIn_stepsAll _ cs fun _ hx => hx, Body.targetsIn_steps _ b⟩, trivial⟩

theorem Expr.targetsIn_stepsAll (xs : List Identifier) :
    ∀ es : List Expr, AllTargetsIn xs (Expr.stepsAll es)
  | [] => trivial
  | e :: es => by
    rw [Expr.stepsAll, allTargetsIn_append]
    exact ⟨Expr.targetsIn_steps xs e, Expr.targetsIn_stepsAll xs es⟩

theorem Expr.targetsIn_stepsOpt (xs : List Identifier) :
    ∀ e : Option Expr, AllTargetsIn xs (Expr.stepsOpt e)
  | none => trivial
  | some e => by
    rw [Expr.stepsOpt]
    exact Expr.targetsIn_steps xs e

theorem Entry.targetsIn_steps (xs : List Identifier) : ∀ d : Entry, AllTargetsIn xs d.steps
  | .mk k v _ => by
    rw [Entry.steps, allTargetsIn_append]
    exact ⟨Expr.targetsIn_steps xs k, Expr.targetsIn_steps xs v⟩

theorem Entry.targetsIn_stepsAll (xs : List Identifier) :
    ∀ ds : List Entry, AllTargetsIn xs (Entry.stepsAll ds)
  | [] => trivial
  | d :: ds => by
    rw [Entry.stepsAll, allTargetsIn_append]
    exact ⟨Entry.targetsIn_steps xs d, Entry.targetsIn_stepsAll xs ds⟩

theorem Argument.targetsIn_steps (xs : List Identifier) : ∀ a : Argument, AllTargetsIn xs a.steps
  | .mk _ v _ _ => by
    rw [Argument.steps]
    exact Expr.targetsIn_steps xs v

theorem Argument.targetsIn_stepsAll (xs : List Identifier) :
    ∀ as : List Argument, AllTargetsIn xs (Argument.stepsAll as)
  | [] => trivial
  | a :: as => by
    rw [Argument.stepsAll, allTargetsIn_append]
    exact ⟨Argument.targetsIn_steps xs a, Argument.targetsIn_stepsAll xs as⟩

theorem Clause.targetsIn_steps (xs : List Identifier) :
    ∀ c : Clause, Clause.bindings [c] ⊆ xs → AllTargetsIn xs c.steps
  | .each vars iterable _, hc => by
    rw [Clause.steps, allTargetsIn_append]
    have hvars : vars.boundIdentifiers ⊆ xs := by
      simpa only [Clause.bindings, List.append_nil] using hc
    exact ⟨Expr.targetsIn_steps xs iterable, Expr.targetsIn_targetSteps xs vars hvars⟩
  | .guard c _, _ => by
    rw [Clause.steps]
    exact Expr.targetsIn_steps xs c

theorem Clause.targetsIn_stepsAll (xs : List Identifier) :
    ∀ cs : List Clause, Clause.bindings cs ⊆ xs → AllTargetsIn xs (Clause.stepsAll cs)
  | [], _ => trivial
  | c :: cs, hcs => by
    rw [Clause.bindings_cons, List.append_subset] at hcs
    rw [Clause.stepsAll, allTargetsIn_append]
    exact ⟨Clause.targetsIn_steps xs c hcs.1, Clause.targetsIn_stepsAll xs cs hcs.2⟩

theorem Body.targetsIn_steps (xs : List Identifier) : ∀ b : Body, AllTargetsIn xs b.steps
  | .item e => by
    rw [Body.steps]
    exact Expr.targetsIn_steps xs e
  | .entry d => by
    rw [Body.steps]
    exact Entry.targetsIn_steps xs d

theorem Expr.targetsIn_targetSteps (xs : List Identifier) :
    ∀ e : Expr, e.boundIdentifiers ⊆ xs → AllTargetsIn xs e.targetSteps
  | .ident x, he => by
    rw [Expr.targetSteps]
    exact ⟨he (by rw [Expr.boundIdentifiers]; exact List.mem_singleton_self x), trivial⟩
  | .index o k _, _ => by
    rw [Expr.targetSteps, AllTargetsIn, TargetsIn, allTargetsIn_append]
    exact ⟨⟨Expr.targetsIn_steps xs o, Expr.targetsIn_steps xs k⟩, trivial⟩
  | .list es _ _, he => by
    rw [Expr.targetSteps]
    rw [Expr.boundIdentifiers] at he
    exact Expr.targetsIn_targetStepsAll xs es he
  | .int _ _, _ => allTargetsIn_refuse xs _
  | .str _, _ => allTargetsIn_refuse xs _
  | .dict _ _, _ => allTargetsIn_refuse xs _
  | .binary _ _ _ _, _ => allTargetsIn_refuse xs _
  | .unary _ _ _, _ => allTargetsIn_refuse xs _
  | .conditional _ _ _ _, _ => allTargetsIn_refuse xs _
  | .dot _ _ _, _ => allTargetsIn_refuse xs _
  | .slice _ _ _ _ _, _ => allTargetsIn_refuse xs _
  | .call _ _ _, _ => allTargetsIn_refuse xs _
  | .comprehension _ _ _ _, _ => allTargetsIn_refuse xs _

theorem Expr.targetsIn_targetStepsAll (xs : List Identifier) :
    ∀ es : List Expr, Expr.boundIdentifiersAll es ⊆ xs → AllTargetsIn xs (Expr.targetStepsAll es)
  | [], _ => trivial
  | e :: es, hes => by
    rw [Expr.boundIdentifiersAll, List.append_subset] at hes
    rw [Expr.targetStepsAll, allTargetsIn_append]
    exact ⟨Expr.targetsIn_targetSteps xs e hes.1, Expr.targetsIn_targetStepsAll xs es hes.2⟩

end

theorem Parameter.targetsIn_defaultSteps (xs : List Identifier) (ps : List Parameter) :
    AllTargetsIn xs (Parameter.defaultSteps ps) := by
  induction ps with
  | nil => trivial
  | cons p ps ih =>
    rw [Parameter.defaultSteps, allTargetsIn_append]
    refine ⟨?_, ih⟩
    split
    · exact Expr.targetsIn_stepsOpt xs p.default
    · trivial

mutual

/-- The targets of a statement are among what it declares. -/
theorem Stmt.targetsIn_steps (xs : List Identifier) :
    ∀ s : Stmt, s.declared.filterMap Declared.identifier? ⊆ xs → AllTargetsIn xs s.steps
  | .expr e _, _ => by
    rw [Stmt.steps]
    exact Expr.targetsIn_steps xs e
  | .assign lhs rhs _, hs => by
    rw [Stmt.declared, Declared.identifiers_bound] at hs
    rw [Stmt.steps, allTargetsIn_append]
    exact ⟨Expr.targetsIn_steps xs rhs, Expr.targetsIn_targetSteps xs lhs hs⟩
  | .augmentedAssign _ lhs rhs loc, hs => by
    rw [Stmt.declared, Declared.identifiers_bound] at hs
    unfold Stmt.steps
    rw [allTargetsIn_append, allTargetsIn_append]
    refine ⟨?_, Expr.targetsIn_steps xs rhs, Expr.targetsIn_targetSteps xs lhs hs⟩
    split
    · exact ⟨trivial, trivial⟩
    · trivial
  | .ifElse c a b loc, hs => by
    rw [Stmt.declared, List.filterMap_append, List.append_subset] at hs
    rw [Stmt.steps, AllTargetsIn, allTargetsIn_append, allTargetsIn_append]
    exact ⟨trivial, Expr.targetsIn_steps xs c, Stmt.targetsIn_stepsAll xs a hs.1,
      Stmt.targetsIn_stepsAll xs b hs.2⟩
  | .forLoop lhs collection b loc, hs => by
    rw [Stmt.declared, List.filterMap_append, Declared.identifiers_bound,
      List.append_subset] at hs
    rw [Stmt.steps, AllTargetsIn, AllTargetsIn, TargetsIn, TargetsIn, allTargetsIn_append,
      allTargetsIn_append]
    exact ⟨trivial, ⟨Expr.targetsIn_steps xs collection,
      Expr.targetsIn_targetSteps xs lhs hs.1, Stmt.targetsIn_stepsAll xs b hs.2⟩, trivial⟩
  | .define _ ps b loc, _ => by
    rw [Stmt.steps, AllTargetsIn, allTargetsIn_append, AllTargetsIn, TargetsIn, TargetsIn]
    refine ⟨trivial, Parameter.targetsIn_defaultSteps xs ps, ?_, trivial⟩
    rw [List.filterMap_append]
    exact Stmt.targetsIn_stepsAll _ b (List.subset_append_right _ _)
  | .returns result loc, _ => by
    rw [Stmt.steps]
    exact ⟨trivial, Expr.targetsIn_stepsOpt xs result⟩
  | .flow kind loc, _ => by
    rw [Stmt.steps]
    split
    · trivial
    · exact ⟨trivial, trivial⟩
  | .load _ bs loc, _ => by
    have h := allTargetsIn_references xs (bs.map (·.localName))
    rw [List.map_map] at h
    rw [Stmt.steps]
    exact ⟨trivial, h⟩

theorem Stmt.targetsIn_stepsAll (xs : List Identifier) :
    ∀ ss : List Stmt, (Stmt.declaredAll ss).filterMap Declared.identifier? ⊆ xs →
      AllTargetsIn xs (Stmt.stepsAll ss)
  | [], _ => trivial
  | s :: ss, hss => by
    rw [Stmt.declaredAll, List.filterMap_append, List.append_subset] at hss
    rw [Stmt.stepsAll, allTargetsIn_append]
    exact ⟨Stmt.targetsIn_steps xs s hss.1, Stmt.targetsIn_stepsAll xs ss hss.2⟩

end

/-- All targets of a file are in blocks of their own. -/
theorem Settings.targetsIn_steps (settings : Settings) (ss : List Stmt) :
    AllTargetsIn [] (settings.steps ss) :=
  ⟨trivial, Stmt.targetsIn_stepsAll _ ss fun _ hx => hx, trivial⟩

/-- Is the current block in the arena, and does it bind the names of some identifiers? -/
structure Resolution.Binds (r : Resolution) (xs : List Identifier) : Prop where
  index_lt : r.chain.index < r.chain.blocks.length
  names : ∀ x ∈ xs, x.name ∈ r.chain.current.names

namespace Resolution.Binds
variable {r r' : Resolution} {xs : List Identifier}

theorem entering (r : Resolution) (scope : Scope) (ds : List Declared) :
    (r.entering scope ds).Binds (ds.filterMap Declared.identifier?) := by
  obtain ⟨names, errors, hentering, hnames⟩ := r.entering_eq scope ds
  rw [hentering]
  refine ⟨by simp [ScopeChain.openedWith], fun x hx => ?_⟩
  rw [ScopeChain.current_openedWith]
  exact hnames x hx

/-- A visit leaves the current block as it was. -/
theorem restores (h : r.Binds xs) (hr : Restores r r') : r'.Binds xs := by
  refine ⟨?_, fun x hx => hr.current_eq h.index_lt ▸ h.names x hx⟩
  rw [hr.index_eq]
  exact h.index_lt.trans_le hr.blocks_prefix.length_le

/-- A name that the current block binds resolves to it. -/
theorem resolve?_eq (h : r.Binds xs) {x : Identifier} (hx : x ∈ xs) :
    r.chain.resolve? x.name = some r.chain.current := by
  have hcurrent := ScopeChain.current_eq h.index_lt
  have hname : r.chain.current.names.contains x.name = true := by
    simpa using h.names x hx
  simp only [ScopeChain.resolve?, ScopeChain.openBlocks, ScopeChain.ancestry, hcurrent]
  cases r.chain.current.parent with
  | none => simp only [List.find?_cons, hname]
  | some p => simp only [List.find?_cons, hname]

theorem isBound (h : r.Binds xs) {x : Identifier} (hx : x ∈ xs) (settings : Settings)
    (depth : Nat) : Handed.IsBound settings ⟨x, r, depth⟩ := by
  have hresolve := h.resolve?_eq hx
  refine ⟨h.names x hx, hresolve, ?_⟩
  simp only [assign, Resolve.reference, run_bind, run_get, hresolve]

end Resolution.Binds

namespace Resolve.Step
variable {settings : Settings}

mutual

/-- Where the current block binds what a step declares to be its targets, all of them are bound. -/
theorem handed_isBound (depth : Nat) : ∀ (s : Step) {xs : List Identifier} {r : Resolution},
    s.TargetsIn xs → r.Binds xs → ∀ h ∈ s.handed settings depth r, h.IsBound settings
  | .reference _, _, _, _, _ => by
    rw [handed]
    exact nofun
  | .target x, _, _, hx, hr => by
    rw [handed]
    intro h hmem
    rw [List.mem_singleton.mp hmem]
    exact hr.isBound hx settings depth
  | .place steps, _, _, hs, hr => by
    rw [handed]
    rw [TargetsIn] at hs
    exact handedAll_isBound (depth + 1) steps hs hr
  | .refuse _, _, _, _, _ => by
    rw [handed]
    exact nofun
  | .check _ _ _, _, _, _, _ => by
    rw [handed]
    exact nofun
  | .note _, _, _, _, _ => by
    rw [handed]
    exact nofun
  | .block scope ds steps, _, r, hs, _ => by
    rw [handed]
    rw [TargetsIn] at hs
    exact handedAll_isBound depth steps hs (.entering r scope ds)
  | .loop steps, _, _, hs, hr => by
    rw [handed]
    rw [TargetsIn] at hs
    exact handedAll_isBound depth steps hs ⟨hr.index_lt, hr.names⟩

theorem handedAll_isBound (depth : Nat) : ∀ (ss : List Step) {xs : List Identifier}
    {r : Resolution}, AllTargetsIn xs ss → r.Binds xs →
    ∀ h ∈ handedAll settings depth ss r, h.IsBound settings
  | [], _, _, _, _ => by
    rw [handedAll]
    exact nofun
  | s :: ss, _, r, hs, hr => by
    rw [handedAll]
    rw [AllTargetsIn] at hs
    intro h hmem
    rcases List.mem_append.mp hmem with hmem | hmem
    · exact handed_isBound depth s hs.1 hr h hmem
    · rcases hrun : (s.run settings).run.run r with ⟨fault | u, r'⟩
      · rw [hrun] at hmem
        cases hmem
      · rw [hrun] at hmem
        -- The step before has restored the block, so it still binds the targets after it.
        exact handedAll_isBound depth ss hs.2 (hr.restores ((keeps_run s).restores hrun)) h hmem

end

mutual

theorem depth_le_of_handed (depth : Nat) : ∀ (s : Step) (r : Resolution),
    ∀ h ∈ s.handed settings depth r, depth ≤ h.depth
  | .reference _, _ => by
    rw [handed]
    exact nofun
  | .target _, _ => by
    rw [handed]
    intro h hmem
    rw [List.mem_singleton.mp hmem]
  | .place steps, r => by
    rw [handed]
    intro h hmem
    exact Nat.le_of_succ_le (depth_le_of_handedAll (depth + 1) steps r h hmem)
  | .refuse _, _ => by
    rw [handed]
    exact nofun
  | .check _ _ _, _ => by
    rw [handed]
    exact nofun
  | .note _, _ => by
    rw [handed]
    exact nofun
  | .block scope ds steps, r => by
    rw [handed]
    exact depth_le_of_handedAll depth steps (r.entering scope ds)
  | .loop steps, r => by
    rw [handed]
    exact depth_le_of_handedAll depth steps r.looping

theorem depth_le_of_handedAll (depth : Nat) : ∀ (ss : List Step) (r : Resolution),
    ∀ h ∈ handedAll settings depth ss r, depth ≤ h.depth
  | [], _ => by
    rw [handedAll]
    exact nofun
  | s :: ss, r => by
    rw [handedAll]
    intro h hmem
    rcases List.mem_append.mp hmem with hmem | hmem
    · exact depth_le_of_handed depth s r h hmem
    · split at hmem
      · exact depth_le_of_handedAll depth ss _ h hmem
      · cases hmem

end

/-- What is handed on by the targets themselves, and not in their index expressions. -/
def own (hs : List Handed) (depth : Nat) : List Identifier :=
  (hs.filter (·.depth == depth)).map (·.identifier)

theorem own_append (hs gs : List Handed) (depth : Nat) :
    own (hs ++ gs) depth = own hs depth ++ own gs depth := by
  rw [own, List.filter_append, List.map_append, own, own]

def target? : Step → Option Identifier
  | .target x => some x
  | _ => none

/-- Is this a step of a target, and not of an expression or a statement? -/
def IsOfTarget : Step → Prop
  | .target _ | .place _ | .refuse _ => True
  | _ => False

theorem own_handed {s : Step} (hs : s.IsOfTarget) (depth : Nat) (r : Resolution) :
    own (s.handed settings depth r) depth = s.target?.toList := by
  cases s with
  | target x => simp [own, handed, target?]
  | place steps =>
    have hdeeper : (handedAll settings (depth + 1) steps r).filter (·.depth == depth) = [] := by
      refine List.filter_eq_nil_iff.mpr fun h hmem => ?_
      have hlt := depth_le_of_handedAll (depth + 1) steps r h hmem
      simpa using Nat.ne_of_gt hlt
    rw [own, handed, hdeeper]
    rfl
  | refuse _ => rw [handed]; rfl
  | check _ _ _ => cases hs
  | reference _ => cases hs
  | note _ => cases hs
  | block _ _ _ => cases hs
  | loop _ => cases hs

/-- The steps of a target hand on its names in order, all of them if there is no fault. -/
theorem own_handedAll {ss : List Step} (hss : ∀ s ∈ ss, s.IsOfTarget) (depth : Nat)
    (r : Resolution) :
    own (handedAll settings depth ss r) depth <+: ss.filterMap target? ∧
      ∀ r', (runAll settings ss).run.run r = (.ok (), r') →
        own (handedAll settings depth ss r) depth = ss.filterMap target? := by
  induction ss generalizing r with
  | nil =>
    rw [handedAll]
    exact ⟨List.prefix_rfl, fun _ _ => rfl⟩
  | cons s ss ih =>
    have hcons : (s :: ss).filterMap target? = s.target?.toList ++ ss.filterMap target? := by
      rw [List.filterMap_cons]
      cases s.target? with
      | none => rfl
      | some x => rfl
    rw [handedAll, own_append, own_handed (hss s List.mem_cons_self), hcons, runAll]
    rcases hrun : (s.run settings).run.run r with ⟨fault | u, r₁⟩
    · refine ⟨(List.prefix_append_right_inj _).mpr List.nil_prefix, fun r' h => ?_⟩
      rw [run_bind, hrun] at h
      cases h
    · obtain ⟨hfront, hall⟩ := ih (fun t ht => hss t (List.mem_cons_of_mem s ht)) r₁
      refine ⟨(List.prefix_append_right_inj _).mpr hfront, fun r' h => ?_⟩
      rw [run_bind, hrun] at h
      exact congrArg _ (hall r' h)

theorem refuse_targets (e : Expr) :
    (∀ s ∈ [refuse e], s.IsOfTarget) ∧ [refuse e].filterMap target? = [] :=
  ⟨List.forall_mem_singleton.mpr trivial, rfl⟩

end Resolve.Step

mutual

/-- The steps of a target have the names that it binds. -/
theorem Expr.targetSteps_targets : ∀ e : Expr,
    (∀ s ∈ e.targetSteps, s.IsOfTarget) ∧ e.targetSteps.filterMap target? = e.boundIdentifiers
  | .ident x => by
    rw [Expr.targetSteps, Expr.boundIdentifiers]
    exact ⟨List.forall_mem_singleton.mpr trivial, rfl⟩
  | .index o k _ => by
    rw [Expr.targetSteps]
    exact ⟨List.forall_mem_singleton.mpr trivial, rfl⟩
  | .list es _ _ => by
    rw [Expr.targetSteps, Expr.boundIdentifiers]
    exact Expr.targetStepsAll_targets es
  | .int _ _ => refuse_targets _
  | .str _ => refuse_targets _
  | .dict _ _ => refuse_targets _
  | .binary _ _ _ _ => refuse_targets _
  | .unary _ _ _ => refuse_targets _
  | .conditional _ _ _ _ => refuse_targets _
  | .dot _ _ _ => refuse_targets _
  | .slice _ _ _ _ _ => refuse_targets _
  | .call _ _ _ => refuse_targets _
  | .comprehension _ _ _ _ => refuse_targets _

theorem Expr.targetStepsAll_targets : ∀ es : List Expr,
    (∀ s ∈ Expr.targetStepsAll es, s.IsOfTarget) ∧
      (Expr.targetStepsAll es).filterMap target? = Expr.boundIdentifiersAll es
  | [] => ⟨nofun, rfl⟩
  | e :: es => by
    obtain ⟨hsteps, htargets⟩ := Expr.targetSteps_targets e
    obtain ⟨hsteps', htargets'⟩ := Expr.targetStepsAll_targets es
    rw [Expr.targetStepsAll, Expr.boundIdentifiersAll, List.filterMap_append, htargets, htargets']
    exact ⟨List.forall_mem_append.mpr ⟨hsteps, hsteps'⟩, rfl⟩

end

namespace Resolve

/-- What the targets of a file hand on while it is resolved. -/
def handedByFile (settings : Settings) (ss : List Stmt) (builtins : List String)
    (errors : List Diagnostic) (tags : ScopeTable) : List Handed :=
  handedAll settings 0 (settings.steps ss) (.start settings builtins errors tags)

/-- What a target hands on in some state, without the index expressions in it. -/
def handedByTarget (settings : Settings) (e : Expr) (r : Resolution) : List Identifier :=
  own (handedAll settings 0 e.targetSteps r) 0

/-- Files and targets are visited step by step, and in the steps of a file every name that a target
hands on is bound by the current block: so the scope that it is tagged with is that of the block it
resolves to. A target hands on exactly the names that are declared for it, in order, unless a fault
stops it before. -/
theorem targets_declared (settings : Settings) :
    (∀ ss, toplevel settings ss = (do
      runAll settings (settings.steps ss)
      if !(← get).chain.isBalanced then throw .unbalanced)) ∧
    (∀ e, assign settings e = runAll settings e.targetSteps) ∧
    (∀ ss builtins errors tags, ∀ h ∈ handedByFile settings ss builtins errors tags,
      h.IsBound settings) ∧
    ∀ e r, handedByTarget settings e r <+: e.boundIdentifiers ∧
      ∀ r', (assign settings e).run.run r = (.ok (), r') →
        handedByTarget settings e r = e.boundIdentifiers := by
  refine ⟨toplevel_eq_steps, assign_eq_steps, fun ss builtins errors tags => ?_, fun e r => ?_⟩
  · exact handedAll_isBound 0 _ (settings.targetsIn_steps ss) ⟨Nat.zero_lt_one, nofun⟩
  · obtain ⟨hsteps, htargets⟩ := e.targetSteps_targets
    rw [← htargets, assign_eq_steps]
    exact own_handedAll hsteps 0 r

/-- A name beside a place that is found by a comprehension. -/
def nameBesidePlace : Expr :=
  .list [.ident ⟨"a", 0, none⟩, .index (.ident ⟨"d", 1, none⟩)
    (.comprehension (.item (.ident ⟨"b", 2, none⟩))
      [.each (.ident ⟨"b", 3, none⟩) (.ident ⟨"d", 4, none⟩) none] false none) none] true none

/-- The comprehension hands on its own name, from inside the target. -/
theorem targets_declared_nameBesidePlace :
    ∃ settings ss, ∃ h ∈ handedByFile settings ss ["d"] [] .empty,
      h.identifier.name = "b" ∧ h.depth = 1 ∧ h.IsBound settings ∧
      ∃ r r', (assign settings nameBesidePlace).run.run r = (.ok (), r') ∧
        nameBesidePlace.boundIdentifiers.map (·.name) = ["a"] ∧
        handedByTarget settings nameBesidePlace r = nameBesidePlace.boundIdentifiers := by
  have hlog : (handedByFile ⟨.standard {} [], false⟩
      [.assign nameBesidePlace (.ident ⟨"d", 5, none⟩) none] ["d"] [] .empty).map
        (fun h => (h.identifier.name, h.depth)) = [("a", 0), ("b", 1)] := by
    decide +kernel
  have hinner : ("b", 1) ∈ [("a", 0), ("b", 1)] := by decide
  obtain ⟨h, hmem, heq⟩ := List.mem_map.mp (hlog ▸ hinner)
  obtain ⟨hname, hdepth⟩ := Prod.mk.inj heq
  have hok : ((assign ⟨.standard {} [], false⟩ nameBesidePlace).run.run
      (.start ⟨.standard {} [], false⟩ ["d"] [] .empty)).1.isOk = true := by
    decide +kernel
  rcases hrun : (assign ⟨.standard {} [], false⟩ nameBesidePlace).run.run
    (.start ⟨.standard {} [], false⟩ ["d"] [] .empty) with ⟨fault | u, r'⟩
  · rw [hrun] at hok
    cases hok
  · obtain ⟨-, -, hfile, htarget⟩ := targets_declared ⟨.standard {} [], false⟩
    exact ⟨_, _, h, hmem, hname, hdepth, hfile _ _ _ _ h hmem, _, r', hrun, by decide,
      (htarget nameBesidePlace _).2 r' hrun⟩

end Resolve
end Starlark
