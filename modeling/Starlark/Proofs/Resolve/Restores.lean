import Starlark.Proofs.Resolve.Collection
import Starlark.Proofs.Resolve.Steps
import Starlark.Proofs.Scope.Conflicts
import Starlark.Proofs.Syntax.Nodes

/-! # A visit restores what it found

Whatever is visited, and in whatever state: the visit ends in the block and at the number of loops
where it began, every block that was there is as it was, and the arena, the errors and the tags
have only grown. So the loops never run below zero and a file ends outside of every block.
-/
namespace Starlark

/-- A fault of a name: the flag it depends on does not exist, or it has another tag already. -/
def Fault.IsOfName (fault : Fault) : Prop :=
  (∃ flag, fault = .unknownFlag flag) ∨
    ∃ name previous next, fault = .retagged name previous next ∧ previous ≠ next

namespace Resolution

/-- The state in which the steps inside a block begin. -/
def entering (r : Resolution) (scope : Scope) (ds : List Declared) : Resolution :=
  { r with toDeclarations := ds.foldl Declarations.take ⟨r.chain.openBlock scope, r.errors⟩ }

/-- The state in which the steps inside a loop begin. -/
def looping (r : Resolution) : Resolution := { r with loops := r.loops + 1 }

/-- Inside a block there is one more block, which binds what was declared. -/
theorem entering_eq (r : Resolution) (scope : Scope) (ds : List Declared) :
    ∃ names errors, r.entering scope ds = { r with
        chain := r.chain.openedWith scope names, errors := r.errors ++ errors } ∧
      ∀ x ∈ ds.filterMap Declared.identifier?, x.name ∈ names := by
  obtain ⟨names, hfold, hnames⟩ :=
    Declarations.foldl_take_openedWith r.chain scope [] r.errors ds
  refine ⟨names, _, congrArg (fun d => { r with toDeclarations := d }) hfold, fun x hx => ?_⟩
  exact (hnames x.name).mpr (Or.inr (List.mem_map_of_mem hx))

end Resolution

namespace Resolve
variable {settings : Settings}

/-- What a visit leaves as it was, and what it adds to. -/
structure Restores (r r' : Resolution) : Prop where
  index_eq : r'.chain.index = r.chain.index
  legacy_eq : r'.chain.legacy = r.chain.legacy
  loops_eq : r'.loops = r.loops
  blocks_prefix : r.chain.blocks <+: r'.chain.blocks
  errors_prefix : r.errors <+: r'.errors
  tags_kept : ∀ x scope, r.tags.get? x = some scope → r'.tags.get? x = some scope

namespace Restores

theorem refl (r : Resolution) : Restores r r :=
  ⟨rfl, rfl, rfl, List.prefix_rfl, List.prefix_rfl, fun _ _ h => h⟩

theorem trans {r r' r'' : Resolution} (h : Restores r r') (h' : Restores r' r'') :
    Restores r r'' where
  index_eq := h'.index_eq.trans h.index_eq
  legacy_eq := h'.legacy_eq.trans h.legacy_eq
  loops_eq := h'.loops_eq.trans h.loops_eq
  blocks_prefix := h.blocks_prefix.trans h'.blocks_prefix
  errors_prefix := h.errors_prefix.trans h'.errors_prefix
  tags_kept := fun x scope hx => h'.tags_kept x scope (h.tags_kept x scope hx)

/-- The current block is as it was. -/
theorem current_eq {r r' : Resolution} (h : Restores r r')
    (hlt : r.chain.index < r.chain.blocks.length) : r'.chain.current = r.chain.current := by
  obtain ⟨rest, hrest⟩ := h.blocks_prefix
  simp only [ScopeChain.current, List.getD_eq_getElem?_getD, h.index_eq, ← hrest,
    List.getElem?_append_left hlt]

theorem note (r : Resolution) (ds : List Diagnostic) :
    Restores r { r with errors := r.errors ++ ds } :=
  { refl r with errors_prefix := List.prefix_append r.errors ds }

theorem record {r : Resolution} {x : Identifier} {scope : Scope} {tags : ScopeTable}
    (h : r.tags.record x scope = .ok tags) : Restores r { r with tags } :=
  { refl r with
    tags_kept := fun y s hy => (ScopeTable.extends_of_record h y s).mpr (Or.inl hy) }

end Restores

/-- A visit that restores what it found, unless it ends in a fault of a name or where a target
cannot be reported. -/
structure Keeps (m : Resolve Unit) : Prop where
  restores : ∀ {r r' : Resolution}, m.run.run r = (.ok (), r') → Restores r r'
  fault : ∀ {r r' : Resolution} {fault : Fault},
    m.run.run r = (.error fault, r') → fault.IsOfName ∨ fault = .unwritable

/-- How a sequence ends: in a fault of its first part, or as its second part ends. -/
theorem run_bind_cases {m k : Resolve Unit} {r r' : Resolution} {out : Except Fault Unit}
    (h : (m >>= fun _ => k).run.run r = (out, r')) :
    (∃ fault, m.run.run r = (.error fault, r') ∧ out = .error fault) ∨
      ∃ r₁, m.run.run r = (.ok (), r₁) ∧ k.run.run r₁ = (out, r') := by
  rw [run_bind] at h
  rcases hm : m.run.run r with ⟨fault | u, r₁⟩
  · rw [hm] at h
    cases h
    exact Or.inl ⟨fault, rfl, rfl⟩
  · rw [hm] at h
    exact Or.inr ⟨r₁, rfl, h⟩

namespace Keeps
variable {m k : Resolve Unit}

theorem of_ok (h : ∀ r, ∃ r', m.run.run r = (.ok (), r') ∧ Restores r r') : Keeps m where
  restores {r r'} hrun := by
    obtain ⟨r₁, hok, hrestores⟩ := h r
    rw [hok] at hrun
    cases hrun
    exact hrestores
  fault {r _ _} hrun := by
    obtain ⟨r₁, hok, -⟩ := h r
    rw [hok] at hrun
    cases hrun

theorem done : Keeps (pure ()) := of_ok fun r => ⟨r, rfl, .refl r⟩

theorem bind (hm : Keeps m) (hk : Keeps k) : Keeps (m >>= fun _ => k) where
  restores {r r'} h := by
    rcases run_bind_cases h with ⟨fault, -, hout⟩ | ⟨r₁, hrun, hrun'⟩
    · cases hout
    · exact (hm.restores hrun).trans (hk.restores hrun')
  fault {r r' fault} h := by
    rcases run_bind_cases h with ⟨fault', hrun, hout⟩ | ⟨r₁, hrun, hrun'⟩
    · cases hout
      exact hm.fault hrun
    · exact hk.fault hrun'

/-- What a visit asks the state for does not matter. -/
theorem asking {k : Resolution → Resolve Unit} (hk : ∀ r, Keeps (k r)) :
    Keeps (get >>= k) where
  restores h := (hk _).restores h
  fault h := (hk _).fault h

theorem report (message : String) (loc : Option Location) : Keeps (report message loc) :=
  of_ok fun r => ⟨_, rfl, .note r _⟩

theorem tag (x : Identifier) (scope : Scope) : Keeps (tag settings x scope) where
  restores {r r'} h := by
    rw [tag_run] at h
    split at h
    · cases h
      exact .refl r
    · cases hrecord : r.tags.record x scope with
      | ok tags =>
        rw [hrecord] at h
        cases h
        exact .record hrecord
      | error fault =>
        rw [hrecord] at h
        cases h
  fault {r r' fault} h := by
    rw [tag_run] at h
    split at h
    · cases h
    · cases hrecord : r.tags.record x scope with
      | ok tags =>
        rw [hrecord] at h
        cases h
      | error fault' =>
        rw [hrecord] at h
        cases h
        obtain ⟨previous, -, hne, hfault⟩ := ScopeTable.record_error hrecord
        exact Or.inl (Or.inr ⟨_, _, _, hfault, hne⟩)

/-- The restricted names are at hand unless one of their flags does not exist. -/
theorem restricted {k : List GuardedName → Resolve Unit} (hk : ∀ gs, Keeps (k gs)) :
    Keeps (liftM settings.env.restricted >>= k) where
  restores {r r'} h := by
    rw [run_bind, run_lift] at h
    cases hgs : settings.env.restricted with
    | ok gs =>
      rw [hgs] at h
      exact (hk gs).restores h
    | error fault =>
      rw [hgs] at h
      cases h
  fault {r r' fault} h := by
    rw [run_bind, run_lift] at h
    rcases settings.env.guardedWhere_fault false with known | ⟨flag, hflag⟩
    · rw [Environment.restricted_eq known] at h
      exact (hk _).fault h
    · rw [Environment.restricted, hflag] at h
      cases h
      exact Or.inl (Or.inl ⟨flag, rfl⟩)

/-- The text of an expression is at hand unless one of its integers is too long. -/
theorem quoting {e : Expr} {k : String → Resolve Unit} (hk : ∀ text, Keeps (k text)) :
    Keeps (quote e >>= k) := by
  rw [quote]
  cases e.text? with
  | some text => exact hk text
  | none =>
    refine ⟨fun h => ?_, fun h => ?_⟩
    · cases h
    · cases h
      exact Or.inr rfl

theorem reference (x : Identifier) : Keeps (reference settings x) := by
  rw [Resolve.reference]
  refine asking fun r => ?_
  dsimp only
  split
  · exact tag x _
  · refine restricted fun gs => ?_
    split
    · exact report _ _
    · exact report _ _

theorem target (x : Identifier) : Keeps (assign settings (.ident x)) := by
  rw [assign]
  exact asking fun r => tag x r.chain.current.scope

end Keeps

namespace Step

/-- A block opens, declares its names, takes its steps and closes. -/
theorem run_block (scope : Scope) (ds : List Declared) (steps : List Step) (r : Resolution) :
    ((block scope ds steps).run settings).run.run r =
      (runAll settings steps >>= fun _ => closeBlock).run.run (r.entering scope ds) := by
  have hopen : (openBlock scope).run.run r =
      (.ok (), { r with chain := r.chain.openBlock scope }) := rfl
  have hdeclare : ∀ r' : Resolution,
      (declaring fun d => ds.foldl Declarations.take d).run.run r' =
        (.ok (), { r' with toDeclarations := ds.foldl Declarations.take r'.toDeclarations }) :=
    fun _ => rfl
  rw [run, run_bind, hopen]
  dsimp only
  rw [run_bind, hdeclare]
  rfl

theorem run_loop (steps : List Step) (r : Resolution) :
    ((loop steps).run settings).run.run r =
      (runAll settings steps >>= fun _ => leaveLoop).run.run r.looping := by
  have henter : enterLoop.run.run r = (.ok (), r.looping) := rfl
  rw [run, run_bind, henter]

/-- Steps that were taken inside a block leave it where it can be closed, and closing it restores
what was there before it was opened. -/
theorem closeBlock_entering {r r' : Resolution} {scope : Scope} {ds : List Declared}
    (h : Restores (r.entering scope ds) r') :
    ∃ r'', closeBlock.run.run r' = (.ok (), r'') ∧ Restores r r'' := by
  obtain ⟨names, errors, hentering, -⟩ := r.entering_eq scope ds
  rw [hentering] at h
  have hblocks : r.chain.blocks ++ [⟨scope, some r.chain.index, names⟩] <+: r'.chain.blocks :=
    h.blocks_prefix
  have hcurrent : r'.chain.current = ⟨scope, some r.chain.index, names⟩ :=
    (h.current_eq (by simp [ScopeChain.openedWith])).trans (r.chain.current_openedWith scope names)
  have hclose : r'.chain.closeBlock =
      .ok (r'.chain.current, { r'.chain with index := r.chain.index }) := by
    rw [ScopeChain.closeBlock, hcurrent]
  refine ⟨_, by rw [closeBlock_run, hclose], ?_⟩
  exact {
    index_eq := rfl
    legacy_eq := h.legacy_eq
    loops_eq := h.loops_eq
    blocks_prefix := (List.prefix_append _ _).trans hblocks
    errors_prefix := (List.prefix_append _ _).trans h.errors_prefix
    tags_kept := h.tags_kept }

/-- Steps that were taken inside a loop leave its count, and leaving it restores the one before. -/
theorem leaveLoop_looping {r r' : Resolution} (h : Restores r.looping r') :
    ∃ r'', leaveLoop.run.run r' = (.ok (), r'') ∧ Restores r r'' := by
  have hloops : r'.loops = r.loops + 1 := h.loops_eq
  have hrun : leaveLoop.run.run r' = (.ok (), { r' with loops := r'.loops - 1 }) := by
    rw [leaveLoop, run_bind, run_get]
    dsimp only
    rw [if_neg (hloops ▸ Nat.succ_ne_zero r.loops)]
    rfl
  exact ⟨_, hrun, { h with loops_eq := by rw [hloops, Nat.add_sub_cancel] }⟩

/-- A block or a loop keeps what its steps keep: it ends as they do, and is then closed. -/
theorem keeps_inside {m k close : Resolve Unit} {inside : Resolution → Resolution}
    (hm : ∀ r, m.run.run r = (k >>= fun _ => close).run.run (inside r)) (hk : Keeps k)
    (hclose : ∀ {r r'}, Restores (inside r) r' →
      ∃ r'', close.run.run r' = (.ok (), r'') ∧ Restores r r'') : Keeps m where
  restores {r r'} h := by
    rw [hm] at h
    rcases run_bind_cases h with ⟨fault, -, hout⟩ | ⟨r₁, hrun, hrun'⟩
    · cases hout
    · obtain ⟨r'', hok, hrestores⟩ := hclose (hk.restores hrun)
      rw [hok] at hrun'
      cases hrun'
      exact hrestores
  fault {r r' fault} h := by
    rw [hm] at h
    rcases run_bind_cases h with ⟨fault', hrun, hout⟩ | ⟨r₁, hrun, hrun'⟩
    · cases hout
      exact hk.fault hrun
    · obtain ⟨r'', hok, -⟩ := hclose (hk.restores hrun)
      rw [hok] at hrun'
      cases hrun'

mutual

theorem keeps_run : ∀ step : Step, Keeps (step.run settings)
  | .reference x => by
    rw [run]
    exact .reference x
  | .target x => by
    rw [run]
    exact .target x
  | .place steps => by
    rw [run]
    exact keeps_runAll steps
  | .refuse e => by
    rw [run]
    exact .quoting fun text => .report _ e.loc
  | .check bad m loc => by
    rw [run]
    refine .asking fun r => ?_
    split
    · exact .report m.message loc
    · exact .done
  | .note errors => .of_ok fun r => ⟨_, rfl, .note r errors⟩
  | .block scope ds steps => keeps_inside (run_block scope ds steps) (keeps_runAll steps)
      fun h => closeBlock_entering h
  | .loop steps => keeps_inside (run_loop steps) (keeps_runAll steps)
      fun h => leaveLoop_looping h

theorem keeps_runAll : ∀ steps : List Step, Keeps (runAll settings steps)
  | [] => by
    rw [runAll]
    exact .done
  | step :: steps => by
    rw [runAll]
    exact (keeps_run step).bind (keeps_runAll steps)

end

end Step
end Resolve

namespace Node

/-- The visit of a node on its own. A `for` clause that is no part of a comprehension, a parameter
and a load binding bind nothing then: their names are looked up. -/
def visit (settings : Settings) : Node → Resolve Unit
  | .stmt s => Resolve.stmt settings s
  | .expr e => Resolve.expr settings e
  | .entry d => Resolve.entry settings d
  | .argument a => Resolve.argument settings a
  | .clause (.each vars iterable _) => do
    Resolve.expr settings iterable
    Resolve.expr settings vars
  | .clause (.guard c _) => Resolve.expr settings c
  | .parameter p => do
    Resolve.optional settings p.default
    Resolve.references settings p.identifier.toList
  | .binding b => Resolve.reference settings b.localName
  | .string _ => pure ()
  | .name x | .loaded x => Resolve.reference settings x

open Resolve Resolve.Step in
theorem keeps_visit (settings : Settings) (n : Node) : Keeps (n.visit settings) := by
  unfold visit
  split
  · rw [stmt_eq_steps]
    exact keeps_runAll _
  · rw [expr_eq_steps]
    exact keeps_runAll _
  · rw [entry_eq_steps]
    exact keeps_runAll _
  · rw [argument_eq_steps]
    exact keeps_runAll _
  · rw [expr_eq_steps, expr_eq_steps]
    exact (keeps_runAll _).bind (keeps_runAll _)
  · rw [expr_eq_steps]
    exact keeps_runAll _
  · rw [optional_eq_steps, references_eq_steps]
    exact (keeps_runAll _).bind (keeps_runAll _)
  · exact .reference _
  · exact .done
  · exact .reference _
  · exact .reference _

end Node

/-- The state in which the resolution of a file begins. -/
def Resolution.start (settings : Settings) (builtins : List String) (errors : List Diagnostic)
    (tags : ScopeTable) : Resolution :=
  ⟨⟨ScopeChain.start builtins settings.buildFile, errors⟩, 0, tags⟩

namespace Resolve
variable {settings : Settings}

/-- A file is resolved like any node, and the check at its end passes. -/
theorem toplevel_restores (ss : List Stmt) (builtins : List String) (errors : List Diagnostic)
    (tags : ScopeTable) {out : Except Fault Unit} {r : Resolution}
    (h : (toplevel settings ss).run.run (.start settings builtins errors tags) = (out, r)) :
    (out = .ok () ∧ r.chain.isBalanced = true ∧
        Restores (.start settings builtins errors tags) r) ∨
      ∃ fault, out = .error fault ∧ (fault.IsOfName ∨ fault = .unwritable) := by
  rw [toplevel_eq_steps] at h
  rcases run_bind_cases h with ⟨fault, hrun, hout⟩ | ⟨r₁, hrun, hcheck⟩
  · exact Or.inr ⟨fault, hout, (Step.keeps_runAll _).fault hrun⟩
  · have hrestores := (Step.keeps_runAll _).restores hrun
    have hbalanced : r₁.chain.isBalanced = true := by
      rw [ScopeChain.isBalanced, hrestores.index_eq]
      rfl
    rw [run_bind, run_get] at hcheck
    simp only [hbalanced, Bool.not_true, Bool.false_eq_true, ↓reduceIte] at hcheck
    cases hcheck
    exact Or.inl ⟨rfl, hbalanced, hrestores⟩

end Resolve

/-- The fault of a file is that of its resolution. -/
theorem resolveFile_fault {settings : Settings} {ss : List Stmt} {builtins : List String}
    {errors : List Diagnostic} {tags : ScopeTable} {fault : Fault}
    (h : (resolveFile settings ss builtins errors tags).fault = some fault) :
    ∃ r, (Resolve.toplevel settings ss).run.run (.start settings builtins errors tags) =
      (.error fault, r) := by
  rcases hrun : (Resolve.toplevel settings ss).run.run (.start settings builtins errors tags)
    with ⟨fault' | u, r⟩
  · rw [Resolution.start] at hrun
    simp only [resolveFile, hrun, Option.some.injEq] at h
    exact ⟨r, h ▸ rfl⟩
  · rw [Resolution.start] at hrun
    simp only [resolveFile, hrun, reduceCtorEq] at h

/-- Every visit of a node, in every state, restores the current block, the mode, the number of
loops and the blocks that were there, and only adds to the arena, the errors and the tags. It fails
only by the fault of a name or at a target that cannot be reported, so the number of loops never
runs below zero. A file that is resolved ends outside of every block, and the check of that never
fails. -/
theorem Node.visit_restores (settings : Settings) :
    (∀ (n : Node) (r : Resolution),
      (∀ r', (n.visit settings).run.run r = (.ok (), r') → Resolve.Restores r r') ∧
      ∀ fault r', (n.visit settings).run.run r = (.error fault, r') →
        fault.IsOfName ∨ fault = .unwritable) ∧
    ∀ (ss : List Stmt) (builtins : List String) (errors : List Diagnostic) (tags : ScopeTable),
      (∀ r', (Resolve.toplevel settings ss).run.run (.start settings builtins errors tags) =
          (.ok (), r') →
        r'.chain.isBalanced = true ∧
          Resolve.Restores (.start settings builtins errors tags) r') ∧
      ∀ fault, (resolveFile settings ss builtins errors tags).fault = some fault →
        fault.IsOfName ∨ fault = .unwritable := by
  refine ⟨fun n r => ⟨fun r' => (keeps_visit settings n).restores,
    fun fault r' => (keeps_visit settings n).fault⟩, fun ss builtins errors tags => ⟨?_, ?_⟩⟩
  · intro r' h
    rcases Resolve.toplevel_restores ss builtins errors tags h with hok | ⟨fault, hout, -⟩
    · exact hok.2
    · cases hout
  · intro fault h
    obtain ⟨r, hrun⟩ := resolveFile_fault h
    rcases Resolve.toplevel_restores ss builtins errors tags hrun with ⟨hok, -⟩ | ⟨_, hout, hname⟩
    · cases hok
    · cases hout
      exact hname

/-- A function with a loop that assigns to a place found by a comprehension. -/
def loopOverPlaces : Stmt :=
  .define ⟨"f", 0, none⟩ [⟨.mandatory, some ⟨"x", 1, none⟩, none, none⟩]
    [.forLoop (.index (.ident ⟨"x", 2, none⟩)
        (.comprehension (.item (.ident ⟨"y", 3, none⟩))
          [.each (.ident ⟨"y", 4, none⟩) (.ident ⟨"x", 5, none⟩) none] false none) none)
      (.ident ⟨"x", 6, none⟩) [.load ⟨"m.bzl", none⟩ [] none] none] none

/-- A state inside a loop of a module, where another block was closed before. -/
def Resolution.amidLoop : Resolution :=
  ⟨⟨⟨false, [⟨.builtin, none, ["len"]⟩, ⟨.global, some 0, ["f"]⟩, ⟨.inner, some 1, ["w"]⟩], 1⟩,
    [readOnlyError "f" none]⟩, 1, ⟨[(7, .inner)]⟩⟩

/-- What comes of a visit of the function there. -/
def loopOverPlacesVisited : Except Fault Unit × Resolution :=
  ((Node.stmt loopOverPlaces).visit ⟨.standard {} [], false⟩).run.run .amidLoop

theorem Node.visit_restores_loopOverPlaces :
    ∃ settings : Settings, ∃ r' : Resolution,
      ((Node.stmt loopOverPlaces).visit settings).run.run .amidLoop = (.ok (), r') ∧
      r'.chain.blocks.length = 5 ∧ r'.errors.length = 2 ∧ r'.tags.size = 6 ∧
      Resolve.Restores .amidLoop r' := by
  have hsizes : loopOverPlacesVisited.1.isOk = true ∧
      loopOverPlacesVisited.2.chain.blocks.length = 5 ∧
      loopOverPlacesVisited.2.errors.length = 2 ∧ loopOverPlacesVisited.2.tags.size = 6 := by
    decide +kernel
  rcases hrun : loopOverPlacesVisited with ⟨fault | u, r'⟩
  · rw [hrun] at hsizes
    cases hsizes.1
  · rw [hrun] at hsizes
    exact ⟨_, r', hrun, hsizes.2.1, hsizes.2.2.1, hsizes.2.2.2,
      ((visit_restores _).1 (.stmt loopOverPlaces) .amidLoop).1 r' hrun⟩

end Starlark
