import Starlark.Proofs.Resolve.Visit

/-! # A visit as a list of steps

Which steps a visit takes follows from the tree alone: names are looked up, names of targets are
tagged, problems are looked for, and blocks and loops have steps of their own inside. Taking the
steps of a tree in order is visiting it, so what every step keeps is kept by every visit.
-/
namespace Starlark

namespace Resolve

/-- The places where something is a problem. -/
inductive Where
  | anywhere | inFunction | outsideFunction | outsideLoop

def Where.holds : Where → Resolution → Bool
  | .anywhere, _ => true
  | .inFunction, r => r.chain.current.scope == .inner
  | .outsideFunction, r => !(r.chain.current.scope == .inner)
  | .outsideLoop, r => r.loops == 0

inductive Step
  | reference (x : Identifier)
  /-- A name of a target, to be tagged. -/
  | target (x : Identifier)
  /-- An index expression in a target, which is visited and binds nothing. -/
  | place (steps : List Step)
  /-- An expression in the place of a target, to be reported by its text. -/
  | refuse (e : Expr)
  | check (bad : Where) (m : Misplacement) (loc : Option Location)
  | note (errors : List Diagnostic)
  /-- A block of its own that declares some names and is closed in the end. -/
  | block (scope : Scope) (declared : List Declared) (steps : List Step)
  | loop (steps : List Step)

end Resolve

open Resolve (Step)

mutual

def Expr.steps : Expr → List Step
  | .ident x => [.reference x]
  | .int _ _ => []
  | .str _ => []
  | .list es _ _ => Expr.stepsAll es
  | .dict ds _ => Entry.stepsAll ds
  | .binary x _ y _ => x.steps ++ y.steps
  | .unary _ x _ => x.steps
  | .conditional t c e _ => c.steps ++ (t.steps ++ e.steps)
  | .dot o _ _ => o.steps
  | .index o k _ => o.steps ++ k.steps
  | .slice o a b c _ => o.steps ++ (Expr.stepsOpt a ++ (Expr.stepsOpt b ++ Expr.stepsOpt c))
  | .call f as _ => f.steps ++ Argument.stepsAll as
  | .comprehension b cs _ _ =>
    [.block .inner ((Clause.bindings cs).map .bound) (Clause.stepsAll cs ++ b.steps)]

def Expr.stepsAll : List Expr → List Step
  | [] => []
  | e :: es => e.steps ++ Expr.stepsAll es

def Expr.stepsOpt : Option Expr → List Step
  | none => []
  | some e => e.steps

def Entry.steps : Entry → List Step
  | .mk k v _ => k.steps ++ v.steps

def Entry.stepsAll : List Entry → List Step
  | [] => []
  | d :: ds => d.steps ++ Entry.stepsAll ds

def Argument.steps : Argument → List Step
  | .mk _ v _ _ => v.steps

def Argument.stepsAll : List Argument → List Step
  | [] => []
  | a :: as => a.steps ++ Argument.stepsAll as

def Clause.steps : Clause → List Step
  | .each vars iterable _ => iterable.steps ++ vars.targetSteps
  | .guard c _ => c.steps

def Clause.stepsAll : List Clause → List Step
  | [] => []
  | c :: cs => c.steps ++ Clause.stepsAll cs

def Body.steps : Body → List Step
  | .item e => e.steps
  | .entry d => d.steps

def Expr.targetSteps : Expr → List Step
  | .ident x => [.target x]
  | .index o k _ => [.place (o.steps ++ k.steps)]
  | .list es _ _ => Expr.targetStepsAll es
  | e => [.refuse e]

def Expr.targetStepsAll : List Expr → List Step
  | [] => []
  | e :: es => e.targetSteps ++ Expr.targetStepsAll es

end

def Parameter.defaultSteps : List Parameter → List Step
  | [] => []
  | p :: ps =>
    (if p.kind = .optional then Expr.stepsOpt p.default else []) ++ Parameter.defaultSteps ps

mutual

def Stmt.steps : Stmt → List Step
  | .expr e _ => e.steps
  | .assign lhs rhs _ => rhs.steps ++ lhs.targetSteps
  | .augmentedAssign _ lhs rhs loc =>
    (if lhs matches .list .. then [.check .anywhere .augmentedPattern loc] else [])
      ++ (rhs.steps ++ lhs.targetSteps)
  | .ifElse c a b loc =>
    .check .outsideFunction .conditionalAtTop loc
      :: (c.steps ++ (Stmt.stepsAll a ++ Stmt.stepsAll b))
  | .forLoop lhs collection b loc =>
    [.check .outsideFunction .loopAtTop loc,
      .loop (collection.steps ++ (lhs.targetSteps ++ Stmt.stepsAll b))]
  | .define _ ps b loc =>
    .check .inFunction .functionInFunction loc :: (Parameter.defaultSteps ps
      ++ [.block .inner (Resolve.declaredParameters ps ++ Stmt.declaredAll b) (Stmt.stepsAll b)])
  | .returns result loc => .check .outsideFunction .returnAtTop loc :: Expr.stepsOpt result
  | .flow kind loc => if kind = .pass then [] else [.check .outsideLoop (.flowOutsideLoop kind) loc]
  | .load _ bs loc =>
    .check .inFunction .loadInFunction loc :: bs.map fun b => .reference b.localName

def Stmt.stepsAll : List Stmt → List Step
  | [] => []
  | s :: ss => s.steps ++ Stmt.stepsAll ss

end

/-- The steps of a file: the loads that come too late are noted, if they count, and then there is
the module block with everything in it. -/
def Settings.steps (settings : Settings) (ss : List Stmt) : List Step :=
  [.note (if !settings.buildFile && settings.env.semantics.disallowLoadAfterStatement then
      loadOrderErrors none ss else []),
    .block .global (Stmt.declaredAll ss) (Stmt.stepsAll ss)]

namespace Resolve

namespace Step
variable (settings : Settings)

mutual

def run : Step → Resolve Unit
  | .reference x => Resolve.reference settings x
  | .target x => Resolve.assign settings (.ident x)
  | .place steps => runAll steps
  | .refuse e => do Resolve.misplaced (.notAssignable (← Resolve.quote e)) e.loc
  | .check bad m loc => do if bad.holds (← get) then Resolve.misplaced m loc
  | .note errors => modify fun r => { r with errors := r.errors ++ errors }
  | .block scope ds steps => do
    Resolve.openBlock scope
    Resolve.declaring fun d => ds.foldl Declarations.take d
    runAll steps
    Resolve.closeBlock
  | .loop steps => do
    Resolve.enterLoop
    runAll steps
    Resolve.leaveLoop

def runAll : List Step → Resolve Unit
  | [] => pure ()
  | s :: ss => do s.run; runAll ss

end

variable {settings}

theorem runAll_append (xs ys : List Step) :
    runAll settings (xs ++ ys) = runAll settings xs >>= fun _ => runAll settings ys := by
  induction xs with
  | nil => simp [runAll]
  | cons x xs ih => simp only [List.cons_append, runAll, ih, bind_assoc]

theorem runAll_singleton (x : Step) : runAll settings [x] = x.run settings := by
  simp [runAll]

end Step

variable {settings : Settings}
open Step (run runAll runAll_append runAll_singleton)

/-- A check in front of a visit, as a visit makes it. -/
theorem check_then (bad : Where) (m : Misplacement) (loc : Option Location) (k : Resolve Unit) :
    ((Step.check bad m loc).run settings >>= fun _ => k) =
      get >>= fun r => if bad.holds r then misplaced m loc >>= fun _ => k else k := by
  rw [run, bind_assoc]
  refine bind_congr fun r => ?_
  split <;> simp

theorem outsideFunction_then (m : Misplacement) (loc : Option Location) (k : Resolve Unit) :
    ((Step.check .outsideFunction m loc).run settings >>= fun _ => k) =
      inFunction >>= fun b => if !b then misplaced m loc >>= fun _ => k else k := by
  rw [check_then, inFunction, bind_assoc]
  exact bind_congr fun r => by rw [pure_bind]; rfl

theorem inFunction_then (m : Misplacement) (loc : Option Location) (k : Resolve Unit) :
    ((Step.check .inFunction m loc).run settings >>= fun _ => k) =
      inFunction >>= fun b => if b then misplaced m loc >>= fun _ => k else k := by
  rw [check_then, inFunction, bind_assoc]
  exact bind_congr fun r => by rw [pure_bind]; rfl

theorem misplaced_eq_step (m : Misplacement) (loc : Option Location) :
    misplaced m loc = runAll settings [Step.check .anywhere m loc] := by
  rw [runAll_singleton, run]
  rfl

theorem refuse_eq_step (e : Expr) :
    (do misplaced (.notAssignable (← quote e)) e.loc) = runAll settings [Step.refuse e] := by
  rw [runAll_singleton, run]

theorem misplacedIf_then (c : Prop) [Decidable c] (m : Misplacement) (loc : Option Location)
    (k : Resolve Unit) :
    (if c then misplaced m loc >>= fun _ => k else k) =
      runAll settings (if c then [Step.check .anywhere m loc] else []) >>= fun _ => k := by
  split
  · rw [misplaced_eq_step]
  · rw [runAll, pure_bind]

theorem references_eq_steps (xs : List Identifier) :
    references settings xs = runAll settings (xs.map Step.reference) := by
  induction xs with
  | nil => rfl
  | cons x xs ih => rw [List.map_cons, runAll, ← ih, run, references]

mutual

/-- An expression is visited step by step. -/
theorem expr_eq_steps : ∀ e : Expr, expr settings e = runAll settings e.steps
  | .ident x => by rw [expr, Expr.steps, runAll_singleton, run]
  | .int _ _ => by rw [expr, Expr.steps, runAll]
  | .str _ => by rw [expr, Expr.steps, runAll]
  | .list es _ _ => by rw [expr, Expr.steps, exprs_eq_steps es]
  | .dict ds _ => by rw [expr, Expr.steps, entries_eq_steps ds]
  | .binary x _ y _ => by
    rw [expr, Expr.steps, runAll_append, expr_eq_steps x, expr_eq_steps y]
  | .unary _ x _ => by rw [expr, Expr.steps, expr_eq_steps x]
  | .conditional t c e _ => by
    rw [expr, Expr.steps, runAll_append, runAll_append, expr_eq_steps c, expr_eq_steps t,
      expr_eq_steps e]
  | .dot o _ _ => by rw [expr, Expr.steps, expr_eq_steps o]
  | .index o k _ => by
    rw [expr, Expr.steps, runAll_append, expr_eq_steps o, expr_eq_steps k]
  | .slice o a b c _ => by
    rw [expr, Expr.steps, runAll_append, runAll_append, runAll_append, expr_eq_steps o,
      optional_eq_steps a, optional_eq_steps b, optional_eq_steps c]
  | .call f as _ => by
    rw [expr, Expr.steps, runAll_append, expr_eq_steps f, arguments_eq_steps as]
  | .comprehension b cs _ _ => by
    have hdeclare : (fun d : Declarations => d.collectClauses cs) =
        fun d => ((Clause.bindings cs).map .bound).foldl Declarations.take d :=
      funext fun d => d.collectClauses_eq cs
    rw [expr, Expr.steps, runAll_singleton, run, runAll_append, bind_assoc, hdeclare,
      clauses_eq_steps cs, body_eq_steps b]

theorem exprs_eq_steps : ∀ es : List Expr, exprs settings es = runAll settings (Expr.stepsAll es)
  | [] => by rw [exprs, Expr.stepsAll, runAll]
  | e :: es => by rw [exprs, Expr.stepsAll, runAll_append, expr_eq_steps e, exprs_eq_steps es]

theorem optional_eq_steps :
    ∀ e : Option Expr, optional settings e = runAll settings (Expr.stepsOpt e)
  | none => by rw [optional, Expr.stepsOpt, runAll]
  | some e => by rw [optional, Expr.stepsOpt, expr_eq_steps e]

theorem entry_eq_steps : ∀ d : Entry, entry settings d = runAll settings d.steps
  | .mk k v _ => by rw [entry, Entry.steps, runAll_append, expr_eq_steps k, expr_eq_steps v]

theorem entries_eq_steps :
    ∀ ds : List Entry, entries settings ds = runAll settings (Entry.stepsAll ds)
  | [] => by rw [entries, Entry.stepsAll, runAll]
  | d :: ds => by
    rw [entries, Entry.stepsAll, runAll_append, entry_eq_steps d, entries_eq_steps ds]

theorem argument_eq_steps : ∀ a : Argument, argument settings a = runAll settings a.steps
  | .mk _ v _ _ => by rw [argument, Argument.steps, expr_eq_steps v]

theorem arguments_eq_steps :
    ∀ as : List Argument, arguments settings as = runAll settings (Argument.stepsAll as)
  | [] => by rw [arguments, Argument.stepsAll, runAll]
  | a :: as => by
    rw [arguments, Argument.stepsAll, runAll_append, argument_eq_steps a, arguments_eq_steps as]

theorem clause_eq_steps : ∀ c : Clause, clause settings c = runAll settings c.steps
  | .each vars iterable _ => by
    rw [clause, Clause.steps, runAll_append, expr_eq_steps iterable, assign_eq_steps vars]
  | .guard c _ => by rw [clause, Clause.steps, expr_eq_steps c]

theorem clauses_eq_steps :
    ∀ cs : List Clause, clauses settings cs = runAll settings (Clause.stepsAll cs)
  | [] => by rw [clauses, Clause.stepsAll, runAll]
  | c :: cs => by
    rw [clauses, Clause.stepsAll, runAll_append, clause_eq_steps c, clauses_eq_steps cs]

theorem body_eq_steps : ∀ b : Body, body settings b = runAll settings b.steps
  | .item e => by rw [body, Body.steps, expr_eq_steps e]
  | .entry d => by rw [body, Body.steps, entry_eq_steps d]

theorem assign_eq_steps : ∀ e : Expr, assign settings e = runAll settings e.targetSteps
  | .ident x => by rw [Expr.targetSteps, runAll_singleton, run]
  | .index o k _ => by
    rw [assign, Expr.targetSteps, runAll_singleton, run, runAll_append, expr_eq_steps o,
      expr_eq_steps k]
  | .list es _ _ => by rw [assign, Expr.targetSteps, assignAll_eq_steps es]
  | .int _ _ => refuse_eq_step _
  | .str _ => refuse_eq_step _
  | .dict _ _ => refuse_eq_step _
  | .binary _ _ _ _ => refuse_eq_step _
  | .unary _ _ _ => refuse_eq_step _
  | .conditional _ _ _ _ => refuse_eq_step _
  | .dot _ _ _ => refuse_eq_step _
  | .slice _ _ _ _ _ => refuse_eq_step _
  | .call _ _ _ => refuse_eq_step _
  | .comprehension _ _ _ _ => refuse_eq_step _

theorem assignAll_eq_steps :
    ∀ es : List Expr, assignAll settings es = runAll settings (Expr.targetStepsAll es)
  | [] => by rw [assignAll, Expr.targetStepsAll, runAll]
  | e :: es => by
    rw [assignAll, Expr.targetStepsAll, runAll_append, assign_eq_steps e, assignAll_eq_steps es]

end

theorem defaults_eq_steps (ps : List Parameter) :
    defaults settings ps = runAll settings (Parameter.defaultSteps ps) := by
  induction ps with
  | nil => rw [defaults, Parameter.defaultSteps, runAll]
  | cons p ps ih =>
    rw [defaults, Parameter.defaultSteps, runAll_append, ih]
    split
    · rw [optional_eq_steps]
    · rw [runAll, pure_bind]

mutual

/-- A statement is visited step by step. -/
theorem stmt_eq_steps : ∀ s : Stmt, stmt settings s = runAll settings s.steps
  | .expr e _ => by rw [stmt, Stmt.steps, expr_eq_steps e]
  | .assign lhs rhs _ => by
    rw [stmt, Stmt.steps, runAll_append, expr_eq_steps rhs, assign_eq_steps lhs]
  | .augmentedAssign _ lhs rhs loc => by
    unfold stmt Stmt.steps
    rw [runAll_append, runAll_append, expr_eq_steps rhs, assign_eq_steps lhs]
    exact misplacedIf_then _ _ loc _
  | .ifElse c a b loc => by
    rw [stmt, Stmt.steps, runAll, runAll_append, runAll_append, outsideFunction_then,
      expr_eq_steps c, block_eq_steps a, block_eq_steps b]
  | .forLoop lhs collection b loc => by
    rw [stmt, Stmt.steps, runAll, runAll_singleton, outsideFunction_then, run, runAll_append,
      runAll_append, bind_assoc, bind_assoc, expr_eq_steps collection, assign_eq_steps lhs,
      block_eq_steps b]
  | .define _ ps b loc => by
    have hdeclare : (fun d => (declareParameters d ps).collectAll b) = fun d =>
        (declaredParameters ps ++ Stmt.declaredAll b).foldl Declarations.take d := by
      funext d
      rw [List.foldl_append, ← declareParameters_eq, Declarations.collectAll_eq]
    rw [stmt, Stmt.steps, runAll, runAll_append, runAll_singleton, inFunction_then, run,
      hdeclare, defaults_eq_steps ps, block_eq_steps b]
  | .returns result loc => by
    rw [stmt, Stmt.steps, runAll, outsideFunction_then, optional_eq_steps]
  | .flow kind loc => by
    rw [stmt, Stmt.steps]
    split
    · next hpass =>
      subst hpass
      rfl
    · next hflow =>
      rw [runAll_singleton, run]
      exact bind_congr fun r => by simp [hflow, Where.holds]
  | .load _ bs loc => by
    rw [stmt, Stmt.steps, runAll, inFunction_then, references_eq_steps, List.map_map]
    rfl

theorem block_eq_steps : ∀ ss : List Stmt, block settings ss = runAll settings (Stmt.stepsAll ss)
  | [] => by rw [block, Stmt.stepsAll, runAll]
  | s :: ss => by rw [block, Stmt.stepsAll, runAll_append, stmt_eq_steps s, block_eq_steps ss]

end

/-- A file is visited step by step, and then the chain is checked. -/
theorem toplevel_eq_steps (ss : List Stmt) :
    toplevel settings ss = (do
      runAll settings (settings.steps ss)
      if !(← get).chain.isBalanced then throw .unbalanced) := by
  have hdeclare : (fun d : Declarations => d.collectAll ss) =
      fun d => (Stmt.declaredAll ss).foldl Declarations.take d :=
    funext fun d => d.collectAll_eq ss
  have hnone : (modify fun r => { r with errors := r.errors ++ [] } : Resolve Unit) = pure () := by
    simp only [List.append_nil]
    rfl
  rw [toplevel, Settings.steps, runAll, runAll_singleton, run, run, block_eq_steps ss, hdeclare]
  split
  · simp only [bind_assoc]
  · simp only [hnone, bind_assoc, pure_bind]

end Resolve
end Starlark
