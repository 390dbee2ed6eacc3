import Starlark.Proofs.Resolve.File
import Starlark.Proofs.Resolve.Sites

/-! # Well-formed files

The rules of a file, each stated on its own: where statements may stand, what may be assigned to,
which names may be bound once only, which names must be bound, and in what order. A visit finds
nothing but bound names exactly in the files that keep the rules. The loops around a statement
are counted across functions by the visit and only within the function by the rules; the two
agree because neither a loop around a function nor a function inside another one is allowed.
-/
namespace Starlark

/-- What surrounds a statement: is it in the body of a function, and in a loop of that body? -/
structure Context where
  inFunction : Bool
  inLoop : Bool

def Context.top : Context := ⟨false, false⟩

mutual

/-- A statement and those inside it, each with what surrounds it. -/
def Stmt.placed (c : Context) : Stmt → List (Context × Stmt)
  | .ifElse e a b loc => (c, .ifElse e a b loc) :: Stmt.placedAll c a ++ Stmt.placedAll c b
  | .forLoop x e b loc => (c, .forLoop x e b loc) :: Stmt.placedAll { c with inLoop := true } b
  | .define f ps b loc => (c, .define f ps b loc) :: Stmt.placedAll ⟨true, false⟩ b
  | .expr e loc => [(c, .expr e loc)]
  | .assign x e loc => [(c, .assign x e loc)]
  | .augmentedAssign op x e loc => [(c, .augmentedAssign op x e loc)]
  | .returns e loc => [(c, .returns e loc)]
  | .flow kind loc => [(c, .flow kind loc)]
  | .load s bs loc => [(c, .load s bs loc)]

def Stmt.placedAll (c : Context) : List Stmt → List (Context × Stmt)
  | [] => []
  | s :: ss => s.placed c ++ Stmt.placedAll c ss

end

/-- May a statement stand in its place? -/
def Stmt.WellPlaced (c : Context) : Stmt → Prop
  | .returns _ _ => c.inFunction = true
  | .ifElse _ _ _ _ => c.inFunction = true
  | .forLoop _ _ _ _ => c.inFunction = true
  | .load _ _ _ => c.inFunction = false
  | .define _ _ _ _ => c.inFunction = false
  | .flow kind _ => kind = .pass ∨ c.inLoop = true
  | .expr _ _ => True
  | .assign _ _ _ => True
  | .augmentedAssign _ _ _ _ => True

/-- What may be assigned to: names, index expressions, and lists and tuples of these. -/
inductive Expr.IsTarget : Expr → Prop
  | ident (x : Identifier) : IsTarget (.ident x)
  | index (o k : Expr) (loc : Option Location) : IsTarget (.index o k loc)
  | list (es : List Expr) (isTuple : Bool) (loc : Option Location)
      (h : ∀ e ∈ es, IsTarget e) : IsTarget (.list es isTuple loc)

mutual

/-- The targets of the `for` clauses of all comprehensions in an expression. -/
def Expr.targets : Expr → List Expr
  | .ident _ => []
  | .int _ _ => []
  | .str _ => []
  | .list es _ _ => Expr.targetsAll es
  | .dict ds _ => Entry.targetsAll ds
  | .binary x _ y _ => x.targets ++ y.targets
  | .unary _ x _ => x.targets
  | .conditional t c e _ => c.targets ++ t.targets ++ e.targets
  | .dot o _ _ => o.targets
  | .index o k _ => o.targets ++ k.targets
  | .slice o a b c _ =>
    o.targets ++ Expr.targetsOpt a ++ Expr.targetsOpt b ++ Expr.targetsOpt c
  | .call f as _ => f.targets ++ Argument.targetsAll as
  | .comprehension b cs _ _ => Clause.targetsAll cs ++ b.targets

def Expr.targetsAll : List Expr → List Expr
  | [] => []
  | e :: es => e.targets ++ Expr.targetsAll es

def Expr.targetsOpt : Option Expr → List Expr
  | none => []
  | some e => e.targets

def Entry.targets : Entry → List Expr
  | .mk k v _ => k.targets ++ v.targets

def Entry.targetsAll : List Entry → List Expr
  | [] => []
  | d :: ds => d.targets ++ Entry.targetsAll ds

def Argument.targets : Argument → List Expr
  | .mk _ v _ _ => v.targets

def Argument.targetsAll : List Argument → List Expr
  | [] => []
  | a :: as => a.targets ++ Argument.targetsAll as

def Clause.targets : Clause → List Expr
  | .each vars iterable _ => iterable.targets ++ vars :: vars.targets
  | .guard c _ => c.targets

def Clause.targetsAll : List Clause → List Expr
  | [] => []
  | c :: cs => c.targets ++ Clause.targetsAll cs

def Body.targets : Body → List Expr
  | .item e => e.targets
  | .entry d => d.targets

end

/-- The default value of an optional parameter; no other parameter has one. -/
def Parameter.optionalDefault (p : Parameter) : Option Expr :=
  if p.kind = .optional then p.default else none

/-- All targets in a statement, but for those in the statements inside it. -/
def Stmt.targets : Stmt → List Expr
  | .assign lhs rhs _ => rhs.targets ++ lhs :: lhs.targets
  | .augmentedAssign _ lhs rhs _ => rhs.targets ++ lhs :: lhs.targets
  | .forLoop lhs collection _ _ => collection.targets ++ lhs :: lhs.targets
  | .expr e _ => e.targets
  | .ifElse c _ _ _ => c.targets
  | .define _ ps _ _ => ps.flatMap fun p => Expr.targetsOpt p.optionalDefault
  | .returns e _ => Expr.targetsOpt e
  | .flow _ _ => []
  | .load _ _ _ => []

/-- Is a statement an augmented assignment to a list or tuple? -/
def Stmt.augmentsList : Stmt → Bool
  | .augmentedAssign _ (.list _ _ _) _ _ => true
  | _ => false

/-- The local names that a statement loads. -/
def Stmt.loadedNames : Stmt → List String
  | .load _ bs _ => bs.map (·.localName.name)
  | _ => []

/-- The rules of a file with the given predeclared names. In a strict file a name is bound once at
module level; where the order of loads counts, they come before all but docstrings. -/
structure Stmt.WellFormed (strict ordered : Bool) (predeclared : List String) (ss : List Stmt) :
    Prop where
  placed : ∀ p ∈ Stmt.placedAll .top ss, p.2.WellPlaced p.1
  targets : ∀ p ∈ Stmt.placedAll .top ss, ∀ e ∈ p.2.targets, e.IsTarget
  augmented : ∀ p ∈ Stmt.placedAll .top ss, p.2.augmentsList = false
  loads : ∀ p ∈ Stmt.placedAll .top ss, p.2.loadedNames.Nodup
  bound : ∀ site ∈ Stmt.sites predeclared ss, ∃ f ∈ site.2, site.1.name ∈ f.names
  once : strict = true → ((Stmt.bindings ss).map (·.name)).Nodup
  order : ordered = true →
    ss.Pairwise fun s t => t.isLoad = true → s.isLoad = true ∨ s.isDocstring = true

/-- Are some findings nothing but names? -/
def Finding.Settled (found : List Finding) : Prop := ∀ e ∈ found, e.site?.isSome

namespace Finding

@[simp] theorem settled_nil : Settled [] := by
  intro e he
  cases he

@[simp] theorem settled_append (es ds : List Finding) :
    Settled (es ++ ds) ↔ Settled es ∧ Settled ds := by
  simp only [Settled, List.mem_append, or_imp, forall_and]

@[simp] theorem settled_misplacedIf (c : Prop) [Decidable c] (m : Misplacement)
    (loc : Option Location) : Settled (misplacedIf c m loc) ↔ ¬c := by
  unfold misplacedIf
  split
  · next h => simp [Settled, site?, h]
  · next h => simp [h]

@[simp] theorem settled_noted (ds : List Diagnostic) : Settled (ds.map .noted) ↔ ds = [] := by
  cases ds <;> simp [Settled, site?]

@[simp] theorem settled_names (xs : List Identifier) (fs : List Frame) :
    Settled (xs.map (.name · fs)) := by
  intro e he
  obtain ⟨x, -, rfl⟩ := List.mem_map.mp he
  rfl

theorem not_settled_refusal (e : Expr) : ¬Settled [.refusal e] := by
  have hsite : (refusal e).site? = none :=
    refusal_cases (P := fun d => d.site? = none) (fun _ => rfl) rfl
  simp [Settled, hsite]

end Finding

open Finding

def Expr.AllTargets (es : List Expr) : Prop := ∀ e ∈ es, e.IsTarget

namespace Expr

@[simp] theorem allTargets_nil : AllTargets [] := by
  intro e he
  cases he

@[simp] theorem allTargets_append (es ds : List Expr) :
    AllTargets (es ++ ds) ↔ AllTargets es ∧ AllTargets ds := by
  simp only [AllTargets, List.mem_append, or_imp, forall_and]

@[simp] theorem allTargets_cons (e : Expr) (es : List Expr) :
    AllTargets (e :: es) ↔ e.IsTarget ∧ AllTargets es := by
  simp only [AllTargets, List.forall_mem_cons]

@[simp] theorem isTarget_list (es : List Expr) (isTuple : Bool) (loc : Option Location) :
    IsTarget (.list es isTuple loc) ↔ AllTargets es :=
  ⟨fun h => by cases h with | list _ _ _ h => exact h, fun h => .list es isTuple loc h⟩

/-- What is no target makes a finding. -/
theorem not_settled_target {e : Expr} {es : List Expr} (h : ¬e.IsTarget) :
    Settled [.refusal e] ↔ e.IsTarget ∧ AllTargets es :=
  iff_of_false (not_settled_refusal e) fun htargets => h htargets.1

end Expr

open Starlark.Expr (AllTargets not_settled_target)

mutual

/-- Only an illegal target makes a finding in an expression. -/
theorem Expr.settled_iff (fs : List Frame) :
    ∀ e : Expr, Settled (e.findings fs) ↔ AllTargets e.targets
  | .ident x => by simpa [Expr.findings, Expr.targets] using settled_names [x] fs
  | .int _ _ => by simp [Expr.findings, Expr.targets]
  | .str _ => by simp [Expr.findings, Expr.targets]
  | .list es _ _ => by
    rw [Expr.findings, Expr.targets, Expr.settledAll_iff fs es]
  | .dict ds _ => by
    rw [Expr.findings, Expr.targets, Entry.settledAll_iff fs ds]
  | .binary x _ y _ => by
    simp only [Expr.findings, Expr.targets, settled_append, Expr.allTargets_append,
      Expr.settled_iff fs x, Expr.settled_iff fs y]
  | .unary _ x _ => by
    rw [Expr.findings, Expr.targets, Expr.settled_iff fs x]
  | .conditional t c e _ => by
    simp only [Expr.findings, Expr.targets, settled_append, Expr.allTargets_append,
      Expr.settled_iff fs t, Expr.settled_iff fs c, Expr.settled_iff fs e]
  | .dot o _ _ => by
    rw [Expr.findings, Expr.targets, Expr.settled_iff fs o]
  | .index o k _ => by
    simp only [Expr.findings, Expr.targets, settled_append, Expr.allTargets_append,
      Expr.settled_iff fs o, Expr.settled_iff fs k]
  | .slice o a b c _ => by
    simp only [Expr.findings, Expr.targets, settled_append, Expr.allTargets_append,
      Expr.settled_iff fs o, Expr.settledOpt_iff fs a, Expr.settledOpt_iff fs b,
      Expr.settledOpt_iff fs c]
  | .call f as _ => by
    simp only [Expr.findings, Expr.targets, settled_append, Expr.allTargets_append,
      Expr.settled_iff fs f, Argument.settledAll_iff fs as]
  | .comprehension b cs _ _ => by
    simp only [Expr.findings, Expr.targets, settled_append, Expr.allTargets_append,
      Clause.settledAll_iff (Clause.frame cs :: fs) cs, Body.settled_iff (Clause.frame cs :: fs) b]

theorem Expr.settledAll_iff (fs : List Frame) : ∀ es : List Expr,
    Settled (Expr.findingsAll fs es) ↔ AllTargets (Expr.targetsAll es)
  | [] => by simp [Expr.findingsAll, Expr.targetsAll]
  | e :: es => by
    simp only [Expr.findingsAll, Expr.targetsAll, settled_append, Expr.allTargets_append,
      Expr.settled_iff fs e, Expr.settledAll_iff fs es]

theorem Expr.settledOpt_iff (fs : List Frame) : ∀ e : Option Expr,
    Settled (Expr.findingsOpt fs e) ↔ AllTargets (Expr.targetsOpt e)
  | none => by simp [Expr.findingsOpt, Expr.targetsOpt]
  | some e => by
    rw [Expr.findingsOpt, Expr.targetsOpt, Expr.settled_iff fs e]

theorem Entry.settled_iff (fs : List Frame) :
    ∀ d : Entry, Settled (d.findings fs) ↔ AllTargets d.targets
  | .mk k v _ => by
    simp only [Entry.findings, Entry.targets, settled_append, Expr.allTargets_append,
      Expr.settled_iff fs k, Expr.settled_iff fs v]

theorem Entry.settledAll_iff (fs : List Frame) : ∀ ds : List Entry,
    Settled (Entry.findingsAll fs ds) ↔ AllTargets (Entry.targetsAll ds)
  | [] => by simp [Entry.findingsAll, Entry.targetsAll]
  | d :: ds => by
    simp only [Entry.findingsAll, Entry.targetsAll, settled_append, Expr.allTargets_append,
      Entry.settled_iff fs d, Entry.settledAll_iff fs ds]

theorem Argument.settled_iff (fs : List Frame) :
    ∀ a : Argument, Settled (a.findings fs) ↔ AllTargets a.targets
  | .mk _ v _ _ => by
    rw [Argument.findings, Argument.targets, Expr.settled_iff fs v]

theorem Argument.settledAll_iff (fs : List Frame) : ∀ as : List Argument,
    Settled (Argument.findingsAll fs as) ↔ AllTargets (Argument.targetsAll as)
  | [] => by simp [Argument.findingsAll, Argument.targetsAll]
  | a :: as => by
    simp only [Argument.findingsAll, Argument.targetsAll, settled_append,
      Expr.allTargets_append, Argument.settled_iff fs a, Argument.settledAll_iff fs as]

theorem Clause.settled_iff (fs : List Frame) :
    ∀ c : Clause, Settled (c.findings fs) ↔ AllTargets c.targets
  | .each vars iterable _ => by
    simp only [Clause.findings, Clause.targets, settled_append, Expr.allTargets_append,
      Expr.allTargets_cons, Expr.settled_iff fs iterable, Expr.settledTarget_iff fs vars]
  | .guard c _ => by
    rw [Clause.findings, Clause.targets, Expr.settled_iff fs c]

theorem Clause.settledAll_iff (fs : List Frame) : ∀ cs : List Clause,
    Settled (Clause.findingsAll fs cs) ↔ AllTargets (Clause.targetsAll cs)
  | [] => by simp [Clause.findingsAll, Clause.targetsAll]
  | c :: cs => by
    simp only [Clause.findingsAll, Clause.targetsAll, settled_append, Expr.allTargets_append,
      Clause.settled_iff fs c, Clause.settledAll_iff fs cs]

theorem Body.settled_iff (fs : List Frame) :
    ∀ b : Body, Settled (b.findings fs) ↔ AllTargets b.targets
  | .item e => by
    rw [Body.findings, Body.targets, Expr.settled_iff fs e]
  | .entry d => by
    rw [Body.findings, Body.targets, Entry.settled_iff fs d]

/-- A target makes no finding exactly if it is legal, also inside. -/
theorem Expr.settledTarget_iff (fs : List Frame) : ∀ e : Expr,
    Settled (e.targetFindings fs) ↔ e.IsTarget ∧ AllTargets e.targets
  | .ident x => by
    simpa [Expr.targetFindings, Expr.targets, Expr.IsTarget.ident] using settled_names [x] fs
  | .index o k loc => by
    simp only [Expr.targetFindings, Expr.targets, settled_append, Expr.allTargets_append,
      Expr.settled_iff fs o, Expr.settled_iff fs k, Expr.IsTarget.index o k loc, true_and]
  | .list es _ _ => by
    rw [Expr.targetFindings, Expr.targets, Expr.settledTargetAll_iff fs es, Expr.isTarget_list]
  | .int _ _ => not_settled_target (by rintro ⟨⟩)
  | .str _ => not_settled_target (by rintro ⟨⟩)
  | .dict _ _ => not_settled_target (by rintro ⟨⟩)
  | .binary _ _ _ _ => not_settled_target (by rintro ⟨⟩)
  | .unary _ _ _ => not_settled_target (by rintro ⟨⟩)
  | .conditional _ _ _ _ => not_settled_target (by rintro ⟨⟩)
  | .dot _ _ _ => not_settled_target (by rintro ⟨⟩)
  | .slice _ _ _ _ _ => not_settled_target (by rintro ⟨⟩)
  | .call _ _ _ => not_settled_target (by rintro ⟨⟩)
  | .comprehension _ _ _ _ => not_settled_target (by rintro ⟨⟩)

theorem Expr.settledTargetAll_iff (fs : List Frame) : ∀ es : List Expr,
    Settled (Expr.targetFindingsAll fs es) ↔ AllTargets es ∧ AllTargets (Expr.targetsAll es)
  | [] => by simp [Expr.targetFindingsAll, Expr.targetsAll]
  | e :: es => by
    simp only [Expr.targetFindingsAll, Expr.targetsAll, settled_append, Expr.allTargets_append,
      Expr.allTargets_cons, Expr.settledTarget_iff fs e, Expr.settledTargetAll_iff fs es]
    exact and_and_and_comm

end

theorem Parameter.settled_iff (fs : List Frame) (ps : List Parameter) :
    Settled (Parameter.defaultFindings fs ps) ↔
      AllTargets (ps.flatMap fun p => Expr.targetsOpt p.optionalDefault) := by
  induction ps with
  | nil => simp [Parameter.defaultFindings]
  | cons p ps ih =>
    rw [Parameter.defaultFindings, List.flatMap_cons, settled_append, Expr.allTargets_append, ih,
      Parameter.optionalDefault]
    split
    · rw [Expr.settledOpt_iff]
    · simp [Expr.targetsOpt]

/-- A load makes no error where it binds different local names, none of them seen before. -/
theorem repeatedLoads_eq_nil (seen : List String) (bs : List LoadBinding) :
    repeatedLoads seen bs = [] ↔
      (bs.map (·.localName.name)).Nodup ∧ ∀ x ∈ bs.map (·.localName.name), x ∉ seen := by
  induction bs generalizing seen with
  | nil => simp [repeatedLoads]
  | cons b bs ih =>
    rw [repeatedLoads]
    simp only [List.map_cons, List.nodup_cons, List.forall_mem_cons]
    split
    · next h =>
      have : b.localName.name ∈ seen := by simpa using h
      simp [this]
    · next h =>
      have hb : b.localName.name ∉ seen := by simpa using h
      rw [ih]
      constructor
      · rintro ⟨hnodup, hseen⟩
        exact ⟨⟨fun hmem => hseen _ hmem List.mem_cons_self, hnodup⟩, hb,
          fun x hx hxs => hseen x hx (List.mem_cons_of_mem _ hxs)⟩
      · rintro ⟨⟨hmem, hnodup⟩, -, hseen⟩
        refine ⟨hnodup, fun x hx hxs => ?_⟩
        rcases List.mem_cons.mp hxs with rfl | hxs
        · exact hmem hx
        · exact hseen x hx hxs

namespace Stmt

/-- The rules for a single statement in its place. -/
structure Lawful (c : Context) (s : Stmt) : Prop where
  placed : s.WellPlaced c
  targets : AllTargets s.targets
  augmented : s.augmentsList = false
  loads : s.loadedNames.Nodup

theorem lawful_iff (c : Context) (s : Stmt) :
    Lawful c s ↔ s.WellPlaced c ∧ AllTargets s.targets ∧ s.augmentsList = false ∧
      s.loadedNames.Nodup :=
  ⟨fun ⟨h₁, h₂, h₃, h₄⟩ => ⟨h₁, h₂, h₃, h₄⟩, fun ⟨h₁, h₂, h₃, h₄⟩ => ⟨h₁, h₂, h₃, h₄⟩⟩

/-- Are all statements lawful in their places? -/
def AllLawful (ps : List (Context × Stmt)) : Prop := ∀ p ∈ ps, Lawful p.1 p.2

@[simp] theorem allLawful_nil : AllLawful [] := by
  intro p hp
  cases hp

@[simp] theorem allLawful_append (ps qs : List (Context × Stmt)) :
    AllLawful (ps ++ qs) ↔ AllLawful ps ∧ AllLawful qs := by
  simp only [AllLawful, List.mem_append, or_imp, forall_and]

@[simp] theorem allLawful_cons (p : Context × Stmt) (ps : List (Context × Stmt)) :
    AllLawful (p :: ps) ↔ Lawful p.1 p.2 ∧ AllLawful ps := by
  simp only [AllLawful, List.forall_mem_cons]

/-- The errors of the loads of a block. -/
def notes (ds : List Declared) : List Diagnostic := ds.filterMap Declared.note?

@[simp] theorem notes_append (ds es : List Declared) : notes (ds ++ es) = notes ds ++ notes es :=
  List.filterMap_append

@[simp] theorem notes_bound (xs : List Identifier) : notes (xs.map .bound) = [] := by
  simp [notes, List.filterMap_map, Function.comp_def, Declared.note?]

@[simp] theorem notes_noted (ds : List Diagnostic) : notes (ds.map .noted) = ds := by
  simp [notes, List.filterMap_map, Function.comp_def, Declared.note?]

/-- How the blocks and loops around a place, as the visit knows them, fit its context. Loops
outside functions do not get this far. -/
structure Fits (fs : List Frame) (loops : Nat) (c : Context) : Prop where
  inFunction_eq : Frame.inFunction fs = c.inFunction
  inLoop_iff : c.inLoop = true ↔ loops ≠ 0
  top : c.inFunction = false → loops = 0

theorem Fits.loop {fs : List Frame} {loops : Nat} {c : Context} (h : Fits fs loops c)
    (hc : c.inFunction = true) : Fits fs (loops + 1) { c with inLoop := true } := by
  refine ⟨h.inFunction_eq, by simp, fun hf => ?_⟩
  rw [hc] at hf
  cases hf

theorem Fits.function {fs : List Frame} {loops : Nat} {c : Context} (h : Fits fs loops c)
    (hc : c.inFunction = false) (ps : List Parameter) (b : List Stmt) :
    Fits (functionFrame ps b :: fs) loops ⟨true, false⟩ := by
  refine ⟨rfl, ?_, fun hf => by cases hf⟩
  simp [h.top hc]

theorem findings_augmentedAssign (fs : List Frame) (loops : Nat) (op : BinaryOp) (lhs rhs : Expr)
    (loc : Option Location) : findings fs loops (.augmentedAssign op lhs rhs loc) =
      misplacedIf (augmentsList (.augmentedAssign op lhs rhs loc)) .augmentedPattern loc
        ++ rhs.findings fs ++ lhs.targetFindings fs := by
  cases lhs <;> rfl

mutual

/-- A statement makes no finding but names, and no error of a load, exactly if it and all
statements in it are lawful. -/
theorem settled_iff {fs : List Frame} {loops : Nat} {c : Context} (h : Fits fs loops c) :
    ∀ s : Stmt, Settled (s.findings fs loops) ∧ notes s.declared = [] ↔
      AllLawful (s.placed c)
  | .expr e _ => by
    simp [findings, declared, placed, lawful_iff, WellPlaced, Stmt.targets, augmentsList,
      loadedNames, Expr.settled_iff, notes]
  | .assign lhs rhs _ => by
    simp [findings, declared, placed, lawful_iff, WellPlaced, Stmt.targets, augmentsList,
      loadedNames, Expr.settled_iff, Expr.settledTarget_iff]
  | .augmentedAssign op lhs rhs loc => by
    rw [findings_augmentedAssign]
    simp [declared, placed, lawful_iff, WellPlaced, Stmt.targets, loadedNames,
      Expr.settled_iff, Expr.settledTarget_iff]
    tauto
  | .ifElse e a b _ => by
    simp only [findings, declared, placed, settled_append, settled_misplacedIf, notes_append,
      List.append_eq_nil_iff, allLawful_append, allLawful_cons, ← settledAll_iff h a,
      ← settledAll_iff h b, lawful_iff, WellPlaced, Stmt.targets, augmentsList, loadedNames,
      Expr.settled_iff, h.inFunction_eq]
    simp
    tauto
  | .forLoop lhs collection b _ => by
    cases hc : c.inFunction with
    | false =>
      simp [findings, declared, placed, lawful_iff, WellPlaced, h.inFunction_eq, hc]
    | true =>
      have ih := settledAll_iff (h.loop hc) b
      rw [hc] at ih
      simp [findings, declared, placed, lawful_iff, WellPlaced, Stmt.targets, augmentsList,
        loadedNames, Expr.settled_iff, Expr.settledTarget_iff, ← ih, h.inFunction_eq, hc]
      tauto
  | .define f ps b _ => by
    cases hc : c.inFunction with
    | true =>
      simp [findings, declared, placed, lawful_iff, WellPlaced, h.inFunction_eq, hc]
    | false =>
      have ih := settledAll_iff (h.function hc ps b) b
      have hf : notes [Declared.bound f] = [] := rfl
      rw [findings, ← notes]
      simp [declared, placed, lawful_iff, WellPlaced, Stmt.targets, augmentsList,
        loadedNames, Parameter.settled_iff, ← ih, h.inFunction_eq, hc, hf]
      tauto
  | .returns result _ => by
    simp [findings, declared, placed, lawful_iff, WellPlaced, Stmt.targets, augmentsList,
      loadedNames, Expr.settledOpt_iff, notes, h.inFunction_eq]
  | .flow kind _ => by
    simp [findings, declared, placed, lawful_iff, WellPlaced, Stmt.targets, augmentsList,
      loadedNames, notes, h.inLoop_iff]
    tauto
  | .load _ bs _ => by
    have hbs : notes (bs.map fun b => .bound b.localName) = [] := by
      rw [← notes_bound (bs.map (·.localName)), List.map_map]
      rfl
    have hnames : Settled (bs.map fun b => .name b.localName fs) := by
      have := settled_names (bs.map (·.localName)) fs
      rwa [List.map_map] at this
    simp [findings, declared, placed, lawful_iff, WellPlaced, Stmt.targets, augmentsList,
      loadedNames, h.inFunction_eq, hbs, hnames, repeatedLoads_eq_nil]

theorem settledAll_iff {fs : List Frame} {loops : Nat} {c : Context} (h : Fits fs loops c) :
    ∀ ss : List Stmt, Settled (findingsAll fs loops ss) ∧ notes (declaredAll ss) = [] ↔
      AllLawful (placedAll c ss)
  | [] => by simp [findingsAll, declaredAll, placedAll, notes]
  | s :: ss => by
    simp only [findingsAll, declaredAll, placedAll, settled_append, notes_append,
      List.append_eq_nil_iff, allLawful_append, ← settled_iff h s, ← settledAll_iff h ss]
    exact and_and_and_comm

end

theorem fits_top (predeclared : List String) (ss : List Stmt) :
    Fits (topFrames predeclared ss) 0 .top :=
  ⟨rfl, by simp [Context.top], fun _ => rfl⟩

theorem allLawful_iff (ps : List (Context × Stmt)) : AllLawful ps ↔
    (∀ p ∈ ps, p.2.WellPlaced p.1) ∧ (∀ p ∈ ps, AllTargets p.2.targets) ∧
      (∀ p ∈ ps, p.2.augmentsList = false) ∧ ∀ p ∈ ps, p.2.loadedNames.Nodup := by
  simp only [AllLawful, lawful_iff, forall_and]

end Stmt

/-- A collection makes no errors where the loads make none and, in a strict block, no name is
bound twice or was seen before. -/
theorem Declared.errors_eq_nil (strict : Bool) (seen : List String) (ds : List Declared) :
    Declared.errors strict seen ds = [] ↔ Stmt.notes ds = [] ∧ (strict = true →
      ((ds.filterMap Declared.identifier?).map (·.name)).Nodup ∧
        ∀ x ∈ ds.filterMap Declared.identifier?, x.name ∉ seen) := by
  induction ds generalizing seen with
  | nil => simp [errors, Stmt.notes]
  | cons d ds ih =>
    cases d with
    | noted d => simp [errors, Stmt.notes, note?]
    | bound x =>
      cases strict with
      | false => simpa [errors, Stmt.notes, note?] using ih (x.name :: seen)
      | true =>
        have hnotes : Stmt.notes (.bound x :: ds) = Stmt.notes ds := rfl
        have hids : (Declared.bound x :: ds).filterMap identifier? =
            x :: ds.filterMap identifier? := rfl
        rw [errors, List.append_eq_nil_iff, ih, hnotes, hids, List.forall_mem_cons]
        by_cases hx : x.name ∈ seen
        · simp [hx]
        · simp only [hx, List.contains_eq_mem, decide_false, Bool.and_false, Bool.false_eq_true,
            ↓reduceIte, true_and, forall_const, List.map_cons, List.nodup_cons,
            not_false_eq_true, List.mem_cons, not_or]
          constructor
          · rintro ⟨hn, hnodup, hseen⟩
            refine ⟨hn, ⟨?_, hnodup⟩, fun y hy => (hseen y hy).2⟩
            intro hmem
            obtain ⟨y, hy, hyx⟩ := List.mem_map.mp hmem
            exact (hseen y hy).1 hyx
          · rintro ⟨hn, ⟨hmem, hnodup⟩, hseen⟩
            refine ⟨hn, hnodup, fun y hy => ⟨fun hyx => hmem ?_, hseen y hy⟩⟩
            exact List.mem_map.mpr ⟨y, hy, hyx⟩

/-- After some other statement no load may come; before it, loads and docstrings may. -/
theorem loadOrderErrors_eq_nil {ss : List Stmt} (hloc : ∀ s ∈ ss, s.loc ≠ none)
    (first : Option Location) : loadOrderErrors first ss = [] ↔
      (first ≠ none → ∀ s ∈ ss, s.isLoad = false) ∧
        ss.Pairwise fun s t => t.isLoad = true → s.isLoad = true ∨ s.isDocstring = true := by
  induction ss generalizing first with
  | nil => simp [loadOrderErrors]
  | cons s ss ih =>
    have ih := ih fun t ht => hloc t (List.mem_cons_of_mem s ht)
    have hs : s.loc ≠ none := hloc s List.mem_cons_self
    rw [List.pairwise_cons, List.forall_mem_cons]
    by_cases hd : s.isDocstring = true
    · have hl : s.isLoad = false := by
        cases s <;> first | rfl | simp [Stmt.isDocstring] at hd
      simp [loadOrderErrors, hd, hl, ih]
    · cases first with
      | none =>
        cases hl : s.isLoad with
        | true => simp [loadOrderErrors, hd, hl, ih]
        | false => simp [loadOrderErrors, hd, hl, ih, hs]
      | some l =>
        cases hl : s.isLoad with
        | true => simp [loadOrderErrors, hd, hl]
        | false => simp [loadOrderErrors, hd, hl, ih]

/-- Findings make no errors and no stop where they are names that are bound. -/
theorem Finding.diagnostics_eq_nil (env : Environment) (found : List Finding) :
    found.any stops = false ∧ found.filterMap (diagnostic? env) = [] ↔ Settled found ∧
      ∀ site ∈ found.filterMap site?, ∃ f ∈ site.2, site.1.name ∈ f.names := by
  have hone : ∀ e : Finding, (¬e.stops = true ∧ e.diagnostic? env = none) ↔
      e.site?.isSome ∧ ∀ site, e.site? = some site → ∃ f ∈ site.2, site.1.name ∈ f.names := by
    intro e
    cases e with
    | name x frames =>
      cases hf : Frame.find? frames x.name <;>
        simp [stops, diagnostic?, site?, ← Frame.isSome_find?, hf]
    | misplaced _ _ | noted _ | unwritable => simp [stops, diagnostic?, site?]
  rw [List.filterMap_eq_nil_iff, List.any_eq_false, ← forall₂_and]
  simp only [hone, Settled, List.mem_filterMap, forall_exists_index, and_imp]
  constructor
  · intro h
    exact ⟨fun e he => (h e he).1, fun site e he hs => (h e he).2 site hs⟩
  · rintro ⟨hsettled, hbound⟩ e he
    exact ⟨hsettled e he, fun site hs => hbound site e he hs⟩

/-- The findings of a file make no errors and no stop exactly if the file is well-formed. -/
theorem Settings.diagnostics_eq_nil (settings : Settings) (predeclared : List String)
    {ss : List Stmt} (hloc : ∀ s ∈ ss, s.loc ≠ none) :
    ss.any Stmt.halts = false ∧
        (settings.findings predeclared ss).filterMap (Finding.diagnostic? settings.env) = [] ↔
      Stmt.WellFormed (!settings.buildFile)
        (!settings.buildFile && settings.env.semantics.disallowLoadAfterStatement)
        predeclared ss := by
  have hlawful := Stmt.settledAll_iff (Stmt.fits_top predeclared ss) ss
  rw [Stmt.allLawful_iff] at hlawful
  have hsettled : Settled (settings.noted ss) ↔
      ((!settings.buildFile && settings.env.semantics.disallowLoadAfterStatement) = true →
        loadOrderErrors none ss = []) ∧
      Declared.errors (!settings.buildFile) [] (Stmt.declaredAll ss) = [] := by
    rw [noted, settled_append, settled_noted]
    split <;> simp [*]
  -- Where the visit never stops, the findings are those of the whole file.
  have hwhole : ss.any Stmt.halts = false ∧
      (settings.findings predeclared ss).filterMap (Finding.diagnostic? settings.env) = [] ↔
      (settings.noted ss ++ Stmt.findingsAll (Stmt.topFrames predeclared ss) 0 ss).any
          Finding.stops = false ∧
        (settings.noted ss ++ Stmt.findingsAll (Stmt.topFrames predeclared ss) 0 ss).filterMap
          (Finding.diagnostic? settings.env) = [] := by
    rw [settings.any_stops_file]
    exact and_congr_right fun hhalts => by rw [findings, Stmt.visited_eq hhalts]
  have hsites : (settings.noted ss
      ++ Stmt.findingsAll (Stmt.topFrames predeclared ss) 0 ss).filterMap Finding.site? =
        Stmt.sites predeclared ss := by
    rw [List.filterMap_append, sites_noted, List.nil_append, Stmt.sites]
  rw [hwhole, Finding.diagnostics_eq_nil, settled_append, hsettled, hsites,
    loadOrderErrors_eq_nil hloc, Declared.errors_eq_nil]
  constructor
  · rintro ⟨⟨⟨horder, hnotes, honce⟩, hvisit⟩, hbound⟩
    obtain ⟨hplaced, htargets, haugmented, hloads⟩ := hlawful.mp ⟨hvisit, hnotes⟩
    exact ⟨hplaced, htargets, haugmented, hloads, hbound, fun hs => (honce hs).1,
      fun ho => (horder ho).2⟩
  · intro h
    obtain ⟨hvisit, hnotes⟩ := hlawful.mpr ⟨h.placed, h.targets, h.augmented, h.loads⟩
    refine ⟨⟨⟨fun ho => ⟨fun hne => absurd rfl hne, h.order ho⟩, hnotes, fun hs => ?_⟩, hvisit⟩,
      h.bound⟩
    exact ⟨h.once hs, fun x hx => List.not_mem_nil⟩

end Starlark
