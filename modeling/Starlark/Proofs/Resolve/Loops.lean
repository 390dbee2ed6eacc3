import Starlark.Proofs.Resolve.Alike
import Starlark.Proofs.Resolve.Messages

/-! # Loops around break and continue

A break or continue needs a loop around it. The loops are counted along the visit, through the
bodies of functions too, so a loop around a function counts inside of it. A tree where that makes
a difference has a loop at top level or a function inside a function, and both are reported.
-/
namespace Starlark

/-- What may stand around a statement and matters to a break in it. -/
inductive Enclosing
  | loop | function
deriving DecidableEq

/-- A break, continue or pass, and what stands around it, innermost first. -/
structure FlowSite where
  kind : FlowKind
  loc : Option Location
  around : List Enclosing

namespace FlowSite

/-- Is there a loop around the statement? -/
def InLoop (s : FlowSite) : Prop := .loop ∈ s.around

/-- Is there one inside the innermost function that contains the statement? -/
def InOwnLoop (s : FlowSite) : Prop := .loop ∈ s.around.takeWhile (· ≠ .function)

def Unenclosed (s : FlowSite) : Prop := s.kind ≠ .pass ∧ ¬ s.InLoop

instance : DecidablePred InLoop := fun s => inferInstanceAs (Decidable (.loop ∈ s.around))

instance : DecidablePred InOwnLoop := fun s =>
  inferInstanceAs (Decidable (.loop ∈ s.around.takeWhile (· ≠ .function)))

instance : DecidablePred Unenclosed := fun s =>
  inferInstanceAs (Decidable (s.kind ≠ .pass ∧ ¬ s.InLoop))

end FlowSite

mutual

/-- The break, continue and pass statements of a statement, in order. -/
def Stmt.flowSites (around : List Enclosing) : Stmt → List FlowSite
  | .flow kind loc => [⟨kind, loc, around⟩]
  | .ifElse _ a b _ => Stmt.flowSitesAll around a ++ Stmt.flowSitesAll around b
  | .forLoop _ _ b _ => Stmt.flowSitesAll (.loop :: around) b
  | .define _ _ b _ => Stmt.flowSitesAll (.function :: around) b
  | .expr _ _ => []
  | .assign _ _ _ => []
  | .augmentedAssign _ _ _ _ => []
  | .returns _ _ => []
  | .load _ _ _ => []

def Stmt.flowSitesAll (around : List Enclosing) : List Stmt → List FlowSite
  | [] => []
  | s :: ss => s.flowSites around ++ Stmt.flowSitesAll around ss

end

/-- The error for a break or continue outside of loops. -/
def flowError (kind : FlowKind) (loc : Option Location) : Diagnostic :=
  { message := (Misplacement.flowOutsideLoop kind).message, loc }

/-- Is this an error for a break, a continue or a pass? -/
def Diagnostic.IsFlowError (d : Diagnostic) : Prop :=
  ∃ kind, d.message = (Misplacement.flowOutsideLoop kind).message

instance : DecidablePred Diagnostic.IsFlowError := fun d =>
  decidable_of_iff (d.message = (Misplacement.flowOutsideLoop .breakLoop).message ∨
    d.message = (Misplacement.flowOutsideLoop .continueLoop).message ∨
    d.message = (Misplacement.flowOutsideLoop .pass).message) (by
      constructor
      · rintro (h | h | h)
        · exact ⟨_, h⟩
        · exact ⟨_, h⟩
        · exact ⟨_, h⟩
      · rintro ⟨_ | _ | _, h⟩
        · exact .inl h
        · exact .inr (.inl h)
        · exact .inr (.inr h))

/-! ## No other error has such a text -/

theorem Misplacement.message_flowOutsideLoop (kind : FlowKind) :
    (flowOutsideLoop kind).message = kind.text ++ " statement must be inside a for loop" := rfl

theorem Misplacement.message_flowOutsideLoop_inj {kind kind' : FlowKind}
    (h : (flowOutsideLoop kind).message = (flowOutsideLoop kind').message) : kind = kind' := by
  rw [message_flowOutsideLoop, message_flowOutsideLoop, String.append_left_inj] at h
  revert h
  cases kind <;> cases kind' <;> decide

theorem Diagnostic.IsFlowError.suffix {d : Diagnostic} (h : d.IsFlowError) :
    " loop".toList <:+ d.message.toList := by
  obtain ⟨kind, hkind⟩ := h
  have hsplit : " statement must be inside a for loop" =
      " statement must be inside a for" ++ " loop" := by
    decide
  rw [hkind, Misplacement.message_flowOutsideLoop, hsplit, ← String.append_assoc,
    String.toList_append (t := " loop")]
  exact List.suffix_append _ _

theorem EndsAsListed.not_isFlowError {d : Diagnostic} (h : EndsAsListed d.message) :
    ¬ d.IsFlowError :=
  fun hflow => h.not_suffix (by decide) hflow.suffix

/-! ## The visit -/

namespace Finding

theorem eq_of_flow?_eq_some {e : Finding} {p : FlowKind × Option Location}
    (h : e.flow? = some p) : e = .misplaced (.flowOutsideLoop p.1) p.2 := by
  rw [flow?.eq_def] at h
  split at h
  · cases h
    rfl
  · cases h

/-- Of the errors of some findings, those about a break or continue are the ones that are reported
as such. -/
theorem filter_isFlowError {env : Environment} {found : List Finding}
    (h : ∀ e ∈ found, e.EndsAsListed env) :
    (found.filterMap (diagnostic? env)).filter (·.IsFlowError) =
      (found.filterMap flow?).map fun p => flowError p.1 p.2 := by
  rw [List.filter_filterMap, List.map_filterMap]
  refine List.filterMap_congr fun e he => ?_
  cases hflow : e.flow? with
  | none =>
    refine Option.filter_eq_none_iff.mpr fun d hd => ?_
    rw [decide_eq_true_iff]
    exact (h e he hflow d hd).not_isFlowError
  | some p =>
    obtain rfl := eq_of_flow?_eq_some hflow
    have hp : (flowError p.1 p.2).IsFlowError := ⟨p.1, rfl⟩
    exact Option.filter_eq_some_iff.mpr ⟨rfl, decide_eq_true hp⟩

/-- The break, continue and pass statements that some findings report. -/
def flows (found : List Finding) : List (FlowKind × Option Location) := found.filterMap flow?

@[simp] theorem flows_nil : flows [] = [] := rfl

@[simp] theorem flows_append (es ds : List Finding) : flows (es ++ ds) = flows es ++ flows ds :=
  List.filterMap_append

@[simp] theorem flows_noted (ds : List Diagnostic) : flows (ds.map .noted) = [] := by
  simp [flows, List.filterMap_map, Function.comp_def, flow?]

theorem flows_misplacedIf {m : Misplacement} {loc : Option Location}
    (h : (misplaced m loc).flow? = none) (c : Prop) [Decidable c] :
    flows (misplacedIf c m loc) = [] := by
  unfold misplacedIf
  split
  · rw [flows, List.filterMap_cons, h, List.filterMap_nil]
  · rfl

theorem exprKinds_flow : ExprKinds fun e => e.flow? = none :=
  ⟨fun _ _ => rfl, fun _ => refusal_cases (P := fun e => e.flow? = none) (fun _ => rfl) rfl⟩

end Finding

open Finding

/-- Expressions hold no break or continue. -/
@[simp] theorem Expr.flows_findings (fs : List Frame) (e : Expr) : flows (e.findings fs) = [] :=
  List.filterMap_eq_nil_iff.mpr (Expr.forall_findings exprKinds_flow fs e)

@[simp] theorem Expr.flows_findingsOpt (fs : List Frame) (e : Option Expr) :
    flows (Expr.findingsOpt fs e) = [] :=
  List.filterMap_eq_nil_iff.mpr (Expr.forall_findingsOpt exprKinds_flow fs e)

@[simp] theorem Expr.flows_targetFindings (fs : List Frame) (e : Expr) :
    flows (e.targetFindings fs) = [] :=
  List.filterMap_eq_nil_iff.mpr (Expr.forall_targetFindings exprKinds_flow fs e)

@[simp] theorem Parameter.flows_defaultFindings (fs : List Frame) (ps : List Parameter) :
    flows (Parameter.defaultFindings fs ps) = [] :=
  List.filterMap_eq_nil_iff.mpr (Parameter.forall_defaultFindings exprKinds_flow fs ps)

/-- The break and continue statements among some sites that have no loop around them. -/
def FlowSite.unenclosed (sites : List FlowSite) : List (FlowKind × Option Location) :=
  (sites.filter (·.Unenclosed)).map fun s => (s.kind, s.loc)

@[simp] theorem FlowSite.unenclosed_append (ss ts : List FlowSite) :
    unenclosed (ss ++ ts) = unenclosed ss ++ unenclosed ts := by
  simp [unenclosed]

mutual

/-- A visit reports the break and continue statements that have no loop around them. -/
theorem Stmt.flows_findings (fs : List Frame) (around : List Enclosing) :
    ∀ s : Stmt, flows (s.findings fs (around.count .loop)) =
      FlowSite.unenclosed (s.flowSites around)
  | .expr e _ => by simp [Stmt.findings, Stmt.flowSites, FlowSite.unenclosed]
  | .assign lhs rhs _ => by simp [Stmt.findings, Stmt.flowSites, FlowSite.unenclosed]
  | .augmentedAssign _ lhs rhs _ => by
    unfold Stmt.findings
    rw [flows_append, flows_append, flows_misplacedIf rfl, Expr.flows_findings,
      Expr.flows_targetFindings]
    rfl
  | .ifElse c a b _ => by
    rw [Stmt.findings, flows_append, flows_append, flows_append, flows_misplacedIf rfl,
      Expr.flows_findings, Stmt.flows_findingsAll fs around a, Stmt.flows_findingsAll fs around b,
      Stmt.flowSites, FlowSite.unenclosed_append]
    rfl
  | .forLoop lhs collection b _ => by
    have hb := Stmt.flows_findingsAll fs (.loop :: around) b
    rw [List.count_cons_self] at hb
    rw [Stmt.findings, flows_append, flows_append, flows_append, flows_misplacedIf rfl,
      Expr.flows_findings, Expr.flows_targetFindings, hb]
    rfl
  | .define _ ps b _ => by
    have hb := Stmt.flows_findingsAll (Stmt.functionFrame ps b :: fs) (.function :: around) b
    rw [List.count_cons_of_ne (by decide)] at hb
    rw [Stmt.findings, flows_append, flows_append, flows_append, flows_misplacedIf rfl,
      Parameter.flows_defaultFindings, flows_noted, hb]
    rfl
  | .returns result _ => by
    rw [Stmt.findings, flows_append, flows_misplacedIf rfl, Expr.flows_findingsOpt]
    rfl
  | .flow kind loc => by
    have hiff : (kind ≠ .pass ∧ around.count .loop = 0) ↔
        FlowSite.Unenclosed ⟨kind, loc, around⟩ :=
      and_congr_right' List.count_eq_zero
    rw [Stmt.findings, Stmt.flowSites, FlowSite.unenclosed, misplacedIf]
    by_cases h : FlowSite.Unenclosed ⟨kind, loc, around⟩
    · rw [if_pos (hiff.mpr h)]
      simp [flows, flow?, h]
    · rw [if_neg (mt hiff.mp h)]
      simp [h]
  | .load _ bs _ => by
    rw [Stmt.findings, flows_append, flows_misplacedIf rfl]
    simp [flows, List.filterMap_map, Function.comp_def, flow?, Stmt.flowSites,
      FlowSite.unenclosed]

theorem Stmt.flows_findingsAll (fs : List Frame) (around : List Enclosing) :
    ∀ ss : List Stmt, flows (Stmt.findingsAll fs (around.count .loop) ss) =
      FlowSite.unenclosed (Stmt.flowSitesAll around ss)
  | [] => rfl
  | s :: ss => by
    rw [Stmt.findingsAll, Stmt.flowSitesAll, flows_append, FlowSite.unenclosed_append,
      Stmt.flows_findings fs around s, Stmt.flows_findingsAll fs around ss]

end

/-- The errors about break and continue of a file whose visit comes to its end are those of the
statements that have no loop around them. -/
theorem Settings.filter_isFlowError {settings : Settings} (known : settings.env.KnownFlags)
    (predeclared : List String) {ss : List Stmt} (hhalts : ss.any Stmt.halts = false) :
    ((settings.findings predeclared ss).filterMap (Finding.diagnostic? settings.env)).filter
        (·.IsFlowError) =
      (FlowSite.unenclosed (Stmt.flowSitesAll [] ss)).map fun p => flowError p.1 p.2 := by
  have hvisit := Stmt.flows_findingsAll (Stmt.topFrames predeclared ss) [] ss
  rw [Finding.filter_isFlowError (findings_endsAsListed known predeclared ss), ← Finding.flows,
    Settings.findings, Settings.noted, Stmt.visited_eq hhalts, flows_append, flows_append,
    flows_noted, ← hvisit]
  split
  · rw [flows_noted]
    rfl
  · rfl

/-! ## Loops of an outer function -/

/-- A finding that a function or loop stands where none of them may stand. -/
def Finding.IsMisnested (e : Finding) : Prop :=
  ∃ loc, e = .misplaced .loopAtTop loc ∨ e = .misplaced .functionInFunction loc

/-- A loop around a place is one of its own function, and no loop stands at top level. -/
def Regular (fs : List Frame) (around : List Enclosing) : Prop :=
  .loop ∈ around → .loop ∈ around.takeWhile (· ≠ .function) ∧ Frame.inFunction fs = true

theorem mem_misplacedIf {c : Prop} [Decidable c] (hc : c) (m : Misplacement)
    (loc : Option Location) : .misplaced m loc ∈ misplacedIf c m loc := by
  rw [misplacedIf, if_pos hc]
  exact List.mem_singleton_self _

mutual

/-- In a regular place, a break whose only loops are those of an outer function stands inside a
loop at top level or a function inside a function, which is found. -/
theorem Stmt.exists_misnested (fs : List Frame) (n : Nat) {around : List Enclosing}
    (h : Regular fs around) {site : FlowSite} (hloop : site.InLoop) (hown : ¬ site.InOwnLoop) :
    ∀ s : Stmt, site ∈ s.flowSites around → ∃ e ∈ s.findings fs n, e.IsMisnested
  | .flow kind loc => by
    intro hsite
    rw [Stmt.flowSites, List.mem_singleton] at hsite
    subst hsite
    exact absurd (h hloop).1 hown
  | .ifElse c a b _ => by
    intro hsite
    rw [Stmt.flowSites, List.mem_append] at hsite
    simp only [Stmt.findings, List.mem_append]
    rcases hsite with hsite | hsite
    · obtain ⟨e, he, hnest⟩ := Stmt.exists_misnestedAll fs n h hloop hown a hsite
      exact ⟨e, .inl (.inr he), hnest⟩
    · obtain ⟨e, he, hnest⟩ := Stmt.exists_misnestedAll fs n h hloop hown b hsite
      exact ⟨e, .inr he, hnest⟩
  | .forLoop lhs collection b loc => by
    intro hsite
    simp only [Stmt.findings, List.mem_append]
    cases hin : Frame.inFunction fs with
    | false =>
      exact ⟨_, .inl (.inl (.inl (mem_misplacedIf rfl _ loc))), loc, .inl rfl⟩
    | true =>
      have hb : Regular fs (.loop :: around) := fun _ => ⟨List.mem_cons_self, hin⟩
      obtain ⟨e, he, hnest⟩ := Stmt.exists_misnestedAll fs (n + 1) hb hloop hown b hsite
      exact ⟨e, .inr he, hnest⟩
  | .define _ ps b loc => by
    intro hsite
    simp only [Stmt.findings, List.mem_append]
    cases hin : Frame.inFunction fs with
    | true => exact ⟨_, .inl (.inl (.inl (mem_misplacedIf rfl _ loc))), loc, .inr rfl⟩
    | false =>
      -- Outside of functions a regular place has no loop around it.
      have hb : Regular (Stmt.functionFrame ps b :: fs) (.function :: around) := by
        intro hmem
        have haround : .loop ∈ around := by simpa using hmem
        exact absurd (h haround).2 (by simp [hin])
      obtain ⟨e, he, hnest⟩ := Stmt.exists_misnestedAll _ n hb hloop hown b hsite
      exact ⟨e, .inr he, hnest⟩
  | .expr _ _ => by simp [Stmt.flowSites]
  | .assign _ _ _ => by simp [Stmt.flowSites]
  | .augmentedAssign _ _ _ _ => by simp [Stmt.flowSites]
  | .returns _ _ => by simp [Stmt.flowSites]
  | .load _ _ _ => by simp [Stmt.flowSites]

theorem Stmt.exists_misnestedAll (fs : List Frame) (n : Nat) {around : List Enclosing}
    (h : Regular fs around) {site : FlowSite} (hloop : site.InLoop) (hown : ¬ site.InOwnLoop) :
    ∀ ss : List Stmt, site ∈ Stmt.flowSitesAll around ss →
      ∃ e ∈ Stmt.findingsAll fs n ss, e.IsMisnested
  | [] => by simp [Stmt.flowSitesAll]
  | s :: ss => by
    intro hsite
    rw [Stmt.flowSitesAll, List.mem_append] at hsite
    simp only [Stmt.findingsAll, List.mem_append]
    rcases hsite with hsite | hsite
    · obtain ⟨e, he, hnest⟩ := Stmt.exists_misnested fs n h hloop hown s hsite
      exact ⟨e, .inl he, hnest⟩
    · obtain ⟨e, he, hnest⟩ := Stmt.exists_misnestedAll fs n h hloop hown ss hsite
      exact ⟨e, .inr he, hnest⟩

end

end Starlark
