import Starlark.Proofs.Resolve.Findings

/-! # The kinds of findings

A visit looks names up, meets what stands out of place, and notes the local names that a load
inside a function binds again; besides, it may stop. So what holds of these kinds holds of every
finding of a visit.
-/
namespace Starlark

/-- A property of every name and of every expression that is no target: of all that a visit finds
in an expression. -/
structure Finding.ExprKinds (P : Finding → Prop) : Prop where
  name : ∀ x frames, P (.name x frames)
  refusal : ∀ e, P (.refusal e)

/-- A property of every name, of whatever stands out of place, of the errors of a load, and of the
stop. -/
structure Finding.Kinds (P : Finding → Prop) : Prop where
  name : ∀ x frames, P (.name x frames)
  misplaced : ∀ m loc, P (.misplaced m loc)
  noted : ∀ bs, ∀ d ∈ repeatedLoads [] bs, P (.noted d)
  unwritable : P .unwritable

variable {P : Finding → Prop}

theorem Finding.Kinds.exprKinds (h : Finding.Kinds P) : Finding.ExprKinds P :=
  ⟨h.name, fun _ => refusal_cases (fun _ => h.misplaced _ _) h.unwritable⟩

mutual

theorem Expr.forall_findings (h : Finding.ExprKinds P) (fs : List Frame) :
    ∀ e : Expr, ∀ d ∈ e.findings fs, P d
  | .ident x => by
    simpa only [Expr.findings, List.forall_mem_singleton] using h.name x fs
  | .int _ _ => by
    simp only [Expr.findings, List.not_mem_nil, false_imp_iff, implies_true]
  | .str _ => by
    simp only [Expr.findings, List.not_mem_nil, false_imp_iff, implies_true]
  | .list es _ _ => by
    simpa only [Expr.findings] using Expr.forall_findingsAll h fs es
  | .dict ds _ => by
    simpa only [Expr.findings] using Entry.forall_findingsAll h fs ds
  | .binary x _ y _ => by
    simp only [Expr.findings, List.forall_mem_append]
    exact ⟨Expr.forall_findings h fs x, Expr.forall_findings h fs y⟩
  | .unary _ x _ => by
    simpa only [Expr.findings] using Expr.forall_findings h fs x
  | .conditional t c e _ => by
    simp only [Expr.findings, List.forall_mem_append]
    exact ⟨⟨Expr.forall_findings h fs c, Expr.forall_findings h fs t⟩, Expr.forall_findings h fs e⟩
  | .dot o _ _ => by
    simpa only [Expr.findings] using Expr.forall_findings h fs o
  | .index o k _ => by
    simp only [Expr.findings, List.forall_mem_append]
    exact ⟨Expr.forall_findings h fs o, Expr.forall_findings h fs k⟩
  | .slice o a b c _ => by
    simp only [Expr.findings, List.forall_mem_append]
    exact ⟨⟨⟨Expr.forall_findings h fs o, Expr.forall_findingsOpt h fs a⟩,
      Expr.forall_findingsOpt h fs b⟩, Expr.forall_findingsOpt h fs c⟩
  | .call f as _ => by
    simp only [Expr.findings, List.forall_mem_append]
    exact ⟨Expr.forall_findings h fs f, Argument.forall_findingsAll h fs as⟩
  | .comprehension b cs _ _ => by
    simp only [Expr.findings, List.forall_mem_append]
    exact ⟨Clause.forall_findingsAll h _ cs, Body.forall_findings h _ b⟩

theorem Expr.forall_findingsAll (h : Finding.ExprKinds P) (fs : List Frame) :
    ∀ es : List Expr, ∀ d ∈ Expr.findingsAll fs es, P d
  | [] => by
    simp only [Expr.findingsAll, List.not_mem_nil, false_imp_iff, implies_true]
  | e :: es => by
    simp only [Expr.findingsAll, List.forall_mem_append]
    exact ⟨Expr.forall_findings h fs e, Expr.forall_findingsAll h fs es⟩

theorem Expr.forall_findingsOpt (h : Finding.ExprKinds P) (fs : List Frame) :
    ∀ e : Option Expr, ∀ d ∈ Expr.findingsOpt fs e, P d
  | none => by
    simp only [Expr.findingsOpt, List.not_mem_nil, false_imp_iff, implies_true]
  | some e => by
    simpa only [Expr.findingsOpt] using Expr.forall_findings h fs e

theorem Entry.forall_findings (h : Finding.ExprKinds P) (fs : List Frame) :
    ∀ e : Entry, ∀ d ∈ e.findings fs, P d
  | .mk k v _ => by
    simp only [Entry.findings, List.forall_mem_append]
    exact ⟨Expr.forall_findings h fs k, Expr.forall_findings h fs v⟩

theorem Entry.forall_findingsAll (h : Finding.ExprKinds P) (fs : List Frame) :
    ∀ es : List Entry, ∀ d ∈ Entry.findingsAll fs es, P d
  | [] => by
    simp only [Entry.findingsAll, List.not_mem_nil, false_imp_iff, implies_true]
  | e :: es => by
    simp only [Entry.findingsAll, List.forall_mem_append]
    exact ⟨Entry.forall_findings h fs e, Entry.forall_findingsAll h fs es⟩

theorem Argument.forall_findings (h : Finding.ExprKinds P) (fs : List Frame) :
    ∀ a : Argument, ∀ d ∈ a.findings fs, P d
  | .mk _ v _ _ => by
    simpa only [Argument.findings] using Expr.forall_findings h fs v

theorem Argument.forall_findingsAll (h : Finding.ExprKinds P) (fs : List Frame) :
    ∀ as : List Argument, ∀ d ∈ Argument.findingsAll fs as, P d
  | [] => by
    simp only [Argument.findingsAll, List.not_mem_nil, false_imp_iff, implies_true]
  | a :: as => by
    simp only [Argument.findingsAll, List.forall_mem_append]
    exact ⟨Argument.forall_findings h fs a, Argument.forall_findingsAll h fs as⟩

theorem Clause.forall_findings (h : Finding.ExprKinds P) (fs : List Frame) :
    ∀ c : Clause, ∀ d ∈ c.findings fs, P d
  | .each vars iterable _ => by
    simp only [Clause.findings, List.forall_mem_append]
    exact ⟨Expr.forall_findings h fs iterable, Expr.forall_targetFindings h fs vars⟩
  | .guard c _ => by
    simpa only [Clause.findings] using Expr.forall_findings h fs c

theorem Clause.forall_findingsAll (h : Finding.ExprKinds P) (fs : List Frame) :
    ∀ cs : List Clause, ∀ d ∈ Clause.findingsAll fs cs, P d
  | [] => by
    simp only [Clause.findingsAll, List.not_mem_nil, false_imp_iff, implies_true]
  | c :: cs => by
    simp only [Clause.findingsAll, List.forall_mem_append]
    exact ⟨Clause.forall_findings h fs c, Clause.forall_findingsAll h fs cs⟩

theorem Body.forall_findings (h : Finding.ExprKinds P) (fs : List Frame) :
    ∀ b : Body, ∀ d ∈ b.findings fs, P d
  | .item e => by
    simpa only [Body.findings] using Expr.forall_findings h fs e
  | .entry e => by
    simpa only [Body.findings] using Entry.forall_findings h fs e

theorem Expr.forall_targetFindings (h : Finding.ExprKinds P) (fs : List Frame) :
    ∀ e : Expr, ∀ d ∈ e.targetFindings fs, P d
  | .ident x => by
    simpa only [Expr.targetFindings, List.forall_mem_singleton] using h.name x fs
  | .index o k _ => by
    simp only [Expr.targetFindings, List.forall_mem_append]
    exact ⟨Expr.forall_findings h fs o, Expr.forall_findings h fs k⟩
  | .list es _ _ => by
    simpa only [Expr.targetFindings] using Expr.forall_targetFindingsAll h fs es
  | .int _ _ => List.forall_mem_singleton.mpr (h.refusal _)
  | .str _ => List.forall_mem_singleton.mpr (h.refusal _)
  | .dict _ _ => List.forall_mem_singleton.mpr (h.refusal _)
  | .binary _ _ _ _ => List.forall_mem_singleton.mpr (h.refusal _)
  | .unary _ _ _ => List.forall_mem_singleton.mpr (h.refusal _)
  | .conditional _ _ _ _ => List.forall_mem_singleton.mpr (h.refusal _)
  | .dot _ _ _ => List.forall_mem_singleton.mpr (h.refusal _)
  | .slice _ _ _ _ _ => List.forall_mem_singleton.mpr (h.refusal _)
  | .call _ _ _ => List.forall_mem_singleton.mpr (h.refusal _)
  | .comprehension _ _ _ _ => List.forall_mem_singleton.mpr (h.refusal _)

theorem Expr.forall_targetFindingsAll (h : Finding.ExprKinds P) (fs : List Frame) :
    ∀ es : List Expr, ∀ d ∈ Expr.targetFindingsAll fs es, P d
  | [] => by
    simp only [Expr.targetFindingsAll, List.not_mem_nil, false_imp_iff, implies_true]
  | e :: es => by
    simp only [Expr.targetFindingsAll, List.forall_mem_append]
    exact ⟨Expr.forall_targetFindings h fs e, Expr.forall_targetFindingsAll h fs es⟩

end

theorem Parameter.forall_defaultFindings (h : Finding.ExprKinds P) (fs : List Frame)
    (ps : List Parameter) : ∀ d ∈ Parameter.defaultFindings fs ps, P d := by
  induction ps with
  | nil => simp only [Parameter.defaultFindings, List.not_mem_nil, false_imp_iff, implies_true]
  | cons p ps ih =>
    simp only [Parameter.defaultFindings, List.forall_mem_append]
    refine ⟨?_, ih⟩
    split
    · exact Expr.forall_findingsOpt h fs p.default
    · simp only [List.not_mem_nil, false_imp_iff, implies_true]

theorem forall_misplacedIf (h : Finding.Kinds P) (c : Prop) [Decidable c] (m : Misplacement)
    (loc : Option Location) : ∀ d ∈ misplacedIf c m loc, P d := by
  unfold misplacedIf
  split
  · exact List.forall_mem_singleton.mpr (h.misplaced m loc)
  · simp only [List.not_mem_nil, false_imp_iff, implies_true]

mutual

/-- A block notes the errors of its loads. -/
theorem Stmt.forall_notes (h : Finding.Kinds P) :
    ∀ s : Stmt, ∀ d ∈ s.declared.filterMap Declared.note?, P (.noted d)
  | .assign lhs _ _ => by
    simp [Stmt.declared, List.filterMap_map, Function.comp_def, Declared.note?]
  | .augmentedAssign _ lhs _ _ => by
    simp [Stmt.declared, List.filterMap_map, Function.comp_def, Declared.note?]
  | .ifElse _ a b _ => by
    simp only [Stmt.declared, List.filterMap_append, List.forall_mem_append]
    exact ⟨Stmt.forall_notesAll h a, Stmt.forall_notesAll h b⟩
  | .forLoop lhs _ b _ => by
    simp only [Stmt.declared, List.filterMap_append, List.forall_mem_append]
    refine ⟨?_, Stmt.forall_notesAll h b⟩
    simp [List.filterMap_map, Function.comp_def, Declared.note?]
  | .define _ _ _ _ => by
    simp [Stmt.declared, Declared.note?]
  | .load _ bs _ => by
    simp only [Stmt.declared, List.filterMap_append, List.forall_mem_append]
    constructor
    · simpa [List.filterMap_map, Function.comp_def, Declared.note?] using h.noted bs
    · simp [List.filterMap_map, Function.comp_def, Declared.note?]
  | .expr _ _ => by simp [Stmt.declared]
  | .returns _ _ => by simp [Stmt.declared]
  | .flow _ _ => by simp [Stmt.declared]

theorem Stmt.forall_notesAll (h : Finding.Kinds P) :
    ∀ ss : List Stmt, ∀ d ∈ (Stmt.declaredAll ss).filterMap Declared.note?, P (.noted d)
  | [] => by simp [Stmt.declaredAll]
  | s :: ss => by
    simp only [Stmt.declaredAll, List.filterMap_append, List.forall_mem_append]
    exact ⟨Stmt.forall_notes h s, Stmt.forall_notesAll h ss⟩

end

mutual

theorem Stmt.forall_findings (h : Finding.Kinds P) (fs : List Frame) (n : Nat) :
    ∀ s : Stmt, ∀ d ∈ s.findings fs n, P d
  | .expr e _ => by
    simpa only [Stmt.findings] using Expr.forall_findings h.exprKinds fs e
  | .assign lhs rhs _ => by
    simp only [Stmt.findings, List.forall_mem_append]
    exact ⟨Expr.forall_findings h.exprKinds fs rhs,
      Expr.forall_targetFindings h.exprKinds fs lhs⟩
  | .augmentedAssign _ lhs rhs _ => by
    unfold Stmt.findings
    simp only [List.forall_mem_append]
    exact ⟨⟨forall_misplacedIf h _ _ _, Expr.forall_findings h.exprKinds fs rhs⟩,
      Expr.forall_targetFindings h.exprKinds fs lhs⟩
  | .ifElse c a b _ => by
    simp only [Stmt.findings, List.forall_mem_append]
    exact ⟨⟨⟨forall_misplacedIf h _ _ _, Expr.forall_findings h.exprKinds fs c⟩,
      Stmt.forall_findingsAll h fs n a⟩, Stmt.forall_findingsAll h fs n b⟩
  | .forLoop lhs collection b _ => by
    simp only [Stmt.findings, List.forall_mem_append]
    exact ⟨⟨⟨forall_misplacedIf h _ _ _,
      Expr.forall_findings h.exprKinds fs collection⟩,
      Expr.forall_targetFindings h.exprKinds fs lhs⟩, Stmt.forall_findingsAll h fs (n + 1) b⟩
  | .define _ ps b _ => by
    simp only [Stmt.findings, List.forall_mem_append, List.forall_mem_map]
    exact ⟨⟨⟨forall_misplacedIf h _ _ _,
      Parameter.forall_defaultFindings h.exprKinds fs ps⟩, Stmt.forall_notesAll h b⟩,
      Stmt.forall_findingsAll h _ n b⟩
  | .returns result _ => by
    simp only [Stmt.findings, List.forall_mem_append]
    exact ⟨forall_misplacedIf h _ _ _, Expr.forall_findingsOpt h.exprKinds fs result⟩
  | .flow _ _ => by
    simpa only [Stmt.findings] using forall_misplacedIf h _ _ _
  | .load _ bs _ => by
    simp only [Stmt.findings, List.forall_mem_append, List.forall_mem_map]
    exact ⟨forall_misplacedIf h _ _ _, fun b _ => h.name b.localName fs⟩

/-- What holds of names, of what stands out of place and of the errors of loads holds of every
finding of a visit. -/
theorem Stmt.forall_findingsAll (h : Finding.Kinds P) (fs : List Frame) (n : Nat) :
    ∀ ss : List Stmt, ∀ d ∈ Stmt.findingsAll fs n ss, P d
  | [] => by
    simp only [Stmt.findingsAll, List.not_mem_nil, false_imp_iff, implies_true]
  | s :: ss => by
    simp only [Stmt.findingsAll, List.forall_mem_append]
    exact ⟨Stmt.forall_findings h fs n s, Stmt.forall_findingsAll h fs n ss⟩

end

/-- What holds of the errors of loads and of repeated bindings holds of the errors of a
collection. -/
theorem Declared.forall_errors {P : Diagnostic → Prop} {ds : List Declared}
    (hrepeated : ∀ name loc, P (readOnlyError name loc))
    (hnotes : ∀ d ∈ ds.filterMap note?, P d) (strict : Bool) (seen : List String) :
    ∀ d ∈ errors strict seen ds, P d := by
  induction ds generalizing seen with
  | nil => simp [errors]
  | cons d ds ih =>
    cases d with
    | bound x =>
      rw [errors, List.forall_mem_append]
      refine ⟨?_, ih hnotes _⟩
      split
      · exact List.forall_mem_singleton.mpr (hrepeated x.name x.loc)
      · simp
    | noted d =>
      rw [List.filterMap_cons, note?, List.forall_mem_cons] at hnotes
      rw [errors, List.forall_mem_cons]
      exact ⟨hnotes.1, ih hnotes.2 seen⟩

theorem Stmt.forall_visited (h : Finding.Kinds P) (predeclared : List String) (ss : List Stmt) :
    ∀ e ∈ visited predeclared ss, P e :=
  fun e he => forall_findingsAll h _ 0 ss e ((List.takeWhile_sublist _).subset he)

/-- The same of every finding of a file, with its late loads and repeated bindings. -/
theorem Settings.forall_findings {settings : Settings} {predeclared : List String}
    {ss : List Stmt} (h : Finding.Kinds P)
    (hrepeated : ∀ name loc, P (.noted (readOnlyError name loc)))
    (hloads : ∀ d ∈ loadOrderErrors none ss, P (.noted d)) :
    ∀ e ∈ settings.findings predeclared ss, P e := by
  have hdeclared := Declared.forall_errors (P := fun d => P (.noted d)) hrepeated
    (Stmt.forall_notesAll h ss) (!settings.buildFile) []
  simp only [findings, noted, List.forall_mem_append, List.forall_mem_map]
  refine ⟨⟨?_, hdeclared⟩, Stmt.forall_visited h predeclared ss⟩
  split
  · exact List.forall_mem_map.mpr hloads
  · simp

end Starlark
