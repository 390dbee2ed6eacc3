import Starlark.Proofs.Reference.Collected

/-! # What the reference grammar yields, a tree builds

The trees of the nonterminals are closed under the rules of the reference grammar, one theorem for
each rule with one case for each way to spell out its optional parts.
-/
namespace Starlark.Reference
open Form

variable {file : String}

theorem start_closed : Closed file (builds file) .start := by
  intro ts n n' v s h
  obtain ⟨_ | h₁, hact⟩ := h
  · cases hact
    exact .node .fileEmpty .nil rfl
  · cases hact
    exact .node .fileItems (.one (reads_items h₁)) rfl

theorem stmt_closed : Closed file (builds file) .stmt := by
  intro ts n n' v s h
  obtain h₁ | ⟨h₁, hact⟩ := h
  · exact .node .statementLine (.one h₁) rfl
  · cases hact
    exact h₁

theorem simpleStmt_closed : Closed file (builds file) .simpleStmt := by
  intro ts n n' v s h
  obtain ⟨⟨h₁, ⟨_ | h₂, ⟨_ | h₃, ⟨h₄, ⟨⟩⟩⟩⟩⟩, hact⟩ := h
  · have hs := BuiltAll.cons h₁ (.cons h₄ .nil)
    exact .node .lineOne hs hact
  · have hs := BuiltAll.cons h₁ (.cons h₃ (.cons h₄ .nil))
    exact .node .lineOneSemicolon hs hact
  · have hs := BuiltAll.cons h₁ (.cons (reads_smalls h₂) (.cons h₄ .nil))
    exact .node .lineMany hs hact
  · have hs := BuiltAll.cons h₁ (.cons (reads_smalls h₂) (.cons h₃ (.cons h₄ .nil)))
    exact .node .lineManySemicolon hs hact

theorem smallStmt_closed : Closed file (builds file) .smallStmt := by
  intro ts n n' v s h
  obtain h₁ | h₁ | h₁ | h₁ | h₁ | h₁ | h₁ | h₁ := h
  all_goals exact h₁

theorem compoundStmt_closed : Closed file (builds file) .compoundStmt := by
  intro ts n n' v s h
  obtain h₁ | h₁ | h₁ := h
  all_goals exact h₁

theorem suite_closed : Closed file (builds file) .suite := by
  intro ts n n' v s h
  obtain h₁ | ⟨⟨h₁, ⟨h₂, ⟨h₃, ⟨h₄, ⟨⟩⟩⟩⟩⟩, hact⟩ := h
  · exact .node .suiteLine (.one h₁) rfl
  · cases hact
    have hs := BuiltAll.cons h₁ (.cons h₂ (.cons (reads_block h₃) (.cons h₄ .nil)))
    exact .node .suiteBlock hs rfl

theorem exprStmt_closed : Closed file (builds file) .exprStmt := by
  intro ts n n' v s h
  obtain ⟨h₁, hact⟩ := h
  exact .node .exprStatement (.one h₁) hact

theorem assignStmt_closed : Closed file (builds file) .assignStmt := by
  intro ts n n' v s h
  obtain ⟨⟨h₁, ⟨h₂, ⟨h₃, ⟨⟩⟩⟩⟩, hact⟩ := h
  have hs := BuiltAll.cons h₁ (.cons h₂ (.cons h₃ .nil))
  exact .node .assign hs hact

theorem augAssignStmt_closed : Closed file (builds file) .augAssignStmt := by
  intro ts n n' v s h
  obtain ⟨⟨h₁, ⟨h₂, ⟨h₃, ⟨⟩⟩⟩⟩, hact⟩ := h
  have hs := BuiltAll.cons h₁ (.cons h₂ (.cons h₃ .nil))
  exact .node .augmentedAssign hs hact

theorem augOp_closed : Closed file (builds file) .augOp := by
  intro ts n n' v s h
  obtain ⟨h₁, hact⟩ | ⟨h₁, hact⟩ | ⟨h₁, hact⟩ | ⟨h₁, hact⟩ | ⟨h₁, hact⟩ | ⟨h₁, hact⟩
    | ⟨h₁, hact⟩ | ⟨h₁, hact⟩ | ⟨h₁, hact⟩ | ⟨h₁, hact⟩ | ⟨h₁, hact⟩ := h
  · exact .node .augmentedAdd (.one h₁) hact
  · exact .node .augmentedSub (.one h₁) hact
  · exact .node .augmentedMul (.one h₁) hact
  · exact .node .augmentedDiv (.one h₁) hact
  · exact .node .augmentedFloorDiv (.one h₁) hact
  · exact .node .augmentedMod (.one h₁) hact
  · exact .node .augmentedBitAnd (.one h₁) hact
  · exact .node .augmentedBitOr (.one h₁) hact
  · exact .node .augmentedBitXor (.one h₁) hact
  · exact .node .augmentedShiftLeft (.one h₁) hact
  · exact .node .augmentedShiftRight (.one h₁) hact

theorem returnStmt_closed : Closed file (builds file) .returnStmt := by
  intro ts n n' v s h
  obtain ⟨⟨h₁, ⟨_ | h₂, ⟨⟩⟩⟩, hact⟩ := h
  · have hs := BuiltAll.cons h₁ .nil
    exact .node .returnNone hs hact
  · exact .node .returnValue (.cons h₁ (.cons h₂ .nil)) hact

theorem passStmt_closed : Closed file (builds file) .passStmt := by
  intro ts n n' v s h
  obtain ⟨h₁, hact⟩ := h
  exact .node .passFlow (.one h₁) hact

theorem breakStmt_closed : Closed file (builds file) .breakStmt := by
  intro ts n n' v s h
  obtain ⟨h₁, hact⟩ := h
  exact .node .breakFlow (.one h₁) hact

theorem continueStmt_closed : Closed file (builds file) .continueStmt := by
  intro ts n n' v s h
  obtain ⟨h₁, hact⟩ := h
  exact .node .continueFlow (.one h₁) hact

theorem loadStmt_closed : Closed file (builds file) .loadStmt := by
  intro ts n n' v s h
  obtain ⟨⟨h₁, ⟨h₂, ⟨h₃, ⟨_ | h₄, ⟨_ | h₅, ⟨h₆, ⟨⟩⟩⟩⟩⟩⟩⟩, hact⟩ := h
  · have hs := BuiltAll.cons h₁ (.cons h₂ (.cons h₃ (.cons h₆ .nil)))
    exact .node .loadNone hs hact
  · have hs := BuiltAll.cons h₁ (.cons h₂ (.cons h₃ (.cons h₅ (.cons h₆ .nil))))
    exact .node .loadNoneComma hs hact
  · have hs := BuiltAll.cons h₁ (.cons h₂ (.cons h₃ (.cons (reads_loadArgs h₄) (.cons h₆ .nil))))
    exact .node .loadSome hs hact
  · have hs := BuiltAll.cons h₁ (.cons h₂ (.cons h₃ (.cons (reads_loadArgs h₄) (.cons h₅
      (.cons h₆ .nil)))))
    exact .node .loadSomeComma hs hact

theorem loadArg_closed : Closed file (builds file) .loadArg := by
  intro ts n n' v s h
  obtain ⟨h₁, hact⟩ | ⟨⟨h₁, ⟨h₂, ⟨h₃, ⟨⟩⟩⟩⟩, hact⟩ := h
  · exact .node .loadPlain (.one h₁) hact
  · have hs := BuiltAll.cons h₁ (.cons h₂ (.cons h₃ .nil))
    exact .node .loadAlias hs hact

theorem stringToken_closed : Closed file (builds file) .stringToken := by
  intro ts n n' v s h
  obtain h₁ | h₁ := h
  · exact .node .stringShort (.one h₁) rfl
  · exact .node .stringLong (.one h₁) rfl

theorem ifStmt_closed : Closed file (builds file) .ifStmt := by
  intro ts n n' v s h
  obtain ⟨⟨h₁, ⟨h₂, ⟨h₃, ⟨h₄, ⟨_ | h₅, ⟨_ | h₆, ⟨⟩⟩⟩⟩⟩⟩⟩, hact⟩ := h
  · cases hact
    have hs := BuiltAll.cons h₁ (.cons h₂ (.cons h₃ (.cons h₄ .nil)))
    exact .node .ifOnly hs rfl
  · cases hact
    have hs := BuiltAll.cons h₁ (.cons h₂ (.cons h₃ (.cons h₄ (.cons h₆ .nil))))
    exact .node .ifElse hs rfl
  · cases hact
    have hs := BuiltAll.cons h₁ (.cons h₂ (.cons h₃ (.cons h₄ (.cons (reads_elifs h₅) .nil))))
    exact .node .ifElif hs rfl
  · cases hact
    have hs := BuiltAll.cons h₁ (.cons h₂ (.cons h₃ (.cons h₄ (.cons (reads_elifs h₅)
      (.cons h₆ .nil)))))
    exact .node .ifElifElse hs rfl

theorem elifClause_closed : Closed file (builds file) .elifClause := by
  intro ts n n' v s h
  obtain ⟨⟨h₁, ⟨h₂, ⟨h₃, ⟨h₄, ⟨⟩⟩⟩⟩⟩, hact⟩ := h
  have hs := BuiltAll.cons h₁ (.cons h₂ (.cons h₃ (.cons h₄ .nil)))
  exact .node .elifClause hs hact

theorem elseClause_closed : Closed file (builds file) .elseClause := by
  intro ts n n' v s h
  obtain ⟨⟨h₁, ⟨h₂, ⟨h₃, ⟨⟩⟩⟩⟩, hact⟩ := h
  have hs := BuiltAll.cons h₁ (.cons h₂ (.cons h₃ .nil))
  exact .node .elseClause hs hact

theorem forStmt_closed : Closed file (builds file) .forStmt := by
  intro ts n n' v s h
  obtain ⟨⟨h₁, ⟨h₂, ⟨h₃, ⟨h₄, ⟨h₅, ⟨h₆, ⟨⟩⟩⟩⟩⟩⟩⟩, hact⟩ := h
  cases hact
  have hs := BuiltAll.cons h₁ (.cons h₂ (.cons h₃ (.cons h₄ (.cons h₅ (.cons h₆ .nil)))))
  exact .node .forLoop hs rfl

theorem funcdef_closed : Closed file (builds file) .funcdef := by
  intro ts n n' v s h
  obtain ⟨⟨h₁, ⟨h₂, ⟨h₃, ⟨_ | h₄, ⟨h₅, ⟨h₆, ⟨h₇, ⟨⟩⟩⟩⟩⟩⟩⟩⟩, hact⟩ := h
  · cases hact
    have hs := BuiltAll.cons h₁ (.cons h₂ (.cons h₃ (.cons h₅ (.cons h₆ (.cons h₇ .nil)))))
    exact .node .defNone hs rfl
  · cases hact
    have hs := BuiltAll.cons h₁ (.cons h₂ (.cons h₃ (.cons h₄ (.cons h₅ (.cons h₆
      (.cons h₇ .nil))))))
    exact .node .defSome hs rfl

theorem parameters_closed : Closed file (builds file) .parameters := by
  intro ts n n' v s h
  obtain ⟨_ | ⟨h₁, ⟨_ | h₂, ⟨_ | h₃, ⟨⟩⟩⟩⟩, hact⟩ := h
  · cases hact
    exact .nil
  · cases hact
    have hs := BuiltAll.cons h₁ .nil
    exact .cons (.node .parametersOne hs rfl)
  · cases hact
    have hs := BuiltAll.cons h₁ (.cons h₃ .nil)
    exact .cons (.node .parametersOneComma hs rfl)
  · cases hact
    have hs := BuiltAll.cons h₁ (.cons (reads_parameterRest h₂) .nil)
    exact .cons (.node .parametersMany hs rfl)
  · cases hact
    have hs := BuiltAll.cons h₁ (.cons (reads_parameterRest h₂) (.cons h₃ .nil))
    exact .cons (.node .parametersManyComma hs rfl)

theorem parameter_closed : Closed file (builds file) .parameter := by
  intro ts n n' v s h
  obtain ⟨h₁, hact⟩ | ⟨⟨h₁, ⟨h₂, ⟨h₃, ⟨⟩⟩⟩⟩, hact⟩ | ⟨⟨h₁, ⟨_ | h₂, ⟨⟩⟩⟩, hact⟩
    | ⟨⟨h₁, ⟨h₂, ⟨⟩⟩⟩, hact⟩ := h
  · exact .node .parameterMandatory (.one h₁) hact
  · have hs := BuiltAll.cons h₁ (.cons h₂ (.cons h₃ .nil))
    exact .node .parameterOptional hs hact
  · have hs := BuiltAll.cons h₁ .nil
    exact .node .parameterBareStar hs hact
  · exact .node .parameterStar (.cons h₁ (.cons h₂ .nil)) hact
  · exact .node .parameterStarStar (.cons h₁ (.cons h₂ .nil)) hact

theorem testList_closed : Closed file (builds file) .testList := by
  intro ts n n' v s h
  obtain h₁ | h₁ := h
  · exact .node .exprListSingle (.one h₁) rfl
  · exact h₁

theorem testTuple_closed : Closed file (builds file) .testTuple := by
  intro ts n n' v s h
  obtain ⟨⟨⟨h₁, ⟨h₂, ⟨_ | h₃, ⟨⟩⟩⟩⟩, hes⟩ | ⟨⟨h₁, ⟨h₂, ⟨⟩⟩⟩, hes⟩, hact⟩ := h
  · cases hes
    have hs := BuiltAll.cons h₁ (.cons (reads_exprRest h₂) .nil)
    exact .node .exprListMany hs hact
  · cases hes
    have hs := BuiltAll.cons h₁ (.cons (reads_exprRest h₂) (.cons h₃ .nil))
    exact .node .exprListManyComma hs hact
  · cases hes
    exact .node .exprListOneComma (.cons h₁ (.cons h₂ .nil)) hact

theorem exprlist_closed : Closed file (builds file) .exprlist := by
  intro ts n n' v s h
  obtain h₁ | h₁ := h
  · exact .node .targetListSingle (.one h₁) rfl
  · exact h₁

theorem exprTuple_closed : Closed file (builds file) .exprTuple := by
  intro ts n n' v s h
  obtain ⟨⟨⟨h₁, ⟨h₂, ⟨_ | h₃, ⟨⟩⟩⟩⟩, hes⟩ | ⟨⟨h₁, ⟨h₂, ⟨⟩⟩⟩, hes⟩, hact⟩ := h
  · cases hes
    have hs := BuiltAll.cons h₁ (.cons (reads_targetRest h₂) .nil)
    exact .node .targetListMany hs hact
  · cases hes
    have hs := BuiltAll.cons h₁ (.cons (reads_targetRest h₂) (.cons h₃ .nil))
    exact .node .targetListManyComma hs hact
  · cases hes
    exact .node .targetListOneComma (.cons h₁ (.cons h₂ .nil)) hact

theorem test_closed : Closed file (builds file) (.expr .test) := by
  intro ts n n' v s h
  obtain ⟨⟨h₁, ⟨h₂, ⟨h₃, ⟨h₄, ⟨h₅, ⟨⟩⟩⟩⟩⟩⟩, hact⟩ | h₁ := h
  · have hs := BuiltAll.cons h₁ (.cons h₂ (.cons h₃ (.cons h₄ (.cons h₅ .nil))))
    exact .node .conditional hs hact
  · exact .node .testOr (.one h₁) rfl

theorem binary_closed (b : BinaryLevel) : Closed file (builds file) (.expr (.binary b)) := by
  intro ts n n' v s h
  obtain ⟨⟨h₁, ⟨_ | h₂, ⟨⟩⟩⟩, hact⟩ := h
  · have hs := BuiltAll.cons h₁ .nil
    exact .node (.single b) hs hact
  · exact .node (.chain b) (.cons h₁ (.cons (reads_rest h₂) .nil)) hact

theorem negation_closed : Closed file (builds file) (.expr .negation) := by
  intro ts n n' v s h
  obtain ⟨⟨h₁, ⟨h₂, ⟨⟩⟩⟩, hact⟩ | h₁ := h
  · exact .node .not (.cons h₁ (.cons h₂ .nil)) hact
  · exact .node .negationComparison (.one h₁) rfl

theorem unary_closed : Closed file (builds file) (.expr .unary) := by
  intro ts n n' v s h
  obtain ⟨⟨h₁, ⟨h₂, ⟨⟩⟩⟩, hact⟩ | h₁ := h
  · exact .node .unary (.cons h₁ (.cons h₂ .nil)) hact
  · exact .node .unaryPrimary (.one h₁) rfl

theorem primary_closed : Closed file (builds file) (.expr .primary) := by
  intro ts n n' v s h
  obtain ⟨⟨h₁, ⟨h₂, ⟨_ | h₃, ⟨h₄, ⟨⟩⟩⟩⟩⟩, hact⟩ | ⟨⟨h₁, ⟨h₂, ⟨h₃, ⟨h₄, ⟨⟩⟩⟩⟩⟩, hact⟩
    | ⟨⟨h₁, ⟨h₂, ⟨h₃, ⟨⟩⟩⟩⟩, hact⟩ | h₁ := h
  · have hs := BuiltAll.cons h₁ (.cons h₂ (.cons h₄ .nil))
    exact .node .callNone hs hact
  · have hs := BuiltAll.cons h₁ (.cons h₂ (.cons h₃ (.cons h₄ .nil)))
    exact .node .callSome hs hact
  · have hs := BuiltAll.cons h₁ (.cons h₂ (.cons h₃ (.cons h₄ .nil)))
    exact .node .index hs hact
  · have hs := BuiltAll.cons h₁ (.cons h₂ (.cons h₃ .nil))
    exact .node .dot hs hact
  · exact .node .primaryAtom (.one h₁) rfl

theorem listDisplay_built {ts : List Token} {n n' : Notes} {e : Expr} {s : Option Span}
    (h : Reads file listDisplay ts n e s n') : Built file (.n (.expr .atom)) ts n e s n' := by
  obtain ⟨⟨h₁, ⟨⟨h, hes⟩, ⟨h₅, ⟨⟩⟩⟩⟩, hact⟩ := h
  cases hes
  obtain _ | ⟨h₂, ⟨_ | h₃, ⟨_ | h₄, ⟨⟩⟩⟩⟩ := h
  · have hs := BuiltAll.cons h₁ (.cons h₅ .nil)
    exact .node .listEmpty hs hact
  · have hs := BuiltAll.cons h₁ (.cons h₂ (.cons h₅ .nil))
    exact .node .listOne (.cast hs (by simp) (by simp)) hact
  · have hs := BuiltAll.cons h₁ (.cons h₂ (.cons h₄ (.cons h₅ .nil)))
    exact .node .listOneComma (.cast hs (by simp) (by simp)) hact
  · have hs := BuiltAll.cons h₁ (.cons h₂ (.cons (reads_exprRest h₃) (.cons h₅ .nil)))
    exact .node .listMany (.cast hs (by simp) (by simp)) hact
  · have hs := BuiltAll.cons h₁ (.cons h₂ (.cons (reads_exprRest h₃) (.cons h₄ (.cons h₅ .nil))))
    exact .node .listManyComma (.cast hs (by simp) (by simp)) hact

theorem listComprehension_built {ts : List Token} {n n' : Notes} {e : Expr} {s : Option Span}
    (h : Reads file listComprehension ts n e s n') : Built file (.n (.expr .atom)) ts n e s n' := by
  obtain ⟨⟨h₁, ⟨h₂, ⟨h₃, ⟨_ | h₄, ⟨h₅, ⟨⟩⟩⟩⟩⟩⟩, hact⟩ := h
  · have hs := BuiltAll.cons h₁ (.cons h₂ (.cons h₃ (.cons h₅ .nil)))
    exact .node .listCompFor hs hact
  · have hs := BuiltAll.cons h₁ (.cons h₂ (.cons h₃ (.cons (reads_clauses h₄) (.cons h₅ .nil))))
    exact .node .listCompClauses hs hact

theorem dictDisplay_built {ts : List Token} {n n' : Notes} {e : Expr} {s : Option Span}
    (h : Reads file dictDisplay ts n e s n') : Built file (.n (.expr .atom)) ts n e s n' := by
  obtain ⟨⟨h₁, ⟨⟨h, hes⟩, ⟨h₅, ⟨⟩⟩⟩⟩, hact⟩ := h
  cases hes
  obtain _ | ⟨h₂, ⟨_ | h₃, ⟨_ | h₄, ⟨⟩⟩⟩⟩ := h
  · have hs := BuiltAll.cons h₁ (.cons h₅ .nil)
    exact .node .dictEmpty hs hact
  · have hs := BuiltAll.cons h₁ (.cons h₂ (.cons h₅ .nil))
    exact .node .dictOne (.cast hs (by simp) (by simp)) hact
  · have hs := BuiltAll.cons h₁ (.cons h₂ (.cons h₄ (.cons h₅ .nil)))
    exact .node .dictOneComma (.cast hs (by simp) (by simp)) hact
  · have hs := BuiltAll.cons h₁ (.cons h₂ (.cons (reads_entryRest h₃) (.cons h₅ .nil)))
    exact .node .dictMany (.cast hs (by simp) (by simp)) hact
  · have hs := BuiltAll.cons h₁ (.cons h₂ (.cons (reads_entryRest h₃) (.cons h₄ (.cons h₅ .nil))))
    exact .node .dictManyComma (.cast hs (by simp) (by simp)) hact

theorem dictComprehension_built {ts : List Token} {n n' : Notes} {e : Expr} {s : Option Span}
    (h : Reads file dictComprehension ts n e s n') : Built file (.n (.expr .atom)) ts n e s n' := by
  obtain ⟨⟨h₁, ⟨h₂, ⟨h₃, ⟨_ | h₄, ⟨h₅, ⟨⟩⟩⟩⟩⟩⟩, hact⟩ := h
  · have hs := BuiltAll.cons h₁ (.cons h₂ (.cons h₃ (.cons h₅ .nil)))
    exact .node .dictCompFor hs hact
  · have hs := BuiltAll.cons h₁ (.cons h₂ (.cons h₃ (.cons (reads_clauses h₄) (.cons h₅ .nil))))
    exact .node .dictCompClauses hs hact

theorem atom_closed : Closed file (builds file) (.expr .atom) := by
  intro ts n n' v s h
  obtain ⟨h₁, hact⟩ | h | h | h | h | h | h | h | h := h
  · exact .node .name (.one h₁) hact
  · exact h
  · exact h
  · obtain ⟨⟨h₁, ⟨h₂, ⟨⟩⟩⟩, hact⟩ := h
    exact .node .emptyTuple (.cons h₁ (.cons h₂ .nil)) hact
  · obtain ⟨⟨h₁, ⟨h₂, ⟨h₃, ⟨⟩⟩⟩⟩, hact⟩ := h
    have hs := BuiltAll.cons h₁ (.cons h₂ (.cons h₃ .nil))
    exact .node .paren hs hact
  · exact listDisplay_built h
  · exact listComprehension_built h
  · exact dictDisplay_built h
  · exact dictComprehension_built h

theorem operator_closed (b : BinaryLevel) : Closed file (builds file) (.operator b) := by
  intro ts n n' v s h
  cases b with
  | comparison =>
    obtain h | ⟨⟨h₁, ⟨h₂, ⟨⟩⟩⟩, hact⟩ := h
    · exact reads_signs _ _ (by decide) h
    · exact .node (.operator .notIn) (.cons h₁ (.cons h₂ .nil)) hact
  | _ => exact reads_signs _ _ (by decide) h

theorem unaryOp_closed : Closed file (builds file) .unaryOp := by
  intro ts n n' v s h
  obtain ⟨h₁, hact⟩ | ⟨h₁, hact⟩ | ⟨h₁, hact⟩ := h
  · exact .node .unaryPlus (.one h₁) hact
  · exact .node .unaryMinus (.one h₁) hact
  · exact .node .unaryTilde (.one h₁) hact

theorem arguments_closed : Closed file (builds file) .arguments := by
  intro ts n n' v s h
  obtain ⟨_ | ⟨h₁, ⟨_ | h₂, ⟨_ | h₃, ⟨⟩⟩⟩⟩, hact⟩ := h
  · cases hact
    exact .nil
  · cases hact
    have hs := BuiltAll.cons h₁ .nil
    exact .cons (.node .argumentsOne hs rfl)
  · cases hact
    have hs := BuiltAll.cons h₁ (.cons h₃ .nil)
    exact .cons (.node .argumentsOneComma hs rfl)
  · cases hact
    have hs := BuiltAll.cons h₁ (.cons (reads_argumentRest h₂) .nil)
    exact .cons (.node .argumentsMany hs rfl)
  · cases hact
    have hs := BuiltAll.cons h₁ (.cons (reads_argumentRest h₂) (.cons h₃ .nil))
    exact .cons (.node .argumentsManyComma hs rfl)

theorem argument_closed : Closed file (builds file) .argument := by
  intro ts n n' v s h
  obtain ⟨h₁, hact⟩ | ⟨⟨h₁, ⟨h₂, ⟨h₃, ⟨⟩⟩⟩⟩, hact⟩ | ⟨⟨h₁, ⟨h₂, ⟨⟩⟩⟩, hact⟩
    | ⟨⟨h₁, ⟨h₂, ⟨⟩⟩⟩, hact⟩ := h
  · exact .node .argumentPositional (.one h₁) hact
  · have hs := BuiltAll.cons h₁ (.cons h₂ (.cons h₃ .nil))
    exact .node .argumentKeyword hs hact
  · exact .node .argumentStar (.cons h₁ (.cons h₂ .nil)) hact
  · exact .node .argumentStarStar (.cons h₁ (.cons h₂ .nil)) hact

theorem subscript_closed : Closed file (builds file) .subscript := by
  intro ts n n' v s h
  obtain ⟨h₁, hact⟩ | h₁ := h
  · exact .node .subscriptKey (.one h₁) hact
  · exact h₁

theorem subscriptSlice_closed : Closed file (builds file) .subscriptSlice := by
  intro ts n n' v s h
  obtain ⟨⟨_ | h₁, ⟨h₂, ⟨_ | h₃, _ | ⟨h₄, ⟨_ | h₅, ⟨⟩⟩⟩⟩⟩⟩, hact⟩ := h
  · have hs := BuiltAll.cons h₂ .nil
    exact .node .slice hs hact
  · have hs := BuiltAll.cons h₂ (.cons h₄ .nil)
    exact .node .sliceColon hs hact
  · have hs := BuiltAll.cons h₂ (.cons h₄ (.cons h₅ .nil))
    exact .node .sliceStep hs hact
  · have hs := BuiltAll.cons h₂ (.cons h₃ .nil)
    exact .node .sliceStop hs hact
  · have hs := BuiltAll.cons h₂ (.cons h₃ (.cons h₄ .nil))
    exact .node .sliceStopColon hs hact
  · have hs := BuiltAll.cons h₂ (.cons h₃ (.cons h₄ (.cons h₅ .nil)))
    exact .node .sliceStopStep hs hact
  · have hs := BuiltAll.cons h₁ (.cons h₂ .nil)
    exact .node .sliceStart hs hact
  · have hs := BuiltAll.cons h₁ (.cons h₂ (.cons h₄ .nil))
    exact .node .sliceStartColon hs hact
  · have hs := BuiltAll.cons h₁ (.cons h₂ (.cons h₄ (.cons h₅ .nil)))
    exact .node .sliceStartStep hs hact
  · have hs := BuiltAll.cons h₁ (.cons h₂ (.cons h₃ .nil))
    exact .node .sliceStartStop hs hact
  · have hs := BuiltAll.cons h₁ (.cons h₂ (.cons h₃ (.cons h₄ .nil)))
    exact .node .sliceStartStopColon hs hact
  · have hs := BuiltAll.cons h₁ (.cons h₂ (.cons h₃ (.cons h₄ (.cons h₅ .nil))))
    exact .node .sliceStartStopStep hs hact

theorem dictEntry_closed : Closed file (builds file) .dictEntry := by
  intro ts n n' v s h
  obtain ⟨⟨h₁, ⟨h₂, ⟨h₃, ⟨⟩⟩⟩⟩, hact⟩ := h
  have hs := BuiltAll.cons h₁ (.cons h₂ (.cons h₃ .nil))
  exact .node .entry hs hact

theorem compClause_closed : Closed file (builds file) .compClause := by
  intro ts n n' v s h
  obtain h₁ | h₁ := h
  · exact .node .clauseFor (.one h₁) rfl
  · exact h₁

theorem compFor_closed : Closed file (builds file) .compFor := by
  intro ts n n' v s h
  obtain ⟨⟨h₁, ⟨h₂, ⟨h₃, ⟨h₄, ⟨⟩⟩⟩⟩⟩, hact⟩ := h
  have hs := BuiltAll.cons h₁ (.cons h₂ (.cons h₃ (.cons h₄ .nil)))
  exact .node .compFor hs hact

theorem compIf_closed : Closed file (builds file) .compIf := by
  intro ts n n' v s h
  obtain ⟨⟨h₁, ⟨h₂, ⟨⟩⟩⟩, hact⟩ := h
  exact .node .clauseIf (.cons h₁ (.cons h₂ .nil)) hact

theorem number_closed : Closed file (builds file) .number := by
  intro ts n n' v s h
  obtain ⟨h₁ | h₁ | h₁, hact⟩ := h
  · exact .node .decimal (.one h₁) hact
  · exact .node .hexadecimal (.one h₁) hact
  · exact .node .octal (.one h₁) hact

theorem string_closed : Closed file (builds file) .string := by
  intro ts n n' v s h
  obtain ⟨h₁ | h₁, hact⟩ := h
  · exact .node .string (.one h₁) hact
  · exact .node .longString (.one h₁) hact

/-- The trees of the nonterminals build the readings of the rules. -/
theorem closed (q : Rule) : Closed file (builds file) q := by
  cases q with
  | start => exact start_closed
  | stmt => exact stmt_closed
  | simpleStmt => exact simpleStmt_closed
  | smallStmt => exact smallStmt_closed
  | compoundStmt => exact compoundStmt_closed
  | suite => exact suite_closed
  | exprStmt => exact exprStmt_closed
  | assignStmt => exact assignStmt_closed
  | augAssignStmt => exact augAssignStmt_closed
  | augOp => exact augOp_closed
  | returnStmt => exact returnStmt_closed
  | passStmt => exact passStmt_closed
  | breakStmt => exact breakStmt_closed
  | continueStmt => exact continueStmt_closed
  | loadStmt => exact loadStmt_closed
  | loadArg => exact loadArg_closed
  | stringToken => exact stringToken_closed
  | ifStmt => exact ifStmt_closed
  | elifClause => exact elifClause_closed
  | elseClause => exact elseClause_closed
  | forStmt => exact forStmt_closed
  | funcdef => exact funcdef_closed
  | parameters => exact parameters_closed
  | parameter => exact parameter_closed
  | testList => exact testList_closed
  | testTuple => exact testTuple_closed
  | exprlist => exact exprlist_closed
  | exprTuple => exact exprTuple_closed
  | expr l =>
    cases l with
    | test => exact test_closed
    | binary b => exact binary_closed b
    | negation => exact negation_closed
    | unary => exact unary_closed
    | primary => exact primary_closed
    | atom => exact atom_closed
  | operator b => exact operator_closed b
  | unaryOp => exact unaryOp_closed
  | arguments => exact arguments_closed
  | argument => exact argument_closed
  | subscript => exact subscript_closed
  | subscriptSlice => exact subscriptSlice_closed
  | dictEntry => exact dictEntry_closed
  | compClause => exact compClause_closed
  | compFor => exact compFor_closed
  | compIf => exact compIf_closed
  | number => exact number_closed
  | string => exact string_closed

/-- What the reference grammar yields is built by a tree of the same tokens. -/
theorem tree_of_yields {ts : List Token} {n n' : Notes} {ss : List Stmt} {s : Option Span}
    (h : Yields file (.r .start) ts n ss s n') :
    ∃ x : Tree (.n .file), x.tokens = ts ∧ (x.build file).run.run n = (.ok (ss, s), n') :=
  h.reading closed

end Starlark.Reference
