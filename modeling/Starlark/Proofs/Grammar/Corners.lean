import Starlark.Grammar.Production

/-! # Left corners

The rules of each nonterminal, none of which is empty but the one of an empty file, and the
nonterminals with which its derivations can begin. A derivation that starts with one rule after
another stays inside this set.
-/
namespace Starlark

def BinaryLevel.operators : BinaryLevel → List BinaryOp
  | .or => [.or]
  | .and => [.and]
  | .comparison => [.eq, .ne, .lt, .le, .gt, .ge, .isIn, .notIn]
  | .bitOr => [.bitOr]
  | .bitXor => [.bitXor]
  | .bitAnd => [.bitAnd]
  | .shift => [.shiftLeft, .shiftRight]
  | .additive => [.add, .sub]
  | .multiplicative => [.mul, .div, .floorDiv, .mod]

@[simp] def Nonterminal.rules : Nonterminal → List Production
  | .file => [.fileEmpty, .fileItems]
  | .items => [.itemsBlank, .itemsStatement, .itemsMoreBlank, .itemsMore]
  | .statement =>
    [.statementLine, .ifElifElse, .ifElif, .ifElse, .ifOnly, .forLoop, .defNone, .defSome]
  | .line => [.lineManySemicolon, .lineMany, .lineOneSemicolon, .lineOne]
  | .smalls => [.smallsOne, .smallsMore]
  | .small =>
    [.exprStatement, .assign, .augmentedAssign, .returnValue, .returnNone, .passFlow, .breakFlow,
     .continueFlow, .loadSomeComma, .loadSome, .loadNoneComma, .loadNone]
  | .suite => [.suiteLine, .suiteBlock]
  | .block => [.blockOne, .blockMore]
  | .augmentedOp =>
    [.augmentedAdd, .augmentedSub, .augmentedMul, .augmentedDiv, .augmentedFloorDiv, .augmentedMod,
     .augmentedBitAnd, .augmentedBitOr, .augmentedBitXor, .augmentedShiftLeft, .augmentedShiftRight]
  | .loadArgs => [.loadArgsOne, .loadArgsMore]
  | .loadArg => [.loadPlain, .loadAlias]
  | .stringToken => [.stringShort, .stringLong]
  | .elifs => [.elifsOne, .elifsMore]
  | .elifClause => [.elifClause]
  | .elseClause => [.elseClause]
  | .parameters => [.parametersManyComma, .parametersMany, .parametersOneComma, .parametersOne]
  | .parameterRest => [.parameterRestOne, .parameterRestMore]
  | .parameter =>
    [.parameterMandatory, .parameterOptional, .parameterStar, .parameterBareStar, .parameterStarStar]
  | .exprList => [.exprListSingle, .exprListManyComma, .exprListMany, .exprListOneComma]
  | .exprRest => [.exprRestOne, .exprRestMore]
  | .targetList => [.targetListSingle, .targetListManyComma, .targetListMany, .targetListOneComma]
  | .targetRest => [.targetRestOne, .targetRestMore]
  | .expr .test => [.conditional, .testOr]
  | .expr (.binary b) => [.chain b, .single b]
  | .expr .negation => [.not, .negationComparison]
  | .expr .unary => [.unary, .unaryPrimary]
  | .expr .primary => [.callNone, .callSome, .index, .dot, .primaryAtom]
  | .expr .atom =>
    [.name, .decimal, .hexadecimal, .octal, .string, .longString, .emptyTuple, .paren, .listEmpty,
     .listOne, .listOneComma, .listMany, .listManyComma, .listCompFor, .listCompClauses, .dictEmpty,
     .dictOne, .dictOneComma, .dictMany, .dictManyComma, .dictCompFor, .dictCompClauses]
  | .rest b => [.restOne b, .restMore b]
  | .operator b => b.operators.map .operator
  | .unaryOp => [.unaryPlus, .unaryMinus, .unaryTilde]
  | .arguments => [.argumentsManyComma, .argumentsMany, .argumentsOneComma, .argumentsOne]
  | .argumentRest => [.argumentRestOne, .argumentRestMore]
  | .argument => [.argumentPositional, .argumentKeyword, .argumentStar, .argumentStarStar]
  | .subscript =>
    [.subscriptKey, .sliceStartStopStep, .sliceStartStopColon, .sliceStartStop, .sliceStartStep,
     .sliceStartColon, .sliceStart, .sliceStopStep, .sliceStopColon, .sliceStop, .sliceStep,
     .sliceColon, .slice]
  | .entry => [.entry]
  | .entryRest => [.entryRestOne, .entryRestMore]
  | .clauses => [.clausesOne, .clausesMore]
  | .clause => [.clauseFor, .clauseIf]
  | .compFor => [.compFor]

theorem Production.mem_rules (p : Production) : p ∈ p.lhs.rules := by
  cases p with
  | chain b => exact .head _
  | single b => exact .tail _ (.head _)
  | restOne b => exact .head _
  | restMore b => exact .tail _ (.head _)
  | operator o => cases o <;> decide
  | _ => decide

/-- The levels of expressions, loosest first. -/
def Level.loosestFirst : List Level :=
  [.test, .binary .or, .binary .and, .negation, .binary .comparison, .binary .bitOr,
   .binary .bitXor, .binary .bitAnd, .binary .shift, .binary .additive, .binary .multiplicative,
   .unary, .primary, .atom]

def BinaryLevel.all : List BinaryLevel :=
  [.or, .and, .comparison, .bitOr, .bitXor, .bitAnd, .shift, .additive, .multiplicative]

def Nonterminal.all : List Nonterminal :=
  [.file, .items, .statement, .line, .smalls, .small, .suite, .block, .augmentedOp, .loadArgs,
   .loadArg, .stringToken, .elifs, .elifClause, .elseClause, .parameters, .parameterRest,
   .parameter, .exprList, .exprRest, .targetList, .targetRest, .unaryOp, .arguments, .argumentRest,
   .argument, .subscript, .entry, .entryRest, .clauses, .clause, .compFor]
    ++ Level.loosestFirst.map .expr ++ BinaryLevel.all.map .rest ++ BinaryLevel.all.map .operator

theorem Nonterminal.mem_all (A : Nonterminal) : A ∈ all := by
  cases A with
  | expr l =>
    cases l with
    | binary b => cases b <;> decide
    | _ => decide
  | rest b => cases b <;> decide
  | operator b => cases b <;> decide
  | _ => decide

/-- A property of nonterminals that can be checked of each of them. -/
theorem Nonterminal.forall_of_all {P : Nonterminal → Prop} (h : ∀ A ∈ all, P A)
    (A : Nonterminal) : P A := h A A.mem_all

/-- A property of rules that can be checked of those of each nonterminal. -/
theorem Production.forall_of_all {P : Production → Prop}
    (h : ∀ A ∈ Nonterminal.all, ∀ p ∈ A.rules, P p) (p : Production) : P p :=
  h p.lhs p.lhs.mem_all p p.mem_rules

/-- Only an empty file derives nothing. -/
theorem Production.rhs_ne_nil : ∀ p : Production, p ≠ .fileEmpty → p.rhs ≠ [] :=
  forall_of_all (by decide +kernel)

/-- No rule goes back to the whole file. -/
theorem Production.file_not_mem_rhs : ∀ p : Production, Symbol.n .file ∉ p.rhs :=
  forall_of_all (by decide +kernel)

def Level.corners : Level → List Nonterminal
  | .primary => [.expr .primary, .expr .atom]
  | .atom => [.expr .atom]
  | l => .unaryOp :: (Level.loosestFirst.dropWhile (· ≠ l)).map .expr

/-- The nonterminals with which a derivation from a nonterminal can begin. -/
def Nonterminal.corners : Nonterminal → List Nonterminal
  | .file => [.file, .items, .statement, .line, .small, .exprList] ++ Level.test.corners
  | .items => [.items, .statement, .line, .small, .exprList] ++ Level.test.corners
  | .statement => [.statement, .line, .small, .exprList] ++ Level.test.corners
  | .line => [.line, .small, .exprList] ++ Level.test.corners
  | .small => [.small, .exprList] ++ Level.test.corners
  | .suite => [.suite, .line, .small, .exprList] ++ Level.test.corners
  | .block => [.block, .statement, .line, .small, .exprList] ++ Level.test.corners
  | .loadArg => [.loadArg, .stringToken]
  | .elifs => [.elifs, .elifClause]
  | .parameters => [.parameters, .parameter]
  | .exprList => .exprList :: Level.test.corners
  | .targetList => .targetList :: (Level.binary .bitOr).corners
  | .expr l => l.corners
  | .rest b => [.rest b, .operator b]
  | .arguments => [.arguments, .argument] ++ Level.test.corners
  | .argument => .argument :: Level.test.corners
  | .subscript => .subscript :: Level.test.corners
  | .entry => .entry :: Level.test.corners
  | .clauses => [.clauses, .clause, .compFor]
  | .clause => [.clause, .compFor]
  | A => [A]

namespace Nonterminal

/-- Whether a rule begins inside a set of nonterminals. -/
def Begins (corners : List Nonterminal) (p : Production) : Prop :=
  ∀ B, p.rhs.head? = some (.n B) → B ∈ corners

instance (corners : List Nonterminal) (p : Production) : Decidable (Begins corners p) :=
  match h : p.rhs.head? with
  | some (.n B) => decidable_of_iff (B ∈ corners) (by simp [Begins, h])
  | some (.t _) => isTrue (by simp [Begins, h])
  | none => isTrue (by simp [Begins, h])

theorem self_mem_corners : ∀ A : Nonterminal, A ∈ A.corners := forall_of_all (by decide)

theorem corners_closed :
    ∀ A : Nonterminal, ∀ B ∈ A.corners, ∀ p ∈ B.rules, Begins A.corners p :=
  forall_of_all (by decide +kernel)

end Nonterminal
end Starlark
