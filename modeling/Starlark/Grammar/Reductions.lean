import Starlark.Grammar.Production

/-! # Reductions of the parsing automaton

For each state, the rule that it can reduce by, if any: no state has two.
-/
namespace Starlark.Automaton

/-- The reductions of each state. -/
def reductions : List (Option Production) := [
  some .fileEmpty,
  none,
  some .fileItems,
  some .itemsBlank,
  some .itemsStatement,
  some .statementLine,
  none,
  none,
  none,
  none,
  some .exprStatement,
  some .returnNone,
  some .passFlow,
  some .breakFlow,
  some .continueFlow,
  none,
  some .exprListSingle,
  some .testOr,
  some (.single .or),
  some (.single .and),
  none,
  some .negationComparison,
  some (.single .comparison),
  some (.single .bitOr),
  some (.single .bitXor),
  some (.single .bitAnd),
  some (.single .shift),
  some (.single .additive),
  some (.single .multiplicative),
  none,
  some .unaryPrimary,
  some .unaryPlus,
  some .unaryMinus,
  some .unaryTilde,
  some .primaryAtom,
  some .name,
  some .decimal,
  some .hexadecimal,
  some .octal,
  some .string,
  some .longString,
  none,
  none,
  none,
  some .itemsMoreBlank,
  some .itemsMore,
  none,
  none,
  some .targetListSingle,
  none,
  none,
  none,
  some .lineOne,
  none,
  none,
  some .augmentedAdd,
  some .augmentedSub,
  some .augmentedMul,
  some .augmentedDiv,
  some .augmentedFloorDiv,
  some .augmentedMod,
  some .augmentedBitAnd,
  some .augmentedBitOr,
  some .augmentedBitXor,
  some .augmentedShiftLeft,
  some .augmentedShiftRight,
  some .returnValue,
  none,
  some .exprListMany,
  some .exprListOneComma,
  none,
  some (.chain .or),
  none,
  some (.operator .or),
  some (.chain .and),
  none,
  some (.operator .and),
  some .not,
  some (.chain .comparison),
  none,
  some (.operator .eq),
  some (.operator .ne),
  some (.operator .lt),
  some (.operator .le),
  some (.operator .gt),
  some (.operator .ge),
  some (.operator .isIn),
  none,
  some (.chain .bitOr),
  none,
  some (.operator .bitOr),
  some (.chain .bitXor),
  none,
  some (.operator .bitXor),
  some (.chain .bitAnd),
  none,
  some (.operator .bitAnd),
  some (.chain .shift),
  none,
  some (.operator .shiftLeft),
  some (.operator .shiftRight),
  some (.chain .additive),
  none,
  some (.operator .add),
  some (.operator .sub),
  some (.chain .multiplicative),
  none,
  some (.operator .mul),
  some (.operator .div),
  some (.operator .floorDiv),
  some (.operator .mod),
  some .unary,
  none,
  none,
  none,
  some .emptyTuple,
  none,
  some .listEmpty,
  none,
  some .dictEmpty,
  none,
  none,
  none,
  none,
  some .targetListMany,
  some .targetListOneComma,
  none,
  none,
  some .lineMany,
  some .lineOneSemicolon,
  some .smallsOne,
  some .assign,
  some .augmentedAssign,
  none,
  some .stringShort,
  some .stringLong,
  some .exprListManyComma,
  some .exprRestOne,
  none,
  none,
  some (.restOne .or),
  none,
  some (.restOne .and),
  none,
  some (.restOne .comparison),
  some (.operator .notIn),
  none,
  some (.restOne .bitOr),
  none,
  some (.restOne .bitXor),
  none,
  some (.restOne .bitAnd),
  none,
  some (.restOne .shift),
  none,
  some (.restOne .additive),
  none,
  some (.restOne .multiplicative),
  some .callNone,
  none,
  some .argumentsOne,
  some .argumentPositional,
  none,
  none,
  none,
  some .subscriptKey,
  some .slice,
  some .dot,
  some .paren,
  some .listOne,
  none,
  none,
  none,
  none,
  some .dictOne,
  none,
  none,
  none,
  none,
  some .ifOnly,
  some .suiteLine,
  none,
  none,
  some .targetListManyComma,
  some .targetRestOne,
  none,
  none,
  some .parametersOne,
  some .parameterMandatory,
  some .parameterBareStar,
  none,
  some .lineManySemicolon,
  some .smallsMore,
  none,
  none,
  some .loadNone,
  some .exprRestMore,
  none,
  some (.restMore .or),
  some (.restMore .and),
  some (.restMore .comparison),
  some (.restMore .bitOr),
  some (.restMore .bitXor),
  some (.restMore .bitAnd),
  some (.restMore .shift),
  some (.restMore .additive),
  some (.restMore .multiplicative),
  some .callSome,
  some .argumentsMany,
  some .argumentsOneComma,
  none,
  some .argumentStar,
  some .argumentStarStar,
  some .index,
  some .sliceStart,
  some .sliceStop,
  some .sliceColon,
  some .listOneComma,
  none,
  some .listMany,
  some .listCompFor,
  none,
  some .clausesOne,
  some .clauseFor,
  none,
  none,
  some .dictOneComma,
  some .entryRestOne,
  some .dictMany,
  none,
  some .dictCompFor,
  none,
  some .entry,
  some .ifElif,
  some .ifElse,
  some .elifsOne,
  none,
  none,
  none,
  none,
  some .targetRestMore,
  none,
  none,
  some .parametersMany,
  some .parametersOneComma,
  none,
  some .parameterStar,
  some .parameterStarStar,
  none,
  some .loadSome,
  some .loadNoneComma,
  some .loadArgsOne,
  some .loadPlain,
  none,
  some .conditional,
  some .argumentsManyComma,
  some .argumentRestOne,
  some .argumentKeyword,
  some .sliceStartStop,
  some .sliceStartColon,
  some .sliceStopColon,
  some .sliceStep,
  some .listManyComma,
  some .listCompClauses,
  some .clausesMore,
  some .clauseIf,
  none,
  some .dictManyComma,
  some .entryRestMore,
  some .dictCompClauses,
  some .ifElifElse,
  some .elifsMore,
  none,
  none,
  none,
  some .blockOne,
  some .forLoop,
  some .defNone,
  none,
  some .parametersManyComma,
  some .parameterRestOne,
  some .parameterOptional,
  some .loadSomeComma,
  some .loadArgsMore,
  none,
  some .argumentRestMore,
  some .sliceStartStopColon,
  some .sliceStartStep,
  some .sliceStopStep,
  some .compFor,
  some .elseClause,
  none,
  some .suiteBlock,
  some .blockMore,
  some .defSome,
  some .parameterRestMore,
  some .loadAlias,
  some .sliceStartStopStep,
  some .elifClause]

end Starlark.Automaton
