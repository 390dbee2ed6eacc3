import Starlark.Grammar.Production

/-! # Items of the parsing automaton

For each state, the rules under way there, each with the number of symbols already on the stack.
Rules that are only about to begin are left to the closure.
-/
namespace Starlark.Automaton

/-- The rules under way in each state, sixteen states in a row. -/
def items : List (List (List (Production × Nat))) := [
  [[(.fileEmpty, 0), (.fileItems, 0)],
   [],
   [(.fileItems, 1), (.itemsMoreBlank, 1), (.itemsMore, 1)],
   [(.itemsBlank, 1)],
   [(.itemsStatement, 1)],
   [(.statementLine, 1)],
   [(.ifElifElse, 1), (.ifElif, 1), (.ifElse, 1), (.ifOnly, 1)],
   [(.forLoop, 1)],
   [(.defNone, 1), (.defSome, 1)],
   [(.lineManySemicolon, 1), (.lineMany, 1), (.lineOneSemicolon, 1), (.lineOne, 1)],
   [(.exprStatement, 1), (.assign, 1), (.augmentedAssign, 1)],
   [(.returnValue, 1), (.returnNone, 1)],
   [(.passFlow, 1)],
   [(.breakFlow, 1)],
   [(.continueFlow, 1)],
   [(.loadSomeComma, 1), (.loadSome, 1), (.loadNoneComma, 1), (.loadNone, 1)]],
  [[(.exprListSingle, 1), (.exprListManyComma, 1), (.exprListMany, 1), (.exprListOneComma, 1)],
   [(.conditional, 1), (.testOr, 1)],
   [(.chain .or, 1), (.single .or, 1)],
   [(.chain .and, 1), (.single .and, 1)],
   [(.not, 1)],
   [(.negationComparison, 1)],
   [(.chain .comparison, 1), (.single .comparison, 1)],
   [(.chain .bitOr, 1), (.single .bitOr, 1)],
   [(.chain .bitXor, 1), (.single .bitXor, 1)],
   [(.chain .bitAnd, 1), (.single .bitAnd, 1)],
   [(.chain .shift, 1), (.single .shift, 1)],
   [(.chain .additive, 1), (.single .additive, 1)],
   [(.chain .multiplicative, 1), (.single .multiplicative, 1)],
   [(.unary, 1)],
   [(.unaryPrimary, 1), (.callNone, 1), (.callSome, 1), (.index, 1), (.dot, 1)],
   [(.unaryPlus, 1)]],
  [[(.unaryMinus, 1)],
   [(.unaryTilde, 1)],
   [(.primaryAtom, 1)],
   [(.name, 1)],
   [(.decimal, 1)],
   [(.hexadecimal, 1)],
   [(.octal, 1)],
   [(.string, 1)],
   [(.longString, 1)],
   [(.emptyTuple, 1), (.paren, 1)],
   [(.listEmpty, 1), (.listOne, 1), (.listOneComma, 1), (.listMany, 1), (.listManyComma, 1),
    (.listCompFor, 1), (.listCompClauses, 1)],
   [(.dictEmpty, 1), (.dictOne, 1), (.dictOneComma, 1), (.dictMany, 1), (.dictManyComma, 1),
    (.dictCompFor, 1), (.dictCompClauses, 1)],
   [(.itemsMoreBlank, 2)],
   [(.itemsMore, 2)],
   [(.ifElifElse, 2), (.ifElif, 2), (.ifElse, 2), (.ifOnly, 2)],
   [(.forLoop, 2)]],
  [[(.targetListSingle, 1), (.targetListManyComma, 1), (.targetListMany, 1),
    (.targetListOneComma, 1)],
   [(.defNone, 2), (.defSome, 2)],
   [(.lineManySemicolon, 2), (.lineMany, 2), (.smallsMore, 1)],
   [(.lineOneSemicolon, 2), (.smallsOne, 1)],
   [(.lineOne, 2)],
   [(.assign, 2)],
   [(.augmentedAssign, 2)],
   [(.augmentedAdd, 1)],
   [(.augmentedSub, 1)],
   [(.augmentedMul, 1)],
   [(.augmentedDiv, 1)],
   [(.augmentedFloorDiv, 1)],
   [(.augmentedMod, 1)],
   [(.augmentedBitAnd, 1)],
   [(.augmentedBitOr, 1)],
   [(.augmentedBitXor, 1)]],
  [[(.augmentedShiftLeft, 1)],
   [(.augmentedShiftRight, 1)],
   [(.returnValue, 2)],
   [(.loadSomeComma, 2), (.loadSome, 2), (.loadNoneComma, 2), (.loadNone, 2)],
   [(.exprListManyComma, 2), (.exprListMany, 2), (.exprRestMore, 1)],
   [(.exprListOneComma, 2), (.exprRestOne, 1)],
   [(.conditional, 2)],
   [(.chain .or, 2), (.restMore .or, 1)],
   [(.restOne .or, 1)],
   [(.operator .or, 1)],
   [(.chain .and, 2), (.restMore .and, 1)],
   [(.restOne .and, 1)],
   [(.operator .and, 1)],
   [(.not, 2)],
   [(.chain .comparison, 2), (.restMore .comparison, 1)],
   [(.restOne .comparison, 1)]],
  [[(.operator .eq, 1)],
   [(.operator .ne, 1)],
   [(.operator .lt, 1)],
   [(.operator .le, 1)],
   [(.operator .gt, 1)],
   [(.operator .ge, 1)],
   [(.operator .isIn, 1)],
   [(.operator .notIn, 1)],
   [(.chain .bitOr, 2), (.restMore .bitOr, 1)],
   [(.restOne .bitOr, 1)],
   [(.operator .bitOr, 1)],
   [(.chain .bitXor, 2), (.restMore .bitXor, 1)],
   [(.restOne .bitXor, 1)],
   [(.operator .bitXor, 1)],
   [(.chain .bitAnd, 2), (.restMore .bitAnd, 1)],
   [(.restOne .bitAnd, 1)]],
  [[(.operator .bitAnd, 1)],
   [(.chain .shift, 2), (.restMore .shift, 1)],
   [(.restOne .shift, 1)],
   [(.operator .shiftLeft, 1)],
   [(.operator .shiftRight, 1)],
   [(.chain .additive, 2), (.restMore .additive, 1)],
   [(.restOne .additive, 1)],
   [(.operator .add, 1)],
   [(.operator .sub, 1)],
   [(.chain .multiplicative, 2), (.restMore .multiplicative, 1)],
   [(.restOne .multiplicative, 1)],
   [(.operator .mul, 1)],
   [(.operator .div, 1)],
   [(.operator .floorDiv, 1)],
   [(.operator .mod, 1)],
   [(.unary, 2)]],
  [[(.callNone, 2), (.callSome, 2)],
   [(.index, 2)],
   [(.dot, 2)],
   [(.emptyTuple, 2)],
   [(.paren, 2)],
   [(.listEmpty, 2)],
   [(.listOne, 2), (.listOneComma, 2), (.listMany, 2), (.listManyComma, 2), (.listCompFor, 2),
    (.listCompClauses, 2)],
   [(.dictEmpty, 2)],
   [(.dictOne, 2), (.dictOneComma, 2), (.dictMany, 2), (.dictManyComma, 2), (.dictCompFor, 2),
    (.dictCompClauses, 2)],
   [(.entry, 1)],
   [(.ifElifElse, 3), (.ifElif, 3), (.ifElse, 3), (.ifOnly, 3)],
   [(.forLoop, 3)],
   [(.targetListManyComma, 2), (.targetListMany, 2), (.targetRestMore, 1)],
   [(.targetListOneComma, 2), (.targetRestOne, 1)],
   [(.defNone, 3), (.defSome, 3)],
   [(.lineManySemicolon, 3), (.smallsMore, 2)]],
  [[(.lineMany, 3)],
   [(.lineOneSemicolon, 3)],
   [(.smallsOne, 2)],
   [(.assign, 3)],
   [(.augmentedAssign, 3)],
   [(.loadSomeComma, 3), (.loadSome, 3), (.loadNoneComma, 3), (.loadNone, 3)],
   [(.stringShort, 1)],
   [(.stringLong, 1)],
   [(.exprListManyComma, 3), (.exprRestMore, 2)],
   [(.exprRestOne, 2)],
   [(.conditional, 3)],
   [(.restMore .or, 2)],
   [(.restOne .or, 2)],
   [(.restMore .and, 2)],
   [(.restOne .and, 2)],
   [(.restMore .comparison, 2)]],
  [[(.restOne .comparison, 2)],
   [(.operator .notIn, 2)],
   [(.restMore .bitOr, 2)],
   [(.restOne .bitOr, 2)],
   [(.restMore .bitXor, 2)],
   [(.restOne .bitXor, 2)],
   [(.restMore .bitAnd, 2)],
   [(.restOne .bitAnd, 2)],
   [(.restMore .shift, 2)],
   [(.restOne .shift, 2)],
   [(.restMore .additive, 2)],
   [(.restOne .additive, 2)],
   [(.restMore .multiplicative, 2)],
   [(.restOne .multiplicative, 2)],
   [(.callNone, 3)],
   [(.callSome, 3)]],
  [[(.argumentsManyComma, 1), (.argumentsMany, 1), (.argumentsOneComma, 1), (.argumentsOne, 1)],
   [(.argumentPositional, 1), (.argumentKeyword, 1)],
   [(.argumentStar, 1)],
   [(.argumentStarStar, 1)],
   [(.index, 3)],
   [(.subscriptKey, 1), (.sliceStartStopStep, 1), (.sliceStartStopColon, 1), (.sliceStartStop, 1),
    (.sliceStartStep, 1), (.sliceStartColon, 1), (.sliceStart, 1)],
   [(.sliceStopStep, 1), (.sliceStopColon, 1), (.sliceStop, 1), (.sliceStep, 1), (.sliceColon, 1),
    (.slice, 1)],
   [(.dot, 3)],
   [(.paren, 3)],
   [(.listOne, 3)],
   [(.exprRestOne, 1), (.listOneComma, 3)],
   [(.exprRestMore, 1), (.listMany, 3), (.listManyComma, 3)],
   [(.listCompFor, 3), (.listCompClauses, 3)],
   [(.compFor, 1)],
   [(.dictOne, 3)],
   [(.dictOneComma, 3), (.entryRestOne, 1)]],
  [[(.dictMany, 3), (.dictManyComma, 3), (.entryRestMore, 1)],
   [(.dictCompFor, 3), (.dictCompClauses, 3)],
   [(.entry, 2)],
   [(.ifElifElse, 4), (.ifElif, 4), (.ifElse, 4), (.ifOnly, 4)],
   [(.suiteLine, 1)],
   [(.suiteBlock, 1)],
   [(.forLoop, 4)],
   [(.targetListManyComma, 3), (.targetRestMore, 2)],
   [(.targetRestOne, 2)],
   [(.defNone, 4)],
   [(.defSome, 4)],
   [(.parametersManyComma, 1), (.parametersMany, 1), (.parametersOneComma, 1), (.parametersOne, 1)],
   [(.parameterMandatory, 1), (.parameterOptional, 1)],
   [(.parameterStar, 1), (.parameterBareStar, 1)],
   [(.parameterStarStar, 1)],
   [(.lineManySemicolon, 4)]],
  [[(.smallsMore, 3)],
   [(.loadSomeComma, 4), (.loadSome, 4), (.loadArgsMore, 1)],
   [(.loadNoneComma, 4), (.loadArgsOne, 1)],
   [(.loadNone, 4)],
   [(.exprRestMore, 3)],
   [(.conditional, 4)],
   [(.restMore .or, 3)],
   [(.restMore .and, 3)],
   [(.restMore .comparison, 3)],
   [(.restMore .bitOr, 3)],
   [(.restMore .bitXor, 3)],
   [(.restMore .bitAnd, 3)],
   [(.restMore .shift, 3)],
   [(.restMore .additive, 3)],
   [(.restMore .multiplicative, 3)],
   [(.callSome, 4)]],
  [[(.argumentsManyComma, 2), (.argumentsMany, 2), (.argumentRestMore, 1)],
   [(.argumentsOneComma, 2), (.argumentRestOne, 1)],
   [(.argumentKeyword, 2)],
   [(.argumentStar, 2)],
   [(.argumentStarStar, 2)],
   [(.index, 4)],
   [(.sliceStartStopStep, 2), (.sliceStartStopColon, 2), (.sliceStartStop, 2),
    (.sliceStartStep, 2), (.sliceStartColon, 2), (.sliceStart, 2)],
   [(.sliceStopStep, 2), (.sliceStopColon, 2), (.sliceStop, 2)],
   [(.sliceStep, 2), (.sliceColon, 2)],
   [(.listOneComma, 4)],
   [(.exprRestMore, 2), (.listManyComma, 4)],
   [(.listMany, 4)],
   [(.listCompFor, 4)],
   [(.listCompClauses, 4), (.clausesMore, 1)],
   [(.clausesOne, 1)],
   [(.clauseFor, 1)]],
  [[(.clauseIf, 1)],
   [(.compFor, 2)],
   [(.dictOneComma, 4)],
   [(.entryRestOne, 2)],
   [(.dictMany, 4)],
   [(.dictManyComma, 4), (.entryRestMore, 2)],
   [(.dictCompFor, 4)],
   [(.dictCompClauses, 4), (.clausesMore, 1)],
   [(.entry, 3)],
   [(.ifElifElse, 5), (.ifElif, 5), (.elifsMore, 1)],
   [(.ifElse, 5)],
   [(.elifsOne, 1)],
   [(.elseClause, 1)],
   [(.elifClause, 1)],
   [(.suiteBlock, 2)],
   [(.forLoop, 5)]],
  [[(.targetRestMore, 3)],
   [(.defNone, 5)],
   [(.defSome, 5)],
   [(.parametersManyComma, 2), (.parametersMany, 2), (.parameterRestMore, 1)],
   [(.parametersOneComma, 2), (.parameterRestOne, 1)],
   [(.parameterOptional, 2)],
   [(.parameterStar, 2)],
   [(.parameterStarStar, 2)],
   [(.loadSomeComma, 5), (.loadArgsMore, 2)],
   [(.loadSome, 5)],
   [(.loadNoneComma, 5)],
   [(.loadArgsOne, 2)],
   [(.loadPlain, 1)],
   [(.loadAlias, 1)],
   [(.conditional, 5)],
   [(.argumentsManyComma, 3), (.argumentRestMore, 2)]],
  [[(.argumentRestOne, 2)],
   [(.argumentKeyword, 3)],
   [(.sliceStartStopStep, 3), (.sliceStartStopColon, 3), (.sliceStartStop, 3)],
   [(.sliceStartStep, 3), (.sliceStartColon, 3)],
   [(.sliceStopStep, 3), (.sliceStopColon, 3)],
   [(.sliceStep, 3)],
   [(.listManyComma, 5)],
   [(.listCompClauses, 5)],
   [(.clausesMore, 2)],
   [(.clauseIf, 2)],
   [(.compFor, 3)],
   [(.dictManyComma, 5)],
   [(.entryRestMore, 3)],
   [(.dictCompClauses, 5)],
   [(.ifElifElse, 6)],
   [(.elifsMore, 2)]],
  [[(.elseClause, 2)],
   [(.elifClause, 2)],
   [(.suiteBlock, 3), (.blockMore, 1)],
   [(.blockOne, 1)],
   [(.forLoop, 6)],
   [(.defNone, 6)],
   [(.defSome, 6)],
   [(.parametersManyComma, 3), (.parameterRestMore, 2)],
   [(.parameterRestOne, 2)],
   [(.parameterOptional, 3)],
   [(.loadSomeComma, 6)],
   [(.loadArgsMore, 3)],
   [(.loadAlias, 2)],
   [(.argumentRestMore, 3)],
   [(.sliceStartStopStep, 4), (.sliceStartStopColon, 4)],
   [(.sliceStartStep, 4)]],
  [[(.sliceStopStep, 4)],
   [(.compFor, 4)],
   [(.elseClause, 3)],
   [(.elifClause, 3)],
   [(.suiteBlock, 4)],
   [(.blockMore, 2)],
   [(.defSome, 7)],
   [(.parameterRestMore, 3)],
   [(.loadAlias, 3)],
   [(.sliceStartStopStep, 5)],
   [(.elifClause, 4)]]]

end Starlark.Automaton
