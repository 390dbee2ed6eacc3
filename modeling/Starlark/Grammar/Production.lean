import Starlark.Grammar.Symbol

/-! # The grammar

One constructor per rule, or per family of rules for the binary operators. Optional trailing
commas and optional parts are spelled out as separate rules, so only an empty file derives
nothing.
-/
namespace Starlark

inductive Production
  | fileEmpty | fileItems
  | itemsBlank | itemsStatement | itemsMoreBlank | itemsMore
  | statementLine | ifElifElse | ifElif | ifElse | ifOnly | forLoop | defNone | defSome
  | lineManySemicolon | lineMany | lineOneSemicolon | lineOne
  | smallsOne | smallsMore
  | exprStatement | assign | augmentedAssign | returnValue | returnNone | passFlow | breakFlow
  | continueFlow | loadSomeComma | loadSome | loadNoneComma | loadNone
  | suiteLine | suiteBlock
  | blockOne | blockMore
  | augmentedAdd | augmentedSub | augmentedMul | augmentedDiv | augmentedFloorDiv | augmentedMod
  | augmentedBitAnd | augmentedBitOr | augmentedBitXor | augmentedShiftLeft | augmentedShiftRight
  | loadArgsOne | loadArgsMore
  | loadPlain | loadAlias
  | stringShort | stringLong
  | elifsOne | elifsMore
  | elifClause
  | elseClause
  | parametersManyComma | parametersMany | parametersOneComma | parametersOne
  | parameterRestOne | parameterRestMore
  | parameterMandatory | parameterOptional | parameterStar | parameterBareStar | parameterStarStar
  | exprListSingle | exprListManyComma | exprListMany | exprListOneComma
  | exprRestOne | exprRestMore
  | targetListSingle | targetListManyComma | targetListMany | targetListOneComma
  | targetRestOne | targetRestMore
  | conditional | testOr
  | not | negationComparison
  | unary | unaryPrimary
  | unaryPlus | unaryMinus | unaryTilde
  | callNone | callSome | index | dot | primaryAtom
  | argumentsManyComma | argumentsMany | argumentsOneComma | argumentsOne
  | argumentRestOne | argumentRestMore
  | argumentPositional | argumentKeyword | argumentStar | argumentStarStar
  | subscriptKey | sliceStartStopStep | sliceStartStopColon | sliceStartStop | sliceStartStep
  | sliceStartColon | sliceStart | sliceStopStep | sliceStopColon | sliceStop | sliceStep
  | sliceColon | slice
  | name | decimal | hexadecimal | octal | string | longString | emptyTuple | paren | listEmpty
  | listOne | listOneComma | listMany | listManyComma | listCompFor | listCompClauses | dictEmpty
  | dictOne | dictOneComma | dictMany | dictManyComma | dictCompFor | dictCompClauses
  | entry
  | entryRestOne | entryRestMore
  | clausesOne | clausesMore
  | clauseFor | clauseIf
  | compFor
  /-- A first operand and its chain; a lone operand; the links of a chain; an operator. -/
  | chain (b : BinaryLevel) | single (b : BinaryLevel)
  | restOne (b : BinaryLevel) | restMore (b : BinaryLevel) | operator (o : BinaryOp)
deriving DecidableEq

/-- The terminals that spell an operator. -/
@[reducible] def BinaryOp.symbols : BinaryOp → List Symbol
  | .or => [.t .kwOr]
  | .and => [.t .kwAnd]
  | .eq => [.t .doubleEqual]
  | .ne => [.t .notEqual]
  | .lt => [.t .less]
  | .le => [.t .lessEqual]
  | .gt => [.t .greater]
  | .ge => [.t .greaterEqual]
  | .isIn => [.t .kwIn]
  | .notIn => [.t .kwNot, .t .kwIn]
  | .bitOr => [.t .bar]
  | .bitXor => [.t .circumflex]
  | .bitAnd => [.t .ampersand]
  | .shiftLeft => [.t .doubleLess]
  | .shiftRight => [.t .doubleGreater]
  | .add => [.t .plus]
  | .sub => [.t .minus]
  | .mul => [.t .star]
  | .div => [.t .slash]
  | .floorDiv => [.t .doubleSlash]
  | .mod => [.t .percent]

/-- The two sides of a rule. -/
@[reducible] def Production.rule : Production → Nonterminal × List Symbol
  | .fileEmpty => (.file, [])
  | .fileItems => (.file, [.n .items])
  | .itemsBlank => (.items, [.t .newline])
  | .itemsStatement => (.items, [.n .statement])
  | .itemsMoreBlank => (.items, [.n .items, .t .newline])
  | .itemsMore => (.items, [.n .items, .n .statement])
  | .statementLine => (.statement, [.n .line])
  | .ifElifElse => (.statement,
      [.t .kwIf, .n (.expr .test), .t .colon, .n .suite, .n .elifs, .n .elseClause])
  | .ifElif => (.statement, [.t .kwIf, .n (.expr .test), .t .colon, .n .suite, .n .elifs])
  | .ifElse => (.statement, [.t .kwIf, .n (.expr .test), .t .colon, .n .suite, .n .elseClause])
  | .ifOnly => (.statement, [.t .kwIf, .n (.expr .test), .t .colon, .n .suite])
  | .forLoop => (.statement,
      [.t .kwFor, .n .targetList, .t .kwIn, .n .exprList, .t .colon, .n .suite])
  | .defNone => (.statement, [.t .kwDef, .t .name, .t .lparen, .t .rparen, .t .colon, .n .suite])
  | .defSome => (.statement,
      [.t .kwDef, .t .name, .t .lparen, .n .parameters, .t .rparen, .t .colon, .n .suite])
  | .lineManySemicolon => (.line, [.n .small, .n .smalls, .t .semicolon, .t .newline])
  | .lineMany => (.line, [.n .small, .n .smalls, .t .newline])
  | .lineOneSemicolon => (.line, [.n .small, .t .semicolon, .t .newline])
  | .lineOne => (.line, [.n .small, .t .newline])
  | .smallsOne => (.smalls, [.t .semicolon, .n .small])
  | .smallsMore => (.smalls, [.n .smalls, .t .semicolon, .n .small])
  | .exprStatement => (.small, [.n .exprList])
  | .assign => (.small, [.n .exprList, .t .equal, .n .exprList])
  | .augmentedAssign => (.small, [.n .exprList, .n .augmentedOp, .n .exprList])
  | .returnValue => (.small, [.t .kwReturn, .n .exprList])
  | .returnNone => (.small, [.t .kwReturn])
  | .passFlow => (.small, [.t .kwPass])
  | .breakFlow => (.small, [.t .kwBreak])
  | .continueFlow => (.small, [.t .kwContinue])
  | .loadSomeComma => (.small,
      [.t .kwLoad, .t .lparen, .n .stringToken, .n .loadArgs, .t .comma, .t .rparen])
  | .loadSome => (.small, [.t .kwLoad, .t .lparen, .n .stringToken, .n .loadArgs, .t .rparen])
  | .loadNoneComma => (.small, [.t .kwLoad, .t .lparen, .n .stringToken, .t .comma, .t .rparen])
  | .loadNone => (.small, [.t .kwLoad, .t .lparen, .n .stringToken, .t .rparen])
  | .suiteLine => (.suite, [.n .line])
  | .suiteBlock => (.suite, [.t .newline, .t .indent, .n .block, .t .dedent])
  | .blockOne => (.block, [.n .statement])
  | .blockMore => (.block, [.n .block, .n .statement])
  | .augmentedAdd => (.augmentedOp, [.t .plusEqual])
  | .augmentedSub => (.augmentedOp, [.t .minusEqual])
  | .augmentedMul => (.augmentedOp, [.t .starEqual])
  | .augmentedDiv => (.augmentedOp, [.t .slashEqual])
  | .augmentedFloorDiv => (.augmentedOp, [.t .doubleSlashEqual])
  | .augmentedMod => (.augmentedOp, [.t .percentEqual])
  | .augmentedBitAnd => (.augmentedOp, [.t .ampersandEqual])
  | .augmentedBitOr => (.augmentedOp, [.t .barEqual])
  | .augmentedBitXor => (.augmentedOp, [.t .circumflexEqual])
  | .augmentedShiftLeft => (.augmentedOp, [.t .doubleLessEqual])
  | .augmentedShiftRight => (.augmentedOp, [.t .doubleGreaterEqual])
  | .loadArgsOne => (.loadArgs, [.t .comma, .n .loadArg])
  | .loadArgsMore => (.loadArgs, [.n .loadArgs, .t .comma, .n .loadArg])
  | .loadPlain => (.loadArg, [.n .stringToken])
  | .loadAlias => (.loadArg, [.t .name, .t .equal, .n .stringToken])
  | .stringShort => (.stringToken, [.t .string])
  | .stringLong => (.stringToken, [.t .longString])
  | .elifsOne => (.elifs, [.n .elifClause])
  | .elifsMore => (.elifs, [.n .elifs, .n .elifClause])
  | .elifClause => (.elifClause, [.t .kwElif, .n (.expr .test), .t .colon, .n .suite])
  | .elseClause => (.elseClause, [.t .kwElse, .t .colon, .n .suite])
  | .parametersManyComma => (.parameters, [.n .parameter, .n .parameterRest, .t .comma])
  | .parametersMany => (.parameters, [.n .parameter, .n .parameterRest])
  | .parametersOneComma => (.parameters, [.n .parameter, .t .comma])
  | .parametersOne => (.parameters, [.n .parameter])
  | .parameterRestOne => (.parameterRest, [.t .comma, .n .parameter])
  | .parameterRestMore => (.parameterRest, [.n .parameterRest, .t .comma, .n .parameter])
  | .parameterMandatory => (.parameter, [.t .name])
  | .parameterOptional => (.parameter, [.t .name, .t .equal, .n (.expr .test)])
  | .parameterStar => (.parameter, [.t .star, .t .name])
  | .parameterBareStar => (.parameter, [.t .star])
  | .parameterStarStar => (.parameter, [.t .doubleStar, .t .name])
  | .exprListSingle => (.exprList, [.n (.expr .test)])
  | .exprListManyComma => (.exprList, [.n (.expr .test), .n .exprRest, .t .comma])
  | .exprListMany => (.exprList, [.n (.expr .test), .n .exprRest])
  | .exprListOneComma => (.exprList, [.n (.expr .test), .t .comma])
  | .exprRestOne => (.exprRest, [.t .comma, .n (.expr .test)])
  | .exprRestMore => (.exprRest, [.n .exprRest, .t .comma, .n (.expr .test)])
  | .targetListSingle => (.targetList, [.n (.expr (.binary .bitOr))])
  | .targetListManyComma => (.targetList, [.n (.expr (.binary .bitOr)), .n .targetRest, .t .comma])
  | .targetListMany => (.targetList, [.n (.expr (.binary .bitOr)), .n .targetRest])
  | .targetListOneComma => (.targetList, [.n (.expr (.binary .bitOr)), .t .comma])
  | .targetRestOne => (.targetRest, [.t .comma, .n (.expr (.binary .bitOr))])
  | .targetRestMore => (.targetRest, [.n .targetRest, .t .comma, .n (.expr (.binary .bitOr))])
  | .conditional => (.expr .test,
      [.n (.expr (.binary .or)), .t .kwIf, .n (.expr (.binary .or)), .t .kwElse, .n (.expr .test)])
  | .testOr => (.expr .test, [.n (.expr (.binary .or))])
  | .not => (.expr .negation, [.t .kwNot, .n (.expr .negation)])
  | .negationComparison => (.expr .negation, [.n (.expr (.binary .comparison))])
  | .unary => (.expr .unary, [.n .unaryOp, .n (.expr .unary)])
  | .unaryPrimary => (.expr .unary, [.n (.expr .primary)])
  | .unaryPlus => (.unaryOp, [.t .plus])
  | .unaryMinus => (.unaryOp, [.t .minus])
  | .unaryTilde => (.unaryOp, [.t .tilde])
  | .callNone => (.expr .primary, [.n (.expr .primary), .t .lparen, .t .rparen])
  | .callSome => (.expr .primary, [.n (.expr .primary), .t .lparen, .n .arguments, .t .rparen])
  | .index => (.expr .primary, [.n (.expr .primary), .t .lbracket, .n .subscript, .t .rbracket])
  | .dot => (.expr .primary, [.n (.expr .primary), .t .dot, .t .name])
  | .primaryAtom => (.expr .primary, [.n (.expr .atom)])
  | .argumentsManyComma => (.arguments, [.n .argument, .n .argumentRest, .t .comma])
  | .argumentsMany => (.arguments, [.n .argument, .n .argumentRest])
  | .argumentsOneComma => (.arguments, [.n .argument, .t .comma])
  | .argumentsOne => (.arguments, [.n .argument])
  | .argumentRestOne => (.argumentRest, [.t .comma, .n .argument])
  | .argumentRestMore => (.argumentRest, [.n .argumentRest, .t .comma, .n .argument])
  | .argumentPositional => (.argument, [.n (.expr .test)])
  | .argumentKeyword => (.argument, [.n (.expr .test), .t .equal, .n (.expr .test)])
  | .argumentStar => (.argument, [.t .star, .n (.expr .test)])
  | .argumentStarStar => (.argument, [.t .doubleStar, .n (.expr .test)])
  | .subscriptKey => (.subscript, [.n (.expr .test)])
  | .sliceStartStopStep => (.subscript,
      [.n (.expr .test), .t .colon, .n (.expr .test), .t .colon, .n (.expr .test)])
  | .sliceStartStopColon => (.subscript, [.n (.expr .test), .t .colon, .n (.expr .test), .t .colon])
  | .sliceStartStop => (.subscript, [.n (.expr .test), .t .colon, .n (.expr .test)])
  | .sliceStartStep => (.subscript, [.n (.expr .test), .t .colon, .t .colon, .n (.expr .test)])
  | .sliceStartColon => (.subscript, [.n (.expr .test), .t .colon, .t .colon])
  | .sliceStart => (.subscript, [.n (.expr .test), .t .colon])
  | .sliceStopStep => (.subscript, [.t .colon, .n (.expr .test), .t .colon, .n (.expr .test)])
  | .sliceStopColon => (.subscript, [.t .colon, .n (.expr .test), .t .colon])
  | .sliceStop => (.subscript, [.t .colon, .n (.expr .test)])
  | .sliceStep => (.subscript, [.t .colon, .t .colon, .n (.expr .test)])
  | .sliceColon => (.subscript, [.t .colon, .t .colon])
  | .slice => (.subscript, [.t .colon])
  | .name => (.expr .atom, [.t .name])
  | .decimal => (.expr .atom, [.t .decimal])
  | .hexadecimal => (.expr .atom, [.t .hexadecimal])
  | .octal => (.expr .atom, [.t .octal])
  | .string => (.expr .atom, [.t .string])
  | .longString => (.expr .atom, [.t .longString])
  | .emptyTuple => (.expr .atom, [.t .lparen, .t .rparen])
  | .paren => (.expr .atom, [.t .lparen, .n .exprList, .t .rparen])
  | .listEmpty => (.expr .atom, [.t .lbracket, .t .rbracket])
  | .listOne => (.expr .atom, [.t .lbracket, .n (.expr .test), .t .rbracket])
  | .listOneComma => (.expr .atom, [.t .lbracket, .n (.expr .test), .t .comma, .t .rbracket])
  | .listMany => (.expr .atom, [.t .lbracket, .n (.expr .test), .n .exprRest, .t .rbracket])
  | .listManyComma => (.expr .atom,
      [.t .lbracket, .n (.expr .test), .n .exprRest, .t .comma, .t .rbracket])
  | .listCompFor => (.expr .atom, [.t .lbracket, .n (.expr .test), .n .compFor, .t .rbracket])
  | .listCompClauses => (.expr .atom,
      [.t .lbracket, .n (.expr .test), .n .compFor, .n .clauses, .t .rbracket])
  | .dictEmpty => (.expr .atom, [.t .lbrace, .t .rbrace])
  | .dictOne => (.expr .atom, [.t .lbrace, .n .entry, .t .rbrace])
  | .dictOneComma => (.expr .atom, [.t .lbrace, .n .entry, .t .comma, .t .rbrace])
  | .dictMany => (.expr .atom, [.t .lbrace, .n .entry, .n .entryRest, .t .rbrace])
  | .dictManyComma => (.expr .atom, [.t .lbrace, .n .entry, .n .entryRest, .t .comma, .t .rbrace])
  | .dictCompFor => (.expr .atom, [.t .lbrace, .n .entry, .n .compFor, .t .rbrace])
  | .dictCompClauses => (.expr .atom, [.t .lbrace, .n .entry, .n .compFor, .n .clauses, .t .rbrace])
  | .entry => (.entry, [.n (.expr .test), .t .colon, .n (.expr .test)])
  | .entryRestOne => (.entryRest, [.t .comma, .n .entry])
  | .entryRestMore => (.entryRest, [.n .entryRest, .t .comma, .n .entry])
  | .clausesOne => (.clauses, [.n .clause])
  | .clausesMore => (.clauses, [.n .clauses, .n .clause])
  | .clauseFor => (.clause, [.n .compFor])
  | .clauseIf => (.clause, [.t .kwIf, .n (.expr (.binary .or))])
  | .compFor => (.compFor, [.t .kwFor, .n .targetList, .t .kwIn, .n (.expr (.binary .or))])
  | .chain b => (.expr (.binary b), [.n (.expr b.operand), .n (.rest b)])
  | .single b => (.expr (.binary b), [.n (.expr b.operand)])
  | .restOne b => (.rest b, [.n (.operator b), .n (.expr b.operand)])
  | .restMore b => (.rest b, [.n (.rest b), .n (.operator b), .n (.expr b.operand)])
  | .operator o => (.operator o.level, o.symbols)

@[reducible] def Production.lhs (p : Production) : Nonterminal := p.rule.1

@[reducible] def Production.rhs (p : Production) : List Symbol := p.rule.2

end Starlark
