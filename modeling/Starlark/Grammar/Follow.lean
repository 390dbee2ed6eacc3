import Starlark.Grammar.Production

/-! # What may follow a nonterminal

For each nonterminal, the terminals that can stand right after it in a derivation. One token of
lookahead in these sets is all that the parsing automaton needs.
-/
namespace Starlark

/-- The terminals with which an operand begins. -/
def operandStart : List Terminal :=
  [.name, .decimal, .hexadecimal, .octal, .string, .longString, .lparen, .lbracket, .lbrace,
   .plus, .minus, .tilde]

def testStart : List Terminal := .kwNot :: operandStart

def statementStart : List Terminal :=
  [.kwIf, .kwFor, .kwDef, .kwReturn, .kwPass, .kwBreak, .kwContinue, .kwLoad] ++ testStart

def augmentedSigns : List Terminal :=
  [.plusEqual, .minusEqual, .starEqual, .slashEqual, .doubleSlashEqual, .percentEqual,
   .ampersandEqual, .barEqual, .circumflexEqual, .doubleLessEqual, .doubleGreaterEqual]

/-- The terminals with which an operator of a level begins. -/
def BinaryLevel.signs : BinaryLevel → List Terminal
  | .or => [.kwOr]
  | .and => [.kwAnd]
  | .comparison =>
    [.doubleEqual, .notEqual, .less, .lessEqual, .greater, .greaterEqual, .kwIn, .kwNot]
  | .bitOr => [.bar]
  | .bitXor => [.circumflex]
  | .bitAnd => [.ampersand]
  | .shift => [.doubleLess, .doubleGreater]
  | .additive => [.plus, .minus]
  | .multiplicative => [.star, .slash, .doubleSlash, .percent]

/-- The levels looser than a level. -/
def BinaryLevel.looser : BinaryLevel → List BinaryLevel
  | .or => []
  | .and => [.or]
  | .comparison => [.or, .and]
  | .bitOr => [.or, .and, .comparison]
  | .bitXor => [.or, .and, .comparison, .bitOr]
  | .bitAnd => [.or, .and, .comparison, .bitOr, .bitXor]
  | .shift => [.or, .and, .comparison, .bitOr, .bitXor, .bitAnd]
  | .additive => [.or, .and, .comparison, .bitOr, .bitXor, .bitAnd, .shift]
  | .multiplicative => [.or, .and, .comparison, .bitOr, .bitXor, .bitAnd, .shift, .additive]

def afterExprList : List Terminal :=
  [.newline, .semicolon, .colon, .equal, .rparen] ++ augmentedSigns

def afterTest : List Terminal := [.comma, .rbracket, .rbrace, .kwFor] ++ afterExprList

/-- What may follow an operand inside operators of the given levels. -/
def afterOperand (levels : List BinaryLevel) : List Terminal :=
  levels.flatMap BinaryLevel.signs ++ [.kwIf, .kwElse] ++ afterTest

/-- What may follow an operand of the tightest operators. -/
def afterUnary : List Terminal :=
  afterOperand (.multiplicative :: BinaryLevel.multiplicative.looser)

def Level.follow : Level → List Terminal
  | .test => afterTest
  | .binary b => afterOperand b.looser
  | .negation => afterOperand [.or, .and]
  | .unary => afterUnary
  | .primary | .atom => [.lparen, .lbracket, .dot] ++ afterUnary

def Nonterminal.follow : Nonterminal → List Terminal
  | .file => [.endOfInput]
  | .items => [.newline, .endOfInput] ++ statementStart
  | .block => .dedent :: statementStart
  | .statement | .elseClause => [.newline, .dedent, .endOfInput] ++ statementStart
  | .line | .suite | .elifs | .elifClause =>
    [.newline, .dedent, .endOfInput, .kwElif, .kwElse] ++ statementStart
  | .small | .smalls => [.newline, .semicolon]
  | .augmentedOp | .operator .or | .operator .and => testStart
  | .unaryOp | .operator _ => operandStart
  | .loadArgs | .loadArg | .stringToken | .parameter | .parameterRest | .argument
  | .argumentRest => [.comma, .rparen]
  | .parameters | .arguments => [.rparen]
  | .subscript => [.rbracket]
  | .entry => [.comma, .kwFor, .rbrace]
  | .entryRest => [.comma, .rbrace]
  | .clauses | .clause | .compFor => [.kwFor, .kwIf, .rbracket, .rbrace]
  | .targetList => [.kwIn]
  | .targetRest => [.comma, .kwIn]
  | .exprList => afterExprList
  | .exprRest => [.comma, .rbracket] ++ afterExprList
  | .expr l => l.follow
  | .rest b => afterOperand (b :: b.looser)

end Starlark
