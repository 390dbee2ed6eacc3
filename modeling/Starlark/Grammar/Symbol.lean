import Starlark.Syntax.Operator

/-! # Symbols of the grammar

Terminals are the kinds of token. A nonterminal of expressions is a precedence level; the levels
of binary operators share one shape, a first operand followed by a chain of operators and
operands of the next tighter level.
-/
namespace Starlark

inductive Terminal
  | newline | indent | dedent | endOfInput | name | decimal | hexadecimal | octal | string
  | longString | kwAnd | kwBreak | kwContinue | kwDef | kwElif | kwElse | kwFor | kwIf | kwIn
  | kwLoad | kwNot | kwOr | kwPass | kwReturn | lparen | rparen | lbracket | rbracket | lbrace
  | rbrace | comma | colon | semicolon | dot | equal | plus | minus | star | slash | doubleSlash
  | percent | ampersand | circumflex | bar | tilde | doubleLess | doubleGreater | doubleStar | less
  | greater | lessEqual | greaterEqual | doubleEqual | notEqual | plusEqual | minusEqual
  | starEqual | slashEqual | doubleSlashEqual | percentEqual | ampersandEqual | barEqual
  | circumflexEqual | doubleLessEqual | doubleGreaterEqual
deriving DecidableEq

/-- The spelling of a word or sign. -/
def Terminal.spelling? : Terminal → Option String
  | .kwAnd => some "and"
  | .kwBreak => some "break"
  | .kwContinue => some "continue"
  | .kwDef => some "def"
  | .kwElif => some "elif"
  | .kwElse => some "else"
  | .kwFor => some "for"
  | .kwIf => some "if"
  | .kwIn => some "in"
  | .kwLoad => some "load"
  | .kwNot => some "not"
  | .kwOr => some "or"
  | .kwPass => some "pass"
  | .kwReturn => some "return"
  | .lparen => some "("
  | .rparen => some ")"
  | .lbracket => some "["
  | .rbracket => some "]"
  | .lbrace => some "\x7b"
  | .rbrace => some "\x7d"
  | .comma => some ","
  | .colon => some ":"
  | .semicolon => some ";"
  | .dot => some "."
  | .equal => some "="
  | .plus => some "+"
  | .minus => some "-"
  | .star => some "*"
  | .slash => some "/"
  | .doubleSlash => some "//"
  | .percent => some "%"
  | .ampersand => some "&"
  | .circumflex => some "^"
  | .bar => some "|"
  | .tilde => some "~"
  | .doubleLess => some "<<"
  | .doubleGreater => some ">>"
  | .doubleStar => some "**"
  | .less => some "<"
  | .greater => some ">"
  | .lessEqual => some "<="
  | .greaterEqual => some ">="
  | .doubleEqual => some "=="
  | .notEqual => some "!="
  | .plusEqual => some "+="
  | .minusEqual => some "-="
  | .starEqual => some "*="
  | .slashEqual => some "/="
  | .doubleSlashEqual => some "//="
  | .percentEqual => some "%="
  | .ampersandEqual => some "&="
  | .barEqual => some "|="
  | .circumflexEqual => some "^="
  | .doubleLessEqual => some "<<="
  | .doubleGreaterEqual => some ">>="
  | _ => none

/-- The words and signs, longer spellings first. -/
def Terminal.spelled : List Terminal :=
  [.kwContinue, .kwReturn, .kwBreak, .kwElif, .kwElse, .kwLoad, .kwPass, .kwAnd, .kwDef, .kwFor,
   .kwNot, .doubleSlashEqual, .doubleLessEqual, .doubleGreaterEqual, .kwIf, .kwIn, .kwOr,
   .doubleSlash, .doubleLess, .doubleGreater, .doubleStar, .lessEqual, .greaterEqual, .doubleEqual,
   .notEqual, .plusEqual, .minusEqual, .starEqual, .slashEqual, .percentEqual, .ampersandEqual,
   .barEqual, .circumflexEqual, .lparen, .rparen, .lbracket, .rbracket, .lbrace, .rbrace, .comma,
   .colon, .semicolon, .dot, .equal, .plus, .minus, .star, .slash, .percent, .ampersand,
   .circumflex, .bar, .tilde, .less, .greater]

/-- The name under which a syntax error lists a terminal that it expected. -/
def Terminal.title : Terminal → String
  | .newline => "newline"
  | .indent => "indent"
  | .dedent => "outdent"
  | .endOfInput => "EOF"
  | .name => "NAME"
  | .decimal => "DEC_NUMBER"
  | .hexadecimal => "HEX_NUMBER"
  | .octal => "OCT_NUMBER"
  | .string => "STRING"
  | .longString => "LONG_STRING"
  | .kwAnd => "AND"
  | .kwBreak => "BREAK"
  | .kwContinue => "CONTINUE"
  | .kwDef => "DEF"
  | .kwElif => "ELIF"
  | .kwElse => "ELSE"
  | .kwFor => "FOR"
  | .kwIf => "IF"
  | .kwIn => "IN"
  | .kwLoad => "LOAD"
  | .kwNot => "NOT"
  | .kwOr => "OR"
  | .kwPass => "PASS"
  | .kwReturn => "RETURN"
  | .lparen => "LPAR"
  | .rparen => "RPAR"
  | .lbracket => "LSQB"
  | .rbracket => "RSQB"
  | .lbrace => "LBRACE"
  | .rbrace => "RBRACE"
  | .comma => "COMMA"
  | .colon => "COLON"
  | .semicolon => "SEMICOLON"
  | .dot => "DOT"
  | .equal => "EQUAL"
  | .plus => "PLUS"
  | .minus => "MINUS"
  | .star => "STAR"
  | .slash => "SLASH"
  | .doubleSlash => "__ANON_18"
  | .percent => "PERCENT"
  | .ampersand => "AMPERSAND"
  | .circumflex => "CIRCUMFLEX"
  | .bar => "VBAR"
  | .tilde => "TILDE"
  | .doubleLess => "__ANON_16"
  | .doubleGreater => "__ANON_17"
  | .doubleStar => "__ANON_11"
  | .less => "LESSTHAN"
  | .greater => "MORETHAN"
  | .lessEqual => "__ANON_14"
  | .greaterEqual => "__ANON_13"
  | .doubleEqual => "__ANON_12"
  | .notEqual => "__ANON_15"
  | .plusEqual => "__ANON_0"
  | .minusEqual => "__ANON_1"
  | .starEqual => "__ANON_2"
  | .slashEqual => "__ANON_3"
  | .doubleSlashEqual => "__ANON_4"
  | .percentEqual => "__ANON_5"
  | .ampersandEqual => "__ANON_6"
  | .barEqual => "__ANON_7"
  | .circumflexEqual => "__ANON_8"
  | .doubleLessEqual => "__ANON_9"
  | .doubleGreaterEqual => "__ANON_10"

/-- Precedence levels of the binary operators, loosest first. -/
inductive BinaryLevel
  | or | and | comparison | bitOr | bitXor | bitAnd | shift | additive | multiplicative
deriving DecidableEq

/-- Precedence levels of expressions. -/
inductive Level
  | test | binary (b : BinaryLevel) | negation | unary | primary | atom
deriving DecidableEq

/-- The level of the operands. -/
@[reducible] def BinaryLevel.operand : BinaryLevel → Level
  | .or => .binary .and
  | .and => .negation
  | .comparison => .binary .bitOr
  | .bitOr => .binary .bitXor
  | .bitXor => .binary .bitAnd
  | .bitAnd => .binary .shift
  | .shift => .binary .additive
  | .additive => .binary .multiplicative
  | .multiplicative => .unary

@[reducible] def BinaryOp.level : BinaryOp → BinaryLevel
  | .or => .or | .and => .and | .eq => .comparison | .ne => .comparison | .lt => .comparison
  | .le => .comparison | .gt => .comparison | .ge => .comparison | .isIn => .comparison
  | .notIn => .comparison | .bitOr => .bitOr | .bitXor => .bitXor | .bitAnd => .bitAnd
  | .shiftLeft => .shift | .shiftRight => .shift | .add => .additive | .sub => .additive
  | .mul => .multiplicative | .div => .multiplicative | .floorDiv => .multiplicative
  | .mod => .multiplicative

inductive Nonterminal
  | file | items | statement | line | smalls | small | suite | block | augmentedOp | loadArgs
  | loadArg | stringToken | elifs | elifClause | elseClause | parameters | parameterRest
  | parameter | exprList | exprRest | targetList | targetRest | expr (l : Level)
  | rest (b : BinaryLevel) | operator (b : BinaryLevel) | unaryOp | arguments | argumentRest
  | argument | subscript | entry | entryRest | clauses | clause | compFor
deriving DecidableEq

/-- A terminal or a nonterminal. -/
inductive Symbol
  | t (t : Terminal)
  | n (n : Nonterminal)
deriving DecidableEq

end Starlark
