import Starlark.Grammar.Meaning

/-! # The reference grammar

The rules of the language in their usual form, with optional parts and repetitions, and with the
value that each alternative gives to what it derives. The nine levels of binary operators share
one rule. A sequence of parts ends in `eps`, which derives nothing.
-/
namespace Starlark.Reference

/-- The rules by name. A rule `expr` stands for each level of expressions, and a rule `operator`
for the operators of each level. -/
inductive Rule
  | start | stmt | simpleStmt | smallStmt | compoundStmt | suite | exprStmt | assignStmt
  | augAssignStmt | augOp | returnStmt | passStmt | breakStmt | continueStmt | loadStmt | loadArg
  | stringToken | ifStmt | elifClause | elseClause | forStmt | funcdef | parameters | parameter
  | testList | testTuple | exprlist | exprTuple | expr (l : Level) | operator (b : BinaryLevel)
  | unaryOp | arguments | argument | subscript | subscriptSlice | dictEntry | compClause | compFor
  | compIf | number | string

@[reducible] def Rule.Meaning : Rule → Type
  | .start | .stmt | .simpleStmt | .suite | .elseClause => List Stmt
  | .augOp | .operator _ => BinaryOp
  | .loadArg => LoadBinding
  | .stringToken => Token
  | .elifClause => ElifClause
  | .parameters => List Parameter
  | .parameter => Parameter
  | .testList | .testTuple | .exprlist | .exprTuple | .expr _ | .number | .string => Expr
  | .unaryOp => UnaryOp
  | .arguments => List Argument
  | .argument => Argument
  | .subscript | .subscriptSlice => Subscript
  | .dictEntry => Entry
  | .compClause | .compFor | .compIf => Clause
  | _ => Stmt

/-- The form of a rule, indexed by the type of its values. -/
inductive Form : Type → Type 1
  | t (a : Terminal) : Form Token
  | r (q : Rule) : Form q.Meaning
  | eps : Form Unit
  | seq {α β : Type} (f : Form α) (g : Form β) : Form (α × β)
  | or {α : Type} (f g : Form α) : Form α
  | opt {α : Type} (f : Form α) : Form (Option α)
  | plus {α : Type} (f : Form α) : Form (List α)
  | star {α : Type} (f : Form α) : Form (List α)
  /-- The value is made in a file from the values of the parts and their location. -/
  | act {α β : Type} (make : String → Option Location → α → Build β) (f : Form α) : Form β

namespace Form

def map {α β : Type} (make : α → β) (f : Form α) : Form β := act (fun _ _ v => pure (make v)) f

def build {α β : Type} (make : Option Location → α → β) (f : Form α) : Form β :=
  act (fun _ loc v => pure (make loc v)) f

instance {α : Type} : OrElse (Form α) := ⟨fun f g => or f (g ())⟩

/-- What stands after a sign. -/
def after {α : Type} (a : Terminal) (f : Form α) : Form α :=
  map (fun (_, x, _) => x) <| seq (t a) <| seq f eps

/-- Parts set apart by commas, perhaps with one more comma at the end. -/
def commas {α : Type} (f : Form α) : Form (List α) :=
  map (fun parts => (parts.map fun (x, xs, _) => x :: xs).getD []) <|
    opt <| seq f <| seq (star (after .comma f)) <| seq (opt (t .comma)) eps

/-- A tuple without parentheses: two parts or more, or one with a comma. -/
def tuple (f : Form Expr) : Form Expr :=
  build (fun loc es => .list es true loc) <|
    (map (fun (e, es, _) => e :: es) <| seq f <| seq (plus (after .comma f)) <|
      seq (opt (t .comma)) eps) <|>
    (map (fun (e, _) => [e]) <| seq f <| seq (t .comma) eps)

def sign (a : Terminal) (op : BinaryOp) : Form BinaryOp := map (fun _ => op) (t a)

/-- One of several signs. -/
def signs (x : Terminal × BinaryOp) : List (Terminal × BinaryOp) → Form BinaryOp
  | [] => sign x.1 x.2
  | y :: l => sign x.1 x.2 <|> signs y l

/-- One link of a chain of binary operators. -/
def link (b : BinaryLevel) : Form (BinaryOp × Expr) :=
  map (fun (op, e, _) => (op, e)) <| seq (r (.operator b)) <| seq (r (.expr b.operand)) eps

end Form

open Form Build

/-- A part of a file: an empty line or a statement. -/
def item : Form (List Stmt) := map (fun _ => []) (t .newline) <|> r .stmt

/-- The operators of each level. -/
def operatorForm : BinaryLevel → Form BinaryOp
  | .or => signs (.kwOr, .or) []
  | .and => signs (.kwAnd, .and) []
  | .comparison =>
    signs (.less, .lt) [(.greater, .gt), (.doubleEqual, .eq), (.greaterEqual, .ge),
      (.lessEqual, .le), (.notEqual, .ne), (.kwIn, .isIn)]
    <|> map (fun _ => .notIn) (seq (t .kwNot) <| seq (t .kwIn) eps)
  | .bitOr => signs (.bar, .bitOr) []
  | .bitXor => signs (.circumflex, .bitXor) []
  | .bitAnd => signs (.ampersand, .bitAnd) []
  | .shift => signs (.doubleLess, .shiftLeft) [(.doubleGreater, .shiftRight)]
  | .additive => signs (.plus, .add) [(.minus, .sub)]
  | .multiplicative =>
    signs (.star, .mul) [(.slash, .div), (.doubleSlash, .floorDiv), (.percent, .mod)]

def listDisplay : Form Expr :=
  build (fun loc (_, es, _) => .list es false loc) <|
    seq (t .lbracket) <| seq (commas (r (.expr .test))) <| seq (t .rbracket) eps

def listComprehension : Form Expr :=
  build (fun loc (_, e, c, cs, _) => .comprehension (.item e) (c :: cs) false loc) <|
    seq (t .lbracket) <| seq (r (.expr .test)) <| seq (r .compFor) <|
    seq (star (r .compClause)) <| seq (t .rbracket) eps

def dictDisplay : Form Expr :=
  build (fun loc (_, ds, _) => .dict ds loc) <|
    seq (t .lbrace) <| seq (commas (r .dictEntry)) <| seq (t .rbrace) eps

def dictComprehension : Form Expr :=
  build (fun loc (_, d, c, cs, _) => .comprehension (.entry d) (c :: cs) true loc) <|
    seq (t .lbrace) <| seq (r .dictEntry) <| seq (r .compFor) <| seq (star (r .compClause)) <|
    seq (t .rbrace) eps

/-- The levels of expressions: binary operators associate to the left. -/
def exprForm : Level → Form Expr
  | .test =>
    (build (fun loc (a, _, c, _, b, _) => .conditional a c b loc) <|
      seq (r (.expr (.binary .or))) <| seq (t .kwIf) <| seq (r (.expr (.binary .or))) <|
      seq (t .kwElse) <| seq (r (.expr .test)) eps)
    <|> r (.expr (.binary .or))
  | .binary b =>
    build (fun loc (x, links, _) => foldChain loc x links) <|
      seq (r (.expr b.operand)) <| seq (star (link b)) eps
  | .negation =>
    (build (fun loc (_, e, _) => .unary .not e loc) <|
      seq (t .kwNot) <| seq (r (.expr .negation)) eps)
    <|> r (.expr (.binary .comparison))
  | .unary =>
    (build (fun loc (op, e, _) => .unary op e loc) <|
      seq (r .unaryOp) <| seq (r (.expr .unary)) eps)
    <|> r (.expr .primary)
  | .primary =>
    (act (fun _ loc (f, _, as, _) => call loc f as) <|
      seq (r (.expr .primary)) <| seq (t .lparen) <| seq (r .arguments) <| seq (t .rparen) eps)
    <|> (build (fun loc (e, _, k, _) => Build.subscript loc e k) <|
      seq (r (.expr .primary)) <| seq (t .lbracket) <| seq (r .subscript) <|
      seq (t .rbracket) eps)
    <|> (act (fun file loc (e, _, x, _) => return .dot e (← identifier file x) loc) <|
      seq (r (.expr .primary)) <| seq (t .dot) <| seq (t .name) eps)
    <|> r (.expr .atom)
  | .atom =>
    (act (fun file _ x => return .ident (← identifier file x)) <| t .name)
    <|> r .number
    <|> r .string
    <|> (build (fun loc _ => .list [] true loc) <| seq (t .lparen) <| seq (t .rparen) eps)
    <|> (build (fun loc (_, e, _) => parenthesised loc e) <|
      seq (t .lparen) <| seq (r .testList) <| seq (t .rparen) eps)
    <|> listDisplay <|> listComprehension <|> dictDisplay <|> dictComprehension

def Rule.form : (q : Rule) → Form q.Meaning
  | .start => map List.flatten (star item)
  | .stmt => r .simpleStmt <|> map (fun s => [s]) (r .compoundStmt)
  | .simpleStmt =>
    map (fun (s, ss, _) => s :: ss) <|
      seq (r .smallStmt) <| seq (star (after .semicolon (r .smallStmt))) <|
      seq (opt (t .semicolon)) <| seq (t .newline) eps
  | .smallStmt =>
    r .exprStmt <|> r .assignStmt <|> r .augAssignStmt <|> r .returnStmt <|> r .passStmt
      <|> r .breakStmt <|> r .continueStmt <|> r .loadStmt
  | .compoundStmt => r .ifStmt <|> r .forStmt <|> r .funcdef
  | .suite =>
    r .simpleStmt <|>
    (map (fun (_, _, sss, _) => sss.flatten) <|
      seq (t .newline) <| seq (t .indent) <| seq (plus (r .stmt)) <| seq (t .dedent) eps)
  | .exprStmt => build (fun loc e => .expr e loc) <| r .testList
  | .assignStmt =>
    build (fun loc (x, _, e, _) => .assign x e loc) <|
      seq (r .testList) <| seq (t .equal) <| seq (r .testList) eps
  | .augAssignStmt =>
    build (fun loc (x, op, e, _) => .augmentedAssign op x e loc) <|
      seq (r .testList) <| seq (r .augOp) <| seq (r .testList) eps
  | .augOp =>
    signs (.plusEqual, .add) [(.minusEqual, .sub), (.starEqual, .mul), (.slashEqual, .div),
      (.doubleSlashEqual, .floorDiv), (.percentEqual, .mod), (.ampersandEqual, .bitAnd),
      (.barEqual, .bitOr), (.circumflexEqual, .bitXor), (.doubleLessEqual, .shiftLeft),
      (.doubleGreaterEqual, .shiftRight)]
  | .returnStmt =>
    build (fun loc (_, e, _) => .returns e loc) <| seq (t .kwReturn) <| seq (opt (r .testList)) eps
  | .passStmt => build (fun loc _ => .flow .pass loc) <| t .kwPass
  | .breakStmt => build (fun loc _ => .flow .breakLoop loc) <| t .kwBreak
  | .continueStmt => build (fun loc _ => .flow .continueLoop loc) <| t .kwContinue
  | .loadStmt =>
    act (fun file loc (_, _, source, bindings, _) => load file loc source bindings) <|
      seq (t .kwLoad) <| seq (t .lparen) <| seq (r .stringToken) <|
      seq (star (after .comma (r .loadArg))) <| seq (opt (t .comma)) <| seq (t .rparen) eps
  | .loadArg =>
    (act (fun file _ tok => do
      let name ← Build.string file tok
      loadBinding (← newIdentifier name.value name.loc) name) <| r .stringToken)
    <|> (act (fun file _ (x, _, tok, _) => do
      let name ← Build.string file tok
      loadBinding (← identifier file x) name) <|
      seq (t .name) <| seq (t .equal) <| seq (r .stringToken) eps)
  | .stringToken => t .string <|> t .longString
  | .ifStmt =>
    build (fun loc (_, c, _, a, cs, b, _) => .ifElse c a (elifChain cs (b.getD [])) loc) <|
      seq (t .kwIf) <| seq (r (.expr .test)) <| seq (t .colon) <| seq (r .suite) <|
      seq (star (r .elifClause)) <| seq (opt (r .elseClause)) eps
  | .elifClause =>
    build (fun loc (_, c, _, b, _) => ⟨c, b, loc⟩) <|
      seq (t .kwElif) <| seq (r (.expr .test)) <| seq (t .colon) <| seq (r .suite) eps
  | .elseClause =>
    map (fun (_, _, b, _) => b) <| seq (t .kwElse) <| seq (t .colon) <| seq (r .suite) eps
  | .forStmt =>
    build (fun loc (_, x, _, e, _, b, _) => .forLoop x e b loc) <|
      seq (t .kwFor) <| seq (r .exprlist) <| seq (t .kwIn) <| seq (r .testList) <|
      seq (t .colon) <| seq (r .suite) eps
  | .funcdef =>
    act (fun file loc (_, f, _, ps, _, _, b, _) =>
      return .define (← identifier file f) ps b loc) <|
      seq (t .kwDef) <| seq (t .name) <| seq (t .lparen) <| seq (r .parameters) <|
      seq (t .rparen) <| seq (t .colon) <| seq (r .suite) eps
  | .parameters => commas (r .parameter)
  | .parameter =>
    (act (fun file loc x =>
      return ⟨.mandatory, some (← identifier file x), none, loc⟩) <| t .name)
    <|> (act (fun file loc (x, _, e, _) =>
      return ⟨.optional, some (← identifier file x), some e, loc⟩) <|
      seq (t .name) <| seq (t .equal) <| seq (r (.expr .test)) eps)
    <|> (act (fun file loc (_, x, _) =>
      match x with
      | some x => return ⟨.star, some (← identifier file x), none, loc⟩
      | none => return ⟨.star, none, none, loc⟩) <|
      seq (t .star) <| seq (opt (t .name)) eps)
    <|> (act (fun file loc (_, x, _) =>
      return ⟨.starStar, some (← identifier file x), none, loc⟩) <|
      seq (t .doubleStar) <| seq (t .name) eps)
  | .testList => r (.expr .test) <|> r .testTuple
  | .testTuple => tuple (r (.expr .test))
  | .exprlist => r (.expr (.binary .bitOr)) <|> r .exprTuple
  | .exprTuple => tuple (r (.expr (.binary .bitOr)))
  | .expr l => exprForm l
  | .operator b => operatorForm b
  | .unaryOp =>
    map (fun _ => .pos) (t .plus) <|> map (fun _ => .neg) (t .minus)
      <|> map (fun _ => .invert) (t .tilde)
  | .arguments => commas (r .argument)
  | .argument =>
    (build (fun loc e => .mk .positional e none loc) <| r (.expr .test))
    <|> (act (fun _ loc (x, _, e, _) => keywordArgument loc x e) <|
      seq (r (.expr .test)) <| seq (t .equal) <| seq (r (.expr .test)) eps)
    <|> (build (fun loc (_, e, _) => .mk .star e none loc) <|
      seq (t .star) <| seq (r (.expr .test)) eps)
    <|> (build (fun loc (_, e, _) => .mk .starStar e none loc) <|
      seq (t .doubleStar) <| seq (r (.expr .test)) eps)
  | .subscript => map Subscript.key (r (.expr .test)) <|> r .subscriptSlice
  | .subscriptSlice =>
    map (fun (a, _, b, c) => .range a b (c.bind fun (_, e, _) => e)) <|
      seq (opt (r (.expr .test))) <| seq (t .colon) <| seq (opt (r (.expr .test))) <|
      opt <| seq (t .colon) <| seq (opt (r (.expr .test))) eps
  | .dictEntry =>
    build (fun loc (k, _, v, _) => .mk k v loc) <|
      seq (r (.expr .test)) <| seq (t .colon) <| seq (r (.expr .test)) eps
  | .compClause => r .compFor <|> r .compIf
  | .compFor =>
    build (fun loc (_, x, _, e, _) => .each x e loc) <|
      seq (t .kwFor) <| seq (r .exprlist) <| seq (t .kwIn) <| seq (r (.expr (.binary .or))) eps
  | .compIf =>
    build (fun loc (_, e, _) => .guard e loc) <|
      seq (t .kwIf) <| seq (r (.expr (.binary .or))) eps
  | .number =>
    act (fun file _ tok => integer file tok) <| t .decimal <|> t .hexadecimal <|> t .octal
  | .string =>
    act (fun file _ tok => return .str (← Build.string file tok)) <| t .string <|> t .longString

end Starlark.Reference
