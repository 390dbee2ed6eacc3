import Starlark.Grammar.Derivation
import Starlark.Literal.Numeral
import Starlark.Literal.Text
import Starlark.Syntax.Print

/-! # From derivation to syntax tree

Each nonterminal has a type of meanings and each rule an action on the meanings of its right
side. Actions run from the leaves up and from left to right. They number the identifiers and
note errors that do not stop the parse; only an integer with too many digits, one to be read or
one to be quoted in an error, stops it.
-/
namespace Starlark

/-- What the actions have noted so far. -/
structure Notes where
  nextId : Nat
  errors : List Diagnostic
  events : List Diagnostic

abbrev Build := ExceptT NumeralFault (StateM Notes)

namespace Build

def report (message : String) (loc : Option Location) : Build Unit :=
  modify fun n => { n with errors := n.errors ++ [{ message, loc }] }

def newIdentifier (name : String) (loc : Option Location) : Build Identifier := do
  let n ← get
  set { n with nextId := n.nextId + 1 }
  return ⟨name, n.nextId, loc⟩

def identifier (file : String) (t : Token) : Build Identifier :=
  newIdentifier t.string (t.span.inFile file)

def string (file : String) (t : Token) : Build StringLiteral := do
  let d := decodeString file t.span.start t.text
  modify fun n => { n with errors := n.errors ++ d.errors, events := n.events ++ d.events }
  return ⟨String.ofList d.value, t.span.inFile file⟩

def integer (file : String) (t : Token) : Build Expr := do
  let value ← decodeInteger t.text
  return .int value (t.span.inFile file)

end Build

structure ElifClause where
  condition : Expr
  block : List Stmt
  loc : Option Location

inductive Subscript
  | key (e : Expr)
  | range (start stop step : Option Expr)

@[reducible] def Nonterminal.Meaning : Nonterminal → Type
  | .file | .items | .statement | .line | .smalls | .suite | .block | .elseClause => List Stmt
  | .small => Stmt
  | .augmentedOp | .operator _ => BinaryOp
  | .loadArgs => List LoadBinding
  | .loadArg => LoadBinding
  | .stringToken => Token
  | .elifs => List ElifClause
  | .elifClause => ElifClause
  | .parameters | .parameterRest => List Parameter
  | .parameter => Parameter
  | .exprList | .targetList | .expr _ => Expr
  | .exprRest | .targetRest => List Expr
  | .rest _ => List (BinaryOp × Expr)
  | .unaryOp => UnaryOp
  | .arguments | .argumentRest => List Argument
  | .argument => Argument
  | .subscript => Subscript
  | .entry => Entry
  | .entryRest => List Entry
  | .clauses => List Clause
  | .clause | .compFor => Clause

@[reducible] def Symbol.Meaning : Symbol → Type
  | .t _ => Token
  | .n x => x.Meaning

/-- The meanings of a sequence of symbols. -/
@[reducible] def Meanings : List Symbol → Type
  | [] => Unit
  | s :: ss => s.Meaning × Meanings ss

/-- An `elif` chain as nested conditionals, built from the inside out. -/
def elifChain (clauses : List ElifClause) (elseBlock : List Stmt) : List Stmt :=
  clauses.foldr (fun c block => [.ifElse c.condition c.block block c.loc]) elseBlock

/-- A left-associated chain; every node in it has the location of the whole. -/
def foldChain (loc : Option Location) (x : Expr) (links : List (BinaryOp × Expr)) : Expr :=
  links.foldl (fun e link => .binary e link.1 link.2 loc) x

/-- The placeholder for an argument name that could not be read. -/
def errorName : String := "$error$"

/-- The first argument out of order and what is wrong with it. The order is: positional, then
keyword, then at most one `*` argument, then at most one `**` argument. -/
def misplacedArgument? (seenKeyword seenStar seenStarStar : Bool) :
    List Argument → Option (String × Argument)
  | [] => none
  | a :: rest =>
    if seenStarStar then some ("**kwarg argument is misplaced (**kwarg must be last)", a)
    else match a.kind with
      | .positional =>
        if seenKeyword || seenStar then
          some ("positional argument is misplaced (positional arguments come first)", a)
        else misplacedArgument? seenKeyword seenStar false rest
      | .keyword =>
        if seenStar then
          some ("keyword argument is misplaced "
            ++ "(keyword arguments must be before any *arg or **kwarg)", a)
        else misplacedArgument? true seenStar false rest
      | .star =>
        if seenStar then some ("*arg argument is misplaced", a)
        else misplacedArgument? seenKeyword true false rest
      | .starStar => misplacedArgument? seenKeyword seenStar true rest

namespace Build

def call (loc : Option Location) (f : Expr) (arguments : List Argument) : Build Expr := do
  match misplacedArgument? false false false arguments with
  | some (message, a) => report message a.loc
  | none => pure ()
  return .call f arguments loc

/-- The text of an expression, for an error about it. -/
def quote (e : Expr) : Build String :=
  match e.text? with
  | some text => pure text
  | none => throw .unwritable

/-- A keyword argument whose name is no identifier keeps its place under the placeholder. -/
def keywordArgument (loc : Option Location) (name value : Expr) : Build Argument := do
  match name with
  | .ident x => return .mk .keyword value (some x) loc
  | e =>
    report ("keyword argument must be an identifier, not '" ++ (← quote e) ++ "'") loc
    return .mk .keyword value (some (← newIdentifier errorName e.loc)) loc

def loadBinding (localName : Identifier) (exported : StringLiteral) : Build LoadBinding := do
  if exported.value.toList.head? = some '_' then
    report ("symbol '" ++ exported.value ++ "' is private and cannot be imported") exported.loc
  return ⟨localName, ← newIdentifier exported.value exported.loc, localName.loc⟩

def load (file : String) (loc : Option Location) (source : Token) (bindings : List LoadBinding) :
    Build Stmt := do
  if bindings.isEmpty then report "expected at least one symbol to load" loc
  return .load (← string file source) bindings loc

/-- Parentheses belong to the location of a tuple, and of nothing else. -/
def parenthesised (loc : Option Location) : Expr → Expr
  | .list es true _ => .list es true loc
  | e => e

def subscript (loc : Option Location) (e : Expr) : Subscript → Expr
  | .key k => .index e k loc
  | .range a b c => .slice e a b c loc

/-- The action of each rule, given the span of its tokens. -/
def action (file : String) (span : Option Span) :
    (p : Production) → Meanings p.rhs → Build p.lhs.Meaning :=
  let loc := span.map (·.inFile file)
  fun
  | .fileEmpty => fun _ => pure []
  | .fileItems => fun (ss, _) => pure ss
  | .itemsBlank => fun _ => pure []
  | .itemsStatement => fun (ss, _) => pure ss
  | .itemsMoreBlank => fun (ss, _) => pure ss
  | .itemsMore => fun (ss, ts, _) => pure (ss ++ ts)
  | .statementLine => fun (ss, _) => pure ss
  | .ifElifElse => fun (_, c, _, a, cs, b, _) => pure [.ifElse c a (elifChain cs b) loc]
  | .ifElif => fun (_, c, _, a, cs, _) => pure [.ifElse c a (elifChain cs []) loc]
  | .ifElse => fun (_, c, _, a, b, _) => pure [.ifElse c a b loc]
  | .ifOnly => fun (_, c, _, a, _) => pure [.ifElse c a [] loc]
  | .forLoop => fun (_, x, _, e, _, b, _) => pure [.forLoop x e b loc]
  | .defNone => fun (_, f, _, _, _, b, _) => do return [.define (← identifier file f) [] b loc]
  | .defSome => fun (_, f, _, ps, _, _, b, _) => do
    return [.define (← identifier file f) ps b loc]
  | .lineManySemicolon => fun (s, ss, _) => pure (s :: ss)
  | .lineMany => fun (s, ss, _) => pure (s :: ss)
  | .lineOneSemicolon => fun (s, _) => pure [s]
  | .lineOne => fun (s, _) => pure [s]
  | .smallsOne => fun (_, s, _) => pure [s]
  | .smallsMore => fun (ss, _, s, _) => pure (ss ++ [s])
  | .exprStatement => fun (e, _) => pure (.expr e loc)
  | .assign => fun (x, _, e, _) => pure (.assign x e loc)
  | .augmentedAssign => fun (x, op, e, _) => pure (.augmentedAssign op x e loc)
  | .returnValue => fun (_, e, _) => pure (.returns (some e) loc)
  | .returnNone => fun _ => pure (.returns none loc)
  | .passFlow => fun _ => pure (.flow .pass loc)
  | .breakFlow => fun _ => pure (.flow .breakLoop loc)
  | .continueFlow => fun _ => pure (.flow .continueLoop loc)
  | .loadSomeComma => fun (_, _, s, bs, _) => load file loc s bs
  | .loadSome => fun (_, _, s, bs, _) => load file loc s bs
  | .loadNoneComma => fun (_, _, s, _) => load file loc s []
  | .loadNone => fun (_, _, s, _) => load file loc s []
  | .suiteLine => fun (ss, _) => pure ss
  | .suiteBlock => fun (_, _, ss, _) => pure ss
  | .blockOne => fun (ss, _) => pure ss
  | .blockMore => fun (ss, ts, _) => pure (ss ++ ts)
  | .augmentedAdd => fun _ => pure .add
  | .augmentedSub => fun _ => pure .sub
  | .augmentedMul => fun _ => pure .mul
  | .augmentedDiv => fun _ => pure .div
  | .augmentedFloorDiv => fun _ => pure .floorDiv
  | .augmentedMod => fun _ => pure .mod
  | .augmentedBitAnd => fun _ => pure .bitAnd
  | .augmentedBitOr => fun _ => pure .bitOr
  | .augmentedBitXor => fun _ => pure .bitXor
  | .augmentedShiftLeft => fun _ => pure .shiftLeft
  | .augmentedShiftRight => fun _ => pure .shiftRight
  | .loadArgsOne => fun (_, b, _) => pure [b]
  | .loadArgsMore => fun (bs, _, b, _) => pure (bs ++ [b])
  | .loadPlain => fun (t, _) => do
    let name ← string file t
    loadBinding (← newIdentifier name.value name.loc) name
  | .loadAlias => fun (x, _, t, _) => do
    let name ← string file t
    loadBinding (← identifier file x) name
  | .stringShort => fun (t, _) => pure t
  | .stringLong => fun (t, _) => pure t
  | .elifsOne => fun (c, _) => pure [c]
  | .elifsMore => fun (cs, c, _) => pure (cs ++ [c])
  | .elifClause => fun (_, c, _, b, _) => pure ⟨c, b, loc⟩
  | .elseClause => fun (_, _, b, _) => pure b
  | .parametersManyComma => fun (p, ps, _) => pure (p :: ps)
  | .parametersMany => fun (p, ps, _) => pure (p :: ps)
  | .parametersOneComma => fun (p, _) => pure [p]
  | .parametersOne => fun (p, _) => pure [p]
  | .parameterRestOne => fun (_, p, _) => pure [p]
  | .parameterRestMore => fun (ps, _, p, _) => pure (ps ++ [p])
  | .parameterMandatory => fun (x, _) => do
    return ⟨.mandatory, some (← identifier file x), none, loc⟩
  | .parameterOptional => fun (x, _, e, _) => do
    return ⟨.optional, some (← identifier file x), some e, loc⟩
  | .parameterStar => fun (_, x, _) => do return ⟨.star, some (← identifier file x), none, loc⟩
  | .parameterBareStar => fun _ => pure ⟨.star, none, none, loc⟩
  | .parameterStarStar => fun (_, x, _) => do
    return ⟨.starStar, some (← identifier file x), none, loc⟩
  | .exprListSingle => fun (e, _) => pure e
  | .exprListManyComma => fun (e, es, _) => pure (.list (e :: es) true loc)
  | .exprListMany => fun (e, es, _) => pure (.list (e :: es) true loc)
  | .exprListOneComma => fun (e, _) => pure (.list [e] true loc)
  | .exprRestOne => fun (_, e, _) => pure [e]
  | .exprRestMore => fun (es, _, e, _) => pure (es ++ [e])
  | .targetListSingle => fun (e, _) => pure e
  | .targetListManyComma => fun (e, es, _) => pure (.list (e :: es) true loc)
  | .targetListMany => fun (e, es, _) => pure (.list (e :: es) true loc)
  | .targetListOneComma => fun (e, _) => pure (.list [e] true loc)
  | .targetRestOne => fun (_, e, _) => pure [e]
  | .targetRestMore => fun (es, _, e, _) => pure (es ++ [e])
  | .conditional => fun (a, _, c, _, b, _) => pure (.conditional a c b loc)
  | .testOr => fun (e, _) => pure e
  | .not => fun (_, e, _) => pure (.unary .not e loc)
  | .negationComparison => fun (e, _) => pure e
  | .unary => fun (op, e, _) => pure (.unary op e loc)
  | .unaryPrimary => fun (e, _) => pure e
  | .unaryPlus => fun _ => pure .pos
  | .unaryMinus => fun _ => pure .neg
  | .unaryTilde => fun _ => pure .invert
  | .callNone => fun (f, _) => call loc f []
  | .callSome => fun (f, _, as, _) => call loc f as
  | .index => fun (e, _, k, _) => pure (subscript loc e k)
  | .dot => fun (e, _, x, _) => do return .dot e (← identifier file x) loc
  | .primaryAtom => fun (e, _) => pure e
  | .argumentsManyComma => fun (a, as, _) => pure (a :: as)
  | .argumentsMany => fun (a, as, _) => pure (a :: as)
  | .argumentsOneComma => fun (a, _) => pure [a]
  | .argumentsOne => fun (a, _) => pure [a]
  | .argumentRestOne => fun (_, a, _) => pure [a]
  | .argumentRestMore => fun (as, _, a, _) => pure (as ++ [a])
  | .argumentPositional => fun (e, _) => pure (.mk .positional e none loc)
  | .argumentKeyword => fun (x, _, e, _) => keywordArgument loc x e
  | .argumentStar => fun (_, e, _) => pure (.mk .star e none loc)
  | .argumentStarStar => fun (_, e, _) => pure (.mk .starStar e none loc)
  | .subscriptKey => fun (e, _) => pure (.key e)
  | .sliceStartStopStep => fun (a, _, b, _, c, _) => pure (.range (some a) (some b) (some c))
  | .sliceStartStopColon => fun (a, _, b, _) => pure (.range (some a) (some b) none)
  | .sliceStartStop => fun (a, _, b, _) => pure (.range (some a) (some b) none)
  | .sliceStartStep => fun (a, _, _, c, _) => pure (.range (some a) none (some c))
  | .sliceStartColon => fun (a, _) => pure (.range (some a) none none)
  | .sliceStart => fun (a, _) => pure (.range (some a) none none)
  | .sliceStopStep => fun (_, b, _, c, _) => pure (.range none (some b) (some c))
  | .sliceStopColon => fun (_, b, _) => pure (.range none (some b) none)
  | .sliceStop => fun (_, b, _) => pure (.range none (some b) none)
  | .sliceStep => fun (_, _, c, _) => pure (.range none none (some c))
  | .sliceColon => fun _ => pure (.range none none none)
  | .slice => fun _ => pure (.range none none none)
  | .name => fun (x, _) => do return .ident (← identifier file x)
  | .decimal => fun (t, _) => integer file t
  | .hexadecimal => fun (t, _) => integer file t
  | .octal => fun (t, _) => integer file t
  | .string => fun (t, _) => do return .str (← string file t)
  | .longString => fun (t, _) => do return .str (← string file t)
  | .emptyTuple => fun _ => pure (.list [] true loc)
  | .paren => fun (_, e, _) => pure (parenthesised loc e)
  | .listEmpty => fun _ => pure (.list [] false loc)
  | .listOne => fun (_, e, _) => pure (.list [e] false loc)
  | .listOneComma => fun (_, e, _) => pure (.list [e] false loc)
  | .listMany => fun (_, e, es, _) => pure (.list (e :: es) false loc)
  | .listManyComma => fun (_, e, es, _) => pure (.list (e :: es) false loc)
  | .listCompFor => fun (_, e, c, _) => pure (.comprehension (.item e) [c] false loc)
  | .listCompClauses => fun (_, e, c, cs, _) =>
    pure (.comprehension (.item e) (c :: cs) false loc)
  | .dictEmpty => fun _ => pure (.dict [] loc)
  | .dictOne => fun (_, d, _) => pure (.dict [d] loc)
  | .dictOneComma => fun (_, d, _) => pure (.dict [d] loc)
  | .dictMany => fun (_, d, ds, _) => pure (.dict (d :: ds) loc)
  | .dictManyComma => fun (_, d, ds, _) => pure (.dict (d :: ds) loc)
  | .dictCompFor => fun (_, d, c, _) => pure (.comprehension (.entry d) [c] true loc)
  | .dictCompClauses => fun (_, d, c, cs, _) =>
    pure (.comprehension (.entry d) (c :: cs) true loc)
  | .entry => fun (k, _, v, _) => pure (.mk k v loc)
  | .entryRestOne => fun (_, d, _) => pure [d]
  | .entryRestMore => fun (ds, _, d, _) => pure (ds ++ [d])
  | .clausesOne => fun (c, _) => pure [c]
  | .clausesMore => fun (cs, c, _) => pure (cs ++ [c])
  | .clauseFor => fun (c, _) => pure c
  | .clauseIf => fun (_, e, _) => pure (.guard e loc)
  | .compFor => fun (_, x, _, e, _) => pure (.each x e loc)
  | .chain _ => fun (x, links, _) => pure (foldChain loc x links)
  | .single _ => fun (e, _) => pure e
  | .restOne _ => fun (op, e, _) => pure [(op, e)]
  | .restMore _ => fun (links, op, e, _) => pure (links ++ [(op, e)])
  | .operator op => fun _ => pure op

end Build

mutual

/-- The meaning of a tree, with the span of its tokens. -/
def Tree.build (file : String) : {s : Symbol} → Tree s → Build (s.Meaning × Option Span)
  | _, .leaf t => pure (t, some t.span)
  | _, .node p xs => do
    let (values, span) ← xs.build file
    return (← Build.action file span p values, span)

def Forest.build (file : String) :
    {ss : List Symbol} → Forest ss → Build (Meanings ss × Option Span)
  | _, .nil => pure ((), none)
  | _, .cons x xs => do
    let (v, a) ← x.build file
    let (vs, b) ← xs.build file
    return ((v, vs), Span.join a b)

end

end Starlark
