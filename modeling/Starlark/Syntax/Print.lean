import Starlark.Literal.Numeral
import Starlark.Syntax.Tree

/-! # Expressions as source text

The text by which diagnostics quote an expression. No parentheses are added, so the text reads
back as the same tree only where the tree needs none. An expression with an integer of too many
digits has no text.
-/
namespace Starlark

def commaSeparated (items : List String) : String := ", ".intercalate items

/-- One character of a quoted text: backslash, double quote and line feed are escaped. -/
def escapeChar : Char → List Char
  | '\\' => ['\\', '\\']
  | '"' => ['\\', '"']
  | '\n' => ['\\', 'n']
  | c => [c]

/-- A text in double quotes. -/
def quoted (s : String) : String :=
  String.ofList ('"' :: s.toList.flatMap escapeChar ++ ['"'])

/-- The decimal text of an integer. No more digits are written than a numeral may have. -/
def integerText? (n : Int) : Option String :=
  if n.natAbs < Nat.pow 10 maxDecimalDigits then some (toString n) else none

mutual

@[simp] def Expr.text? : Expr → Option String
  | .ident x => some x.name
  | .int n _ => integerText? n
  | .str s => some (quoted s.value)
  | .list [e] true _ => do return "(" ++ (← e.text?) ++ ",)"
  | .list es true _ => do return "(" ++ commaSeparated (← Expr.texts? es) ++ ")"
  | .list es false _ => do return "[" ++ commaSeparated (← Expr.texts? es) ++ "]"
  | .dict ds _ => do return "\x7b" ++ commaSeparated (← Entry.texts? ds) ++ "\x7d"
  | .binary x op y _ => do return (← x.text?) ++ " " ++ op.text ++ " " ++ (← y.text?)
  | .unary .not x _ => do return "not " ++ (← x.text?)
  | .unary op x _ => do return op.text ++ (← x.text?)
  | .conditional t c e _ => do
    return (← t.text?) ++ " if " ++ (← c.text?) ++ " else " ++ (← e.text?)
  | .dot o f _ => do return (← o.text?) ++ "." ++ f.name
  | .index o k _ => do return (← o.text?) ++ "[" ++ (← k.text?) ++ "]"
  | .slice o a b none _ => do
    return (← o.text?) ++ "[" ++ (← Expr.textOrEmpty? a) ++ ":" ++ (← Expr.textOrEmpty? b) ++ "]"
  | .slice o a b (some c) _ => do
    return (← o.text?) ++ "[" ++ (← Expr.textOrEmpty? a) ++ ":" ++ (← Expr.textOrEmpty? b) ++ ":"
      ++ (← c.text?) ++ "]"
  | .call f as _ => do return (← f.text?) ++ "(" ++ commaSeparated (← Argument.texts? as) ++ ")"
  | .comprehension b cs true _ => do
    return "\x7b" ++ (← b.text?) ++ (← Clause.tailText? cs) ++ "\x7d"
  | .comprehension b cs false _ => do
    return "[" ++ (← b.text?) ++ (← Clause.tailText? cs) ++ "]"

@[simp] def Expr.texts? : List Expr → Option (List String)
  | [] => some []
  | e :: es => do return (← e.text?) :: (← Expr.texts? es)

@[simp] def Expr.textOrEmpty? : Option Expr → Option String
  | none => some ""
  | some e => e.text?

@[simp] def Entry.text? : Entry → Option String
  | .mk k v _ => do return (← k.text?) ++ ": " ++ (← v.text?)

@[simp] def Entry.texts? : List Entry → Option (List String)
  | [] => some []
  | d :: ds => do return (← d.text?) :: (← Entry.texts? ds)

@[simp] def Argument.text? : Argument → Option String
  | .mk .positional v _ _ => v.text?
  | .mk .keyword v (some x) _ => do return x.name ++ "=" ++ (← v.text?)
  | .mk .keyword v none _ => do return "None=" ++ (← v.text?)
  | .mk .star v _ _ => do return "*" ++ (← v.text?)
  | .mk .starStar v _ _ => do return "**" ++ (← v.text?)

@[simp] def Argument.texts? : List Argument → Option (List String)
  | [] => some []
  | a :: as => do return (← a.text?) :: (← Argument.texts? as)

@[simp] def Clause.text? : Clause → Option String
  | .each vars iterable _ => do return "for " ++ (← vars.text?) ++ " in " ++ (← iterable.text?)
  | .guard c _ => do return "if " ++ (← c.text?)

/-- The clauses, each after a blank. -/
@[simp] def Clause.tailText? : List Clause → Option String
  | [] => some ""
  | c :: cs => do return " " ++ (← c.text?) ++ (← Clause.tailText? cs)

@[simp] def Body.text? : Body → Option String
  | .item e => e.text?
  | .entry d => d.text?

end

end Starlark
