import Starlark.Syntax.Tree

/-! # Identifier occurrences

The identifiers of a tree that name a variable, in the order in which a reader of values meets
them: what is computed first comes first, so a right-hand side precedes its target and the
clauses of a comprehension precede its body. Attribute names and the names of keyword arguments
are no variables.
-/
namespace Starlark

mutual

def Expr.occurrences : Expr → List Identifier
  | .ident x => [x]
  | .int _ _ => []
  | .str _ => []
  | .list es _ _ => Expr.occurrencesAll es
  | .dict ds _ => Entry.occurrencesAll ds
  | .binary x _ y _ => x.occurrences ++ y.occurrences
  | .unary _ x _ => x.occurrences
  | .conditional t c e _ => c.occurrences ++ t.occurrences ++ e.occurrences
  | .dot o _ _ => o.occurrences
  | .index o k _ => o.occurrences ++ k.occurrences
  | .slice o a b c _ =>
    o.occurrences ++ Expr.occurrencesOpt a ++ Expr.occurrencesOpt b ++ Expr.occurrencesOpt c
  | .call f as _ => f.occurrences ++ Argument.occurrencesAll as
  | .comprehension b cs _ _ => Clause.occurrencesAll cs ++ b.occurrences

def Expr.occurrencesAll : List Expr → List Identifier
  | [] => []
  | e :: es => e.occurrences ++ Expr.occurrencesAll es

def Expr.occurrencesOpt : Option Expr → List Identifier
  | none => []
  | some e => e.occurrences

def Entry.occurrences : Entry → List Identifier
  | .mk k v _ => k.occurrences ++ v.occurrences

def Entry.occurrencesAll : List Entry → List Identifier
  | [] => []
  | d :: ds => d.occurrences ++ Entry.occurrencesAll ds

def Argument.occurrences : Argument → List Identifier
  | .mk _ v _ _ => v.occurrences

def Argument.occurrencesAll : List Argument → List Identifier
  | [] => []
  | a :: as => a.occurrences ++ Argument.occurrencesAll as

def Clause.occurrences : Clause → List Identifier
  | .each vars iterable _ => iterable.occurrences ++ vars.occurrences
  | .guard c _ => c.occurrences

def Clause.occurrencesAll : List Clause → List Identifier
  | [] => []
  | c :: cs => c.occurrences ++ Clause.occurrencesAll cs

def Body.occurrences : Body → List Identifier
  | .item e => e.occurrences
  | .entry d => d.occurrences

end

def Parameter.occurrences (p : Parameter) : List Identifier :=
  Expr.occurrencesOpt p.default ++ p.identifier.toList

mutual

def Stmt.occurrences : Stmt → List Identifier
  | .expr e _ => e.occurrences
  | .assign lhs rhs _ => rhs.occurrences ++ lhs.occurrences
  | .augmentedAssign _ lhs rhs _ => rhs.occurrences ++ lhs.occurrences
  | .ifElse c a b _ => c.occurrences ++ Stmt.occurrencesAll a ++ Stmt.occurrencesAll b
  | .forLoop lhs coll b _ => coll.occurrences ++ lhs.occurrences ++ Stmt.occurrencesAll b
  | .define x ps b _ => x :: ps.flatMap Parameter.occurrences ++ Stmt.occurrencesAll b
  | .returns r _ => Expr.occurrencesOpt r
  | .flow _ _ => []
  | .load _ bs _ => bs.map (·.localName)

/-- The occurrences of a block, statement by statement. -/
def Stmt.occurrencesAll : List Stmt → List Identifier
  | [] => []
  | s :: ss => s.occurrences ++ Stmt.occurrencesAll ss

end

end Starlark
