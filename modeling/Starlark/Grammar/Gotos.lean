import Starlark.Grammar.Production

/-! # Gotos of the parsing automaton

For each state, the nonterminals that it continues on and the states they lead to.
-/
namespace Starlark.Automaton

/-- The gotos of each state. -/
def gotos : List (List (Nonterminal × Nat)) := [
  [(.file, 1), (.items, 2), (.statement, 4), (.line, 5), (.small, 9), (.exprList, 10),
   (.expr .test, 16), (.expr (.binary .or), 17), (.expr (.binary .and), 18),
   (.expr (.binary .comparison), 21), (.expr (.binary .bitOr), 22), (.expr (.binary .bitXor), 23),
   (.expr (.binary .bitAnd), 24), (.expr (.binary .shift), 25), (.expr (.binary .additive), 26),
   (.expr (.binary .multiplicative), 27), (.expr .negation, 19), (.expr .unary, 28),
   (.unaryOp, 29), (.expr .primary, 30), (.expr .atom, 34)],
  [],
  [(.statement, 45), (.line, 5), (.small, 9), (.exprList, 10), (.expr .test, 16),
   (.expr (.binary .or), 17), (.expr (.binary .and), 18), (.expr (.binary .comparison), 21),
   (.expr (.binary .bitOr), 22), (.expr (.binary .bitXor), 23), (.expr (.binary .bitAnd), 24),
   (.expr (.binary .shift), 25), (.expr (.binary .additive), 26),
   (.expr (.binary .multiplicative), 27), (.expr .negation, 19), (.expr .unary, 28),
   (.unaryOp, 29), (.expr .primary, 30), (.expr .atom, 34)],
  [],
  [],
  [],
  [(.expr .test, 46), (.expr (.binary .or), 17), (.expr (.binary .and), 18),
   (.expr (.binary .comparison), 21), (.expr (.binary .bitOr), 22), (.expr (.binary .bitXor), 23),
   (.expr (.binary .bitAnd), 24), (.expr (.binary .shift), 25), (.expr (.binary .additive), 26),
   (.expr (.binary .multiplicative), 27), (.expr .negation, 19), (.expr .unary, 28),
   (.unaryOp, 29), (.expr .primary, 30), (.expr .atom, 34)],
  [(.targetList, 47), (.expr (.binary .bitOr), 48), (.expr (.binary .bitXor), 23),
   (.expr (.binary .bitAnd), 24), (.expr (.binary .shift), 25), (.expr (.binary .additive), 26),
   (.expr (.binary .multiplicative), 27), (.expr .unary, 28), (.unaryOp, 29), (.expr .primary, 30),
   (.expr .atom, 34)],
  [],
  [(.smalls, 50)],
  [(.augmentedOp, 54)],
  [(.exprList, 66), (.expr .test, 16), (.expr (.binary .or), 17), (.expr (.binary .and), 18),
   (.expr (.binary .comparison), 21), (.expr (.binary .bitOr), 22), (.expr (.binary .bitXor), 23),
   (.expr (.binary .bitAnd), 24), (.expr (.binary .shift), 25), (.expr (.binary .additive), 26),
   (.expr (.binary .multiplicative), 27), (.expr .negation, 19), (.expr .unary, 28),
   (.unaryOp, 29), (.expr .primary, 30), (.expr .atom, 34)],
  [],
  [],
  [],
  [],
  [(.exprRest, 68)],
  [],
  [(.rest .or, 71), (.operator .or, 72)],
  [(.rest .and, 74), (.operator .and, 75)],
  [(.expr (.binary .comparison), 21), (.expr (.binary .bitOr), 22), (.expr (.binary .bitXor), 23),
   (.expr (.binary .bitAnd), 24), (.expr (.binary .shift), 25), (.expr (.binary .additive), 26),
   (.expr (.binary .multiplicative), 27), (.expr .negation, 77), (.expr .unary, 28),
   (.unaryOp, 29), (.expr .primary, 30), (.expr .atom, 34)],
  [],
  [(.rest .comparison, 78), (.operator .comparison, 79)],
  [(.rest .bitOr, 88), (.operator .bitOr, 89)],
  [(.rest .bitXor, 91), (.operator .bitXor, 92)],
  [(.rest .bitAnd, 94), (.operator .bitAnd, 95)],
  [(.rest .shift, 97), (.operator .shift, 98)],
  [(.rest .additive, 101), (.operator .additive, 102)],
  [(.rest .multiplicative, 105), (.operator .multiplicative, 106)],
  [(.expr .unary, 111), (.unaryOp, 29), (.expr .primary, 30), (.expr .atom, 34)],
  [],
  [],
  [],
  [],
  [],
  [],
  [],
  [],
  [],
  [],
  [],
  [(.exprList, 116), (.expr .test, 16), (.expr (.binary .or), 17), (.expr (.binary .and), 18),
   (.expr (.binary .comparison), 21), (.expr (.binary .bitOr), 22), (.expr (.binary .bitXor), 23),
   (.expr (.binary .bitAnd), 24), (.expr (.binary .shift), 25), (.expr (.binary .additive), 26),
   (.expr (.binary .multiplicative), 27), (.expr .negation, 19), (.expr .unary, 28),
   (.unaryOp, 29), (.expr .primary, 30), (.expr .atom, 34)],
  [(.expr .test, 118), (.expr (.binary .or), 17), (.expr (.binary .and), 18),
   (.expr (.binary .comparison), 21), (.expr (.binary .bitOr), 22), (.expr (.binary .bitXor), 23),
   (.expr (.binary .bitAnd), 24), (.expr (.binary .shift), 25), (.expr (.binary .additive), 26),
   (.expr (.binary .multiplicative), 27), (.expr .negation, 19), (.expr .unary, 28),
   (.unaryOp, 29), (.expr .primary, 30), (.expr .atom, 34)],
  [(.expr .test, 121), (.expr (.binary .or), 17), (.expr (.binary .and), 18),
   (.expr (.binary .comparison), 21), (.expr (.binary .bitOr), 22), (.expr (.binary .bitXor), 23),
   (.expr (.binary .bitAnd), 24), (.expr (.binary .shift), 25), (.expr (.binary .additive), 26),
   (.expr (.binary .multiplicative), 27), (.expr .negation, 19), (.expr .unary, 28),
   (.unaryOp, 29), (.expr .primary, 30), (.expr .atom, 34), (.entry, 120)],
  [],
  [],
  [],
  [],
  [(.targetRest, 124)],
  [],
  [],
  [(.small, 130), (.exprList, 10), (.expr .test, 16), (.expr (.binary .or), 17),
   (.expr (.binary .and), 18), (.expr (.binary .comparison), 21), (.expr (.binary .bitOr), 22),
   (.expr (.binary .bitXor), 23), (.expr (.binary .bitAnd), 24), (.expr (.binary .shift), 25),
   (.expr (.binary .additive), 26), (.expr (.binary .multiplicative), 27), (.expr .negation, 19),
   (.expr .unary, 28), (.unaryOp, 29), (.expr .primary, 30), (.expr .atom, 34)],
  [],
  [(.exprList, 131), (.expr .test, 16), (.expr (.binary .or), 17), (.expr (.binary .and), 18),
   (.expr (.binary .comparison), 21), (.expr (.binary .bitOr), 22), (.expr (.binary .bitXor), 23),
   (.expr (.binary .bitAnd), 24), (.expr (.binary .shift), 25), (.expr (.binary .additive), 26),
   (.expr (.binary .multiplicative), 27), (.expr .negation, 19), (.expr .unary, 28),
   (.unaryOp, 29), (.expr .primary, 30), (.expr .atom, 34)],
  [(.exprList, 132), (.expr .test, 16), (.expr (.binary .or), 17), (.expr (.binary .and), 18),
   (.expr (.binary .comparison), 21), (.expr (.binary .bitOr), 22), (.expr (.binary .bitXor), 23),
   (.expr (.binary .bitAnd), 24), (.expr (.binary .shift), 25), (.expr (.binary .additive), 26),
   (.expr (.binary .multiplicative), 27), (.expr .negation, 19), (.expr .unary, 28),
   (.unaryOp, 29), (.expr .primary, 30), (.expr .atom, 34)],
  [],
  [],
  [],
  [],
  [],
  [],
  [],
  [],
  [],
  [],
  [],
  [],
  [(.stringToken, 133)],
  [],
  [(.expr .test, 137), (.expr (.binary .or), 17), (.expr (.binary .and), 18),
   (.expr (.binary .comparison), 21), (.expr (.binary .bitOr), 22), (.expr (.binary .bitXor), 23),
   (.expr (.binary .bitAnd), 24), (.expr (.binary .shift), 25), (.expr (.binary .additive), 26),
   (.expr (.binary .multiplicative), 27), (.expr .negation, 19), (.expr .unary, 28),
   (.unaryOp, 29), (.expr .primary, 30), (.expr .atom, 34)],
  [(.expr (.binary .or), 138), (.expr (.binary .and), 18), (.expr (.binary .comparison), 21),
   (.expr (.binary .bitOr), 22), (.expr (.binary .bitXor), 23), (.expr (.binary .bitAnd), 24),
   (.expr (.binary .shift), 25), (.expr (.binary .additive), 26),
   (.expr (.binary .multiplicative), 27), (.expr .negation, 19), (.expr .unary, 28),
   (.unaryOp, 29), (.expr .primary, 30), (.expr .atom, 34)],
  [(.operator .or, 139)],
  [(.expr (.binary .and), 140), (.expr (.binary .comparison), 21), (.expr (.binary .bitOr), 22),
   (.expr (.binary .bitXor), 23), (.expr (.binary .bitAnd), 24), (.expr (.binary .shift), 25),
   (.expr (.binary .additive), 26), (.expr (.binary .multiplicative), 27), (.expr .negation, 19),
   (.expr .unary, 28), (.unaryOp, 29), (.expr .primary, 30), (.expr .atom, 34)],
  [],
  [(.operator .and, 141)],
  [(.expr (.binary .comparison), 21), (.expr (.binary .bitOr), 22), (.expr (.binary .bitXor), 23),
   (.expr (.binary .bitAnd), 24), (.expr (.binary .shift), 25), (.expr (.binary .additive), 26),
   (.expr (.binary .multiplicative), 27), (.expr .negation, 142), (.expr .unary, 28),
   (.unaryOp, 29), (.expr .primary, 30), (.expr .atom, 34)],
  [],
  [],
  [(.operator .comparison, 143)],
  [(.expr (.binary .bitOr), 144), (.expr (.binary .bitXor), 23), (.expr (.binary .bitAnd), 24),
   (.expr (.binary .shift), 25), (.expr (.binary .additive), 26),
   (.expr (.binary .multiplicative), 27), (.expr .unary, 28), (.unaryOp, 29), (.expr .primary, 30),
   (.expr .atom, 34)],
  [],
  [],
  [],
  [],
  [],
  [],
  [],
  [],
  [(.operator .bitOr, 146)],
  [(.expr (.binary .bitXor), 147), (.expr (.binary .bitAnd), 24), (.expr (.binary .shift), 25),
   (.expr (.binary .additive), 26), (.expr (.binary .multiplicative), 27), (.expr .unary, 28),
   (.unaryOp, 29), (.expr .primary, 30), (.expr .atom, 34)],
  [],
  [(.operator .bitXor, 148)],
  [(.expr (.binary .bitAnd), 149), (.expr (.binary .shift), 25), (.expr (.binary .additive), 26),
   (.expr (.binary .multiplicative), 27), (.expr .unary, 28), (.unaryOp, 29), (.expr .primary, 30),
   (.expr .atom, 34)],
  [],
  [(.operator .bitAnd, 150)],
  [(.expr (.binary .shift), 151), (.expr (.binary .additive), 26),
   (.expr (.binary .multiplicative), 27), (.expr .unary, 28), (.unaryOp, 29), (.expr .primary, 30),
   (.expr .atom, 34)],
  [],
  [(.operator .shift, 152)],
  [(.expr (.binary .additive), 153), (.expr (.binary .multiplicative), 27), (.expr .unary, 28),
   (.unaryOp, 29), (.expr .primary, 30), (.expr .atom, 34)],
  [],
  [],
  [(.operator .additive, 154)],
  [(.expr (.binary .multiplicative), 155), (.expr .unary, 28), (.unaryOp, 29),
   (.expr .primary, 30), (.expr .atom, 34)],
  [],
  [],
  [(.operator .multiplicative, 156)],
  [(.expr .unary, 157), (.unaryOp, 29), (.expr .primary, 30), (.expr .atom, 34)],
  [],
  [],
  [],
  [],
  [],
  [(.expr .test, 161), (.expr (.binary .or), 17), (.expr (.binary .and), 18),
   (.expr (.binary .comparison), 21), (.expr (.binary .bitOr), 22), (.expr (.binary .bitXor), 23),
   (.expr (.binary .bitAnd), 24), (.expr (.binary .shift), 25), (.expr (.binary .additive), 26),
   (.expr (.binary .multiplicative), 27), (.expr .negation, 19), (.expr .unary, 28),
   (.unaryOp, 29), (.expr .primary, 30), (.arguments, 159), (.argument, 160), (.expr .atom, 34)],
  [(.expr .test, 165), (.expr (.binary .or), 17), (.expr (.binary .and), 18),
   (.expr (.binary .comparison), 21), (.expr (.binary .bitOr), 22), (.expr (.binary .bitXor), 23),
   (.expr (.binary .bitAnd), 24), (.expr (.binary .shift), 25), (.expr (.binary .additive), 26),
   (.expr (.binary .multiplicative), 27), (.expr .negation, 19), (.expr .unary, 28),
   (.unaryOp, 29), (.expr .primary, 30), (.subscript, 164), (.expr .atom, 34)],
  [],
  [],
  [],
  [],
  [(.exprRest, 171), (.compFor, 172)],
  [],
  [(.entryRest, 176), (.compFor, 177)],
  [],
  [(.line, 180), (.small, 9), (.suite, 179), (.exprList, 10), (.expr .test, 16),
   (.expr (.binary .or), 17), (.expr (.binary .and), 18), (.expr (.binary .comparison), 21),
   (.expr (.binary .bitOr), 22), (.expr (.binary .bitXor), 23), (.expr (.binary .bitAnd), 24),
   (.expr (.binary .shift), 25), (.expr (.binary .additive), 26),
   (.expr (.binary .multiplicative), 27), (.expr .negation, 19), (.expr .unary, 28),
   (.unaryOp, 29), (.expr .primary, 30), (.expr .atom, 34)],
  [(.exprList, 182), (.expr .test, 16), (.expr (.binary .or), 17), (.expr (.binary .and), 18),
   (.expr (.binary .comparison), 21), (.expr (.binary .bitOr), 22), (.expr (.binary .bitXor), 23),
   (.expr (.binary .bitAnd), 24), (.expr (.binary .shift), 25), (.expr (.binary .additive), 26),
   (.expr (.binary .multiplicative), 27), (.expr .negation, 19), (.expr .unary, 28),
   (.unaryOp, 29), (.expr .primary, 30), (.expr .atom, 34)],
  [],
  [(.expr (.binary .bitOr), 184), (.expr (.binary .bitXor), 23), (.expr (.binary .bitAnd), 24),
   (.expr (.binary .shift), 25), (.expr (.binary .additive), 26),
   (.expr (.binary .multiplicative), 27), (.expr .unary, 28), (.unaryOp, 29), (.expr .primary, 30),
   (.expr .atom, 34)],
  [(.parameters, 186), (.parameter, 187)],
  [(.small, 192), (.exprList, 10), (.expr .test, 16), (.expr (.binary .or), 17),
   (.expr (.binary .and), 18), (.expr (.binary .comparison), 21), (.expr (.binary .bitOr), 22),
   (.expr (.binary .bitXor), 23), (.expr (.binary .bitAnd), 24), (.expr (.binary .shift), 25),
   (.expr (.binary .additive), 26), (.expr (.binary .multiplicative), 27), (.expr .negation, 19),
   (.expr .unary, 28), (.unaryOp, 29), (.expr .primary, 30), (.expr .atom, 34)],
  [],
  [],
  [],
  [],
  [],
  [(.loadArgs, 193)],
  [],
  [],
  [(.expr .test, 196), (.expr (.binary .or), 17), (.expr (.binary .and), 18),
   (.expr (.binary .comparison), 21), (.expr (.binary .bitOr), 22), (.expr (.binary .bitXor), 23),
   (.expr (.binary .bitAnd), 24), (.expr (.binary .shift), 25), (.expr (.binary .additive), 26),
   (.expr (.binary .multiplicative), 27), (.expr .negation, 19), (.expr .unary, 28),
   (.unaryOp, 29), (.expr .primary, 30), (.expr .atom, 34)],
  [],
  [],
  [(.expr (.binary .and), 198), (.expr (.binary .comparison), 21), (.expr (.binary .bitOr), 22),
   (.expr (.binary .bitXor), 23), (.expr (.binary .bitAnd), 24), (.expr (.binary .shift), 25),
   (.expr (.binary .additive), 26), (.expr (.binary .multiplicative), 27), (.expr .negation, 19),
   (.expr .unary, 28), (.unaryOp, 29), (.expr .primary, 30), (.expr .atom, 34)],
  [],
  [(.expr (.binary .comparison), 21), (.expr (.binary .bitOr), 22), (.expr (.binary .bitXor), 23),
   (.expr (.binary .bitAnd), 24), (.expr (.binary .shift), 25), (.expr (.binary .additive), 26),
   (.expr (.binary .multiplicative), 27), (.expr .negation, 199), (.expr .unary, 28),
   (.unaryOp, 29), (.expr .primary, 30), (.expr .atom, 34)],
  [],
  [(.expr (.binary .bitOr), 200), (.expr (.binary .bitXor), 23), (.expr (.binary .bitAnd), 24),
   (.expr (.binary .shift), 25), (.expr (.binary .additive), 26),
   (.expr (.binary .multiplicative), 27), (.expr .unary, 28), (.unaryOp, 29), (.expr .primary, 30),
   (.expr .atom, 34)],
  [],
  [],
  [(.expr (.binary .bitXor), 201), (.expr (.binary .bitAnd), 24), (.expr (.binary .shift), 25),
   (.expr (.binary .additive), 26), (.expr (.binary .multiplicative), 27), (.expr .unary, 28),
   (.unaryOp, 29), (.expr .primary, 30), (.expr .atom, 34)],
  [],
  [(.expr (.binary .bitAnd), 202), (.expr (.binary .shift), 25), (.expr (.binary .additive), 26),
   (.expr (.binary .multiplicative), 27), (.expr .unary, 28), (.unaryOp, 29), (.expr .primary, 30),
   (.expr .atom, 34)],
  [],
  [(.expr (.binary .shift), 203), (.expr (.binary .additive), 26),
   (.expr (.binary .multiplicative), 27), (.expr .unary, 28), (.unaryOp, 29), (.expr .primary, 30),
   (.expr .atom, 34)],
  [],
  [(.expr (.binary .additive), 204), (.expr (.binary .multiplicative), 27), (.expr .unary, 28),
   (.unaryOp, 29), (.expr .primary, 30), (.expr .atom, 34)],
  [],
  [(.expr (.binary .multiplicative), 205), (.expr .unary, 28), (.unaryOp, 29),
   (.expr .primary, 30), (.expr .atom, 34)],
  [],
  [(.expr .unary, 206), (.unaryOp, 29), (.expr .primary, 30), (.expr .atom, 34)],
  [],
  [],
  [],
  [(.argumentRest, 208)],
  [],
  [(.expr .test, 211), (.expr (.binary .or), 17), (.expr (.binary .and), 18),
   (.expr (.binary .comparison), 21), (.expr (.binary .bitOr), 22), (.expr (.binary .bitXor), 23),
   (.expr (.binary .bitAnd), 24), (.expr (.binary .shift), 25), (.expr (.binary .additive), 26),
   (.expr (.binary .multiplicative), 27), (.expr .negation, 19), (.expr .unary, 28),
   (.unaryOp, 29), (.expr .primary, 30), (.expr .atom, 34)],
  [(.expr .test, 212), (.expr (.binary .or), 17), (.expr (.binary .and), 18),
   (.expr (.binary .comparison), 21), (.expr (.binary .bitOr), 22), (.expr (.binary .bitXor), 23),
   (.expr (.binary .bitAnd), 24), (.expr (.binary .shift), 25), (.expr (.binary .additive), 26),
   (.expr (.binary .multiplicative), 27), (.expr .negation, 19), (.expr .unary, 28),
   (.unaryOp, 29), (.expr .primary, 30), (.expr .atom, 34)],
  [],
  [],
  [(.expr .test, 215), (.expr (.binary .or), 17), (.expr (.binary .and), 18),
   (.expr (.binary .comparison), 21), (.expr (.binary .bitOr), 22), (.expr (.binary .bitXor), 23),
   (.expr (.binary .bitAnd), 24), (.expr (.binary .shift), 25), (.expr (.binary .additive), 26),
   (.expr (.binary .multiplicative), 27), (.expr .negation, 19), (.expr .unary, 28),
   (.unaryOp, 29), (.expr .primary, 30), (.expr .atom, 34)],
  [],
  [],
  [],
  [(.expr .test, 137), (.expr (.binary .or), 17), (.expr (.binary .and), 18),
   (.expr (.binary .comparison), 21), (.expr (.binary .bitOr), 22), (.expr (.binary .bitXor), 23),
   (.expr (.binary .bitAnd), 24), (.expr (.binary .shift), 25), (.expr (.binary .additive), 26),
   (.expr (.binary .multiplicative), 27), (.expr .negation, 19), (.expr .unary, 28),
   (.unaryOp, 29), (.expr .primary, 30), (.expr .atom, 34)],
  [],
  [(.clauses, 221), (.clause, 222), (.compFor, 223)],
  [(.targetList, 225), (.expr (.binary .bitOr), 48), (.expr (.binary .bitXor), 23),
   (.expr (.binary .bitAnd), 24), (.expr (.binary .shift), 25), (.expr (.binary .additive), 26),
   (.expr (.binary .multiplicative), 27), (.expr .unary, 28), (.unaryOp, 29), (.expr .primary, 30),
   (.expr .atom, 34)],
  [],
  [(.expr .test, 121), (.expr (.binary .or), 17), (.expr (.binary .and), 18),
   (.expr (.binary .comparison), 21), (.expr (.binary .bitOr), 22), (.expr (.binary .bitXor), 23),
   (.expr (.binary .bitAnd), 24), (.expr (.binary .shift), 25), (.expr (.binary .additive), 26),
   (.expr (.binary .multiplicative), 27), (.expr .negation, 19), (.expr .unary, 28),
   (.unaryOp, 29), (.expr .primary, 30), (.expr .atom, 34), (.entry, 227)],
  [],
  [(.clauses, 231), (.clause, 222), (.compFor, 223)],
  [(.expr .test, 232), (.expr (.binary .or), 17), (.expr (.binary .and), 18),
   (.expr (.binary .comparison), 21), (.expr (.binary .bitOr), 22), (.expr (.binary .bitXor), 23),
   (.expr (.binary .bitAnd), 24), (.expr (.binary .shift), 25), (.expr (.binary .additive), 26),
   (.expr (.binary .multiplicative), 27), (.expr .negation, 19), (.expr .unary, 28),
   (.unaryOp, 29), (.expr .primary, 30), (.expr .atom, 34)],
  [(.elifs, 233), (.elifClause, 235), (.elseClause, 234)],
  [],
  [],
  [],
  [(.expr (.binary .bitOr), 240), (.expr (.binary .bitXor), 23), (.expr (.binary .bitAnd), 24),
   (.expr (.binary .shift), 25), (.expr (.binary .additive), 26),
   (.expr (.binary .multiplicative), 27), (.expr .unary, 28), (.unaryOp, 29), (.expr .primary, 30),
   (.expr .atom, 34)],
  [],
  [],
  [],
  [(.parameterRest, 243)],
  [],
  [],
  [],
  [],
  [],
  [],
  [(.loadArg, 251), (.stringToken, 252)],
  [],
  [],
  [(.expr .test, 254), (.expr (.binary .or), 17), (.expr (.binary .and), 18),
   (.expr (.binary .comparison), 21), (.expr (.binary .bitOr), 22), (.expr (.binary .bitXor), 23),
   (.expr (.binary .bitAnd), 24), (.expr (.binary .shift), 25), (.expr (.binary .additive), 26),
   (.expr (.binary .multiplicative), 27), (.expr .negation, 19), (.expr .unary, 28),
   (.unaryOp, 29), (.expr .primary, 30), (.expr .atom, 34)],
  [],
  [],
  [],
  [],
  [],
  [],
  [],
  [],
  [],
  [],
  [],
  [(.expr .test, 161), (.expr (.binary .or), 17), (.expr (.binary .and), 18),
   (.expr (.binary .comparison), 21), (.expr (.binary .bitOr), 22), (.expr (.binary .bitXor), 23),
   (.expr (.binary .bitAnd), 24), (.expr (.binary .shift), 25), (.expr (.binary .additive), 26),
   (.expr (.binary .multiplicative), 27), (.expr .negation, 19), (.expr .unary, 28),
   (.unaryOp, 29), (.expr .primary, 30), (.argument, 256), (.expr .atom, 34)],
  [(.expr .test, 257), (.expr (.binary .or), 17), (.expr (.binary .and), 18),
   (.expr (.binary .comparison), 21), (.expr (.binary .bitOr), 22), (.expr (.binary .bitXor), 23),
   (.expr (.binary .bitAnd), 24), (.expr (.binary .shift), 25), (.expr (.binary .additive), 26),
   (.expr (.binary .multiplicative), 27), (.expr .negation, 19), (.expr .unary, 28),
   (.unaryOp, 29), (.expr .primary, 30), (.expr .atom, 34)],
  [],
  [],
  [],
  [(.expr .test, 258), (.expr (.binary .or), 17), (.expr (.binary .and), 18),
   (.expr (.binary .comparison), 21), (.expr (.binary .bitOr), 22), (.expr (.binary .bitXor), 23),
   (.expr (.binary .bitAnd), 24), (.expr (.binary .shift), 25), (.expr (.binary .additive), 26),
   (.expr (.binary .multiplicative), 27), (.expr .negation, 19), (.expr .unary, 28),
   (.unaryOp, 29), (.expr .primary, 30), (.expr .atom, 34)],
  [],
  [(.expr .test, 261), (.expr (.binary .or), 17), (.expr (.binary .and), 18),
   (.expr (.binary .comparison), 21), (.expr (.binary .bitOr), 22), (.expr (.binary .bitXor), 23),
   (.expr (.binary .bitAnd), 24), (.expr (.binary .shift), 25), (.expr (.binary .additive), 26),
   (.expr (.binary .multiplicative), 27), (.expr .negation, 19), (.expr .unary, 28),
   (.unaryOp, 29), (.expr .primary, 30), (.expr .atom, 34)],
  [],
  [(.expr .test, 196), (.expr (.binary .or), 17), (.expr (.binary .and), 18),
   (.expr (.binary .comparison), 21), (.expr (.binary .bitOr), 22), (.expr (.binary .bitXor), 23),
   (.expr (.binary .bitAnd), 24), (.expr (.binary .shift), 25), (.expr (.binary .additive), 26),
   (.expr (.binary .multiplicative), 27), (.expr .negation, 19), (.expr .unary, 28),
   (.unaryOp, 29), (.expr .primary, 30), (.expr .atom, 34)],
  [],
  [],
  [(.clause, 264), (.compFor, 223)],
  [],
  [],
  [(.expr (.binary .or), 265), (.expr (.binary .and), 18), (.expr (.binary .comparison), 21),
   (.expr (.binary .bitOr), 22), (.expr (.binary .bitXor), 23), (.expr (.binary .bitAnd), 24),
   (.expr (.binary .shift), 25), (.expr (.binary .additive), 26),
   (.expr (.binary .multiplicative), 27), (.expr .negation, 19), (.expr .unary, 28),
   (.unaryOp, 29), (.expr .primary, 30), (.expr .atom, 34)],
  [],
  [],
  [],
  [],
  [(.expr .test, 121), (.expr (.binary .or), 17), (.expr (.binary .and), 18),
   (.expr (.binary .comparison), 21), (.expr (.binary .bitOr), 22), (.expr (.binary .bitXor), 23),
   (.expr (.binary .bitAnd), 24), (.expr (.binary .shift), 25), (.expr (.binary .additive), 26),
   (.expr (.binary .multiplicative), 27), (.expr .negation, 19), (.expr .unary, 28),
   (.unaryOp, 29), (.expr .primary, 30), (.expr .atom, 34), (.entry, 268)],
  [],
  [(.clause, 264), (.compFor, 223)],
  [],
  [(.elifClause, 271), (.elseClause, 270)],
  [],
  [],
  [],
  [(.expr .test, 273), (.expr (.binary .or), 17), (.expr (.binary .and), 18),
   (.expr (.binary .comparison), 21), (.expr (.binary .bitOr), 22), (.expr (.binary .bitXor), 23),
   (.expr (.binary .bitAnd), 24), (.expr (.binary .shift), 25), (.expr (.binary .additive), 26),
   (.expr (.binary .multiplicative), 27), (.expr .negation, 19), (.expr .unary, 28),
   (.unaryOp, 29), (.expr .primary, 30), (.expr .atom, 34)],
  [(.statement, 275), (.line, 5), (.small, 9), (.block, 274), (.exprList, 10), (.expr .test, 16),
   (.expr (.binary .or), 17), (.expr (.binary .and), 18), (.expr (.binary .comparison), 21),
   (.expr (.binary .bitOr), 22), (.expr (.binary .bitXor), 23), (.expr (.binary .bitAnd), 24),
   (.expr (.binary .shift), 25), (.expr (.binary .additive), 26),
   (.expr (.binary .multiplicative), 27), (.expr .negation, 19), (.expr .unary, 28),
   (.unaryOp, 29), (.expr .primary, 30), (.expr .atom, 34)],
  [(.line, 180), (.small, 9), (.suite, 276), (.exprList, 10), (.expr .test, 16),
   (.expr (.binary .or), 17), (.expr (.binary .and), 18), (.expr (.binary .comparison), 21),
   (.expr (.binary .bitOr), 22), (.expr (.binary .bitXor), 23), (.expr (.binary .bitAnd), 24),
   (.expr (.binary .shift), 25), (.expr (.binary .additive), 26),
   (.expr (.binary .multiplicative), 27), (.expr .negation, 19), (.expr .unary, 28),
   (.unaryOp, 29), (.expr .primary, 30), (.expr .atom, 34)],
  [],
  [(.line, 180), (.small, 9), (.suite, 277), (.exprList, 10), (.expr .test, 16),
   (.expr (.binary .or), 17), (.expr (.binary .and), 18), (.expr (.binary .comparison), 21),
   (.expr (.binary .bitOr), 22), (.expr (.binary .bitXor), 23), (.expr (.binary .bitAnd), 24),
   (.expr (.binary .shift), 25), (.expr (.binary .additive), 26),
   (.expr (.binary .multiplicative), 27), (.expr .negation, 19), (.expr .unary, 28),
   (.unaryOp, 29), (.expr .primary, 30), (.expr .atom, 34)],
  [],
  [],
  [(.parameter, 280)],
  [(.expr .test, 281), (.expr (.binary .or), 17), (.expr (.binary .and), 18),
   (.expr (.binary .comparison), 21), (.expr (.binary .bitOr), 22), (.expr (.binary .bitXor), 23),
   (.expr (.binary .bitAnd), 24), (.expr (.binary .shift), 25), (.expr (.binary .additive), 26),
   (.expr (.binary .multiplicative), 27), (.expr .negation, 19), (.expr .unary, 28),
   (.unaryOp, 29), (.expr .primary, 30), (.expr .atom, 34)],
  [],
  [],
  [(.loadArg, 283), (.stringToken, 252)],
  [],
  [],
  [],
  [],
  [],
  [],
  [(.expr .test, 161), (.expr (.binary .or), 17), (.expr (.binary .and), 18),
   (.expr (.binary .comparison), 21), (.expr (.binary .bitOr), 22), (.expr (.binary .bitXor), 23),
   (.expr (.binary .bitAnd), 24), (.expr (.binary .shift), 25), (.expr (.binary .additive), 26),
   (.expr (.binary .multiplicative), 27), (.expr .negation, 19), (.expr .unary, 28),
   (.unaryOp, 29), (.expr .primary, 30), (.argument, 285), (.expr .atom, 34)],
  [],
  [],
  [],
  [(.expr .test, 287), (.expr (.binary .or), 17), (.expr (.binary .and), 18),
   (.expr (.binary .comparison), 21), (.expr (.binary .bitOr), 22), (.expr (.binary .bitXor), 23),
   (.expr (.binary .bitAnd), 24), (.expr (.binary .shift), 25), (.expr (.binary .additive), 26),
   (.expr (.binary .multiplicative), 27), (.expr .negation, 19), (.expr .unary, 28),
   (.unaryOp, 29), (.expr .primary, 30), (.expr .atom, 34)],
  [(.expr .test, 288), (.expr (.binary .or), 17), (.expr (.binary .and), 18),
   (.expr (.binary .comparison), 21), (.expr (.binary .bitOr), 22), (.expr (.binary .bitXor), 23),
   (.expr (.binary .bitAnd), 24), (.expr (.binary .shift), 25), (.expr (.binary .additive), 26),
   (.expr (.binary .multiplicative), 27), (.expr .negation, 19), (.expr .unary, 28),
   (.unaryOp, 29), (.expr .primary, 30), (.expr .atom, 34)],
  [],
  [],
  [],
  [],
  [],
  [(.expr (.binary .or), 289), (.expr (.binary .and), 18), (.expr (.binary .comparison), 21),
   (.expr (.binary .bitOr), 22), (.expr (.binary .bitXor), 23), (.expr (.binary .bitAnd), 24),
   (.expr (.binary .shift), 25), (.expr (.binary .additive), 26),
   (.expr (.binary .multiplicative), 27), (.expr .negation, 19), (.expr .unary, 28),
   (.unaryOp, 29), (.expr .primary, 30), (.expr .atom, 34)],
  [],
  [],
  [],
  [],
  [],
  [(.line, 180), (.small, 9), (.suite, 290), (.exprList, 10), (.expr .test, 16),
   (.expr (.binary .or), 17), (.expr (.binary .and), 18), (.expr (.binary .comparison), 21),
   (.expr (.binary .bitOr), 22), (.expr (.binary .bitXor), 23), (.expr (.binary .bitAnd), 24),
   (.expr (.binary .shift), 25), (.expr (.binary .additive), 26),
   (.expr (.binary .multiplicative), 27), (.expr .negation, 19), (.expr .unary, 28),
   (.unaryOp, 29), (.expr .primary, 30), (.expr .atom, 34)],
  [],
  [(.statement, 293), (.line, 5), (.small, 9), (.exprList, 10), (.expr .test, 16),
   (.expr (.binary .or), 17), (.expr (.binary .and), 18), (.expr (.binary .comparison), 21),
   (.expr (.binary .bitOr), 22), (.expr (.binary .bitXor), 23), (.expr (.binary .bitAnd), 24),
   (.expr (.binary .shift), 25), (.expr (.binary .additive), 26),
   (.expr (.binary .multiplicative), 27), (.expr .negation, 19), (.expr .unary, 28),
   (.unaryOp, 29), (.expr .primary, 30), (.expr .atom, 34)],
  [],
  [],
  [],
  [(.line, 180), (.small, 9), (.suite, 294), (.exprList, 10), (.expr .test, 16),
   (.expr (.binary .or), 17), (.expr (.binary .and), 18), (.expr (.binary .comparison), 21),
   (.expr (.binary .bitOr), 22), (.expr (.binary .bitXor), 23), (.expr (.binary .bitAnd), 24),
   (.expr (.binary .shift), 25), (.expr (.binary .additive), 26),
   (.expr (.binary .multiplicative), 27), (.expr .negation, 19), (.expr .unary, 28),
   (.unaryOp, 29), (.expr .primary, 30), (.expr .atom, 34)],
  [(.parameter, 295)],
  [],
  [],
  [],
  [],
  [(.stringToken, 296)],
  [],
  [(.expr .test, 297), (.expr (.binary .or), 17), (.expr (.binary .and), 18),
   (.expr (.binary .comparison), 21), (.expr (.binary .bitOr), 22), (.expr (.binary .bitXor), 23),
   (.expr (.binary .bitAnd), 24), (.expr (.binary .shift), 25), (.expr (.binary .additive), 26),
   (.expr (.binary .multiplicative), 27), (.expr .negation, 19), (.expr .unary, 28),
   (.unaryOp, 29), (.expr .primary, 30), (.expr .atom, 34)],
  [],
  [],
  [],
  [],
  [(.line, 180), (.small, 9), (.suite, 298), (.exprList, 10), (.expr .test, 16),
   (.expr (.binary .or), 17), (.expr (.binary .and), 18), (.expr (.binary .comparison), 21),
   (.expr (.binary .bitOr), 22), (.expr (.binary .bitXor), 23), (.expr (.binary .bitAnd), 24),
   (.expr (.binary .shift), 25), (.expr (.binary .additive), 26),
   (.expr (.binary .multiplicative), 27), (.expr .negation, 19), (.expr .unary, 28),
   (.unaryOp, 29), (.expr .primary, 30), (.expr .atom, 34)],
  [],
  [],
  [],
  [],
  [],
  [],
  []]

end Starlark.Automaton
