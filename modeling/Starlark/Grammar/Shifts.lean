import Starlark.Grammar.Production

/-! # Shifts of the parsing automaton

For each state, the terminals that it shifts and the states they lead to.
-/
namespace Starlark.Automaton

/-- The shifts of each state. -/
def shifts : List (List (Terminal × Nat)) := [
  [(.newline, 3), (.name, 35), (.decimal, 36), (.hexadecimal, 37), (.octal, 38), (.string, 39),
   (.longString, 40), (.kwBreak, 13), (.kwContinue, 14), (.kwDef, 8), (.kwFor, 7), (.kwIf, 6),
   (.kwLoad, 15), (.kwNot, 20), (.kwPass, 12), (.kwReturn, 11), (.lparen, 41), (.lbracket, 42),
   (.lbrace, 43), (.plus, 31), (.minus, 32), (.tilde, 33)],
  [],
  [(.newline, 44), (.name, 35), (.decimal, 36), (.hexadecimal, 37), (.octal, 38), (.string, 39),
   (.longString, 40), (.kwBreak, 13), (.kwContinue, 14), (.kwDef, 8), (.kwFor, 7), (.kwIf, 6),
   (.kwLoad, 15), (.kwNot, 20), (.kwPass, 12), (.kwReturn, 11), (.lparen, 41), (.lbracket, 42),
   (.lbrace, 43), (.plus, 31), (.minus, 32), (.tilde, 33)],
  [],
  [],
  [],
  [(.name, 35), (.decimal, 36), (.hexadecimal, 37), (.octal, 38), (.string, 39), (.longString, 40),
   (.kwNot, 20), (.lparen, 41), (.lbracket, 42), (.lbrace, 43), (.plus, 31), (.minus, 32),
   (.tilde, 33)],
  [(.name, 35), (.decimal, 36), (.hexadecimal, 37), (.octal, 38), (.string, 39), (.longString, 40),
   (.lparen, 41), (.lbracket, 42), (.lbrace, 43), (.plus, 31), (.minus, 32), (.tilde, 33)],
  [(.name, 49)],
  [(.newline, 52), (.semicolon, 51)],
  [(.equal, 53), (.plusEqual, 55), (.minusEqual, 56), (.starEqual, 57), (.slashEqual, 58),
   (.doubleSlashEqual, 59), (.percentEqual, 60), (.ampersandEqual, 61), (.barEqual, 62),
   (.circumflexEqual, 63), (.doubleLessEqual, 64), (.doubleGreaterEqual, 65)],
  [(.name, 35), (.decimal, 36), (.hexadecimal, 37), (.octal, 38), (.string, 39), (.longString, 40),
   (.kwNot, 20), (.lparen, 41), (.lbracket, 42), (.lbrace, 43), (.plus, 31), (.minus, 32),
   (.tilde, 33)],
  [],
  [],
  [],
  [(.lparen, 67)],
  [(.comma, 69)],
  [(.kwIf, 70)],
  [(.kwOr, 73)],
  [(.kwAnd, 76)],
  [(.name, 35), (.decimal, 36), (.hexadecimal, 37), (.octal, 38), (.string, 39), (.longString, 40),
   (.kwNot, 20), (.lparen, 41), (.lbracket, 42), (.lbrace, 43), (.plus, 31), (.minus, 32),
   (.tilde, 33)],
  [],
  [(.kwIn, 86), (.kwNot, 87), (.less, 82), (.greater, 84), (.lessEqual, 83), (.greaterEqual, 85),
   (.doubleEqual, 80), (.notEqual, 81)],
  [(.bar, 90)],
  [(.circumflex, 93)],
  [(.ampersand, 96)],
  [(.doubleLess, 99), (.doubleGreater, 100)],
  [(.plus, 103), (.minus, 104)],
  [(.star, 107), (.slash, 108), (.doubleSlash, 109), (.percent, 110)],
  [(.name, 35), (.decimal, 36), (.hexadecimal, 37), (.octal, 38), (.string, 39), (.longString, 40),
   (.lparen, 41), (.lbracket, 42), (.lbrace, 43), (.plus, 31), (.minus, 32), (.tilde, 33)],
  [(.lparen, 112), (.lbracket, 113), (.dot, 114)],
  [],
  [],
  [],
  [],
  [],
  [],
  [],
  [],
  [],
  [],
  [(.name, 35), (.decimal, 36), (.hexadecimal, 37), (.octal, 38), (.string, 39), (.longString, 40),
   (.kwNot, 20), (.lparen, 41), (.rparen, 115), (.lbracket, 42), (.lbrace, 43), (.plus, 31),
   (.minus, 32), (.tilde, 33)],
  [(.name, 35), (.decimal, 36), (.hexadecimal, 37), (.octal, 38), (.string, 39), (.longString, 40),
   (.kwNot, 20), (.lparen, 41), (.lbracket, 42), (.rbracket, 117), (.lbrace, 43), (.plus, 31),
   (.minus, 32), (.tilde, 33)],
  [(.name, 35), (.decimal, 36), (.hexadecimal, 37), (.octal, 38), (.string, 39), (.longString, 40),
   (.kwNot, 20), (.lparen, 41), (.lbracket, 42), (.lbrace, 43), (.rbrace, 119), (.plus, 31),
   (.minus, 32), (.tilde, 33)],
  [],
  [],
  [(.colon, 122)],
  [(.kwIn, 123)],
  [(.comma, 125)],
  [(.lparen, 126)],
  [(.newline, 128), (.semicolon, 127)],
  [(.newline, 129), (.name, 35), (.decimal, 36), (.hexadecimal, 37), (.octal, 38), (.string, 39),
   (.longString, 40), (.kwBreak, 13), (.kwContinue, 14), (.kwLoad, 15), (.kwNot, 20),
   (.kwPass, 12), (.kwReturn, 11), (.lparen, 41), (.lbracket, 42), (.lbrace, 43), (.plus, 31),
   (.minus, 32), (.tilde, 33)],
  [],
  [(.name, 35), (.decimal, 36), (.hexadecimal, 37), (.octal, 38), (.string, 39), (.longString, 40),
   (.kwNot, 20), (.lparen, 41), (.lbracket, 42), (.lbrace, 43), (.plus, 31), (.minus, 32),
   (.tilde, 33)],
  [(.name, 35), (.decimal, 36), (.hexadecimal, 37), (.octal, 38), (.string, 39), (.longString, 40),
   (.kwNot, 20), (.lparen, 41), (.lbracket, 42), (.lbrace, 43), (.plus, 31), (.minus, 32),
   (.tilde, 33)],
  [],
  [],
  [],
  [],
  [],
  [],
  [],
  [],
  [],
  [],
  [],
  [],
  [(.string, 134), (.longString, 135)],
  [(.comma, 136)],
  [(.name, 35), (.decimal, 36), (.hexadecimal, 37), (.octal, 38), (.string, 39), (.longString, 40),
   (.kwNot, 20), (.lparen, 41), (.lbracket, 42), (.lbrace, 43), (.plus, 31), (.minus, 32),
   (.tilde, 33)],
  [(.name, 35), (.decimal, 36), (.hexadecimal, 37), (.octal, 38), (.string, 39), (.longString, 40),
   (.kwNot, 20), (.lparen, 41), (.lbracket, 42), (.lbrace, 43), (.plus, 31), (.minus, 32),
   (.tilde, 33)],
  [(.kwOr, 73)],
  [(.name, 35), (.decimal, 36), (.hexadecimal, 37), (.octal, 38), (.string, 39), (.longString, 40),
   (.kwNot, 20), (.lparen, 41), (.lbracket, 42), (.lbrace, 43), (.plus, 31), (.minus, 32),
   (.tilde, 33)],
  [],
  [(.kwAnd, 76)],
  [(.name, 35), (.decimal, 36), (.hexadecimal, 37), (.octal, 38), (.string, 39), (.longString, 40),
   (.kwNot, 20), (.lparen, 41), (.lbracket, 42), (.lbrace, 43), (.plus, 31), (.minus, 32),
   (.tilde, 33)],
  [],
  [],
  [(.kwIn, 86), (.kwNot, 87), (.less, 82), (.greater, 84), (.lessEqual, 83), (.greaterEqual, 85),
   (.doubleEqual, 80), (.notEqual, 81)],
  [(.name, 35), (.decimal, 36), (.hexadecimal, 37), (.octal, 38), (.string, 39), (.longString, 40),
   (.lparen, 41), (.lbracket, 42), (.lbrace, 43), (.plus, 31), (.minus, 32), (.tilde, 33)],
  [],
  [],
  [],
  [],
  [],
  [],
  [],
  [(.kwIn, 145)],
  [(.bar, 90)],
  [(.name, 35), (.decimal, 36), (.hexadecimal, 37), (.octal, 38), (.string, 39), (.longString, 40),
   (.lparen, 41), (.lbracket, 42), (.lbrace, 43), (.plus, 31), (.minus, 32), (.tilde, 33)],
  [],
  [(.circumflex, 93)],
  [(.name, 35), (.decimal, 36), (.hexadecimal, 37), (.octal, 38), (.string, 39), (.longString, 40),
   (.lparen, 41), (.lbracket, 42), (.lbrace, 43), (.plus, 31), (.minus, 32), (.tilde, 33)],
  [],
  [(.ampersand, 96)],
  [(.name, 35), (.decimal, 36), (.hexadecimal, 37), (.octal, 38), (.string, 39), (.longString, 40),
   (.lparen, 41), (.lbracket, 42), (.lbrace, 43), (.plus, 31), (.minus, 32), (.tilde, 33)],
  [],
  [(.doubleLess, 99), (.doubleGreater, 100)],
  [(.name, 35), (.decimal, 36), (.hexadecimal, 37), (.octal, 38), (.string, 39), (.longString, 40),
   (.lparen, 41), (.lbracket, 42), (.lbrace, 43), (.plus, 31), (.minus, 32), (.tilde, 33)],
  [],
  [],
  [(.plus, 103), (.minus, 104)],
  [(.name, 35), (.decimal, 36), (.hexadecimal, 37), (.octal, 38), (.string, 39), (.longString, 40),
   (.lparen, 41), (.lbracket, 42), (.lbrace, 43), (.plus, 31), (.minus, 32), (.tilde, 33)],
  [],
  [],
  [(.star, 107), (.slash, 108), (.doubleSlash, 109), (.percent, 110)],
  [(.name, 35), (.decimal, 36), (.hexadecimal, 37), (.octal, 38), (.string, 39), (.longString, 40),
   (.lparen, 41), (.lbracket, 42), (.lbrace, 43), (.plus, 31), (.minus, 32), (.tilde, 33)],
  [],
  [],
  [],
  [],
  [],
  [(.name, 35), (.decimal, 36), (.hexadecimal, 37), (.octal, 38), (.string, 39), (.longString, 40),
   (.kwNot, 20), (.lparen, 41), (.rparen, 158), (.lbracket, 42), (.lbrace, 43), (.plus, 31),
   (.minus, 32), (.star, 162), (.tilde, 33), (.doubleStar, 163)],
  [(.name, 35), (.decimal, 36), (.hexadecimal, 37), (.octal, 38), (.string, 39), (.longString, 40),
   (.kwNot, 20), (.lparen, 41), (.lbracket, 42), (.lbrace, 43), (.colon, 166), (.plus, 31),
   (.minus, 32), (.tilde, 33)],
  [(.name, 167)],
  [],
  [(.rparen, 168)],
  [],
  [(.kwFor, 173), (.rbracket, 169), (.comma, 170)],
  [],
  [(.kwFor, 173), (.rbrace, 174), (.comma, 175)],
  [(.colon, 178)],
  [(.newline, 181), (.name, 35), (.decimal, 36), (.hexadecimal, 37), (.octal, 38), (.string, 39),
   (.longString, 40), (.kwBreak, 13), (.kwContinue, 14), (.kwLoad, 15), (.kwNot, 20),
   (.kwPass, 12), (.kwReturn, 11), (.lparen, 41), (.lbracket, 42), (.lbrace, 43), (.plus, 31),
   (.minus, 32), (.tilde, 33)],
  [(.name, 35), (.decimal, 36), (.hexadecimal, 37), (.octal, 38), (.string, 39), (.longString, 40),
   (.kwNot, 20), (.lparen, 41), (.lbracket, 42), (.lbrace, 43), (.plus, 31), (.minus, 32),
   (.tilde, 33)],
  [(.comma, 183)],
  [(.name, 35), (.decimal, 36), (.hexadecimal, 37), (.octal, 38), (.string, 39), (.longString, 40),
   (.lparen, 41), (.lbracket, 42), (.lbrace, 43), (.plus, 31), (.minus, 32), (.tilde, 33)],
  [(.name, 188), (.rparen, 185), (.star, 189), (.doubleStar, 190)],
  [(.newline, 191), (.name, 35), (.decimal, 36), (.hexadecimal, 37), (.octal, 38), (.string, 39),
   (.longString, 40), (.kwBreak, 13), (.kwContinue, 14), (.kwLoad, 15), (.kwNot, 20),
   (.kwPass, 12), (.kwReturn, 11), (.lparen, 41), (.lbracket, 42), (.lbrace, 43), (.plus, 31),
   (.minus, 32), (.tilde, 33)],
  [],
  [],
  [],
  [],
  [],
  [(.rparen, 195), (.comma, 194)],
  [],
  [],
  [(.name, 35), (.decimal, 36), (.hexadecimal, 37), (.octal, 38), (.string, 39), (.longString, 40),
   (.kwNot, 20), (.lparen, 41), (.lbracket, 42), (.lbrace, 43), (.plus, 31), (.minus, 32),
   (.tilde, 33)],
  [],
  [(.kwElse, 197)],
  [(.name, 35), (.decimal, 36), (.hexadecimal, 37), (.octal, 38), (.string, 39), (.longString, 40),
   (.kwNot, 20), (.lparen, 41), (.lbracket, 42), (.lbrace, 43), (.plus, 31), (.minus, 32),
   (.tilde, 33)],
  [],
  [(.name, 35), (.decimal, 36), (.hexadecimal, 37), (.octal, 38), (.string, 39), (.longString, 40),
   (.kwNot, 20), (.lparen, 41), (.lbracket, 42), (.lbrace, 43), (.plus, 31), (.minus, 32),
   (.tilde, 33)],
  [],
  [(.name, 35), (.decimal, 36), (.hexadecimal, 37), (.octal, 38), (.string, 39), (.longString, 40),
   (.lparen, 41), (.lbracket, 42), (.lbrace, 43), (.plus, 31), (.minus, 32), (.tilde, 33)],
  [],
  [],
  [(.name, 35), (.decimal, 36), (.hexadecimal, 37), (.octal, 38), (.string, 39), (.longString, 40),
   (.lparen, 41), (.lbracket, 42), (.lbrace, 43), (.plus, 31), (.minus, 32), (.tilde, 33)],
  [],
  [(.name, 35), (.decimal, 36), (.hexadecimal, 37), (.octal, 38), (.string, 39), (.longString, 40),
   (.lparen, 41), (.lbracket, 42), (.lbrace, 43), (.plus, 31), (.minus, 32), (.tilde, 33)],
  [],
  [(.name, 35), (.decimal, 36), (.hexadecimal, 37), (.octal, 38), (.string, 39), (.longString, 40),
   (.lparen, 41), (.lbracket, 42), (.lbrace, 43), (.plus, 31), (.minus, 32), (.tilde, 33)],
  [],
  [(.name, 35), (.decimal, 36), (.hexadecimal, 37), (.octal, 38), (.string, 39), (.longString, 40),
   (.lparen, 41), (.lbracket, 42), (.lbrace, 43), (.plus, 31), (.minus, 32), (.tilde, 33)],
  [],
  [(.name, 35), (.decimal, 36), (.hexadecimal, 37), (.octal, 38), (.string, 39), (.longString, 40),
   (.lparen, 41), (.lbracket, 42), (.lbrace, 43), (.plus, 31), (.minus, 32), (.tilde, 33)],
  [],
  [(.name, 35), (.decimal, 36), (.hexadecimal, 37), (.octal, 38), (.string, 39), (.longString, 40),
   (.lparen, 41), (.lbracket, 42), (.lbrace, 43), (.plus, 31), (.minus, 32), (.tilde, 33)],
  [],
  [],
  [(.rparen, 207)],
  [(.comma, 209)],
  [(.equal, 210)],
  [(.name, 35), (.decimal, 36), (.hexadecimal, 37), (.octal, 38), (.string, 39), (.longString, 40),
   (.kwNot, 20), (.lparen, 41), (.lbracket, 42), (.lbrace, 43), (.plus, 31), (.minus, 32),
   (.tilde, 33)],
  [(.name, 35), (.decimal, 36), (.hexadecimal, 37), (.octal, 38), (.string, 39), (.longString, 40),
   (.kwNot, 20), (.lparen, 41), (.lbracket, 42), (.lbrace, 43), (.plus, 31), (.minus, 32),
   (.tilde, 33)],
  [(.rbracket, 213)],
  [(.colon, 214)],
  [(.name, 35), (.decimal, 36), (.hexadecimal, 37), (.octal, 38), (.string, 39), (.longString, 40),
   (.kwNot, 20), (.lparen, 41), (.lbracket, 42), (.lbrace, 43), (.colon, 216), (.plus, 31),
   (.minus, 32), (.tilde, 33)],
  [],
  [],
  [],
  [(.name, 35), (.decimal, 36), (.hexadecimal, 37), (.octal, 38), (.string, 39), (.longString, 40),
   (.kwNot, 20), (.lparen, 41), (.lbracket, 42), (.rbracket, 217), (.lbrace, 43), (.plus, 31),
   (.minus, 32), (.tilde, 33)],
  [(.rbracket, 219), (.comma, 218)],
  [(.kwFor, 173), (.kwIf, 224), (.rbracket, 220)],
  [(.name, 35), (.decimal, 36), (.hexadecimal, 37), (.octal, 38), (.string, 39), (.longString, 40),
   (.lparen, 41), (.lbracket, 42), (.lbrace, 43), (.plus, 31), (.minus, 32), (.tilde, 33)],
  [],
  [(.name, 35), (.decimal, 36), (.hexadecimal, 37), (.octal, 38), (.string, 39), (.longString, 40),
   (.kwNot, 20), (.lparen, 41), (.lbracket, 42), (.lbrace, 43), (.rbrace, 226), (.plus, 31),
   (.minus, 32), (.tilde, 33)],
  [(.rbrace, 228), (.comma, 229)],
  [(.kwFor, 173), (.kwIf, 224), (.rbrace, 230)],
  [(.name, 35), (.decimal, 36), (.hexadecimal, 37), (.octal, 38), (.string, 39), (.longString, 40),
   (.kwNot, 20), (.lparen, 41), (.lbracket, 42), (.lbrace, 43), (.plus, 31), (.minus, 32),
   (.tilde, 33)],
  [(.kwElif, 237), (.kwElse, 236)],
  [],
  [(.indent, 238)],
  [(.colon, 239)],
  [(.name, 35), (.decimal, 36), (.hexadecimal, 37), (.octal, 38), (.string, 39), (.longString, 40),
   (.lparen, 41), (.lbracket, 42), (.lbrace, 43), (.plus, 31), (.minus, 32), (.tilde, 33)],
  [],
  [(.colon, 241)],
  [(.rparen, 242)],
  [(.comma, 244)],
  [(.equal, 245)],
  [(.name, 246)],
  [(.name, 247)],
  [],
  [],
  [(.rparen, 249), (.comma, 248)],
  [(.name, 253), (.string, 134), (.longString, 135), (.rparen, 250)],
  [],
  [],
  [(.name, 35), (.decimal, 36), (.hexadecimal, 37), (.octal, 38), (.string, 39), (.longString, 40),
   (.kwNot, 20), (.lparen, 41), (.lbracket, 42), (.lbrace, 43), (.plus, 31), (.minus, 32),
   (.tilde, 33)],
  [],
  [],
  [],
  [],
  [],
  [],
  [],
  [],
  [],
  [],
  [(.comma, 255)],
  [(.name, 35), (.decimal, 36), (.hexadecimal, 37), (.octal, 38), (.string, 39), (.longString, 40),
   (.kwNot, 20), (.lparen, 41), (.lbracket, 42), (.lbrace, 43), (.plus, 31), (.minus, 32),
   (.star, 162), (.tilde, 33), (.doubleStar, 163)],
  [(.name, 35), (.decimal, 36), (.hexadecimal, 37), (.octal, 38), (.string, 39), (.longString, 40),
   (.kwNot, 20), (.lparen, 41), (.lbracket, 42), (.lbrace, 43), (.plus, 31), (.minus, 32),
   (.tilde, 33)],
  [],
  [],
  [],
  [(.name, 35), (.decimal, 36), (.hexadecimal, 37), (.octal, 38), (.string, 39), (.longString, 40),
   (.kwNot, 20), (.lparen, 41), (.lbracket, 42), (.lbrace, 43), (.colon, 259), (.plus, 31),
   (.minus, 32), (.tilde, 33)],
  [(.colon, 260)],
  [(.name, 35), (.decimal, 36), (.hexadecimal, 37), (.octal, 38), (.string, 39), (.longString, 40),
   (.kwNot, 20), (.lparen, 41), (.lbracket, 42), (.lbrace, 43), (.plus, 31), (.minus, 32),
   (.tilde, 33)],
  [],
  [(.name, 35), (.decimal, 36), (.hexadecimal, 37), (.octal, 38), (.string, 39), (.longString, 40),
   (.kwNot, 20), (.lparen, 41), (.lbracket, 42), (.rbracket, 262), (.lbrace, 43), (.plus, 31),
   (.minus, 32), (.tilde, 33)],
  [],
  [],
  [(.kwFor, 173), (.kwIf, 224), (.rbracket, 263)],
  [],
  [],
  [(.name, 35), (.decimal, 36), (.hexadecimal, 37), (.octal, 38), (.string, 39), (.longString, 40),
   (.kwNot, 20), (.lparen, 41), (.lbracket, 42), (.lbrace, 43), (.plus, 31), (.minus, 32),
   (.tilde, 33)],
  [(.kwIn, 266)],
  [],
  [],
  [],
  [(.name, 35), (.decimal, 36), (.hexadecimal, 37), (.octal, 38), (.string, 39), (.longString, 40),
   (.kwNot, 20), (.lparen, 41), (.lbracket, 42), (.lbrace, 43), (.rbrace, 267), (.plus, 31),
   (.minus, 32), (.tilde, 33)],
  [],
  [(.kwFor, 173), (.kwIf, 224), (.rbrace, 269)],
  [],
  [(.kwElif, 237), (.kwElse, 236)],
  [],
  [],
  [(.colon, 272)],
  [(.name, 35), (.decimal, 36), (.hexadecimal, 37), (.octal, 38), (.string, 39), (.longString, 40),
   (.kwNot, 20), (.lparen, 41), (.lbracket, 42), (.lbrace, 43), (.plus, 31), (.minus, 32),
   (.tilde, 33)],
  [(.name, 35), (.decimal, 36), (.hexadecimal, 37), (.octal, 38), (.string, 39), (.longString, 40),
   (.kwBreak, 13), (.kwContinue, 14), (.kwDef, 8), (.kwFor, 7), (.kwIf, 6), (.kwLoad, 15),
   (.kwNot, 20), (.kwPass, 12), (.kwReturn, 11), (.lparen, 41), (.lbracket, 42), (.lbrace, 43),
   (.plus, 31), (.minus, 32), (.tilde, 33)],
  [(.newline, 181), (.name, 35), (.decimal, 36), (.hexadecimal, 37), (.octal, 38), (.string, 39),
   (.longString, 40), (.kwBreak, 13), (.kwContinue, 14), (.kwLoad, 15), (.kwNot, 20),
   (.kwPass, 12), (.kwReturn, 11), (.lparen, 41), (.lbracket, 42), (.lbrace, 43), (.plus, 31),
   (.minus, 32), (.tilde, 33)],
  [],
  [(.newline, 181), (.name, 35), (.decimal, 36), (.hexadecimal, 37), (.octal, 38), (.string, 39),
   (.longString, 40), (.kwBreak, 13), (.kwContinue, 14), (.kwLoad, 15), (.kwNot, 20),
   (.kwPass, 12), (.kwReturn, 11), (.lparen, 41), (.lbracket, 42), (.lbrace, 43), (.plus, 31),
   (.minus, 32), (.tilde, 33)],
  [(.colon, 278)],
  [(.comma, 279)],
  [(.name, 188), (.star, 189), (.doubleStar, 190)],
  [(.name, 35), (.decimal, 36), (.hexadecimal, 37), (.octal, 38), (.string, 39), (.longString, 40),
   (.kwNot, 20), (.lparen, 41), (.lbracket, 42), (.lbrace, 43), (.plus, 31), (.minus, 32),
   (.tilde, 33)],
  [],
  [],
  [(.name, 253), (.string, 134), (.longString, 135), (.rparen, 282)],
  [],
  [],
  [],
  [],
  [(.equal, 284)],
  [],
  [(.name, 35), (.decimal, 36), (.hexadecimal, 37), (.octal, 38), (.string, 39), (.longString, 40),
   (.kwNot, 20), (.lparen, 41), (.lbracket, 42), (.lbrace, 43), (.plus, 31), (.minus, 32),
   (.star, 162), (.tilde, 33), (.doubleStar, 163)],
  [],
  [],
  [(.colon, 286)],
  [(.name, 35), (.decimal, 36), (.hexadecimal, 37), (.octal, 38), (.string, 39), (.longString, 40),
   (.kwNot, 20), (.lparen, 41), (.lbracket, 42), (.lbrace, 43), (.plus, 31), (.minus, 32),
   (.tilde, 33)],
  [(.name, 35), (.decimal, 36), (.hexadecimal, 37), (.octal, 38), (.string, 39), (.longString, 40),
   (.kwNot, 20), (.lparen, 41), (.lbracket, 42), (.lbrace, 43), (.plus, 31), (.minus, 32),
   (.tilde, 33)],
  [],
  [],
  [],
  [],
  [],
  [(.name, 35), (.decimal, 36), (.hexadecimal, 37), (.octal, 38), (.string, 39), (.longString, 40),
   (.kwNot, 20), (.lparen, 41), (.lbracket, 42), (.lbrace, 43), (.plus, 31), (.minus, 32),
   (.tilde, 33)],
  [],
  [],
  [],
  [],
  [],
  [(.newline, 181), (.name, 35), (.decimal, 36), (.hexadecimal, 37), (.octal, 38), (.string, 39),
   (.longString, 40), (.kwBreak, 13), (.kwContinue, 14), (.kwLoad, 15), (.kwNot, 20),
   (.kwPass, 12), (.kwReturn, 11), (.lparen, 41), (.lbracket, 42), (.lbrace, 43), (.plus, 31),
   (.minus, 32), (.tilde, 33)],
  [(.colon, 291)],
  [(.dedent, 292), (.name, 35), (.decimal, 36), (.hexadecimal, 37), (.octal, 38), (.string, 39),
   (.longString, 40), (.kwBreak, 13), (.kwContinue, 14), (.kwDef, 8), (.kwFor, 7), (.kwIf, 6),
   (.kwLoad, 15), (.kwNot, 20), (.kwPass, 12), (.kwReturn, 11), (.lparen, 41), (.lbracket, 42),
   (.lbrace, 43), (.plus, 31), (.minus, 32), (.tilde, 33)],
  [],
  [],
  [],
  [(.newline, 181), (.name, 35), (.decimal, 36), (.hexadecimal, 37), (.octal, 38), (.string, 39),
   (.longString, 40), (.kwBreak, 13), (.kwContinue, 14), (.kwLoad, 15), (.kwNot, 20),
   (.kwPass, 12), (.kwReturn, 11), (.lparen, 41), (.lbracket, 42), (.lbrace, 43), (.plus, 31),
   (.minus, 32), (.tilde, 33)],
  [(.name, 188), (.star, 189), (.doubleStar, 190)],
  [],
  [],
  [],
  [],
  [(.string, 134), (.longString, 135)],
  [],
  [(.name, 35), (.decimal, 36), (.hexadecimal, 37), (.octal, 38), (.string, 39), (.longString, 40),
   (.kwNot, 20), (.lparen, 41), (.lbracket, 42), (.lbrace, 43), (.plus, 31), (.minus, 32),
   (.tilde, 33)],
  [],
  [],
  [],
  [],
  [(.newline, 181), (.name, 35), (.decimal, 36), (.hexadecimal, 37), (.octal, 38), (.string, 39),
   (.longString, 40), (.kwBreak, 13), (.kwContinue, 14), (.kwLoad, 15), (.kwNot, 20),
   (.kwPass, 12), (.kwReturn, 11), (.lparen, 41), (.lbracket, 42), (.lbrace, 43), (.plus, 31),
   (.minus, 32), (.tilde, 33)],
  [],
  [],
  [],
  [],
  [],
  [],
  []]

end Starlark.Automaton
