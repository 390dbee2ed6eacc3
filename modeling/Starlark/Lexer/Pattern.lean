import Starlark.Text.Class

/-! # Token patterns

Each pattern splits a text into the part it matches and the rest, or fails.
-/
namespace Starlark.Pattern

abbrev Split := List Char × List Char

def isHexDigit (c : Char) : Bool :=
  Text.isDecimal c || ('a' ≤ c && c ≤ 'f') || ('A' ≤ c && c ≤ 'F')

def isOctalDigit (c : Char) : Bool := '0' ≤ c && c ≤ '7'

/-- Tab, space and form feed: the blanks inside a line. -/
def isBlank (c : Char) : Bool := c == '\t' || c == ' ' || c == '\x0c'

/-- The characters of a class at the start of a text, at least one. -/
def some? (p : Char → Bool) (cs : List Char) : Option Split :=
  match cs.takeWhile p with
  | [] => none
  | c :: ds => some (c :: ds, cs.dropWhile p)

/-- Puts a character in front of what was matched. -/
def push (c : Char) (s : Split) : Split := (c :: s.1, s.2)

def hexadecimal : List Char → Option Split
  | '0' :: x :: cs =>
    if x = 'x' ∨ x = 'X' then (some? isHexDigit cs).map fun s => push '0' (push x s) else none
  | _ => none

def octal : List Char → Option Split
  | '0' :: o :: cs =>
    if o = 'o' ∨ o = 'O' then (some? isOctalDigit cs).map fun s => push '0' (push o s) else none
  | _ => none

/-- A lone zero, or digits that begin with another ASCII digit. -/
def decimal : List Char → Option Split
  | [] => none
  | c :: cs =>
    if c = '0' then some ([c], cs)
    else if c.isDigit then some (c :: cs.takeWhile Text.isDecimal, cs.dropWhile Text.isDecimal)
    else none

def name : List Char → Option Split
  | [] => none
  | c :: cs =>
    if c.isAlpha || c == '_' then some (c :: cs.takeWhile Text.isWord, cs.dropWhile Text.isWord)
    else none

/-- The rest of a short string: up to the first quote that no backslash escapes, on one line. -/
def closeShort (quote : Char) : Bool → List Char → Option Split
  | _, [] => none
  | escaped, c :: cs =>
    if c = '\n' then none
    else if c = quote ∧ !escaped then some ([c], cs)
    else (closeShort quote (c == '\\' && !escaped) cs).map (push c)

/-- The rest of a long string: up to the first three quotes of which no backslash escapes the
first. -/
def closeLong (quote : Char) : Bool → List Char → Option Split
  | escaped, a :: b :: c :: cs =>
    if a = quote ∧ b = quote ∧ c = quote ∧ !escaped then some ([a, b, c], cs)
    else (closeLong quote (a == '\\' && !escaped) (b :: c :: cs)).map (push a)
  | _, _ => none

/-- A short string from its opening quote on. Two more quotes there do not open it. -/
def openShort : List Char → Option Split
  | [] => none
  | q :: cs =>
    if (q = '"' ∨ q = '\'') ∧ ¬ [q, q].isPrefixOf cs then
      (closeShort q false cs).map (push q)
    else none

/-- A long string from its three opening quotes on. -/
def openLong : List Char → Option Split
  | a :: b :: c :: cs =>
    if (a = '"' ∨ a = '\'') ∧ b = a ∧ c = a then
      (closeLong a false cs).map fun s => push a (push b (push c s))
    else none
  | _ => none

/-- A literal with or without the mark of a raw string. -/
def maybeRaw (p : List Char → Option Split) : List Char → Option Split
  | [] => none
  | c :: cs => if c = 'r' ∨ c = 'R' then (p cs).map (push c) else p (c :: cs)

def string (cs : List Char) : Option Split := maybeRaw openShort cs

def longString (cs : List Char) : Option Split := maybeRaw openLong cs

/-- Line breaks, each with the blanks that follow it, and comments. The flag tells whether the
text begins inside a comment. -/
def breaks : Bool → List Char → Split
  | _, [] => ([], [])
  | true, c :: cs => push c (breaks (c != '\n') cs)
  | false, '\r' :: '\n' :: cs => push '\r' (push '\n' (breaks false cs))
  | false, c :: cs =>
    if c = '\n' ∨ c = ' ' ∨ c = '\t' then push c (breaks false cs)
    else if c = '#' then push c (breaks true cs)
    else ([], c :: cs)

/-- A run of line breaks and comments. -/
def newline : List Char → Option Split
  | '\n' :: cs => some (breaks false ('\n' :: cs))
  | '\r' :: '\n' :: cs => some (breaks false ('\r' :: '\n' :: cs))
  | '#' :: cs => some (breaks false ('#' :: cs))
  | _ => none

/-- A backslash, blanks and a line break: the line goes on. -/
def continuation : List Char → Option Split
  | '\\' :: cs =>
    match cs.dropWhile isBlank with
    | '\n' :: rest => some ('\\' :: cs.takeWhile isBlank ++ ['\n'], rest)
    | '\r' :: '\n' :: rest => some ('\\' :: cs.takeWhile isBlank ++ ['\r', '\n'], rest)
    | _ => none
  | _ => none

def blank (cs : List Char) : Option Split := some? isBlank cs

/-- A fixed spelling. -/
def literal : List Char → List Char → Option Split
  | [], cs => some ([], cs)
  | _ :: _, [] => none
  | k :: ks, c :: cs => if k = c then (literal ks cs).map (push c) else none

end Starlark.Pattern
