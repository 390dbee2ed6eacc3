import Starlark.Text.Class

/-! # Command-line options

Options may be written anywhere and long ones may be shortened as long as they stay unambiguous.
The value of an option stands after it or behind an equals sign. Short options without a value
may be joined. After `--` nothing is an option.
-/
namespace Starlark.CommandLine

/-- The options. -/
inductive OptionName
  | help | buildFile | allowLoadAfterStatement | restrictStringEscapes | builtin | cacheGrammar
  | verbose
deriving DecidableEq

def spellings : List (List Char × OptionName) :=
  [("-h", .help), ("--help", .help), ("--build-file", .buildFile),
   ("--allow-load-after-statement", .allowLoadAfterStatement),
   ("--restrict-string-escapes", .restrictStringEscapes), ("--builtin", .builtin),
   ("--cache-grammar", .cacheGrammar), ("--verbose", .verbose), ("-v", .verbose)].map
    fun s => (s.1.toList, s.2)

/-- What one argument is taken for. -/
inductive Word
  | plain
  /-- An option, and the text behind an equals sign, if any. -/
  | option (name : OptionName) (value : Option (List Char))
  /-- A short option with more text joined to it. -/
  | joined (name : OptionName) (rest : List Char)
  | unknown
  | ambiguous
deriving DecidableEq

/-- Splits at the first equals sign. -/
def splitEquals (cs : List Char) : List Char × Option (List Char) :=
  match cs.dropWhile (· != '=') with
  | [] => (cs, none)
  | _ :: value => (cs.takeWhile (· != '='), some value)

/-- A dash and a decimal number. -/
def isNegativeNumber : List Char → Bool
  | '-' :: cs =>
    match cs.dropWhile Text.isDecimal with
    | [] => !cs.isEmpty
    | '.' :: ds => !ds.isEmpty && ds.all Text.isDecimal
    | _ => false
  | _ => false

/-- The options that begin with a long text, and what stands behind its equals sign. -/
def abbreviated (cs : List Char) : List Word :=
  let (start, value) := splitEquals cs
  (spellings.filter fun s => start.isPrefixOf s.1).map fun s => .option s.2 value

/-- The word for an argument that begins with a dash and spells no option in full. -/
def classifyInexact (cs : List Char) : Word :=
  let candidates : List Word :=
    if ['-', '-'].isPrefixOf cs then abbreviated cs
    else ((spellings.lookup (cs.take 2)).map fun name => .joined name (cs.drop 2)).toList
  match candidates with
  | [w] => w
  | _ :: _ :: _ => .ambiguous
  | [] => if isNegativeNumber cs || cs.contains ' ' then .plain else .unknown

def classify (cs : List Char) : Word :=
  if cs.head? ≠ some '-' ∨ cs = ['-'] then .plain
  else match spellings.lookup cs with
    | some name => .option name none
    | none =>
      match splitEquals cs with
      | (start, some value) =>
        match spellings.lookup start with
        | some name => .option name (some value)
        | none => classifyInexact cs
      | (_, none) => classifyInexact cs

/-- The settings that the options describe. -/
structure Options where
  file : Option String := none
  buildFile : Bool := false
  allowLoadAfterStatement : Bool := false
  restrictStringEscapes : Bool := false
  builtins : List String := []

/-- What the arguments ask for. -/
inductive Request
  | run (options : Options) (file : String)
  | help
  | reject

/-- Sets an option that takes no value. -/
def Options.set (o : Options) : OptionName → Options
  | .buildFile => { o with buildFile := true }
  | .allowLoadAfterStatement => { o with allowLoadAfterStatement := true }
  | .restrictStringEscapes => { o with restrictStringEscapes := true }
  | _ => o

/-- The options joined behind a single dash, and whether they end in one that is unknown. A dash
or an equals sign among them is refused. -/
def joinedFlags : List Char → Option (List OptionName × Bool)
  | [] => some ([], false)
  | c :: cs =>
    if c = '-' ∨ c = '=' then none
    else match spellings.lookup ['-', c] with
      | none => some ([], true)
      | some name => (joinedFlags cs).map fun (names, unknown) => (name :: names, unknown)

/-- Reads the arguments from left to right. `extra` tells that some argument has no use, and
`fresh` that the file was the argument before. -/
def readFrom (o : Options) (extra fresh : Bool) : List (List Char) → Request
  | [] =>
    match extra, o.file with
    | false, some file => .run o file
    | _, _ => .reject
  | ['-', '-'] :: rest =>
    match o.file, rest with
    | none, [x] => if extra then .reject else .run o (String.ofList x)
    | some file, [] => if extra || !fresh then .reject else .run o file
    | _, _ => .reject
  | cs :: rest =>
    match classify cs with
    | .plain =>
      match o.file with
      | none => readFrom { o with file := String.ofList cs } extra true rest
      | some _ => readFrom o true false rest
    | .unknown => readFrom o true false rest
    | .ambiguous => .reject
    | .option .builtin (some value) =>
      readFrom { o with builtins := o.builtins ++ [String.ofList value] } extra false rest
    | .option .builtin none =>
      match rest with
      | value :: rest' =>
        if value ≠ ['-', '-'] ∧ classify value = .plain then
          readFrom { o with builtins := o.builtins ++ [String.ofList value] } extra false rest'
        else .reject
      | [] => .reject
    | .option .help none => .help
    | .option name none => readFrom (o.set name) extra false rest
    | .option _ (some _) => .reject
    | .joined name more =>
      match joinedFlags more with
      | none => .reject
      | some (names, unknown) =>
        if .help ∈ name :: names then .help
        else readFrom ((name :: names).foldl Options.set o) (extra || unknown) false rest

/-- Reads the arguments. An ambiguous option is refused before anything else is looked at. -/
def read (args : List String) : Request :=
  let words := args.map (·.toList)
  if (words.takeWhile (· ≠ ['-', '-'])).any fun w => decide (classify w = .ambiguous) then .reject
  else readFrom {} false false words

end Starlark.CommandLine
