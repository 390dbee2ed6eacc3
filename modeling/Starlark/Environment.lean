import Starlark.Scope.Fault

/-! # Environments

What a resolution needs to know of the world outside the file: the predeclared names, the names
that depend on a semantics flag, and the flags. Nothing here is ever evaluated.
-/
namespace Starlark

/-- The boolean language flags. -/
structure Semantics where
  disallowLoadAfterStatement : Bool := true
  restrictStringEscapes : Bool := false
deriving DecidableEq

namespace Semantics

def loadFlag : String := "incompatible_bzl_disallow_load_after_statement"

def escapesFlag : String := "incompatible_restrict_string_escapes"

def flag (s : Semantics) (name : String) : Except Fault Bool :=
  if name = loadFlag then .ok s.disallowLoadAfterStatement
  else if name = escapesFlag then .ok s.restrictStringEscapes
  else .error (.unknownFlag name)

def setFlag (s : Semantics) (name : String) (value : Bool) : Except Fault Semantics :=
  if name = loadFlag then .ok { s with disallowLoadAfterStatement := value }
  else if name = escapesFlag then .ok { s with restrictStringEscapes := value }
  else .error (.unknownFlag name)

/-- The default flags with some of them set. -/
def ofFlags (flags : List (String × Bool)) : Except Fault Semantics :=
  flags.foldlM (fun s f => s.setFlag f.1 f.2) {}

end Semantics

/-- An experimental name needs its flag on; a deprecated one disappears once its flag is on. -/
inductive Guard
  | experimental | deprecated
deriving DecidableEq

/-- A name visible only under certain flags. -/
structure GuardedName where
  name : String
  guard : Guard
  flag : String
deriving DecidableEq

namespace GuardedName

def isAccessible (g : GuardedName) (s : Semantics) : Except Fault Bool :=
  (s.flag g.flag).map fun on => match g.guard with
    | .experimental => on
    | .deprecated => !on

/-- Why a name is out of reach, and how it may come into reach. -/
def accessMessage (g : GuardedName) : String :=
  match g.guard with
  | .experimental =>
    g.name ++ " is experimental and thus unavailable with the current flags. "
      ++ "It may be enabled by setting --" ++ g.flag
  | .deprecated =>
    g.name ++ " is deprecated and will be removed soon. "
      ++ "It may be temporarily re-enabled by setting --" ++ g.flag ++ "=false"

end GuardedName

structure Environment where
  globals : List String
  guarded : List GuardedName
  semantics : Semantics
deriving DecidableEq

namespace Environment

/-- The names of the core language, then those of build files. -/
def defaultBuiltins : List String :=
  ["None", "True", "False",
   "all", "any", "bool", "dict", "dir", "enumerate", "fail", "getattr",
   "hasattr", "hash", "int", "len", "list", "max", "min", "print", "range",
   "repr", "reversed", "sorted", "str", "tuple", "type", "zip",
   "depset", "select", "struct", "native", "rule", "provider", "attr"]

def standard (semantics : Semantics) (extra : List String) : Environment :=
  ⟨defaultBuiltins ++ extra, [], semantics⟩

/-- The guarded names with a given accessibility. -/
def guardedWhere (env : Environment) (accessible : Bool) : Except Fault (List GuardedName) :=
  env.guarded.filterM fun g => (g.isAccessible env.semantics).map (· == accessible)

/-- The visible predeclared names, each once. -/
def variableNames (env : Environment) : Except Fault (List String) :=
  (env.guardedWhere true).map fun gs => (env.globals ++ gs.map (·.name)).eraseDups

/-- The guarded names that are out of reach. -/
def restricted (env : Environment) : Except Fault (List GuardedName) := env.guardedWhere false

end Environment
end Starlark
