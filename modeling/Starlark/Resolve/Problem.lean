import Starlark.Grammar.Meaning
import Starlark.Spelling.Suggest

/-! # Problems of a file

What a resolution reports: names that no block binds, statements and targets out of place, and
loads that come after another statement. Strings standing alone do not count as statements.
-/
namespace Starlark

def packageNameUrl : String :=
  "https://docs.bazel.build/versions/master/skylark/lib/native.html#package_name"

def repositoryNameUrl : String :=
  "https://docs.bazel.build/versions/master/skylark/lib/native.html#repository_name"

/-- What replaced a name that used to be predeclared. -/
def obsoleteMessage? (name : String) : Option String :=
  if name = "PACKAGE_NAME" then
    some ("The value 'PACKAGE_NAME' has been removed in favor of 'package_name()', "
      ++ "please use the latter (" ++ packageNameUrl ++ "). ")
  else if name = "REPOSITORY_NAME" then
    some ("The value 'REPOSITORY_NAME' has been removed in favor of 'repository_name()', "
      ++ "please use the latter (" ++ repositoryNameUrl ++ ").")
  else none

/-- The message for an unknown name, with a suggestion among the visible ones. -/
def unknownNameMessage (name : String) (candidates : List String) : String :=
  if name = errorName then "contains syntax error(s)"
  else match obsoleteMessage? name with
    | some message => message
    | none => "name '" ++ name ++ "' is not defined" ++ Spelling.didYouMean name candidates

/-- What stands where it may not stand. -/
inductive Misplacement
  | conditionalAtTop
  | loopAtTop
  | returnAtTop
  | loadInFunction
  | functionInFunction
  | flowOutsideLoop (kind : FlowKind)
  | augmentedPattern
  /-- A target that is none, by its text. -/
  | notAssignable (target : String)

def Misplacement.message : Misplacement → String
  | .conditionalAtTop =>
    "if statements are not allowed at the top level. You may move it inside a function "
      ++ "or use an if expression (x if condition else y)."
  | .loopAtTop =>
    "for loops are not allowed at the top level. You may move it inside a function "
      ++ "or use a comprehension, [f(x) for x in sequence]"
  | .returnAtTop => "return statements must be inside a function"
  | .loadInFunction => "load statement not at top level"
  | .functionInFunction =>
    "nested functions are not allowed. Move the function to the top level."
  | .flowOutsideLoop kind => kind.text ++ " statement must be inside a for loop"
  | .augmentedPattern => "cannot perform augmented assignment on a list or tuple expression"
  | .notAssignable target => "cannot assign to '" ++ target ++ "'"

def loadOrderError (first : Location) (loc : Option Location) : Diagnostic :=
  { message := "load() statements must be called before any other statement. "
      ++ "First non-load() statement appears at " ++ first.text ++ ". "
      ++ "Use --incompatible_bzl_disallow_load_after_statement=false to temporarily "
      ++ "disable this check."
    loc }

/-- The errors of the loads that come too late, given the place of the first other statement so
far. A statement without a location leaves that place open. -/
def loadOrderErrors (first : Option Location) : List Stmt → List Diagnostic
  | [] => []
  | s :: ss =>
    if s.isDocstring then loadOrderErrors first ss
    else match first with
      | some l =>
        if s.isLoad then loadOrderError l s.loc :: loadOrderErrors first ss
        else loadOrderErrors first ss
      | none => if s.isLoad then loadOrderErrors none ss else loadOrderErrors s.loc ss

end Starlark
