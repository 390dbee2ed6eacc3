import Starlark.Proofs.Flags
import Starlark.Proofs.Resolve.Declared
import Starlark.Resolve.File

/-! # What a visit finds

The findings of a tree, in visiting order: each identifier that is looked up, with the blocks
around its place, and each problem. A block binds its names throughout, so the frames around a
place follow from the tree alone. No state is threaded, except that a statement is told how many
loops are open. A target that is none is reported by its text, and a visit stops where there is
no text; a file has the findings up to there.
-/
namespace Starlark

inductive Finding
  /-- An identifier to resolve, and the blocks around it, innermost first. -/
  | name (x : Identifier) (frames : List Frame)
  | misplaced (m : Misplacement) (loc : Option Location)
  /-- An error of a collection or of the order of loads. -/
  | noted (d : Diagnostic)
  /-- A target that is none and has no text. -/
  | unwritable

/-- The error for a name that no block binds. -/
def unresolvedError (env : Environment) (x : Identifier) (frames : List Frame) : Diagnostic :=
  match env.hiddenNames.find? (·.name == x.name) with
  | some g => { message := g.accessMessage, loc := x.loc }
  | none => { message := unknownNameMessage x.name (frames.flatMap (·.names)), loc := x.loc }

namespace Finding

/-- The identifier to resolve with the scope of the innermost block that binds its name. -/
def tag? : Finding → Option (Identifier × Scope)
  | .name x frames => (Frame.find? frames x.name).map fun f => (x, f.scope)
  | .misplaced _ _ | .noted _ | .unwritable => none

def diagnostic? (env : Environment) : Finding → Option Diagnostic
  | .name x frames =>
    match Frame.find? frames x.name with
    | some _ => none
    | none => some (unresolvedError env x frames)
  | .misplaced m loc => some { message := m.message, loc }
  | .noted d => some d
  | .unwritable => none

/-- Does a visit stop at a finding, whatever it found before? -/
def stops : Finding → Bool
  | .unwritable => true
  | .name _ _ | .misplaced _ _ | .noted _ => false

/-- The findings that a visit comes to. -/
def reached (found : List Finding) : List Finding := found.takeWhile fun e => !e.stops

theorem reached_append {es : List Finding} (h : es.any stops = false) (ds : List Finding) :
    reached (es ++ ds) = es ++ reached ds := by
  refine List.takeWhile_append_of_pos fun e he => ?_
  rw [List.any_eq_false] at h
  simpa using h e he

theorem reached_eq_self {es : List Finding} (h : es.any stops = false) : reached es = es := by
  rw [← List.append_nil es, reached_append h]
  rfl

/-- A visit goes on with the next findings unless it stops at one before. -/
theorem reached_append_eq (es ds : List Finding) :
    reached (es ++ ds) = reached es ++ if es.any stops then [] else reached ds := by
  induction es with
  | nil => rfl
  | cons e es ih =>
    rw [reached] at ih
    rw [List.cons_append, reached, reached, List.takeWhile_cons, List.takeWhile_cons, ih,
      List.any_cons]
    cases e.stops with
    | true => rfl
    | false => rfl

/-- An expression in the place of a target: an error that quotes it, or where the visit stops. -/
def refusal (e : Expr) : Finding :=
  match e.text? with
  | some text => .misplaced (.notAssignable text) e.loc
  | none => .unwritable

/-- What holds of a target reported by a text, and of the stop, holds of every such expression. -/
theorem refusal_cases {P : Finding → Prop} {e : Expr}
    (misplaced : ∀ text, P (.misplaced (.notAssignable text) e.loc)) (unwritable : P .unwritable) :
    P (refusal e) := by
  rw [refusal]
  split
  · exact misplaced _
  · exact unwritable

end Finding

/-- The block of a comprehension binds the targets of all its `for` clauses. -/
def Clause.frame (cs : List Clause) : Frame := ⟨.inner, (Clause.bindings cs).map (·.name)⟩

/-- The block of a function binds its parameters and every name bound in its body. -/
def Stmt.functionFrame (ps : List Parameter) (ss : List Stmt) : Frame :=
  ⟨.inner, (Parameter.bindings ps ++ Stmt.bindings ss).map (·.name)⟩

/-- The block of a file binds every name bound at top level. -/
def Stmt.moduleFrame (ss : List Stmt) : Frame := ⟨.global, (Stmt.bindings ss).map (·.name)⟩

/-- The blocks around the top level of a file. -/
def Stmt.topFrames (predeclared : List String) (ss : List Stmt) : List Frame :=
  [Stmt.moduleFrame ss, ⟨.builtin, predeclared⟩]

/-- Is the innermost block that of a function or comprehension? -/
def Frame.inFunction (fs : List Frame) : Bool := fs.head?.any (·.scope == .inner)

def misplacedIf (c : Prop) [Decidable c] (m : Misplacement) (loc : Option Location) :
    List Finding :=
  if c then [.misplaced m loc] else []

mutual

def Expr.findings (fs : List Frame) : Expr → List Finding
  | .ident x => [.name x fs]
  | .int _ _ => []
  | .str _ => []
  | .list es _ _ => Expr.findingsAll fs es
  | .dict ds _ => Entry.findingsAll fs ds
  | .binary x _ y _ => x.findings fs ++ y.findings fs
  | .unary _ x _ => x.findings fs
  | .conditional t c e _ => c.findings fs ++ t.findings fs ++ e.findings fs
  | .dot o _ _ => o.findings fs
  | .index o k _ => o.findings fs ++ k.findings fs
  | .slice o a b c _ =>
    o.findings fs ++ Expr.findingsOpt fs a ++ Expr.findingsOpt fs b ++ Expr.findingsOpt fs c
  | .call f as _ => f.findings fs ++ Argument.findingsAll fs as
  | .comprehension b cs _ _ =>
    Clause.findingsAll (Clause.frame cs :: fs) cs ++ b.findings (Clause.frame cs :: fs)

def Expr.findingsAll (fs : List Frame) : List Expr → List Finding
  | [] => []
  | e :: es => e.findings fs ++ Expr.findingsAll fs es

def Expr.findingsOpt (fs : List Frame) : Option Expr → List Finding
  | none => []
  | some e => e.findings fs

def Entry.findings (fs : List Frame) : Entry → List Finding
  | .mk k v _ => k.findings fs ++ v.findings fs

def Entry.findingsAll (fs : List Frame) : List Entry → List Finding
  | [] => []
  | d :: ds => d.findings fs ++ Entry.findingsAll fs ds

def Argument.findings (fs : List Frame) : Argument → List Finding
  | .mk _ v _ _ => v.findings fs

def Argument.findingsAll (fs : List Frame) : List Argument → List Finding
  | [] => []
  | a :: as => a.findings fs ++ Argument.findingsAll fs as

def Clause.findings (fs : List Frame) : Clause → List Finding
  | .each vars iterable _ => iterable.findings fs ++ vars.targetFindings fs
  | .guard c _ => c.findings fs

def Clause.findingsAll (fs : List Frame) : List Clause → List Finding
  | [] => []
  | c :: cs => c.findings fs ++ Clause.findingsAll fs cs

def Body.findings (fs : List Frame) : Body → List Finding
  | .item e => e.findings fs
  | .entry d => d.findings fs

/-- A target is made of names, index expressions, and lists of targets. Nothing under any other
expression is looked up. -/
def Expr.targetFindings (fs : List Frame) : Expr → List Finding
  | .ident x => [.name x fs]
  | .index o k _ => o.findings fs ++ k.findings fs
  | .list es _ _ => Expr.targetFindingsAll fs es
  | e => [.refusal e]

def Expr.targetFindingsAll (fs : List Frame) : List Expr → List Finding
  | [] => []
  | e :: es => e.targetFindings fs ++ Expr.targetFindingsAll fs es

end

/-- The default values of parameters belong to the block around the function. -/
def Parameter.defaultFindings (fs : List Frame) : List Parameter → List Finding
  | [] => []
  | p :: ps =>
    (if p.kind = .optional then Expr.findingsOpt fs p.default else [])
      ++ Parameter.defaultFindings fs ps

mutual

/-- The findings of a statement inside some blocks and a number of open loops. -/
def Stmt.findings (fs : List Frame) (loops : Nat) : Stmt → List Finding
  | .expr e _ => e.findings fs
  | .assign lhs rhs _ => rhs.findings fs ++ lhs.targetFindings fs
  | .augmentedAssign _ lhs rhs loc =>
    misplacedIf (lhs matches .list ..) .augmentedPattern loc
      ++ rhs.findings fs ++ lhs.targetFindings fs
  | .ifElse c a b loc =>
    misplacedIf (!Frame.inFunction fs) .conditionalAtTop loc ++ c.findings fs
      ++ Stmt.findingsAll fs loops a ++ Stmt.findingsAll fs loops b
  | .forLoop lhs collection b loc =>
    misplacedIf (!Frame.inFunction fs) .loopAtTop loc ++ collection.findings fs
      ++ lhs.targetFindings fs ++ Stmt.findingsAll fs (loops + 1) b
  | .define _ ps b loc =>
    misplacedIf (Frame.inFunction fs) .functionInFunction loc
      ++ Parameter.defaultFindings fs ps
      ++ ((Stmt.declaredAll b).filterMap Declared.note?).map .noted
      ++ Stmt.findingsAll (Stmt.functionFrame ps b :: fs) loops b
  | .returns result loc =>
    misplacedIf (!Frame.inFunction fs) .returnAtTop loc ++ Expr.findingsOpt fs result
  | .flow kind loc => misplacedIf (kind ≠ .pass ∧ loops = 0) (.flowOutsideLoop kind) loc
  | .load _ bs loc =>
    misplacedIf (Frame.inFunction fs) .loadInFunction loc
      ++ bs.map fun b => .name b.localName fs

def Stmt.findingsAll (fs : List Frame) (loops : Nat) : List Stmt → List Finding
  | [] => []
  | s :: ss => s.findings fs loops ++ Stmt.findingsAll fs loops ss

end

/-- What the visit of the statements of a file comes to. -/
def Stmt.visited (predeclared : List String) (ss : List Stmt) : List Finding :=
  Finding.reached (Stmt.findingsAll (Stmt.topFrames predeclared ss) 0 ss)

/-- Does the visit of a top-level statement stop inside of it? -/
def Stmt.halts (s : Stmt) : Bool := (s.findings [] 0).any Finding.stops

/-- What is noted before the visit of a file: the loads that come too late, and the repeated
bindings. -/
def Settings.noted (settings : Settings) (ss : List Stmt) : List Finding :=
  (if !settings.buildFile && settings.env.semantics.disallowLoadAfterStatement then
      (loadOrderErrors none ss).map .noted
    else [])
    ++ (Declared.errors (!settings.buildFile) [] (Stmt.declaredAll ss)).map .noted

/-- The findings of a file: what is noted before its visit, and what the visit comes to. -/
def Settings.findings (settings : Settings) (predeclared : List String) (ss : List Stmt) :
    List Finding :=
  settings.noted ss ++ Stmt.visited predeclared ss

end Starlark
