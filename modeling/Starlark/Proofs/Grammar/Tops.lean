import Starlark.Proofs.Grammar.Numbering
import Starlark.Proofs.Parser.Sound
import Starlark.Proofs.Syntax.Nodes

/-! # The nodes of a meaning

The nodes at the top of what a tree means; the rule above makes them children of its own node, or
passes them on. No identifier of a parsed file has the number of another one, be it a variable or
the name of a field, of an argument or of something loaded.
-/
namespace Starlark

/-- An `elif` clause as a conditional without alternatives. -/
def ElifClause.node (c : ElifClause) : Node := .stmt (.ifElse c.condition c.block [] c.loc)

def Subscript.tops : Subscript → List Node
  | .key e => [.expr e]
  | .range a b c => (a.toList ++ b.toList ++ c.toList).map .expr

/-- The nodes at the top of a meaning. -/
def Nonterminal.tops : (x : Nonterminal) → x.Meaning → List Node
  | .file | .items | .statement | .line | .smalls | .suite | .block | .elseClause => List.map .stmt
  | .small => fun s => [.stmt s]
  | .augmentedOp | .operator _ | .unaryOp | .stringToken => fun _ => []
  | .loadArgs => List.map .binding
  | .loadArg => fun b => [.binding b]
  | .elifs => List.map ElifClause.node
  | .elifClause => fun c => [c.node]
  | .parameters | .parameterRest => List.map .parameter
  | .parameter => fun p => [.parameter p]
  | .exprList | .targetList | .expr _ => fun e => [.expr e]
  | .exprRest | .targetRest => List.map .expr
  | .rest _ => List.map fun link => .expr link.2
  | .arguments | .argumentRest => List.map .argument
  | .argument => fun a => [.argument a]
  | .subscript => Subscript.tops
  | .entry => fun d => [.entry d]
  | .entryRest => List.map .entry
  | .clauses => List.map .clause
  | .clause | .compFor => fun c => [.clause c]

def Symbol.tops : (s : Symbol) → s.Meaning → List Node
  | .t _ => fun _ => []
  | .n x => x.tops

def Meanings.tops : (ss : List Symbol) → Meanings ss → List Node
  | [] => fun _ => []
  | s :: ss => fun vs => s.tops vs.1 ++ Meanings.tops ss vs.2

attribute [simp] Node.children Body.node Subscript.tops Nonterminal.tops Symbol.tops Meanings.tops

/-! ## Numbers -/

/-- The numbers of the identifiers among a node and all nodes below it. -/
def Node.ids (n : Node) : List Nat := numbers n.identifiers

def ids (ns : List Node) : List Nat := ns.flatMap Node.ids

@[simp] theorem ids_nil : ids [] = [] := rfl

@[simp] theorem ids_cons (n : Node) (ns : List Node) : ids (n :: ns) = n.ids ++ ids ns := rfl

@[simp] theorem ids_append (ms ns : List Node) : ids (ms ++ ns) = ids ms ++ ids ns :=
  List.flatMap_append

namespace Node

theorem ids_eq (n : Node) : n.ids = numbers n.own?.toList ++ Starlark.ids n.children := by
  rw [ids, identifiers_eq, numbers_append, numbers, numbers, List.map_flatMap]
  rfl

theorem ids_children {n : Node} (h : n.own? = none) : n.ids = Starlark.ids n.children := by
  rw [ids_eq, h]
  rfl

theorem ids_leaf {n : Node} {x : Identifier} (h : n.own? = some x) (hleaf : n.children = []) :
    n.ids = [x.id] := by
  rw [ids_eq, h, hleaf]
  rfl

@[simp] theorem ids_ident (x : Identifier) : (expr (.ident x)).ids = [x.id] := ids_leaf rfl rfl

@[simp] theorem ids_name (x : Identifier) : (name x).ids = [x.id] := ids_leaf rfl rfl

@[simp] theorem ids_loaded (x : Identifier) : (loaded x).ids = [x.id] := ids_leaf rfl rfl

@[simp] theorem ids_string (s : StringLiteral) : (string s).ids = [] := ids_children rfl

@[simp] theorem ids_binding (b : LoadBinding) :
    (binding b).ids = [b.localName.id, b.exportedName.id] := by
  rw [ids_children rfl, children]
  split <;> simp

end Node

theorem ids_elifNode (c : ElifClause) (b : List Stmt) :
    (Node.stmt (.ifElse c.condition c.block b c.loc)).ids = c.node.ids ++ ids (b.map .stmt) := by
  rw [ElifClause.node, Node.ids_children rfl, Node.ids_children rfl]
  simp

@[simp] theorem ids_elifChain (cs : List ElifClause) (b : List Stmt) :
    ids ((elifChain cs b).map .stmt) = ids (cs.map ElifClause.node) ++ ids (b.map .stmt) := by
  induction cs with
  | nil => rfl
  | cons c cs ih =>
    have hchain : elifChain (c :: cs) b =
        [.ifElse c.condition c.block (elifChain cs b) c.loc] := rfl
    rw [hchain, List.map_singleton, ids_cons, ids_nil, List.append_nil, ids_elifNode, ih,
      List.map_cons, ids_cons, List.append_assoc]

@[simp] theorem ids_foldChain (loc : Option Location) (x : Expr) (links : List (BinaryOp × Expr)) :
    (Node.expr (foldChain loc x links)).ids =
      (Node.expr x).ids ++ ids (links.map fun link => .expr link.2) := by
  induction links generalizing x with
  | nil => exact (List.append_nil _).symm
  | cons link links ih =>
    have hstep : foldChain loc x (link :: links) =
        foldChain loc (.binary x link.1 link.2 loc) links := rfl
    rw [hstep, ih, Node.ids_children (n := .expr (.binary ..)) rfl]
    simp

@[simp] theorem ids_parenthesised (loc : Option Location) (e : Expr) :
    (Node.expr (Build.parenthesised loc e)).ids = (Node.expr e).ids := by
  unfold Build.parenthesised
  split
  · rw [Node.ids_children rfl, Node.ids_children rfl]
    rfl
  · rfl

@[simp] theorem ids_subscript (loc : Option Location) (e : Expr) (k : Subscript) :
    (Node.expr (Build.subscript loc e k)).ids = (Node.expr e).ids ++ ids k.tops := by
  cases k with
  | key k =>
    rw [Build.subscript, Node.ids_children rfl]
    simp
  | range a b c =>
    rw [Build.subscript, Node.ids_children rfl]
    simp

namespace Build

/-- A node that is made of others has their numbers. -/
theorem count_node {n : Node} {given : List Nat} (h : n.own? = none)
    (hchildren : ∀ i, (ids n.children).count i ≤ given.count i) :
    ∀ i, (ids [n]).count i ≤ given.count i := by
  rw [ids_cons, ids_nil, List.append_nil, Node.ids_children h]
  exact hchildren

theorem ids_call {given : List Nat} (loc : Option Location) (f : Expr) (as : List Argument)
    (h : ∀ i, (ids (.expr f :: as.map .argument)).count i ≤ given.count i) :
    Numbers given (call loc f as) fun e => ids [.expr e] := by
  unfold call
  split
  · exact .bind (.report _ _) fun _ => .pure (count_node rfl h)
  · exact .pure (count_node rfl h)

theorem ids_keywordArgument {given : List Nat} (loc : Option Location) (name value : Expr)
    (h : ∀ i, (ids [.expr name, .expr value]).count i ≤ given.count i) :
    Numbers given (keywordArgument loc name value) fun a => ids [.argument a] := by
  unfold keywordArgument
  split
  · refine .pure (count_node rfl fun i => ?_)
    have hi := h i
    simp only [Node.children, Option.toList_some, List.map_singleton, ids_cons, ids_nil,
      List.append_nil, Node.ids_ident, Node.ids_name, List.count_append] at hi ⊢
    omega
  · refine .bind (.quote _) fun _ => .bind (.report _ _) fun _ => .bind (.newIdentifier _ _) fun x =>
      .pure (count_node rfl fun i => ?_)
    have hi := h i
    simp only [Node.children, Option.toList_some, List.map_singleton, ids_cons, ids_nil,
      List.append_nil, Node.ids_name, List.count_append, List.count_cons, List.count_nil] at hi ⊢
    omega

theorem ids_loadBinding {given : List Nat} (localName : Identifier) (exported : StringLiteral)
    (h : ∀ i, [localName.id].count i ≤ given.count i) :
    Numbers given (loadBinding localName exported) fun b => ids [.binding b] := by
  have hpair : ∀ (x : Identifier) (l : Option Location) (i : Nat),
      (ids [.binding ⟨localName, x, l⟩]).count i ≤ (x.id :: given).count i := by
    intro x l i
    have hi := h i
    simp only [ids_cons, ids_nil, List.append_nil, Node.ids_binding, List.count_cons,
      List.count_nil] at hi ⊢
    omega
  unfold loadBinding
  split
  · exact .bind (.report _ _) fun _ => .bind (.newIdentifier _ _) fun x => .pure (hpair x _)
  · exact .bind (.newIdentifier _ _) fun x => .pure (hpair x _)

theorem ids_load {given : List Nat} (file : String) (loc : Option Location) (source : Token)
    (bs : List LoadBinding) (h : ∀ i, (ids (bs.map .binding)).count i ≤ given.count i) :
    Numbers given (load file loc source bs) fun s => ids [.stmt s] := by
  have hnode : ∀ (s : StringLiteral) (i : Nat),
      (ids (Node.stmt (.load s bs loc)).children).count i ≤ given.count i := by
    intro s i
    rw [Node.children, ids_cons, Node.ids_string]
    exact h i
  unfold load
  split
  · exact .bind (.report _ _) fun _ => .bind (.string _ _) fun s => .pure (count_node rfl (hnode s))
  · exact .bind (.string _ _) fun s => .pure (count_node rfl (hnode s))

theorem ids_integer {given : List Nat} (file : String) (t : Token) :
    Numbers given (integer file t) fun e => ids [.expr e] := by
  refine .bind (.keep fun n r n' h => ?_) fun value => .pure (count_node rfl fun i => Nat.zero_le _)
  cases hd : decodeInteger t.text with
  | error fault =>
    rw [hd] at h
    cases h
    rfl
  | ok value =>
    rw [hd] at h
    cases h
    rfl

/-- The action of a rule passes on the numbers of its right side. -/
theorem ids_action (file : String) (span : Option Span) (p : Production) (vs : Meanings p.rhs) :
    Numbers (ids (Meanings.tops p.rhs vs)) (action file span p vs) fun a => ids (p.lhs.tops a) := by
  cases p
  case defNone | defSome | dot | parameterMandatory | parameterOptional | parameterStar
      | parameterStarStar =>
    refine .bind (.newIdentifier _ _) fun x => .pure (count_node rfl fun i => ?_)
    simp [List.count_cons]
  case name =>
    refine .bind (.newIdentifier _ _) fun x => .pure fun i => ?_
    simp
  case loadSomeComma | loadSome =>
    refine ids_load file _ _ vs.2.2.2.1 fun i => ?_
    simp
  case loadNoneComma | loadNone => exact ids_load file _ _ [] fun i => Nat.zero_le _
  case loadPlain | loadAlias =>
    refine .bind (.string _ _) fun name => .bind (.newIdentifier _ _) fun x => ?_
    refine ids_loadBinding x name fun i => ?_
    simp [List.count_cons]
  case callNone =>
    refine ids_call _ vs.1 [] fun i => ?_
    simp
  case callSome =>
    refine ids_call _ vs.1 vs.2.2.1 fun i => ?_
    simp
  case argumentKeyword =>
    refine ids_keywordArgument _ vs.1 vs.2.2.1 fun i => ?_
    simp
  case decimal | hexadecimal | octal => exact ids_integer file _
  case string | longString =>
    exact .bind (.string _ _) fun _ => .pure (count_node rfl fun i => Nat.zero_le _)
  case ifElifElse | ifElif | ifElse | ifOnly | forLoop | exprStatement | assign | augmentedAssign
      | returnValue | returnNone | passFlow | breakFlow | continueFlow
      | parameterBareStar | exprListManyComma | exprListMany | exprListOneComma
      | targetListManyComma | targetListMany | targetListOneComma | conditional | not | unary
      | argumentPositional | argumentStar | argumentStarStar | emptyTuple | listEmpty | listOne
      | listOneComma | listMany | listManyComma | listCompFor | listCompClauses | dictEmpty
      | dictOne | dictOneComma | dictMany | dictManyComma | dictCompFor | dictCompClauses | entry
      | clauseIf | compFor =>
    refine .pure (count_node rfl fun i => ?_)
    simp [List.count_append]
  case elifClause =>
    refine .pure (count_node rfl fun i => ?_)
    simp [ElifClause.node]
  -- The nodes of the other rules are passed on.
  all_goals
    refine .pure fun i => ?_
    simp

theorem renumbers_tops (file : String) :
    Renumbers file (fun s v => ids (s.tops v)) fun ss vs => ids (Meanings.tops ss vs) where
  leaf _ := rfl
  nil := rfl
  cons := ids_append _ _
  action := ids_action file

end Build

/-- The identifiers of a parsed source have different numbers. -/
theorem parseStatements_ids_nodup {text file : String} {firstId : Nat} {ss : List Stmt}
    {notes : Notes} (h : parseStatements text file firstId = (.ok ss, notes)) :
    (numbers ((Stmt.nodesAll ss).filterMap Node.own?)).Nodup := by
  obtain ⟨tree, span, -, hbuild⟩ := tree_of_parseStatements h
  obtain ⟨-, hcount⟩ := (Build.renumbers_tops file).tree tree _ _ _ hbuild
  have hids : numbers ((Stmt.nodesAll ss).filterMap Node.own?) = ids (ss.map .stmt) := by
    rw [Stmt.nodesAll, List.filterMap_flatMap, numbers, List.map_flatMap, ids, List.flatMap_map]
    rfl
  rw [hids]
  refine List.nodup_iff_count.mpr fun i => ?_
  have hi := hcount _ rfl i
  rw [List.count_nil, Nat.zero_add, Build.passed] at hi
  exact Nat.le_trans hi (by split <;> decide)

end Starlark
