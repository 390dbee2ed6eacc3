import Starlark.Syntax.Tree

/-! # Nodes

What a syntax tree is made of: its statements and expressions, and between them the entries,
arguments, clauses, parameters and bindings, and the identifiers and strings at its leaves.
-/
namespace Starlark

def Location.start (l : Location) : Point := ⟨l.line, l.column⟩

inductive Node
  | stmt (s : Stmt)
  | expr (e : Expr)
  | entry (d : Entry)
  | argument (a : Argument)
  | clause (c : Clause)
  | parameter (p : Parameter)
  | binding (b : LoadBinding)
  | string (s : StringLiteral)
  /-- An identifier that is no expression: of a function, a parameter, a field, a keyword argument,
  or the new name in a load. -/
  | name (x : Identifier)
  /-- An identifier that is written as a string in a load. -/
  | loaded (x : Identifier)

def Entry.loc : Entry → Option Location
  | .mk _ _ l => l

def Clause.loc : Clause → Option Location
  | .each _ _ l | .guard _ l => l

def Body.node : Body → Node
  | .item e => .expr e
  | .entry d => .entry d

namespace Node

def loc : Node → Option Location
  | .stmt s => s.loc
  | .expr e => e.loc
  | .entry d => d.loc
  | .argument a => a.loc
  | .clause c => c.loc
  | .parameter p => p.loc
  | .binding b => b.loc
  | .string s => s.loc
  | .name x | .loaded x => x.loc

/-- The nodes right below a node. A binding without a new name has both of its identifiers from one
string. -/
def children : Node → List Node
  | .stmt (.expr e _) => [.expr e]
  | .stmt (.assign x e _) => [.expr x, .expr e]
  | .stmt (.augmentedAssign _ x e _) => [.expr x, .expr e]
  | .stmt (.ifElse c a b _) => .expr c :: (a.map .stmt ++ b.map .stmt)
  | .stmt (.forLoop x e b _) => .expr x :: .expr e :: b.map .stmt
  | .stmt (.define f ps b _) => .name f :: (ps.map .parameter ++ b.map .stmt)
  | .stmt (.returns e _) => e.toList.map .expr
  | .stmt (.flow _ _) => []
  | .stmt (.load s bs _) => .string s :: bs.map .binding
  | .expr (.ident _) | .expr (.int _ _) | .expr (.str _) => []
  | .expr (.list es _ _) => es.map .expr
  | .expr (.dict ds _) => ds.map .entry
  | .expr (.binary x _ y _) => [.expr x, .expr y]
  | .expr (.unary _ x _) => [.expr x]
  | .expr (.conditional a c b _) => [.expr a, .expr c, .expr b]
  | .expr (.dot e x _) => [.expr e, .name x]
  | .expr (.index e k _) => [.expr e, .expr k]
  | .expr (.slice e a b c _) => .expr e :: (a.toList ++ b.toList ++ c.toList).map .expr
  | .expr (.call f as _) => .expr f :: as.map .argument
  | .expr (.comprehension b cs _ _) => b.node :: cs.map .clause
  | .entry (.mk k v _) => [.expr k, .expr v]
  | .argument (.mk _ v x _) => .expr v :: x.toList.map .name
  | .clause (.each x e _) => [.expr x, .expr e]
  | .clause (.guard c _) => [.expr c]
  | .parameter p => p.identifier.toList.map .name ++ p.default.toList.map .expr
  | .binding b =>
    [if b.localName.loc = b.exportedName.loc then .loaded b.localName else .name b.localName,
     .loaded b.exportedName]
  | .string _ | .name _ | .loaded _ => []

theorem sizeOf_body (b : Body) : sizeOf b.node = sizeOf b := by
  cases b <;> rfl

theorem sizeOf_parameter (p : Parameter) :
    sizeOf p.identifier + sizeOf p.default < sizeOf p := by
  cases p
  simp only [Parameter.mk.sizeOf_spec]
  omega

theorem sizeOf_binding (b : LoadBinding) :
    sizeOf b.localName + sizeOf b.exportedName < sizeOf b := by
  cases b
  simp only [LoadBinding.mk.sizeOf_spec]
  omega

/-- The nodes below a node are smaller. -/
theorem sizeOf_children (n : Node) : ∀ m ∈ n.children, sizeOf m < sizeOf n := by
  have hlist : ∀ {α : Type} [SizeOf α] {l : List α}, ∀ a ∈ l, sizeOf a < sizeOf l :=
    fun _ ha => List.sizeOf_lt_of_mem ha
  have hoption : ∀ {α : Type} [SizeOf α] {o : Option α} (a : α), o = some a → sizeOf a < sizeOf o := by
    rintro α _ _ a rfl
    rw [Option.some.sizeOf_spec]
    omega
  unfold children
  split
  case h_27 p =>
    have hp := sizeOf_parameter p
    simp only [List.forall_mem_append, List.forall_mem_map, Option.mem_toList]
    refine ⟨fun x hx => ?_, fun e he => ?_⟩
    · have hlt := hoption x hx
      simp only [name.sizeOf_spec, parameter.sizeOf_spec]
      omega
    · have hlt := hoption e he
      simp only [expr.sizeOf_spec, parameter.sizeOf_spec]
      omega
  case h_28 b =>
    have hb := sizeOf_binding b
    rw [List.forall_mem_cons, List.forall_mem_singleton]
    constructor
    · split <;> simp only [name.sizeOf_spec, loaded.sizeOf_spec, binding.sizeOf_spec] <;> omega
    · simp only [loaded.sizeOf_spec, binding.sizeOf_spec]
      omega
  -- What is left are members of the constructors, alone or in a list or an option.
  all_goals simp [sizeOf_body, or_imp, forall_and]
  all_goals and_intros
  all_goals first
    | omega
    | intro a ha
      have hlt := hlist a ha
      omega
    | intro a ha
      have hlt := hoption a ha
      omega

/-- A node and all nodes below it. -/
def nodes (n : Node) : List Node := n :: n.children.attach.flatMap fun m => m.1.nodes
termination_by sizeOf n
decreasing_by exact sizeOf_children n m.1 m.2

theorem nodes_eq (n : Node) : n.nodes = n :: n.children.flatMap nodes := by
  rw [nodes, List.flatMap_subtype (g := nodes) fun _ _ => rfl, List.unattach_attach]

/-- Every node, down from a given one, has a property. -/
def All (P : Node → Prop) (n : Node) : Prop := ∀ m ∈ n.nodes, P m

theorem all_iff {P : Node → Prop} {n : Node} : n.All P ↔ P n ∧ ∀ m ∈ n.children, m.All P := by
  rw [All, nodes_eq, List.forall_mem_cons]
  simp only [List.mem_flatMap, All]
  exact and_congr_right fun _ => ⟨fun h m hm k hk => h k ⟨m, hm, hk⟩, fun h k ⟨m, hm, hk⟩ => h m hm k hk⟩

theorem All.self {P : Node → Prop} {n : Node} (h : n.All P) : P n := (all_iff.mp h).1

theorem All.mono {P Q : Node → Prop} (hPQ : ∀ n, P n → Q n) {n : Node} (h : n.All P) :
    n.All Q := fun m hm => hPQ m (h m hm)

/-- The identifier that a node is. -/
def own? : Node → Option Identifier
  | .expr (.ident x) | .name x | .loaded x => some x
  | _ => none

/-- The identifiers among a node and all nodes below it. -/
def identifiers (n : Node) : List Identifier := n.nodes.filterMap own?

theorem identifiers_eq (n : Node) :
    n.identifiers = n.own?.toList ++ n.children.flatMap identifiers := by
  rw [identifiers, nodes_eq, List.filterMap_cons, List.filterMap_flatMap]
  cases n.own? <;> rfl

end Node

/-- All nodes of some statements. -/
def Stmt.nodesAll (ss : List Stmt) : List Node := ss.flatMap fun s => (Node.stmt s).nodes

end Starlark
