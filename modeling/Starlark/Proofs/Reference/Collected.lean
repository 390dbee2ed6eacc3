import Starlark.Proofs.Reference.Readings

/-! # The readings that trees build

The trees of a nonterminal build the readings of each rule that it stands for. A repetition is
read by the nonterminal that collects it.
-/
namespace Starlark.Reference
open Form

namespace Reading

variable {α : Type}

/-- The empty list, which derives nothing, beside the readings of a nonterminal. -/
inductive OrNil (F : Reading (List α)) : Reading (List α)
  | nil {n : Notes} : OrNil F [] n [] none n
  | cons {ts : List Token} {n n' : Notes} {vs : List α} {s : Option Span} (h : F ts n vs s n') :
    OrNil F ts n vs s n'

end Reading

/-- The readings of each rule. -/
def builds (file : String) : (q : Rule) → Reading q.Meaning
  | .start => Built file (.n .file)
  | .stmt => Built file (.n .statement)
  | .compoundStmt | .ifStmt | .forStmt | .funcdef =>
    fun ts n v s n' => Built file (.n .statement) ts n [v] s n'
  | .simpleStmt => Built file (.n .line)
  | .smallStmt | .exprStmt | .assignStmt | .augAssignStmt | .returnStmt | .passStmt | .breakStmt
  | .continueStmt | .loadStmt => Built file (.n .small)
  | .suite => Built file (.n .suite)
  | .augOp => Built file (.n .augmentedOp)
  | .loadArg => Built file (.n .loadArg)
  | .stringToken => Built file (.n .stringToken)
  | .elifClause => Built file (.n .elifClause)
  | .elseClause => Built file (.n .elseClause)
  | .parameters => .OrNil (Built file (.n .parameters))
  | .parameter => Built file (.n .parameter)
  | .testList | .testTuple => Built file (.n .exprList)
  | .exprlist | .exprTuple => Built file (.n .targetList)
  | .expr l => Built file (.n (.expr l))
  | .operator b => Built file (.n (.operator b))
  | .unaryOp => Built file (.n .unaryOp)
  | .arguments => .OrNil (Built file (.n .arguments))
  | .argument => Built file (.n .argument)
  | .subscript | .subscriptSlice => Built file (.n .subscript)
  | .dictEntry => Built file (.n .entry)
  | .compClause | .compIf => Built file (.n .clause)
  | .compFor => Built file (.n .compFor)
  | .number | .string => Built file (.n (.expr .atom))

/-- The readings of a form. -/
abbrev Reads (file : String) {α : Type} (f : Form α) : Reading α := f.reading file (builds file)

section Repetitions

variable {file : String} {ts : List Token} {n n' : Notes} {s : Option Span}

theorem reads_items {vs : List (List Stmt)} (h : Reads file (plus item) ts n vs s n') :
    Built file (.n .items) ts n vs.flatten s n' := by
  induction h with
  | one h =>
    obtain ⟨h, hact⟩ | h := h
    · cases hact
      exact .node .itemsBlank (.one h) rfl
    · rw [List.flatten_singleton]
      exact .node .itemsStatement (.one h) rfl
  | more _ h ih =>
    rw [List.flatten_append, List.flatten_singleton]
    obtain ⟨h, hact⟩ | h := h
    · cases hact
      rw [List.append_nil]
      exact .node .itemsMoreBlank (.cons ih (.one h)) rfl
    · exact .node .itemsMore (.cons ih (.one h)) rfl

theorem reads_block {vs : List (List Stmt)} (h : Reads file (plus (r .stmt)) ts n vs s n') :
    Built file (.n .block) ts n vs.flatten s n' := by
  induction h with
  | one h =>
    rw [List.flatten_singleton]
    exact .node .blockOne (.one h) rfl
  | more _ h ih =>
    rw [List.flatten_append, List.flatten_singleton]
    exact .node .blockMore (.cons ih (.one h)) rfl

theorem reads_smalls {vs : List Stmt} (h : Reads file (plus (after .semicolon
  (r .smallStmt))) ts n vs s n') :
    Built file (.n .smalls) ts n vs s n' := by
  induction h with
  | one h =>
    obtain ⟨⟨h₁, ⟨h₂, ⟨⟩⟩⟩, hact⟩ := h
    cases hact
    exact .node .smallsOne (.cons h₁ (.cons h₂ .nil)) rfl
  | more _ h ih =>
    obtain ⟨⟨h₁, ⟨h₂, ⟨⟩⟩⟩, hact⟩ := h
    cases hact
    exact .node .smallsMore (.cons ih (.cons h₁ (.cons h₂ .nil))) rfl

theorem reads_loadArgs {vs : List LoadBinding} (h : Reads file (plus (after .comma
  (r .loadArg))) ts n vs s n') :
    Built file (.n .loadArgs) ts n vs s n' := by
  induction h with
  | one h =>
    obtain ⟨⟨h₁, ⟨h₂, ⟨⟩⟩⟩, hact⟩ := h
    cases hact
    exact .node .loadArgsOne (.cons h₁ (.cons h₂ .nil)) rfl
  | more _ h ih =>
    obtain ⟨⟨h₁, ⟨h₂, ⟨⟩⟩⟩, hact⟩ := h
    cases hact
    exact .node .loadArgsMore (.cons ih (.cons h₁ (.cons h₂ .nil))) rfl

theorem reads_elifs {vs : List ElifClause} (h : Reads file (plus (r .elifClause)) ts n vs s n') :
    Built file (.n .elifs) ts n vs s n' := by
  induction h with
  | one h => exact .node .elifsOne (.one h) rfl
  | more _ h ih => exact .node .elifsMore (.cons ih (.one h)) rfl

theorem reads_parameterRest {vs : List Parameter} (h : Reads file (plus (after .comma
  (r .parameter))) ts n vs s n') :
    Built file (.n .parameterRest) ts n vs s n' := by
  induction h with
  | one h =>
    obtain ⟨⟨h₁, ⟨h₂, ⟨⟩⟩⟩, hact⟩ := h
    cases hact
    exact .node .parameterRestOne (.cons h₁ (.cons h₂ .nil)) rfl
  | more _ h ih =>
    obtain ⟨⟨h₁, ⟨h₂, ⟨⟩⟩⟩, hact⟩ := h
    cases hact
    exact .node .parameterRestMore (.cons ih (.cons h₁ (.cons h₂ .nil))) rfl

theorem reads_exprRest {vs : List Expr} (h : Reads file (plus (after .comma (r
  (.expr .test)))) ts n vs s n') :
    Built file (.n .exprRest) ts n vs s n' := by
  induction h with
  | one h =>
    obtain ⟨⟨h₁, ⟨h₂, ⟨⟩⟩⟩, hact⟩ := h
    cases hact
    exact .node .exprRestOne (.cons h₁ (.cons h₂ .nil)) rfl
  | more _ h ih =>
    obtain ⟨⟨h₁, ⟨h₂, ⟨⟩⟩⟩, hact⟩ := h
    cases hact
    exact .node .exprRestMore (.cons ih (.cons h₁ (.cons h₂ .nil))) rfl

theorem reads_targetRest {vs : List Expr} (h : Reads file (plus (after .comma (r (.expr
  (.binary .bitOr))))) ts n vs s n') :
    Built file (.n .targetRest) ts n vs s n' := by
  induction h with
  | one h =>
    obtain ⟨⟨h₁, ⟨h₂, ⟨⟩⟩⟩, hact⟩ := h
    cases hact
    exact .node .targetRestOne (.cons h₁ (.cons h₂ .nil)) rfl
  | more _ h ih =>
    obtain ⟨⟨h₁, ⟨h₂, ⟨⟩⟩⟩, hact⟩ := h
    cases hact
    exact .node .targetRestMore (.cons ih (.cons h₁ (.cons h₂ .nil))) rfl

theorem reads_argumentRest {vs : List Argument} (h : Reads file (plus (after .comma
  (r .argument))) ts n vs s n') :
    Built file (.n .argumentRest) ts n vs s n' := by
  induction h with
  | one h =>
    obtain ⟨⟨h₁, ⟨h₂, ⟨⟩⟩⟩, hact⟩ := h
    cases hact
    exact .node .argumentRestOne (.cons h₁ (.cons h₂ .nil)) rfl
  | more _ h ih =>
    obtain ⟨⟨h₁, ⟨h₂, ⟨⟩⟩⟩, hact⟩ := h
    cases hact
    exact .node .argumentRestMore (.cons ih (.cons h₁ (.cons h₂ .nil))) rfl

theorem reads_entryRest {vs : List Entry} (h : Reads file (plus (after .comma
  (r .dictEntry))) ts n vs s n') :
    Built file (.n .entryRest) ts n vs s n' := by
  induction h with
  | one h =>
    obtain ⟨⟨h₁, ⟨h₂, ⟨⟩⟩⟩, hact⟩ := h
    cases hact
    exact .node .entryRestOne (.cons h₁ (.cons h₂ .nil)) rfl
  | more _ h ih =>
    obtain ⟨⟨h₁, ⟨h₂, ⟨⟩⟩⟩, hact⟩ := h
    cases hact
    exact .node .entryRestMore (.cons ih (.cons h₁ (.cons h₂ .nil))) rfl

theorem reads_clauses {vs : List Clause} (h : Reads file (plus (r .compClause)) ts n vs s n') :
    Built file (.n .clauses) ts n vs s n' := by
  induction h with
  | one h => exact .node .clausesOne (.one h) rfl
  | more _ h ih => exact .node .clausesMore (.cons ih (.one h)) rfl

theorem reads_rest {b : BinaryLevel} {links : List (BinaryOp × Expr)}
    (h : Reads file (plus (link b)) ts n links s n') : Built file (.n
      (.rest b)) ts n links s n' := by
  induction h with
  | one h =>
    obtain ⟨⟨h₁, ⟨h₂, ⟨⟩⟩⟩, hact⟩ := h
    cases hact
    exact .node (.restOne b) (.cons h₁ (.cons h₂ .nil)) rfl
  | more _ h ih =>
    obtain ⟨⟨h₁, ⟨h₂, ⟨⟩⟩⟩, hact⟩ := h
    cases hact
    exact .node (.restMore b) (.cons ih (.cons h₁ (.cons h₂ .nil))) rfl

end Repetitions

/-- The operators of a level, read off their signs. -/
theorem reads_signs {file : String} {b : BinaryLevel} {ts : List Token} {n n' : Notes}
    {op : BinaryOp} {s : Option Span} (x : Terminal × BinaryOp) (l : List (Terminal × BinaryOp))
    (hsigns : ∀ y ∈ x :: l, y.2.symbols = [.t y.1] ∧ y.2.level = b)
    (h : Reads file (signs x l) ts n op s n') : Built file (.n (.operator b)) ts n op s n' := by
  have hsign : ∀ y : Terminal × BinaryOp, y.2.symbols = [.t y.1] ∧ y.2.level = b →
      Reads file (sign y.1 y.2) ts n op s n' → Built file (.n (.operator b)) ts n op s n' := by
    intro ⟨a, op'⟩ hy h
    obtain ⟨hsymbols, rfl⟩ := hy
    obtain ⟨h, hact⟩ := h
    cases hact
    have hs : ∃ vs, BuiltAll file op'.symbols ts n vs s n' := by
      rw [hsymbols]
      exact ⟨_, .one h⟩
    obtain ⟨vs, hs⟩ := hs
    exact .node (.operator op') hs rfl
  induction l generalizing x with
  | nil => exact hsign x (hsigns x List.mem_cons_self) h
  | cons y l ih =>
    obtain h | h := h
    · exact hsign x (hsigns x List.mem_cons_self) h
    · exact ih y (fun z hz => hsigns z (List.mem_cons_of_mem x hz)) h
end Starlark.Reference
