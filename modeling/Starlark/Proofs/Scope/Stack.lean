import Mathlib.Data.List.Forall2
import Starlark.Scope.Chain

/-! # The scope chain as a stack of frames

Blocks never leave the arena, so what is visible rests on parent indices alone. The open blocks
are shown to be a stack of frames, a frame being a scope and the names bound in it; each
operation of the chain acts on the top of the stack and on nothing else.
-/
namespace Starlark

/-- A block as resolution sees it. The order and number of the names do not matter. -/
structure Frame where
  scope : Scope
  names : List String

def Frame.binds (f : Frame) (name : String) : Bool := f.names.contains name

/-- The innermost of some frames that binds a name. -/
def Frame.find? (frames : List Frame) (name : String) : Option Frame :=
  List.find? (Frame.binds · name) frames

theorem Frame.isSome_find? {frames : List Frame} {name : String} :
    (Frame.find? frames name).isSome ↔ ∃ f ∈ frames, name ∈ f.names := by
  simp [Frame.find?, Frame.binds]

def Block.Shows (b : Block) (f : Frame) : Prop :=
  b.scope = f.scope ∧ ∀ x, x ∈ b.names ↔ x ∈ f.names

namespace ScopeChain

/-- Parents come before their children, and the outermost block alone has none. -/
structure Rooted (blocks : List Block) : Prop where
  parent_lt : ∀ {i : Nat} {b : Block} {p : Nat},
    blocks[i]? = some b → b.parent = some p → p < i
  parent_eq_none : ∀ {i : Nat} {b : Block}, blocks[i]? = some b → (b.parent = none ↔ i = 0)

/-- The walk to the outermost block is no longer than the index it begins at. -/
theorem ancestry_fuel {blocks : List Block} (h : Rooted blocks) {fuel i : Nat} (hi : i < fuel) :
    ancestry blocks fuel i = ancestry blocks (i + 1) i := by
  induction i using Nat.strongRecOn generalizing fuel with
  | _ i ih =>
    obtain ⟨fuel, rfl⟩ : ∃ k, fuel = k + 1 := ⟨fuel - 1, by omega⟩
    simp only [ancestry]
    cases hb : blocks[i]? with
    | none => rfl
    | some b =>
      cases hp : b.parent with
      | none => simp only [hp]
      | some p =>
        have hlt := h.parent_lt hb hp
        simp only [hp, ih p hlt (show p < fuel by omega), ih p hlt hlt]

/-- A walk sees nothing of the blocks after its start. -/
theorem ancestry_congr {blocks others : List Block} (h : Rooted blocks) {n : Nat}
    (same : ∀ i < n, others[i]? = blocks[i]?) {fuel i : Nat} (hi : i < n) :
    ancestry others fuel i = ancestry blocks fuel i := by
  induction fuel generalizing i with
  | zero => rfl
  | succ fuel ih =>
    simp only [ancestry, same i hi]
    cases hb : blocks[i]? with
    | none => rfl
    | some b =>
      cases hp : b.parent with
      | none => simp only [hp]
      | some p => simp only [hp, ih (Nat.lt_trans (h.parent_lt hb hp) hi)]

/-- A block whose parent is in the arena may be added at its end. -/
theorem Rooted.concat {blocks : List Block} (h : Rooted blocks) {i : Nat}
    (hi : i < blocks.length) (scope : Scope) (names : List String) :
    Rooted (blocks ++ [⟨scope, some i, names⟩]) := by
  have hget : ∀ {j : Nat} {b : Block}, (blocks ++ [⟨scope, some i, names⟩])[j]? = some b →
      blocks[j]? = some b ∨ (j = blocks.length ∧ b = ⟨scope, some i, names⟩) := by
    intro j b hb
    rw [List.getElem?_append] at hb
    split at hb
    · exact Or.inl hb
    · rw [List.getElem?_singleton] at hb
      split at hb
      · exact Or.inr ⟨by omega, (Option.some.inj hb).symm⟩
      · cases hb
  constructor
  · intro j b p hb hp
    rcases hget hb with hb | ⟨rfl, rfl⟩
    · exact h.parent_lt hb hp
    · cases hp
      exact hi
  · intro j b hb
    rcases hget hb with hb | ⟨rfl, rfl⟩
    · exact h.parent_eq_none hb
    · simp only [reduceCtorEq, false_iff]
      omega

/-- A chain whose open blocks are the given frames, innermost first. -/
structure Shows (chain : ScopeChain) (frames : List Frame) : Prop where
  index_lt : chain.index < chain.blocks.length
  rooted : Rooted chain.blocks
  open_shows : List.Forall₂ Block.Shows chain.openBlocks frames

theorem current_eq {chain : ScopeChain} (h : chain.index < chain.blocks.length) :
    chain.blocks[chain.index]? = some chain.current := by
  rw [current, List.getD_eq_getElem?_getD, List.getElem?_eq_getElem h, Option.getD_some]

/-- The current block comes first, then what is open around it. -/
theorem openBlocks_eq {chain : ScopeChain} (h : chain.index < chain.blocks.length)
    (hr : Rooted chain.blocks) :
    chain.openBlocks = chain.current :: (match chain.current.parent with
      | none => []
      | some p => { chain with index := p }.openBlocks) := by
  simp only [openBlocks, ancestry, current_eq h]
  cases hp : chain.current.parent with
  | none => rfl
  | some p =>
    have hlt := hr.parent_lt (current_eq h) hp
    exact congrArg _ (ancestry_fuel hr hlt)

/-- A name resolves exactly if it is one of the symbols. -/
theorem isSome_resolve?_iff (chain : ScopeChain) (name : String) :
    (chain.resolve? name).isSome ↔ name ∈ chain.allSymbols := by
  simp [resolve?, allSymbols]

namespace Shows
variable {chain : ScopeChain} {f : Frame} {fs : List Frame}

theorem start (builtins : List String) (legacy : Bool) :
    (ScopeChain.start builtins legacy).Shows [⟨.builtin, builtins⟩] := by
  refine ⟨by simp [ScopeChain.start], ⟨?_, ?_⟩, ?_⟩
  · intro i b p hb hp
    obtain ⟨rfl, rfl⟩ : i = 0 ∧ b = ⟨.builtin, none, builtins⟩ := by
      cases i <;> simp_all [ScopeChain.start]
    simp at hp
  · intro i b hb
    obtain ⟨rfl, rfl⟩ : i = 0 ∧ b = ⟨.builtin, none, builtins⟩ := by
      cases i <;> simp_all [ScopeChain.start]
    simp
  · exact .cons ⟨rfl, fun _ => Iff.rfl⟩ .nil

theorem current_shows (h : chain.Shows (f :: fs)) : chain.current.Shows f := by
  have ho := h.open_shows
  rw [openBlocks_eq h.index_lt h.rooted] at ho
  exact (List.forall₂_cons.mp ho).1

/-- A frame may be replaced by one of the same scope that binds the same names. -/
theorem congr {g : Frame} (h : chain.Shows (f :: fs)) (scope_eq : f.scope = g.scope)
    (same : ∀ x, x ∈ f.names ↔ x ∈ g.names) : chain.Shows (g :: fs) := by
  obtain ⟨b, bs, hb, hbs, ho⟩ := List.forall₂_cons_right_iff.mp h.open_shows
  refine ⟨h.index_lt, h.rooted, ?_⟩
  rw [ho]
  exact .cons ⟨hb.1.trans scope_eq, fun x => (hb.2 x).trans (same x)⟩ hbs

theorem current_scope (h : chain.Shows (f :: fs)) : chain.current.scope = f.scope :=
  h.current_shows.1

theorem openBlock (h : chain.Shows fs) (scope : Scope) :
    (chain.openBlock scope).Shows (⟨scope, []⟩ :: fs) := by
  have hlt := h.index_lt
  have hr : Rooted (chain.openBlock scope).blocks := h.rooted.concat hlt scope []
  have hi : (chain.openBlock scope).index < (chain.openBlock scope).blocks.length := by
    simp [ScopeChain.openBlock]
  have hc : (chain.openBlock scope).current = ⟨scope, some chain.index, []⟩ := by
    simp [ScopeChain.current, ScopeChain.openBlock]
  refine ⟨hi, hr, ?_⟩
  rw [openBlocks_eq hi hr, hc]
  refine .cons ⟨rfl, fun _ => Iff.rfl⟩ ?_
  have same : ∀ i < chain.blocks.length,
      (chain.openBlock scope).blocks[i]? = chain.blocks[i]? := by
    intro i hi
    exact List.getElem?_append_left hi
  simpa only [openBlocks, ancestry_congr h.rooted same hlt] using h.open_shows

/-- Closing the current block uncovers the stack below it. -/
theorem closeBlock {g : Frame} (h : chain.Shows (f :: g :: fs)) :
    ∃ p, chain.closeBlock = .ok (chain.current, { chain with index := p }) ∧
      ({ chain with index := p } : ScopeChain).Shows (g :: fs) := by
  have ho := h.open_shows
  rw [openBlocks_eq h.index_lt h.rooted] at ho
  cases hp : chain.current.parent with
  | none =>
    simp only [hp, List.forall₂_cons] at ho
    cases ho.2
  | some p =>
    simp only [hp, List.forall₂_cons] at ho
    have hlt := h.rooted.parent_lt (current_eq h.index_lt) hp
    refine ⟨p, by simp only [ScopeChain.closeBlock, hp], ?_, h.rooted, ho.2⟩
    exact Nat.lt_trans hlt h.index_lt

theorem declare (h : chain.Shows (f :: fs)) (name : String) :
    (chain.declare name).Shows (⟨f.scope, name :: f.names⟩ :: fs) := by
  have hget : ∀ i, (chain.declare name).blocks[i]? =
      chain.blocks[i]?.map fun b =>
        if chain.index = i then { b with names := b.names.insert name } else b := by
    intro i
    simp [ScopeChain.declare, List.getElem?_modify]
  have hi : (chain.declare name).index < (chain.declare name).blocks.length := by
    simpa [ScopeChain.declare] using h.index_lt
  have hr : Rooted (chain.declare name).blocks := by
    constructor
    · intro i b p hb hp
      rw [hget] at hb
      obtain ⟨c, hc, rfl⟩ := Option.map_eq_some_iff.mp hb
      exact h.rooted.parent_lt hc (by split at hp <;> exact hp)
    · intro i b hb
      rw [hget] at hb
      obtain ⟨c, hc, rfl⟩ := Option.map_eq_some_iff.mp hb
      rw [← h.rooted.parent_eq_none hc]
      split <;> rfl
  have hc : (chain.declare name).current =
      { chain.current with names := chain.current.names.insert name } := by
    have := hget chain.index
    rw [current_eq h.index_lt, ← show (chain.declare name).index = chain.index from rfl,
      current_eq hi] at this
    simpa using this
  have same : ∀ i < chain.index, (chain.declare name).blocks[i]? = chain.blocks[i]? := by
    intro i hlt
    rw [hget]
    cases chain.blocks[i]? <;> simp [Nat.ne_of_gt hlt]
  have ho := h.open_shows
  rw [openBlocks_eq h.index_lt h.rooted] at ho
  refine ⟨hi, hr, ?_⟩
  rw [openBlocks_eq hi hr, hc]
  refine .cons ⟨h.current_scope, ?_⟩ ?_
  · intro x
    simp only [List.mem_insert_iff, List.mem_cons, h.current_shows.2]
  · have hrest := (List.forall₂_cons.mp ho).2
    cases hp : chain.current.parent with
    | none => simpa only [hp] using hrest
    | some p =>
      have hlt := h.rooted.parent_lt (current_eq h.index_lt) hp
      simp only [hp, openBlocks] at hrest
      simpa only [openBlocks, ancestry_congr h.rooted same hlt] using hrest

theorem rebinds_iff (h : chain.Shows (f :: fs)) (name : String) :
    chain.rebinds name = true ↔ f.scope = .global ∧ name ∈ f.names ∧ chain.legacy = false := by
  simp [rebinds, h.current_scope, h.current_shows.2, and_assoc]

/-- A name resolves to a block of the innermost frame that binds it. -/
theorem resolve?_scope (h : chain.Shows fs) (name : String) :
    (chain.resolve? name).map (·.scope) = (Frame.find? fs name).map (·.scope) := by
  have ho := h.open_shows
  rw [resolve?, Frame.find?]
  generalize chain.openBlocks = blocks at ho ⊢
  clear h
  induction ho with
  | nil => rfl
  | @cons b f bs fs hb _ ih =>
    have hn : b.names.contains name = f.binds name := by
      rw [Bool.eq_iff_iff, Frame.binds]
      simpa using hb.2 name
    simp only [List.find?_cons, hn]
    cases f.binds name with
    | true => simp [hb.1]
    | false => exact ih

theorem mem_allSymbols (h : chain.Shows fs) (x : String) :
    x ∈ chain.allSymbols ↔ x ∈ fs.flatMap (·.names) := by
  have ho := h.open_shows
  rw [allSymbols]
  generalize chain.openBlocks = blocks at ho ⊢
  clear h
  induction ho with
  | nil => rfl
  | cons hb _ ih => simp only [List.flatMap_cons, List.mem_append, hb.2, ih]

theorem isSome_resolve? (h : chain.Shows fs) (name : String) :
    (chain.resolve? name).isSome = (Frame.find? fs name).isSome := by
  have hscope := congrArg Option.isSome (h.resolve?_scope name)
  rwa [Option.isSome_map, Option.isSome_map] at hscope

/-- Only the outermost block is open exactly when the chain is balanced. -/
theorem isBalanced (h : chain.Shows [f]) : chain.isBalanced = true := by
  have ho := h.open_shows
  rw [openBlocks_eq h.index_lt h.rooted] at ho
  cases hp : chain.current.parent with
  | none => simpa [ScopeChain.isBalanced] using
      (h.rooted.parent_eq_none (current_eq h.index_lt)).mp hp
  | some p =>
    have hlt := h.rooted.parent_lt (current_eq h.index_lt) hp
    simp only [hp, List.forall₂_cons] at ho
    have hopen := @openBlocks_eq { chain with index := p }
      (Nat.lt_trans hlt h.index_lt) h.rooted
    rw [List.forall₂_nil_right_iff.mp ho.2] at hopen
    cases hopen

end Shows
end ScopeChain
end Starlark
