import Mathlib.Data.Finset.Dedup
import Mathlib.Data.Finset.Union
import Starlark.Proofs.Scope.Stack
import Starlark.Resolve.Binding

/-! # The arena refines a stack of name sets

Whoever uses a scope chain sees a plain stack: a layer is a scope and a set of names, to open pushes
an empty layer and to close takes the top one off. The arena answers every sequence of operations
as the stack does. Closed blocks stay in the arena, but nothing reaches them any more.
-/
namespace Starlark

structure Layer where
  scope : Scope
  names : Finset String
deriving DecidableEq

/-- A block as its users see it. -/
def Block.layer (b : Block) : Layer := ⟨b.scope, b.names.toFinset⟩

def Frame.layer (f : Frame) : Layer := ⟨f.scope, f.names.toFinset⟩

namespace ScopeChain

inductive Operation
  | openBlock (scope : Scope)
  | closeBlock
  | declare (name : String) (loc : Option Location)
  | resolve (name : String)
  | allSymbols

inductive Answer
  | done
  | closed (layer : Layer)
  | fault (fault : Fault)
  | resolved (layer : Option Layer)
  | symbols (names : Finset String)

end ScopeChain

open ScopeChain (Operation Answer)

/-- One operation on a chain that notes its errors. -/
def Declarations.perform : Operation → StateM Declarations Answer
  | .openBlock scope => fun d => (.done, { d with chain := d.chain.openBlock scope })
  | .closeBlock => fun d =>
    match d.chain.closeBlock with
    | .ok (b, chain) => (.closed b.layer, { d with chain })
    | .error fault => (.fault fault, d)
  | .declare name loc => fun d => (.done, d.declare name loc)
  | .resolve name => fun d => (.resolved ((d.chain.resolve? name).map Block.layer), d)
  | .allSymbols => fun d => (.symbols d.chain.allSymbols.toFinset, d)

/-- Some operations in order, with their answers. -/
def Declarations.performAll (d : Declarations) (ops : List Operation) :
    List Answer × Declarations := (ops.mapM perform).run d

/-- A stack of layers, which is never empty, and the errors noted. -/
structure LayerStack where
  top : Layer
  below : List Layer
  errors : List Diagnostic

namespace LayerStack

def start (builtins : Finset String) : LayerStack := ⟨⟨.builtin, builtins⟩, [], []⟩

def layers (s : LayerStack) : List Layer := s.top :: s.below

/-- One operation on a stack. The bottom layer cannot be taken off. -/
def perform (legacy : Bool) : Operation → StateM LayerStack Answer
  | .openBlock scope => fun s => (.done, { s with top := ⟨scope, ∅⟩, below := s.layers })
  | .closeBlock => fun s =>
    match s.below with
    | [] => (.fault .closeUniverse, s)
    | layer :: below => (.closed s.top, { s with top := layer, below })
  | .declare name loc => fun s =>
    (.done, { s with
      top := { s.top with names := insert name s.top.names }
      errors := if s.top.scope = .global ∧ name ∈ s.top.names ∧ legacy = false then
          s.errors ++ [readOnlyError name loc]
        else s.errors })
  | .resolve name => fun s => (.resolved (s.layers.find? (name ∈ ·.names)), s)
  | .allSymbols => fun s => (.symbols (s.layers.toFinset.biUnion (·.names)), s)

def performAll (s : LayerStack) (legacy : Bool) (ops : List Operation) :
    List Answer × LayerStack := (ops.mapM (perform legacy)).run s

end LayerStack

theorem Block.Shows.layer_eq {b : Block} {f : Frame} (h : b.Shows f) : b.layer = f.layer := by
  rw [Block.layer, Frame.layer, h.1]
  congr 1
  ext x
  simp only [List.mem_toFinset, h.2]

namespace ScopeChain
variable {chain : ScopeChain} {f : Frame} {fs : List Frame}

namespace Shows

theorem layers_eq (h : chain.Shows fs) : chain.openBlocks.map Block.layer = fs.map Frame.layer := by
  have ho := h.open_shows
  generalize chain.openBlocks = blocks at ho ⊢
  clear h
  induction ho with
  | nil => rfl
  | cons hb _ ih => rw [List.map_cons, List.map_cons, hb.layer_eq, ih]

theorem resolve?_layer (h : chain.Shows fs) (name : String) :
    (chain.resolve? name).map Block.layer = (fs.map Frame.layer).find? (name ∈ ·.names) := by
  rw [← h.layers_eq, List.find?_map, resolve?]
  congr 2
  funext b
  simp [Block.layer]

theorem allSymbols_layers (h : chain.Shows fs) :
    chain.allSymbols.toFinset = (fs.map Frame.layer).toFinset.biUnion (·.names) := by
  ext x
  rw [List.mem_toFinset, h.mem_allSymbols]
  simp [Frame.layer]

/-- Only the outermost block has nothing below it, and it cannot be closed. -/
theorem closeBlock_bottom (h : chain.Shows [f]) : chain.closeBlock = .error .closeUniverse := by
  have hindex : chain.index = 0 := by simpa [ScopeChain.isBalanced] using h.isBalanced
  have hparent := (h.rooted.parent_eq_none (current_eq h.index_lt)).mpr hindex
  rw [ScopeChain.closeBlock, hparent]

end Shows
end ScopeChain

/-- A chain with its errors shows what a stack is. -/
structure Declarations.Refines (legacy : Bool) (d : Declarations) (s : LayerStack) : Prop where
  shows : ∃ f fs, d.chain.Shows (f :: fs) ∧ f.layer = s.top ∧ fs.map Frame.layer = s.below
  legacy_eq : d.chain.legacy = legacy
  errors_eq : d.errors = s.errors

namespace Declarations.Refines
variable {legacy : Bool} {d : Declarations} {s : LayerStack}

theorem start (builtins : List String) (legacy : Bool) :
    Refines legacy ⟨.start builtins legacy, []⟩ (.start builtins.toFinset) :=
  ⟨⟨⟨.builtin, builtins⟩, [], .start builtins legacy, rfl, rfl⟩, rfl, rfl⟩

theorem layers_eq (h : d.Refines legacy s) :
    d.chain.openBlocks.map Block.layer = s.layers := by
  obtain ⟨f, fs, hs, htop, hbelow⟩ := h.shows
  rw [hs.layers_eq, List.map_cons, htop, hbelow, LayerStack.layers]

/-- An operation is answered alike, and the chain still shows the stack. -/
theorem perform (h : d.Refines legacy s) (op : Operation) :
    (Declarations.perform op d).1 = (LayerStack.perform legacy op s).1 ∧
      (Declarations.perform op d).2.Refines legacy (LayerStack.perform legacy op s).2 := by
  obtain ⟨f, fs, hs, htop, hbelow⟩ := h.shows
  have hlayers : (f :: fs).map Frame.layer = s.layers := by
    rw [List.map_cons, htop, hbelow, LayerStack.layers]
  cases op with
  | openBlock scope =>
    exact ⟨rfl, ⟨_, _, hs.openBlock scope, rfl, hlayers⟩, h.legacy_eq, h.errors_eq⟩
  | closeBlock =>
    cases fs with
    | nil =>
      rw [List.map_nil] at hbelow
      simp only [Declarations.perform, hs.closeBlock_bottom, LayerStack.perform, ← hbelow]
      exact ⟨trivial, h⟩
    | cons g fs =>
      rw [List.map_cons] at hbelow
      obtain ⟨p, hclose, hs'⟩ := hs.closeBlock
      simp only [Declarations.perform, hclose, LayerStack.perform, ← hbelow]
      refine ⟨?_, ⟨g, fs, hs', rfl, rfl⟩, h.legacy_eq, h.errors_eq⟩
      rw [hs.current_shows.layer_eq, htop]
  | declare name loc =>
    refine ⟨rfl, ⟨_, fs, hs.declare name, ?_, hbelow⟩, h.legacy_eq, ?_⟩
    · simp [Frame.layer, LayerStack.perform, ← htop]
    · have hrebinds : d.chain.rebinds name = true ↔
          s.top.scope = .global ∧ name ∈ s.top.names ∧ legacy = false := by
        rw [hs.rebinds_iff, h.legacy_eq, ← htop]
        simp [Frame.layer]
      simp only [Declarations.perform, Declarations.declare, LayerStack.perform, hrebinds,
        h.errors_eq]
  | resolve name =>
    refine ⟨?_, h⟩
    simp only [Declarations.perform, LayerStack.perform, hs.resolve?_layer, hlayers]
  | allSymbols =>
    refine ⟨?_, h⟩
    simp only [Declarations.perform, LayerStack.perform, hs.allSymbols_layers, hlayers]

/-- So is every sequence of operations. -/
theorem performAll (h : d.Refines legacy s) (ops : List Operation) :
    (d.performAll ops).1 = (s.performAll legacy ops).1 ∧
      (d.performAll ops).2.Refines legacy (s.performAll legacy ops).2 := by
  induction ops generalizing d s with
  | nil => exact ⟨rfl, h⟩
  | cons op ops ih =>
    obtain ⟨hanswer, hnext⟩ := h.perform op
    obtain ⟨hanswers, hlast⟩ := ih hnext
    simp only [Declarations.performAll, LayerStack.performAll, List.mapM_cons]
    refine ⟨?_, hlast⟩
    exact congrArg₂ List.cons hanswer hanswers

end Declarations.Refines

/-! ## Blocks that were closed -/

namespace ScopeChain

/-- Is a block of the arena the current one, or a parent of an open one? -/
inductive IsOpen (chain : ScopeChain) : Nat → Prop
  | current : IsOpen chain chain.index
  | parent {i p : Nat} {b : Block} (h : IsOpen chain i) (hb : chain.blocks[i]? = some b)
      (hp : b.parent = some p) : IsOpen chain p

/-- The blocks that a walk from an index sees. -/
theorem mem_ancestry {chain : ScopeChain} (hr : Rooted chain.blocks) {i : Nat}
    (h : chain.IsOpen i) {c : Block} (hc : c ∈ ancestry chain.blocks (i + 1) i) :
    ∃ j, chain.IsOpen j ∧ chain.blocks[j]? = some c := by
  induction i using Nat.strongRecOn with
  | ind i ih =>
    rw [ancestry] at hc
    cases hb : chain.blocks[i]? with
    | none =>
      rw [hb] at hc
      cases hc
    | some b =>
      rw [hb] at hc
      dsimp only at hc
      cases hp : b.parent with
      | none =>
        rw [hp, List.mem_singleton] at hc
        exact ⟨i, h, hc ▸ hb⟩
      | some p =>
        rw [hp] at hc
        have hlt := hr.parent_lt hb hp
        dsimp only at hc
        rw [ancestry_fuel hr hlt] at hc
        rcases List.mem_cons.mp hc with rfl | hc
        · exact ⟨i, h, hb⟩
        · exact ih p hlt (h.parent hb hp) hc

variable {chain : ScopeChain} {fs : List Frame} {i : Nat}

theorem IsOpen.lt (h : chain.IsOpen i) (hi : chain.index < chain.blocks.length)
    (hr : Rooted chain.blocks) : i < chain.blocks.length := by
  induction h with
  | current => exact hi
  | parent _ hb hp ih => exact Nat.lt_trans (hr.parent_lt hb hp) ih

/-- An open index is at most the current one, and its block is among those that are seen. -/
theorem IsOpen.sees (h : chain.IsOpen i) (hr : Rooted chain.blocks) :
    i ≤ chain.index ∧ ∀ c ∈ ancestry chain.blocks (i + 1) i, c ∈ chain.openBlocks := by
  induction h with
  | current => exact ⟨Nat.le_refl _, fun _ hc => hc⟩
  | @parent i p b _ hb hp ih =>
    have hlt := hr.parent_lt hb hp
    refine ⟨Nat.le_trans (Nat.le_of_lt hlt) ih.1, fun c hc => ih.2 c ?_⟩
    rw [ancestry, hb]
    dsimp only
    rw [hp]
    dsimp only
    rw [ancestry_fuel hr hlt]
    exact List.mem_cons_of_mem b hc

/-- What resolution sees are the open blocks. -/
theorem mem_openBlocks_iff (h : chain.Shows fs) (c : Block) :
    c ∈ chain.openBlocks ↔ ∃ j, chain.IsOpen j ∧ chain.blocks[j]? = some c := by
  constructor
  · exact mem_ancestry h.rooted .current
  · rintro ⟨j, hj, hc⟩
    refine (hj.sees h.rooted).2 c ?_
    rw [ancestry, hc]
    dsimp only
    cases c.parent with
    | none => exact List.mem_singleton_self c
    | some p => exact List.mem_cons_self

/-- A block is out of reach: it is in the arena and not open. -/
structure IsClosed (chain : ScopeChain) (i : Nat) : Prop where
  lt : i < chain.blocks.length
  not_open : ¬ chain.IsOpen i

/-- The open blocks of a chain that differs in names, or in its current block, are open. -/
theorem IsOpen.mono {other : ScopeChain} (h : other.IsOpen i) (hindex : chain.IsOpen other.index)
    (hparent : ∀ (i : Nat) (b : Block), other.blocks[i]? = some b →
      ∃ c : Block, chain.blocks[i]? = some c ∧ c.parent = b.parent) : chain.IsOpen i := by
  induction h with
  | current => exact hindex
  | parent _ hb hp ih =>
    obtain ⟨c, hc, hparent⟩ := hparent _ _ hb
    exact ih.parent hc (hparent.trans hp)

theorem IsOpen.of_openBlock {scope : Scope} (h : chain.Shows fs)
    (ho : (chain.openBlock scope).IsOpen i) : i = chain.blocks.length ∨ chain.IsOpen i := by
  induction ho with
  | current => exact Or.inl rfl
  | @parent j p b _ hb hp ih =>
    refine Or.inr ?_
    rcases ih with rfl | hj
    · have hnew : (chain.openBlock scope).blocks[chain.blocks.length]? =
          some ⟨scope, some chain.index, []⟩ := List.getElem?_concat_length
      obtain rfl := Option.some.inj (hb.symm.trans hnew)
      obtain rfl := Option.some.inj hp
      exact .current
    · have hold : (chain.openBlock scope).blocks[j]? = chain.blocks[j]? :=
        List.getElem?_append_left (hj.lt h.index_lt h.rooted)
      exact hj.parent (hold ▸ hb) hp

end ScopeChain

open ScopeChain (IsOpen IsClosed)

/-- No operation changes a closed block or opens it again. -/
theorem Declarations.perform_closed {d : Declarations} {fs : List Frame} (h : d.chain.Shows fs)
    {i : Nat} (hi : d.chain.IsClosed i) (op : Operation) :
    (perform op d).2.chain.IsClosed i ∧ (perform op d).2.chain.blocks[i]? = d.chain.blocks[i]? := by
  cases op with
  | openBlock scope =>
    have hsame : (d.chain.openBlock scope).blocks[i]? = d.chain.blocks[i]? :=
      List.getElem?_append_left hi.lt
    refine ⟨⟨?_, fun ho => ?_⟩, hsame⟩
    · exact Nat.lt_of_lt_of_le hi.lt (List.length_append ▸ Nat.le_add_right _ _)
    · rcases ho.of_openBlock h with rfl | ho
      · exact Nat.lt_irrefl _ hi.lt
      · exact hi.not_open ho
  | closeBlock =>
    cases hclose : d.chain.closeBlock with
    | error fault =>
      simp only [perform, hclose]
      exact ⟨hi, trivial⟩
    | ok out =>
      obtain ⟨b, chain⟩ := out
      simp only [perform, hclose]
      rw [ScopeChain.closeBlock] at hclose
      cases hp : d.chain.current.parent with
      | none =>
        rw [hp] at hclose
        cases hclose
      | some p =>
        rw [hp] at hclose
        cases hclose
        have hparent := IsOpen.current.parent (ScopeChain.current_eq h.index_lt) hp
        exact ⟨⟨hi.lt, fun ho => hi.not_open (ho.mono hparent fun j c hc => ⟨c, hc, rfl⟩)⟩, rfl⟩
  | declare name loc =>
    have hne : d.chain.index ≠ i := fun heq => hi.not_open (heq ▸ .current)
    have hget : ∀ j, (d.chain.declare name).blocks[j]? = d.chain.blocks[j]?.map fun b =>
        if d.chain.index = j then { b with names := b.names.insert name } else b := by
      intro j
      simp [ScopeChain.declare, List.getElem?_modify]
    refine ⟨⟨?_, fun ho => hi.not_open (ho.mono .current fun j b hb => ?_)⟩, ?_⟩
    · simpa [perform, Declarations.declare, ScopeChain.declare] using hi.lt
    · change (d.chain.declare name).blocks[j]? = some b at hb
      rw [hget] at hb
      obtain ⟨c, hc, rfl⟩ := Option.map_eq_some_iff.mp hb
      exact ⟨c, hc, by split <;> rfl⟩
    · change (d.chain.declare name).blocks[i]? = _
      rw [hget]
      simp [hne]
  | resolve name => exact ⟨hi, rfl⟩
  | allSymbols => exact ⟨hi, rfl⟩

theorem Declarations.Refines.performAll_closed {legacy : Bool} {d : Declarations} {s : LayerStack}
    (h : d.Refines legacy s) {i : Nat} (hi : d.chain.IsClosed i) (ops : List Operation) :
    (d.performAll ops).2.chain.IsClosed i ∧
      (d.performAll ops).2.chain.blocks[i]? = d.chain.blocks[i]? := by
  induction ops generalizing d s with
  | nil => exact ⟨hi, rfl⟩
  | cons op ops ih =>
    obtain ⟨f, fs, hs, -⟩ := h.shows
    obtain ⟨hclosed, hsame⟩ := perform_closed hs hi op
    obtain ⟨hlast, hblock⟩ := ih (h.perform op).2 hclosed
    simp only [Declarations.performAll, List.mapM_cons]
    exact ⟨hlast, hblock.trans hsame⟩

/-- The block that is closed is out of reach. -/
theorem Declarations.Refines.isClosed_closeBlock {legacy : Bool} {d : Declarations}
    {s : LayerStack} (h : d.Refines legacy s) {layer : Layer}
    (hclosed : (Declarations.perform .closeBlock d).1 = .closed layer) :
    (Declarations.perform .closeBlock d).2.chain.IsClosed d.chain.index := by
  obtain ⟨f, fs, hs, -⟩ := h.shows
  cases fs with
  | nil =>
    simp only [Declarations.perform, hs.closeBlock_bottom] at hclosed
    cases hclosed
  | cons g fs =>
    obtain ⟨p, hclose, hs'⟩ := hs.closeBlock
    simp only [Declarations.perform, hclose]
    refine ⟨hs.index_lt, fun ho => ?_⟩
    have hparent : d.chain.current.parent = some p := by
      rw [ScopeChain.closeBlock] at hclose
      cases hp : d.chain.current.parent with
      | none =>
        rw [hp] at hclose
        cases hclose
      | some q =>
        rw [hp] at hclose
        cases hclose
        rfl
    have hlt := hs.rooted.parent_lt (ScopeChain.current_eq hs.index_lt) hparent
    exact Nat.not_lt.mpr (ho.sees hs'.rooted).1 hlt

/-- What a user of a chain finds out about it, said of the stack. -/
structure Declarations.LooksLike (d : Declarations) (s : LayerStack) : Prop where
  errors_eq : d.errors = s.errors
  layers_eq : d.chain.openBlocks.map Block.layer = s.layers
  depth_eq : d.chain.depth = s.layers.length
  isBalanced_iff : d.chain.isBalanced = true ↔ s.layers.length = 1
  /-- Only the bottom is left exactly when closing fails, and then nothing changes. -/
  closeBlock_iff : (perform .closeBlock d).1 = .fault .closeUniverse ↔ s.layers.length = 1
  closeBlock_same : s.layers.length = 1 → (perform .closeBlock d).2 = d
  resolves_iff : ∀ name, (d.chain.resolve? name).isSome ↔ name ∈ d.chain.allSymbols
  parent_lt : ∀ (i : Nat) (b : Block) (p : Nat),
    d.chain.blocks[i]? = some b → b.parent = some p → p < i
  /-- The walk over the parents ends by itself. -/
  walk_ends : ∀ fuel > d.chain.index,
    ScopeChain.ancestry d.chain.blocks fuel d.chain.index = d.chain.openBlocks
  sees_open : ∀ b, b ∈ d.chain.openBlocks ↔ ∃ i, d.chain.IsOpen i ∧ d.chain.blocks[i]? = some b
  isClosed_closed : ∀ layer, (perform .closeBlock d).1 = .closed layer →
    (perform .closeBlock d).2.chain.IsClosed d.chain.index

theorem Declarations.Refines.looksLike {legacy : Bool} {d : Declarations} {s : LayerStack}
    (h : d.Refines legacy s) : d.LooksLike s := by
  obtain ⟨f, fs, hs, htop, hbelow⟩ := h.shows
  have hlength : s.layers.length = 1 ↔ fs = [] := by
    rw [LayerStack.layers, List.length_cons, ← hbelow, List.length_map]
    simp
  have hdepth : d.chain.depth = s.layers.length := by
    rw [ScopeChain.depth, ← h.layers_eq, List.length_map]
  refine ⟨h.errors_eq, h.layers_eq, hdepth, ?_, ?_, ?_, ?_, ?_, ?_, ?_, ?_⟩
  · rw [hlength]
    refine ⟨fun hbalanced => ?_, ?_⟩
    · have hindex : d.chain.index = 0 := by simpa [ScopeChain.isBalanced] using hbalanced
      have hparent := (hs.rooted.parent_eq_none (ScopeChain.current_eq hs.index_lt)).mpr hindex
      have hopen := hs.open_shows
      rw [ScopeChain.openBlocks_eq hs.index_lt hs.rooted, hparent] at hopen
      exact List.forall₂_nil_left_iff.mp (List.forall₂_cons.mp hopen).2
    · rintro rfl
      exact hs.isBalanced
  · rw [hlength]
    refine ⟨fun hfault => ?_, ?_⟩
    · cases fs with
      | nil => rfl
      | cons g fs =>
        obtain ⟨p, hclose, -⟩ := hs.closeBlock
        simp only [Declarations.perform, hclose] at hfault
        cases hfault
    · rintro rfl
      simp only [Declarations.perform, hs.closeBlock_bottom]
  · rw [hlength]
    rintro rfl
    simp only [Declarations.perform, hs.closeBlock_bottom]
  · exact d.chain.isSome_resolve?_iff
  · exact fun i b p => hs.rooted.parent_lt
  · exact fun fuel hfuel => ScopeChain.ancestry_fuel hs.rooted hfuel
  · exact ScopeChain.mem_openBlocks_iff hs
  · exact fun layer => h.isClosed_closeBlock

/-- A scope chain is a stack of name sets. Any operations on it are answered as the stack answers
them, the chain then looks like the stack, and a block that is closed stays as it is and closed
whatever is done later. -/
theorem Declarations.performAll_refines (builtins : List String) (legacy : Bool)
    (ops : List Operation) :
    let (answers, d) := performAll ⟨.start builtins legacy, []⟩ ops
    let (expected, s) := (LayerStack.start builtins.toFinset).performAll legacy ops
    answers = expected ∧ d.LooksLike s ∧
      ∀ (i : Nat) (more : List Operation), d.chain.IsClosed i →
        (d.performAll more).2.chain.IsClosed i ∧
        (d.performAll more).2.chain.blocks[i]? = d.chain.blocks[i]? := by
  obtain ⟨hanswers, h⟩ := (Refines.start builtins legacy).performAll ops
  exact ⟨hanswers, h.looksLike, fun i more hi => h.performAll_closed hi more⟩

end Starlark
