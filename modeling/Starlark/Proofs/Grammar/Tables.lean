import Starlark.Grammar.Automaton
import Starlark.Proofs.Grammar.Corners
import Starlark.Proofs.Grammar.Items

/-! # The tables follow the grammar

A rule is under way in a state when some of its symbols are on the stack there. The tables keep
track of every rule that can be under way: a state has a transition on the next symbol of each,
which leads to a state where the rule is one symbol further, and a state where a rule is complete
reduces by it on every terminal that may follow.
-/
namespace Starlark.Automaton

def kernel (state : Nat) : List (Production × Nat) :=
  (((items[state / 16]?).getD [])[state % 16]?).getD []

/-- The nonterminal that comes next in a rule, if one does. -/
def awaited (i : Production × Nat) : Option Nonterminal :=
  match i.1.rhs[i.2]? with
  | some (.n A) => some A
  | _ => none

def closure (k : List (Production × Nat)) : List (Production × Nat) :=
  k ++ (k.filterMap awaited).eraseDups.flatMap fun A =>
    A.corners.flatMap fun B => B.rules.map (·, 0)

/-- A rule is under way in a state, with some of its symbols on the stack. -/
def Item (state : Nat) (p : Production) (dot : Nat) : Prop := (p, dot) ∈ closure (kernel state)

def next? (state : Nat) : Symbol → Option Nat
  | .t a => (shiftsOf state).lookup a
  | .n A => goto? state A

section Lookup
variable {α β : Type} [BEq α] [LawfulBEq α] {a : α} {b : β}

theorem mem_of_lookup {l : List (α × β)} (h : l.lookup a = some b) : (a, b) ∈ l := by
  obtain ⟨before, after, rfl, -⟩ := List.lookup_eq_some_iff.mp h
  exact List.mem_append_right before List.mem_cons_self

/-- What holds of all entries of a table holds of what is read from any of its lists. -/
theorem entry_of_lookup {table : List (List (α × β))} {P : α × β → Bool} {i : Nat}
    (hall : (table.all fun l => l.all P) = true)
    (h : ((table[i]?).getD []).lookup a = some b) : P (a, b) = true := by
  cases hrow : table[i]? with
  | none =>
    rw [hrow] at h
    cases h
  | some l =>
    rw [hrow, Option.getD_some] at h
    have hl := List.all_eq_true.mp hall _ (List.mem_of_getElem? hrow)
    exact List.all_eq_true.mp hl _ (mem_of_lookup h)

end Lookup

/-- What the tables say of one state. -/
structure Row where
  shifts : List (Terminal × Nat)
  gotos : List (Nonterminal × Nat)
  reduction : Option Production

def row (state : Nat) : Row := ⟨shiftsOf state, (gotos[state]?).getD [], reductionOf? state⟩

def rows : List Row := (shifts.zip (gotos.zip reductions)).map fun (s, g, r) => ⟨s, g, r⟩

def Row.next? (r : Row) : Symbol → Option Nat
  | .t a => r.shifts.lookup a
  | .n A => r.gotos.lookup A

/-- Does a row know how to go on with a rule? -/
def Row.advances (r : Row) (i : Production × Nat) : Bool :=
  match i.1.rhs[i.2]? with
  | some s =>
    match r.next? s with
    | some q => decide ((i.1, i.2 + 1) ∈ kernel q)
    | none => false
  | none =>
    decide (r.reduction = some i.1) && r.shifts.all fun x => decide (x.1 ∉ i.1.lhs.follow)

theorem rows_advance :
    (rows.zipIdx.all fun (r, q) => (closure (kernel q)).all r.advances) = true := by
  decide +kernel

theorem rows_getElem? {state : Nat} (h : state < 299) : rows[state]? = some (row state) := by
  have hlength : shifts.length = 299 ∧ gotos.length = 299 ∧ reductions.length = 299 := by
    decide +kernel
  have hshifts : state < shifts.length := by omega
  have hgotos : state < gotos.length := by omega
  have hreductions : state < reductions.length := by omega
  simp only [rows, row, shiftsOf, reductionOf?, List.getElem?_map, List.zip, List.getElem?_zipWith,
    List.getElem?_eq_getElem hshifts, List.getElem?_eq_getElem hgotos,
    List.getElem?_eq_getElem hreductions, Option.map_some, Option.getD_some]

theorem kernel_eq_nil {state : Nat} (h : 299 ≤ state) : kernel state = [] := by
  have hlength : items.length = 19 := by decide
  have hlast : ((items[18]?).getD []).length = 11 := by decide
  have hrow : ((items[state / 16]?).getD []).length ≤ state % 16 := by
    rcases Nat.lt_or_ge state 304 with hlt | hge
    · have hdiv : state / 16 = 18 := by omega
      rw [hdiv, hlast]
      omega
    · rw [List.getElem?_eq_none (by omega)]
      exact Nat.zero_le _
  rw [kernel, List.getElem?_eq_none hrow]
  rfl

theorem Item.lt {state : Nat} {p : Production} {dot : Nat} (h : Item state p dot) : state < 299 := by
  rcases Nat.lt_or_ge state 299 with hlt | hge
  · exact hlt
  · rw [Item, kernel_eq_nil hge] at h
    cases h

theorem Item.advances {state : Nat} {p : Production} {dot : Nat} (h : Item state p dot) :
    (row state).advances (p, dot) = true := by
  have hmem : (row state, state) ∈ rows.zipIdx :=
    List.mk_mem_zipIdx_iff_getElem?.mpr (rows_getElem? h.lt)
  exact List.all_eq_true.mp (List.all_eq_true.mp rows_advance _ hmem) _ h

theorem Row.next?_row (state : Nat) (s : Symbol) : (row state).next? s = Automaton.next? state s := by
  cases s <;> rfl

theorem item_of_kernel {state : Nat} {p : Production} {dot : Nat} (h : (p, dot) ∈ kernel state) :
    Item state p dot := List.mem_append_left _ h

/-- A transition on the next symbol of a rule takes the rule one symbol further. -/
theorem Item.next {state : Nat} {p : Production} {dot : Nat} {s : Symbol} (h : Item state p dot)
    (hs : p.rhs[dot]? = some s) : ∃ q, next? state s = some q ∧ Item q p (dot + 1) := by
  have hadvances := h.advances
  simp only [Row.advances, hs, Row.next?_row] at hadvances
  cases hq : next? state s with
  | none =>
    rw [hq] at hadvances
    cases hadvances
  | some q =>
    rw [hq] at hadvances
    exact ⟨q, rfl, item_of_kernel (of_decide_eq_true hadvances)⟩

/-- A complete rule is reduced on every terminal that may follow its left side. -/
theorem Item.reduces {state : Nat} {p : Production} {a : Terminal} (h : Item state p p.rhs.length)
    (ha : a ∈ p.lhs.follow) : action? state a = some (.reduce p) := by
  have hadvances := h.advances
  have hend : p.rhs[p.rhs.length]? = none := List.getElem?_eq_none (Nat.le_refl _)
  simp only [Row.advances, hend, Bool.and_eq_true, decide_eq_true_eq, List.all_eq_true] at hadvances
  obtain ⟨hreduction, hshifts⟩ := hadvances
  have hshift : (shiftsOf state).lookup a = none := by
    rw [List.lookup_eq_none_iff]
    intro x hx
    rw [bne_iff_ne]
    rintro rfl
    exact hshifts x hx ha
  have hreduce : reductionOf? state = some p := hreduction
  simp only [action?, hshift, hreduce, if_pos ha]

/-- Where a rule is about to continue with a nonterminal, the rules of the nonterminal begin. -/
theorem Item.begins {state : Nat} {p p' : Production} {dot : Nat} (h : Item state p dot)
    (hs : p.rhs[dot]? = some (.n p'.lhs)) : Item state p' 0 := by
  refine List.mem_append_right _ (List.mem_flatMap.mpr ?_)
  rcases List.mem_append.mp h with h | h
  · refine ⟨p'.lhs, ?_, List.mem_flatMap.mpr ⟨_, p'.lhs.self_mem_corners, ?_⟩⟩
    · refine List.mem_eraseDups.mpr (List.mem_filterMap.mpr ⟨_, h, ?_⟩)
      rw [awaited, hs]
    · exact List.mem_map.mpr ⟨p', p'.mem_rules, rfl⟩
  · obtain ⟨A, hA, hcorner⟩ := List.mem_flatMap.mp h
    obtain ⟨B, hB, hrule⟩ := List.mem_flatMap.mp hcorner
    obtain ⟨p₁, hp₁, heq⟩ := List.mem_map.mp hrule
    obtain ⟨rfl, rfl⟩ := Prod.mk.inj heq
    rw [← List.head?_eq_getElem?] at hs
    have hcorner := A.corners_closed B hB p₁ hp₁ _ hs
    exact ⟨A, hA, List.mem_flatMap.mpr ⟨_, hcorner, List.mem_map.mpr ⟨p', p'.mem_rules, rfl⟩⟩⟩

theorem action?_of_next? {state q : Nat} {a : Terminal} (h : next? state (.t a) = some q) :
    action? state a = some (.shift q) := by
  have hshift : (shiftsOf state).lookup a = some q := h
  simp only [action?, hshift]

/-- A state shifts along a transition, or else reduces by its rule. -/
theorem action?_cases {state : Nat} {a : Terminal} {action : Action}
    (h : action? state a = some action) :
    (∃ q, next? state (.t a) = some q ∧ action = .shift q) ∨
      ∃ p, reductionOf? state = some p ∧ a ∈ p.lhs.follow ∧ action = .reduce p := by
  rw [action?] at h
  split at h
  · next q hlookup =>
    cases h
    exact .inl ⟨q, hlookup, rfl⟩
  · split at h
    · next p hreduction =>
      split at h
      · next hfollow =>
        cases h
        exact .inr ⟨p, hreduction, hfollow, rfl⟩
      · cases h
    · cases h

theorem action?_shift {state q : Nat} {a : Terminal} (h : action? state a = some (.shift q)) :
    next? state (.t a) = some q := by
  obtain ⟨q', hnext, heq⟩ | ⟨p, -, -, heq⟩ := action?_cases h
  · cases heq
    exact hnext
  · cases heq

theorem action?_reduce {state : Nat} {a : Terminal} {p : Production}
    (h : action? state a = some (.reduce p)) :
    reductionOf? state = some p ∧ a ∈ p.lhs.follow := by
  obtain ⟨q, -, heq⟩ | ⟨p', hreduction, hfollow, heq⟩ := action?_cases h
  · cases heq
  · cases heq
    exact ⟨hreduction, hfollow⟩

theorem item_file (p : Production) (h : p.lhs = .file) : Item 0 p 0 := by
  have hrules : p ∈ Nonterminal.file.rules := h ▸ p.mem_rules
  have hkernel : ∀ p ∈ Nonterminal.file.rules, (p, 0) ∈ kernel 0 := by decide
  exact item_of_kernel (hkernel p hrules)

end Starlark.Automaton
