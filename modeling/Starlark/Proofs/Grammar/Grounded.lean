import Starlark.Proofs.Grammar.Tables

/-! # Every rule under way has begun

The converse of what the tables do with the rules under way: a rule is under way in a state only if
it was one symbol back in each state with a transition there, and a rule that begins there begins
what another one awaits. So on every path through the automaton a rule under way can be led back to
the rule for the file.
-/
namespace Starlark

/-- The nonterminals with which the rules of a nonterminal begin. -/
def Nonterminal.heads (A : Nonterminal) : List Nonterminal :=
  A.rules.filterMap fun p =>
    match p.rhs.head? with
    | some (.n B) => some B
    | _ => none

/-- A derivation from one nonterminal can begin with the other. -/
inductive Nonterminal.Starts (A : Nonterminal) : Nonterminal → Prop
  | self : Starts A A
  | head {B : Nonterminal} {p : Production} (before : Starts A p.lhs)
      (first : p.rhs.head? = some (.n B)) : Starts A B

namespace Nonterminal

theorem lhs_of_mem_rules : ∀ {A : Nonterminal} {p : Production}, p ∈ A.rules → p.lhs = A := by
  have hall : ∀ A : Nonterminal, ∀ p ∈ A.rules, p.lhs = A := forall_of_all (by decide +kernel)
  intro A p h
  exact hall A p h

theorem Starts.of_mem_heads {A B C : Nonterminal} (h : Starts A B) (hC : C ∈ B.heads) :
    Starts A C := by
  obtain ⟨p, hp, hhead⟩ := List.mem_filterMap.mp hC
  obtain rfl := lhs_of_mem_rules hp
  refine .head h ?_
  split at hhead
  · next B hfirst =>
    cases hhead
    exact hfirst
  · cases hhead

/-- Is each nonterminal of a list a head of an earlier one, or of one seen before? -/
def follows (seen : List Nonterminal) : List Nonterminal → Bool
  | [] => true
  | B :: l => seen.any (fun C => B ∈ C.heads) && follows (B :: seen) l

theorem Starts.of_follows {A : Nonterminal} {seen l : List Nonterminal}
    (hseen : ∀ C ∈ seen, Starts A C) (h : follows seen l = true) : ∀ B ∈ l, Starts A B := by
  induction l generalizing seen with
  | nil => exact List.forall_mem_nil _
  | cons B l ih =>
    simp only [follows, Bool.and_eq_true, List.any_eq_true, decide_eq_true_eq] at h
    obtain ⟨⟨C, hC, hhead⟩, hl⟩ := h
    have hB : Starts A B := (hseen C hC).of_mem_heads hhead
    exact List.forall_mem_cons.mpr ⟨hB, ih (List.forall_mem_cons.mpr ⟨hB, hseen⟩) hl⟩

/-- The corners of a nonterminal, those with which others begin first. -/
def cornersInOrder (A : Nonterminal) : List Nonterminal :=
  A.corners.filter (fun B => B ≠ A ∧ B ≠ .unaryOp)
    ++ A.corners.filter fun B => B ≠ A ∧ B = .unaryOp

theorem follows_corners : ∀ A : Nonterminal, follows [A] A.cornersInOrder = true :=
  forall_of_all (by decide +kernel)

/-- Every corner is one. -/
theorem starts_of_mem_corners {A B : Nonterminal} (h : B ∈ A.corners) : Starts A B := by
  by_cases hself : B = A
  · rw [hself]
    exact .self
  · refine Starts.of_follows (List.forall_mem_singleton.mpr .self) (follows_corners A) B ?_
    rw [cornersInOrder, List.mem_append, List.mem_filter, List.mem_filter]
    by_cases hsign : B = .unaryOp
    · exact .inr ⟨h, decide_eq_true ⟨hself, hsign⟩⟩
    · exact .inl ⟨h, decide_eq_true ⟨hself, hsign⟩⟩

end Nonterminal

namespace Automaton

/-- Was a rule that is under way in a state one symbol back in a state with a transition there? -/
def wasBack (back : List (Production × Nat)) (s : Symbol) (i : Production × Nat) : Bool :=
  match i.2 with
  | 0 => false
  | dot + 1 => decide (i.1.rhs[dot]? = some s) &&
      (back.any (fun j => decide (j.1 = i.1 ∧ j.2 = dot)) ||
        (dot == 0 && back.any fun j => (awaited j).any fun A => i.1.lhs ∈ A.corners))

/-- The transitions of a row. -/
def Row.next (r : Row) : List (Symbol × Nat) :=
  r.shifts.map (fun x => (.t x.1, x.2)) ++ r.gotos.map fun x => (.n x.1, x.2)

theorem rows_grounded : (rows.zipIdx.all fun (r, q) =>
    r.next.all fun (s, q') => (kernel q').all (wasBack (kernel q) s)) = true := by
  decide +kernel

/-- Wherever a terminal leads, some rule is under way. -/
theorem rows_started : (rows.all fun r => r.shifts.all fun x => (kernel x.2) != []) = true := by
  decide +kernel

theorem rows_endOfInput : (rows.all fun r => r.shifts.all fun x => x.1 != .endOfInput) = true := by
  decide +kernel

theorem Row.mem_next {r : Row} {s : Symbol} {q : Nat} (h : r.next? s = some q) :
    (s, q) ∈ r.next := by
  cases s with
  | t a =>
    exact List.mem_append_left _ (List.mem_map.mpr ⟨(a, q), mem_of_lookup h, rfl⟩)
  | n A =>
    exact List.mem_append_right _ (List.mem_map.mpr ⟨(A, q), mem_of_lookup h, rfl⟩)

/-- Only a state of the tables has transitions. -/
theorem lt_of_next? {state q : Nat} {s : Symbol} (h : next? state s = some q) : state < 299 := by
  have hlength : shifts.length = 299 ∧ gotos.length = 299 := by decide +kernel
  refine Nat.lt_of_not_le fun hge => ?_
  have hshifts : shifts[state]? = none := List.getElem?_eq_none (by omega)
  have hgotos : gotos[state]? = none := List.getElem?_eq_none (by omega)
  cases s with
  | t a =>
    rw [next?, shiftsOf, hshifts] at h
    cases h
  | n A =>
    rw [next?, goto?, hgotos] at h
    cases h

theorem row_mem_rows {state : Nat} (h : state < 299) : row state ∈ rows :=
  List.mem_of_getElem? (rows_getElem? h)

theorem mem_next_row {state q : Nat} {s : Symbol} (h : next? state s = some q) :
    (s, q) ∈ (row state).next := by
  rw [← Row.next?_row] at h
  exact Row.mem_next h

theorem mem_shifts_row {state q : Nat} {a : Terminal} (h : next? state (.t a) = some q) :
    (a, q) ∈ (row state).shifts :=
  mem_of_lookup h

/-- A rule that is under way in a state was one symbol back in each state with a transition
there. -/
theorem item_of_next? {state q : Nat} {s : Symbol} {i : Production × Nat}
    (h : next? state s = some q) (hi : i ∈ kernel q) :
    ∃ dot, i.2 = dot + 1 ∧ i.1.rhs[dot]? = some s ∧ Item state i.1 dot := by
  have hmem : (row state, state) ∈ rows.zipIdx :=
    List.mk_mem_zipIdx_iff_getElem?.mpr (rows_getElem? (lt_of_next? h))
  have hall := List.all_eq_true.mp (List.all_eq_true.mp rows_grounded _ hmem) _ (mem_next_row h)
  have hback := List.all_eq_true.mp hall i hi
  obtain ⟨p, _ | dot⟩ := i
  · cases hback
  · simp only [wasBack, Bool.and_eq_true, Bool.or_eq_true, decide_eq_true_eq, beq_iff_eq] at hback
    obtain ⟨hs, hkernel | ⟨rfl, hbegun⟩⟩ := hback
    · obtain ⟨j, hj, hrule⟩ := List.any_eq_true.mp hkernel
      obtain ⟨rfl, rfl⟩ := of_decide_eq_true hrule
      exact ⟨j.2, rfl, hs, item_of_kernel hj⟩
    · obtain ⟨j, hj, hawaited⟩ := List.any_eq_true.mp hbegun
      obtain ⟨A, hA, hcorner⟩ := (Option.any_eq_true _ _).mp hawaited
      refine ⟨0, rfl, hs, List.mem_append_right _ (List.mem_flatMap.mpr ⟨A, ?_, ?_⟩)⟩
      · exact List.mem_eraseDups.mpr (List.mem_filterMap.mpr ⟨j, hj, hA⟩)
      · exact List.mem_flatMap.mpr
          ⟨p.lhs, of_decide_eq_true hcorner, List.mem_map.mpr ⟨p, p.mem_rules, rfl⟩⟩

/-- A rule is under way with some symbols on the stack, or begins what such a rule awaits. -/
theorem Item.cases {state : Nat} {p : Production} {dot : Nat} (h : Item state p dot) :
    (p, dot) ∈ kernel state ∨ dot = 0 ∧ ∃ p' dot' A, (p', dot') ∈ kernel state ∧
      p'.rhs[dot']? = some (.n A) ∧ A.Starts p.lhs := by
  rcases List.mem_append.mp h with h | h
  · exact .inl h
  · obtain ⟨A, hA, hcorner⟩ := List.mem_flatMap.mp h
    obtain ⟨B, hB, hrule⟩ := List.mem_flatMap.mp hcorner
    obtain ⟨p₁, hp₁, heq⟩ := List.mem_map.mp hrule
    obtain ⟨rfl, rfl⟩ := Prod.mk.inj heq
    obtain ⟨⟨p', dot'⟩, hkernel, hawaited⟩ := List.mem_filterMap.mp (List.mem_eraseDups.mp hA)
    obtain rfl := Nonterminal.lhs_of_mem_rules hp₁
    refine .inr ⟨rfl, p', dot', A, hkernel, ?_, Nonterminal.starts_of_mem_corners hB⟩
    unfold awaited at hawaited
    split at hawaited
    · next hs =>
      cases hawaited
      exact hs
    · cases hawaited

/-- In the first state only the rules for the file are under way. -/
theorem file_of_kernel_zero {i : Production × Nat} (h : i ∈ kernel 0) :
    i.1.lhs = .file ∧ i.2 = 0 := by
  have hall : ∀ i ∈ kernel 0, i.1.lhs = .file ∧ i.2 = 0 := by decide
  exact hall i h

theorem exists_item_of_shift {state q : Nat} {a : Terminal} (h : next? state (.t a) = some q) :
    ∃ p dot, Item q p dot := by
  have hrow := List.all_eq_true.mp rows_started _ (row_mem_rows (lt_of_next? h))
  have hkernel := List.all_eq_true.mp hrow _ (mem_shifts_row h)
  obtain ⟨i, hi⟩ := List.exists_mem_of_ne_nil _ (bne_iff_ne.mp hkernel)
  exact ⟨i.1, i.2, item_of_kernel hi⟩

/-- The end of input is never shifted. -/
theorem ne_endOfInput_of_shift {state q : Nat} {a : Terminal} (h : next? state (.t a) = some q) :
    a ≠ .endOfInput := by
  have hrow := List.all_eq_true.mp rows_endOfInput _ (row_mem_rows (lt_of_next? h))
  exact bne_iff_ne.mp (List.all_eq_true.mp hrow _ (mem_shifts_row h))

end Automaton
end Starlark
