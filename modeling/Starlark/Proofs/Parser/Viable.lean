import Starlark.Proofs.Grammar.Grounded
import Starlark.Proofs.Parser.Sound
import Starlark.Proofs.Reference.Expanded

/-! # What is on the stack can be completed

The symbols on the stack of the automaton begin a sequence that derives files, and every symbol
derives some terminals. So whatever was shifted begins a file.
-/
namespace Starlark
open Reference

/-- The sequences of terminals that a sequence of symbols derives. -/
def words (ss : List Symbol) : Language Terminal := (ss.map Symbol.lang).prod

theorem words_append (ss us : List Symbol) : words (ss ++ us) = words ss * words us := by
  rw [words, List.map_append, List.prod_append]
  rfl

theorem words_singleton (s : Symbol) : words [s] = s.lang := List.prod_singleton

theorem words_rhs_le (p : Production) : words p.rhs ≤ (Symbol.n p.lhs).lang := by
  have hsequence : ∀ ss, sequence ss = words ss := by
    intro ss
    induction ss with
    | nil => rfl
    | cons s ss ih =>
      cases ss with
      | nil => exact (words_singleton s).symm
      | cons s' ss =>
        change s.lang * sequence (s' :: ss) = _
        rw [ih]
        exact List.prod_cons.symm
  rw [← hsequence]
  exact rule_le p

/-! ## Every symbol derives something -/

/-- Rules that derive a nonterminal each from terminals and nonterminals before it. -/
def groundRules : List Production :=
  [.fileEmpty, .name, .primaryAtom, .unaryPrimary, .single .multiplicative, .single .additive,
   .single .shift, .single .bitAnd, .single .bitXor, .single .bitOr, .single .comparison,
   .negationComparison, .single .and, .single .or, .testOr, .passFlow, .lineOne, .statementLine,
   .itemsBlank, .smallsOne, .suiteLine, .blockOne, .augmentedAdd, .stringShort, .loadPlain,
   .loadArgsOne, .elifClause, .elifsOne, .elseClause, .parameterMandatory, .parametersOne,
   .parameterRestOne, .exprListSingle, .exprRestOne, .targetListSingle, .targetRestOne,
   .operator .or, .operator .and, .operator .eq, .operator .bitOr, .operator .bitXor,
   .operator .bitAnd, .operator .shiftLeft, .operator .add, .operator .mul, .restOne .or,
   .restOne .and, .restOne .comparison, .restOne .bitOr, .restOne .bitXor, .restOne .bitAnd,
   .restOne .shift, .restOne .additive, .restOne .multiplicative, .unaryPlus, .argumentPositional,
   .argumentsOne, .argumentRestOne, .subscriptKey, .entry, .entryRestOne, .compFor, .clauseFor,
   .clausesOne]

/-- Does each rule of a list derive from terminals and from what is grounded already? -/
def grounds (seen : List Nonterminal) : List Production → Bool
  | [] => true
  | p :: ps => p.rhs.all (fun
      | .t _ => true
      | .n A => decide (A ∈ seen)) && grounds (p.lhs :: seen) ps

theorem lang_terminal_nonempty (a : Terminal) : ∃ w, w ∈ (Symbol.t a).lang :=
  ⟨[a], .leaf ⟨a, [], ⟨⟨1, 1⟩, ⟨1, 1⟩⟩⟩, rfl⟩

theorem words_nonempty {ss : List Symbol} (h : ∀ s ∈ ss, ∃ w, w ∈ s.lang) :
    ∃ w, w ∈ words ss := by
  induction ss with
  | nil => exact ⟨[], Language.nil_mem_one⟩
  | cons s ss ih =>
    rw [List.forall_mem_cons] at h
    obtain ⟨w, hw⟩ := h.1
    obtain ⟨v, hv⟩ := ih h.2
    exact ⟨w ++ v, Language.append_mem_mul hw hv⟩

theorem lang_nonempty_of_grounds {seen : List Nonterminal} {ps : List Production}
    (h : grounds seen ps = true) (hseen : ∀ A ∈ seen, ∃ w, w ∈ (Symbol.n A).lang) :
    ∀ p ∈ ps, ∃ w, w ∈ (Symbol.n p.lhs).lang := by
  induction ps generalizing seen with
  | nil => exact List.forall_mem_nil _
  | cons p ps ih =>
    rw [grounds, Bool.and_eq_true, List.all_eq_true] at h
    obtain ⟨hrhs, hps⟩ := h
    have hwords : ∃ w, w ∈ words p.rhs := by
      refine words_nonempty fun s hs => ?_
      have hground := hrhs s hs
      cases s with
      | t a => exact lang_terminal_nonempty a
      | n A => exact hseen A (of_decide_eq_true hground)
    obtain ⟨w, hw⟩ := hwords
    have hp : ∃ w, w ∈ (Symbol.n p.lhs).lang := ⟨w, words_rhs_le p hw⟩
    exact List.forall_mem_cons.mpr ⟨hp, ih hps (List.forall_mem_cons.mpr ⟨hp, hseen⟩)⟩

theorem mem_groundRules : ∀ A : Nonterminal, A ∈ groundRules.map Production.lhs :=
  Nonterminal.forall_of_all (by decide +kernel)

/-- Every symbol derives some terminals. -/
theorem Symbol.lang_nonempty (s : Symbol) : ∃ w, w ∈ s.lang := by
  cases s with
  | t a => exact lang_terminal_nonempty a
  | n A =>
    have hgrounds : grounds [] groundRules = true := by decide
    obtain ⟨p, hp, rfl⟩ := List.mem_map.mp (mem_groundRules A)
    exact lang_nonempty_of_grounds hgrounds (List.forall_mem_nil _) p hp

/-! ## Viable sequences -/

/-- A sequence of symbols begins one that derives only files. -/
def Viable (ss : List Symbol) : Prop := ∃ us, words (ss ++ us) ≤ (Symbol.n .file).lang

namespace Viable

theorem file : Viable [.n .file] := ⟨[], le_of_eq (words_singleton _)⟩

theorem of_append {ss us : List Symbol} (h : Viable (ss ++ us)) : Viable ss := by
  obtain ⟨vs, hvs⟩ := h
  rw [List.append_assoc] at hvs
  exact ⟨us ++ vs, hvs⟩

/-- A nonterminal at the end may be replaced by the right side of a rule. -/
theorem expand {ss : List Symbol} {p : Production} (h : Viable (ss ++ [.n p.lhs])) :
    Viable (ss ++ p.rhs) := by
  obtain ⟨us, hus⟩ := h
  refine ⟨us, le_trans ?_ hus⟩
  rw [words_append, words_append, words_append, words_append, words_singleton]
  exact mul_le_mul' (mul_le_mul' le_rfl (words_rhs_le p)) le_rfl

theorem expand_take {ss : List Symbol} {p : Production} (h : Viable (ss ++ [.n p.lhs]))
    (dot : Nat) : Viable (ss ++ p.rhs.take dot) := by
  have hrhs := h.expand
  rw [← List.take_append_drop dot p.rhs, ← List.append_assoc] at hrhs
  exact hrhs.of_append

theorem starts {ss : List Symbol} {A B : Nonterminal} (h : Viable (ss ++ [.n A]))
    (hstarts : A.Starts B) : Viable (ss ++ [.n B]) := by
  induction hstarts with
  | self => exact h
  | @head B p _ hfirst ih =>
    have htake : p.rhs.take 1 = [.n B] := by
      rw [List.take_one, hfirst]
      rfl
    rw [← htake]
    exact ih.expand_take 1

/-- What a viable sequence derives begins a file. -/
theorem exists_file {ss : List Symbol} (h : Viable ss) {w : List Terminal} (hw : w ∈ words ss) :
    ∃ v, w ++ v ∈ (Symbol.n .file).lang := by
  obtain ⟨us, hus⟩ := h
  obtain ⟨v, hv⟩ : ∃ v, v ∈ words us := words_nonempty fun s _ => s.lang_nonempty
  refine ⟨v, hus ?_⟩
  rw [words_append]
  exact Language.append_mem_mul hw hv

end Viable

namespace Automaton

/-- Each cell was reached by a transition from the one below. -/
def Linked : Stack → Prop
  | [] => True
  | c :: cs => next? (top cs) c.symbol = some c.state ∧ Linked cs

/-- The symbols on a stack, from the bottom up. -/
def symbols (stack : Stack) : List Symbol := stack.reverse.map Cell.symbol

theorem symbols_cons (c : Cell) (stack : Stack) : symbols (c :: stack) = symbols stack ++ [c.symbol] := by
  rw [symbols, List.reverse_cons, List.map_append]
  rfl

theorem Linked.drop {stack : Stack} (h : Linked stack) (n : Nat) : Linked (stack.drop n) := by
  induction n generalizing stack with
  | zero => exact h
  | succ n ih =>
    cases stack with
    | nil => exact h
    | cons c cs => exact ih h.2

/-- The tokens under a stack are derived by its symbols. -/
theorem fed_mem_words (stack : Stack) : (fed stack).map Token.kind ∈ words (symbols stack) := by
  induction stack with
  | nil => exact Language.nil_mem_one
  | cons c cs ih =>
    rw [symbols_cons, words_append, words_singleton, fed_cons, List.map_append]
    exact Language.append_mem_mul ih ⟨c.tree, rfl⟩

/-- A rule under way at the top of a stack has its first symbols there, and its left side in their
place makes a viable sequence. -/
def Supports (stack : Stack) (p : Production) (dot : Nat) : Prop :=
  ∃ below, symbols stack = below ++ p.rhs.take dot ∧ Viable (below ++ [.n p.lhs])

/-- A rule that another one awaits is supported with it. -/
theorem Supports.begun {stack : Stack} {p p' : Production} {dot : Nat} {A : Nonterminal}
    (h : Supports stack p dot) (hs : p.rhs[dot]? = some (.n A)) (hstarts : A.Starts p'.lhs) :
    Supports stack p' 0 := by
  obtain ⟨below, hsymbols, hviable⟩ := h
  refine ⟨symbols stack, by rw [List.take_zero, List.append_nil], ?_⟩
  have hnext := hviable.expand_take (dot + 1)
  rw [List.take_add_one, hs, Option.toList_some, ← List.append_assoc, ← hsymbols] at hnext
  exact hnext.starts hstarts

theorem Linked.supports {stack : Stack} (h : Linked stack) {p : Production} {dot : Nat}
    (hitem : Item (top stack) p dot) : Supports stack p dot := by
  suffices hkernel : ∀ i ∈ kernel (top stack), Supports stack i.1 i.2 by
    rcases hitem.cases with hmem | ⟨rfl, p', dot', A, hmem, hs, hstarts⟩
    · exact hkernel _ hmem
    · exact (hkernel _ hmem).begun hs hstarts
  clear hitem p dot
  induction stack with
  | nil =>
    intro i hi
    obtain ⟨hfile, hdot⟩ := file_of_kernel_zero hi
    refine ⟨[], by rw [hdot]; rfl, ?_⟩
    rw [hfile]
    exact Viable.file
  | cons c cs ih =>
    intro i hi
    obtain ⟨dot, hdot, hs, hback⟩ := item_of_next? h.1 hi
    have hkernel := ih h.2
    have hsupports : Supports cs i.1 dot := by
      rcases hback.cases with hmem | ⟨rfl, p', dot', A, hmem, hs', hstarts⟩
      · exact hkernel _ hmem
      · exact (hkernel _ hmem).begun hs' hstarts
    obtain ⟨below, hsymbols, hviable⟩ := hsupports
    refine ⟨below, ?_, hviable⟩
    rw [symbols_cons, hsymbols, hdot, List.take_add_one, hs, Option.toList_some, List.append_assoc]

/-- Where a rule is under way, what was fed begins a file. -/
theorem Linked.exists_file {stack : Stack} (h : Linked stack) {p : Production} {dot : Nat}
    (hitem : Item (top stack) p dot) :
    ∃ v, (fed stack).map Token.kind ++ v ∈ (Symbol.n .file).lang := by
  obtain ⟨below, hsymbols, hviable⟩ := h.supports hitem
  have hstack := hviable.expand_take dot
  rw [← hsymbols] at hstack
  exact hstack.exists_file (fed_mem_words stack)

theorem Linked.reduce? {p : Production} {stack stack' : Stack} (h : Linked stack)
    (hreduce : reduce? p stack = some stack') : Linked stack' := by
  obtain ⟨children, state, -, hgoto, rfl⟩ := reduce?_eq_some hreduce
  exact ⟨hgoto, h.drop _⟩

/-- A token that is shifted ends up on a linked stack, on top of a transition. -/
theorem Linked.advance {fuel : Nat} {stack stack' : Stack} {t : Token} (h : Linked stack)
    (hadvance : advance fuel stack t = .shifted stack') :
    Linked stack' ∧ ∃ state, next? state (.t t.kind) = some (top stack') := by
  induction fuel generalizing stack with
  | zero => cases hadvance
  | succ fuel ih =>
    rw [Automaton.advance] at hadvance
    split at hadvance
    · cases hadvance
    · next state haction =>
      cases hadvance
      have hnext := action?_shift haction
      exact ⟨⟨hnext, h⟩, _, hnext⟩
    · split at hadvance
      · cases hadvance
      · cases hadvance
      · next hreduce => exact ih (h.reduce? hreduce) hadvance

end Automaton

namespace Parser
open Automaton

theorem linked_nil : Linked [] := trivial

theorem shifts_append {stack stack' : Stack} {ts us : List Token} :
    (ts ++ us).foldlM shift stack = .ok stack' ↔
      ∃ between, ts.foldlM shift stack = .ok between ∧ us.foldlM shift between = .ok stack' := by
  rw [List.foldlM_append]
  cases ts.foldlM shift stack with
  | error e =>
    refine ⟨nofun, ?_⟩
    rintro ⟨_, ⟨⟩, _⟩
  | ok between =>
    refine ⟨fun h => ⟨between, rfl, h⟩, ?_⟩
    rintro ⟨_, ⟨⟩, h⟩
    exact h

theorem shifts_singleton (stack : Stack) (t : Token) : [t].foldlM shift stack = shift stack t := by
  rw [List.foldlM_cons]
  cases shift stack t <;> rfl

theorem shifts_cons {stack stack' : Stack} {t : Token} {ts : List Token} :
    (t :: ts).foldlM shift stack = .ok stack' ↔
      ∃ next, shift stack t = .ok next ∧ ts.foldlM shift next = .ok stack' := by
  rw [← List.singleton_append, shifts_append, shifts_singleton]

theorem linked_of_shifts {stack stack' : Stack} {ts : List Token} (hlinked : Linked stack)
    (h : ts.foldlM shift stack = .ok stack') : Linked stack' := by
  induction ts generalizing stack with
  | nil =>
    cases h
    exact hlinked
  | cons t ts ih =>
    obtain ⟨next, hshift, hts⟩ := shifts_cons.mp h
    exact ih (hlinked.advance (feed_of_shift_ok hshift)).1 hts

/-- What was shifted begins a file. -/
theorem exists_file_of_shifts {stack : Stack} {ts : List Token}
    (h : ts.foldlM shift [] = .ok stack) :
    ∃ v, ts.map Token.kind ++ v ∈ (Symbol.n .file).lang := by
  have hitem : ∃ p dot, Item (top stack) p dot := by
    rcases List.eq_nil_or_concat ts with rfl | ⟨us, t, rfl⟩
    · cases h
      exact ⟨.fileEmpty, 0, item_file .fileEmpty rfl⟩
    · rw [List.concat_eq_append] at h
      obtain ⟨before, hus, hshift⟩ := shifts_append.mp h
      rw [shifts_singleton] at hshift
      have hlinked : Linked before := linked_of_shifts linked_nil hus
      obtain ⟨-, state, hnext⟩ := hlinked.advance (feed_of_shift_ok hshift)
      exact exists_item_of_shift hnext
  obtain ⟨p, dot, hitem⟩ := hitem
  have hlinked : Linked stack := linked_of_shifts linked_nil h
  have hfile := hlinked.exists_file hitem
  rwa [fed_of_shifts h, fed_nil, List.nil_append] at hfile

end Parser
end Starlark
