import Starlark.Proofs.Parser.Scanned

/-! # Stacks that run in parallel

What the automaton does depends on the states and symbols of a stack and not on its trees. And a
line break before the first token of a file makes no difference but for the items that it leaves at
the bottom of the stack.
-/
namespace Starlark
namespace Automaton

/-- What the automaton goes by. -/
def outline (stack : Stack) : List (Nat × Symbol) := stack.map fun c => (c.state, c.symbol)

/-- The state at the top of an outline. -/
def topState (l : List (Nat × Symbol)) : Nat := (l.head?.map Prod.fst).getD 0

theorem top_eq (stack : Stack) : top stack = topState (outline stack) := by
  cases stack with
  | nil => rfl
  | cons c stack => rfl

theorem topState_append_cons (l below : List (Nat × Symbol)) (c : Nat × Symbol) :
    topState (l ++ c :: below) = topState (l ++ [c]) := by
  cases l with
  | nil => rfl
  | cons top l => rfl

/-- The outlines of a stack and of one that has read a line break before everything else. -/
inductive Parallel : List (Nat × Symbol) → List (Nat × Symbol) → Prop
  | same (l : List (Nat × Symbol)) : Parallel l l
  | blank : Parallel [] [(3, .t .newline)]
  | items : Parallel [] [(2, .n .items)]
  | newline : Parallel [(3, .t .newline)] [(44, .t .newline), (2, .n .items)]
  | statement : Parallel [(4, .n .statement)] [(45, .n .statement), (2, .n .items)]
  | behind {l : List (Nat × Symbol)} {q : Nat} {s : Symbol} (first : next? 0 s = some q)
      (second : next? 2 s = some q) (nonzero : ∀ c ∈ l, c.1 ≠ 0) :
      Parallel (l ++ [(q, s)]) (l ++ [(q, s), (2, .n .items)])

/-! ## What the tables say of the first state and the one after items -/

theorem shift_zero {a : Terminal} {q : Nat} (h : next? 0 (.t a) = some q) :
    a = .newline ∧ q = 3 ∧ next? 2 (.t a) = some 44 ∨ next? 2 (.t a) = some q := by
  have hall : ((shiftsOf 0).all fun x => decide
      (x.1 = .newline ∧ x.2 = 3 ∧ next? 2 (.t x.1) = some 44 ∨ next? 2 (.t x.1) = some x.2)) =
      true := by
    decide
  exact of_decide_eq_true (List.all_eq_true.mp hall _ (mem_of_lookup h))

theorem goto_zero {A : Nonterminal} {q : Nat} (h : next? 0 (.n A) = some q) :
    A ∈ [Nonterminal.file, .items] ∨ A = .statement ∧ q = 4 ∧ next? 2 (.n A) = some 45 ∨
      next? 2 (.n A) = some q := by
  have hall : (((gotos[0]?).getD []).all fun x => decide (x.1 ∈ [Nonterminal.file, .items] ∨
      x.1 = .statement ∧ x.2 = 4 ∧ next? 2 (.n x.1) = some 45 ∨ next? 2 (.n x.1) = some x.2)) =
      true := by
    decide
  exact of_decide_eq_true (List.all_eq_true.mp hall _ (mem_of_lookup h))

theorem shift_ne_zero {state q : Nat} {a : Terminal} (h : next? state (.t a) = some q) : q ≠ 0 := by
  have hall : (shifts.all fun l => l.all fun x => x.2 != 0) = true := by decide +kernel
  simpa using entry_of_lookup hall h

/-- What begins the rules for a file leads elsewhere after items. -/
theorem next?_head {p : Production} (h : p.lhs ∈ [Nonterminal.file, .items]) {s : Symbol} {q : Nat}
    (hs : p.rhs.head? = some s) (hfirst : next? 0 s = some q) : next? 2 s ≠ some q := by
  have hall : ∀ A ∈ [Nonterminal.file, .items], ∀ p ∈ A.rules, ∀ s ∈ p.rhs.head?,
      next? 2 s ≠ next? 0 s := by
    decide
  rw [← hfirst]
  exact hall _ h p p.mem_rules s hs

/-! ## Reductions -/

theorem exists_forest? {ss : List Symbol} {cells : List Cell} (h : cells.map Cell.symbol = ss) :
    ∃ xs, forest? ss cells = some xs := by
  induction cells generalizing ss with
  | nil =>
    subst h
    exact ⟨.nil, rfl⟩
  | cons c cells ih =>
    subst h
    obtain ⟨xs, hxs⟩ := ih rfl
    refine ⟨.cons c.tree xs, ?_⟩
    change forest? (c.symbol :: cells.map Cell.symbol) (c :: cells) = _
    rw [forest?, dif_pos rfl, hxs]
    rfl

theorem symbols_take (n : Nat) (stack : Stack) :
    ((outline stack).take n).map Prod.snd = (stack.take n).map Cell.symbol := by
  rw [outline, ← List.map_take, List.map_map]
  rfl

/-- The outline of a stack after a reduction. -/
def reduceOutline (p : Production) (q : Nat) (l : List (Nat × Symbol)) : List (Nat × Symbol) :=
  (q, .n p.lhs) :: l.drop p.rhs.length

theorem outline_of_reduce? {p : Production} {stack stack' : Stack}
    (h : reduce? p stack = some stack') :
    ∃ q, ((outline stack).take p.rhs.length).map Prod.snd = p.rhs.reverse ∧
      next? (topState ((outline stack).drop p.rhs.length)) (.n p.lhs) = some q ∧
      outline stack' = reduceOutline p q (outline stack) := by
  obtain ⟨children, q, hforest, hgoto, rfl⟩ := reduce?_eq_some h
  refine ⟨q, ?_, ?_, ?_⟩
  · have hsymbols := symbols_of_forest? hforest
    rw [List.map_reverse] at hsymbols
    rw [symbols_take, ← List.reverse_reverse (List.map _ _), hsymbols]
  · rw [outline, ← List.map_drop]
    rw [top_eq] at hgoto
    exact hgoto
  · rw [reduceOutline, outline, outline, List.map_cons, List.map_drop]

/-- A reduction is made where the symbols on the stack are those of the rule. -/
theorem reduce?_of_outline {p : Production} {stack : Stack} {q : Nat}
    (hsymbols : ((outline stack).take p.rhs.length).map Prod.snd = p.rhs.reverse)
    (hgoto : next? (topState ((outline stack).drop p.rhs.length)) (.n p.lhs) = some q) :
    ∃ children, reduce? p stack =
      some (⟨q, .n p.lhs, .node p children⟩ :: stack.drop p.rhs.length) := by
  have hcells : ((stack.take p.rhs.length).reverse).map Cell.symbol = p.rhs := by
    rw [symbols_take] at hsymbols
    rw [List.map_reverse, hsymbols, List.reverse_reverse]
  obtain ⟨children, hchildren⟩ := exists_forest? hcells
  rw [outline, ← List.map_drop] at hgoto
  change goto? (topState (outline (stack.drop p.rhs.length))) p.lhs = some q at hgoto
  rw [← top_eq] at hgoto
  exact ⟨children, by simp only [reduce?, hchildren, hgoto]⟩

/-! ## Feeding tokens in parallel -/

/-- Does an outcome on one stack bring the same on the other one? -/
def Outcome.Parallel : Outcome → Outcome → Prop
  | .shifted stack, .shifted stack' => Automaton.Parallel (outline stack) (outline stack')
  | .accepted _, .accepted _ => True
  | .refused _, _ => True
  | _, _ => False

theorem Parallel.expected {l l' : List (Nat × Symbol)} (h : Parallel l l') (a : Terminal) :
    a ∈ expected (topState l) ↔ a ∈ expected (topState l') := by
  cases h with
  | same l => exact Iff.rfl
  | blank =>
    have hall : (∀ a ∈ Automaton.expected 0, a ∈ Automaton.expected 3) ∧
        ∀ a ∈ Automaton.expected 3, a ∈ Automaton.expected 0 := by
      decide
    exact ⟨hall.1 a, hall.2 a⟩
  | items =>
    have heq : Automaton.expected 0 = Automaton.expected 2 := by decide
    exact iff_of_eq (congrArg (a ∈ ·) heq)
  | newline =>
    have heq : Automaton.expected 3 = Automaton.expected 44 := by decide
    exact iff_of_eq (congrArg (a ∈ ·) heq)
  | statement =>
    have heq : Automaton.expected 4 = Automaton.expected 45 := by decide
    exact iff_of_eq (congrArg (a ∈ ·) heq)
  | @behind l _ _ _ _ _ => rw [topState_append_cons l [(2, .n .items)]]

theorem action?_of_reduction {state : Nat} {a : Terminal} {p : Production}
    (hshifts : shiftsOf state = []) (hreduction : reductionOf? state = some p)
    (ha : a ∈ p.lhs.follow) : action? state a = some (.reduce p) := by
  simp only [action?, hshifts, List.lookup_nil, hreduction, if_pos ha]

section Tokens
variable {stack stack' : Stack} {t t' : Token} {p : Production} {q : Nat}

theorem feed_of_next? (stack : Stack) (t : Token)
    (h : next? (topState (outline stack)) (.t t.kind) = some q) :
    ∃ stack', feed stack t = .shifted stack' ∧
      outline stack' = (q, .t t.kind) :: outline stack :=
  ⟨_, feed_of_shift (action?_of_next? (top_eq stack ▸ h)), rfl⟩

/-- A token does what it does after a reduction. -/
theorem feed_of_outline (stack : Stack) (t : Token)
    (h : action? (topState (outline stack)) t.kind = some (.reduce p))
    (hsymbols : ((outline stack).take p.rhs.length).map Prod.snd = p.rhs.reverse)
    (hgoto : next? (topState ((outline stack).drop p.rhs.length)) (.n p.lhs) = some q)
    (hp : p.lhs ≠ .file) :
    ∃ stack', feed stack t = feed stack' t ∧ outline stack' = reduceOutline p q (outline stack) := by
  obtain ⟨children, hreduce⟩ := reduce?_of_outline hsymbols hgoto
  refine ⟨_, feed_of_reduce (top_eq stack ▸ h) hreduce hp, ?_⟩
  rw [reduceOutline, outline, outline, List.map_cons, List.map_drop]

/-- A line break at the bottom of a stack becomes items before any other token. -/
theorem feed_of_blank (houtline : outline stack = [(3, .t .newline)])
    (ha : t.kind ∈ Nonterminal.follow .items) :
    ∃ stack', feed stack t = feed stack' t ∧ outline stack' = [(2, .n .items)] := by
  have hshifts : shiftsOf 3 = [] := by decide
  have hreduction : reductionOf? 3 = some .itemsBlank := by decide
  have hgoto : next? 0 (.n .items) = some 2 := by decide
  have haction := action?_of_reduction hshifts hreduction ha
  obtain ⟨stack', hfeed, houtline'⟩ := feed_of_outline stack t (p := .itemsBlank) (q := 2)
    (by rw [houtline]; exact haction) (by rw [houtline]; rfl) (by rw [houtline]; exact hgoto)
    (by decide)
  rw [houtline] at houtline'
  exact ⟨stack', hfeed, houtline'⟩

theorem shift_items (houtline : outline stack' = [(2, .n .items)])
    (hshift : next? 0 (.t t.kind) = some q) :
    ∃ s', feed stack' t = .shifted s' ∧ Parallel [(q, .t t.kind)] (outline s') := by
  rcases shift_zero hshift with ⟨hkind, rfl, hnext⟩ | hnext
  · obtain ⟨s', hfeed, hs'⟩ := feed_of_next? stack' t (by rw [houtline]; exact hnext)
    refine ⟨s', hfeed, ?_⟩
    rw [hs', houtline, hkind]
    exact .newline
  · obtain ⟨s', hfeed, hs'⟩ := feed_of_next? stack' t (by rw [houtline]; exact hnext)
    refine ⟨s', hfeed, ?_⟩
    rw [hs', houtline]
    exact .behind hshift hnext (List.forall_mem_nil _)

/-- Where a stack shifts a token, one that runs in parallel does. -/
theorem Parallel.shift (h : Parallel (outline stack) (outline stack'))
    (hshift : next? (topState (outline stack)) (.t t.kind) = some q) :
    ∃ s', feed stack' t = .shifted s' ∧
      Parallel ((q, .t t.kind) :: outline stack) (outline s') := by
  generalize hl : outline stack = l at h hshift
  generalize hl' : outline stack' = l' at h
  cases h with
  | same =>
    obtain ⟨s', hfeed, hs'⟩ := feed_of_next? stack' t (hl' ▸ hshift)
    refine ⟨s', hfeed, ?_⟩
    rw [hs', hl']
    exact .same _
  | blank =>
    have hfollow : ∀ x ∈ shiftsOf 0, x.1 ∈ Nonterminal.follow .items := by decide
    have hmem : (t.kind, q) ∈ shiftsOf 0 := mem_of_lookup hshift
    obtain ⟨stack₂, hfeed, houtline⟩ := feed_of_blank hl' (hfollow _ hmem)
    rw [hfeed]
    exact shift_items houtline hshift
  | items => exact shift_items hl' hshift
  | newline =>
    have hnone : shiftsOf 3 = [] := by decide
    change (shiftsOf 3).lookup t.kind = some q at hshift
    rw [hnone] at hshift
    cases hshift
  | statement =>
    have hnone : shiftsOf 4 = [] := by decide
    change (shiftsOf 4).lookup t.kind = some q at hshift
    rw [hnone] at hshift
    cases hshift
  | @behind l q' s first second nonzero =>
    rw [← topState_append_cons l [(2, .n .items)]] at hshift
    obtain ⟨s', hfeed, hs'⟩ := feed_of_next? stack' t (hl' ▸ hshift)
    refine ⟨s', hfeed, ?_⟩
    rw [hs', hl', ← List.cons_append, ← List.cons_append]
    exact .behind first second (List.forall_mem_cons.mpr ⟨shift_ne_zero hshift, nonzero⟩)

/-- What comes after items is taken together with them. -/
theorem feed_of_more {s : Symbol} (houtline : outline stack = [(q, s), (2, .n .items)])
    (hlhs : p.lhs = .items) (hrhs : p.rhs = [.n .items, s]) (hshifts : shiftsOf q = [])
    (hreduction : reductionOf? q = some p) (ha : t.kind ∈ Nonterminal.follow .items) :
    ∃ stack', feed stack t = feed stack' t ∧ outline stack' = [(2, .n .items)] := by
  have hgoto : next? 0 (.n .items) = some 2 := by decide
  have hne : p.lhs ≠ .file := by
    rw [hlhs]
    decide
  have haction := action?_of_reduction hshifts hreduction (hlhs ▸ ha)
  obtain ⟨stack', hfeed, houtline'⟩ := feed_of_outline stack t (p := p) (q := 2)
    (by rw [houtline]; exact haction) (by rw [houtline, hrhs]; rfl)
    (by rw [houtline, hrhs, hlhs]; exact hgoto) hne
  rw [reduceOutline, houtline, hrhs, hlhs] at houtline'
  exact ⟨stack', hfeed, houtline'⟩

section Behind
variable {l : List (Nat × Symbol)} {q' : Nat} {s : Symbol}

/-- A reduction leaves the items at the bottom of a stack. -/
theorem feed_behind (houtline : outline stack' = l ++ [(q', s), (2, .n .items)])
    (haction : action? (topState (l ++ [(q', s)])) t.kind = some (.reduce p))
    (hsymbols : ((l ++ [(q', s)]).take p.rhs.length).map Prod.snd = p.rhs.reverse)
    (hgoto : next? (topState ((l ++ [(q', s)]).drop p.rhs.length ++ [(2, .n .items)]))
      (.n p.lhs) = some q) (hp : p.lhs ≠ .file) :
    ∃ s', feed stack' t = feed s' t ∧
      outline s' = (q, .n p.lhs) :: ((l ++ [(q', s)]).drop p.rhs.length ++ [(2, .n .items)]) := by
  have hle : p.rhs.length ≤ (l ++ [(q', s)]).length := by
    have hlength := congrArg List.length hsymbols
    simp only [List.length_map, List.length_take, List.length_reverse] at hlength
    omega
  have hsplit : outline stack' = l ++ [(q', s)] ++ [(2, .n .items)] := by
    rw [houtline, List.append_assoc]
    rfl
  have hdrop : (outline stack').drop p.rhs.length =
      (l ++ [(q', s)]).drop p.rhs.length ++ [(2, .n .items)] := by
    rw [hsplit, List.drop_append_of_le_length hle]
  obtain ⟨s', hfeed, hs'⟩ := feed_of_outline stack' t (p := p) (q := q)
    (by rw [houtline, topState_append_cons, haction])
    (by rw [hsplit, List.take_append_of_le_length hle, hsymbols])
    (by rw [hdrop, hgoto]) hp
  refine ⟨s', hfeed, ?_⟩
  rw [hs', reduceOutline, hdrop]

/-- A reduction that takes all of a stack takes what stands after the items on the other one. -/
theorem reduce_all (houtline : outline stack' = l ++ [(q', s), (2, .n .items)])
    (first : next? 0 s = some q') (second : next? 2 s = some q')
    (haction : action? (topState (l ++ [(q', s)])) t.kind = some (.reduce p))
    (hsymbols : ((l ++ [(q', s)]).take p.rhs.length).map Prod.snd = p.rhs.reverse)
    (hgoto : next? (topState ((l ++ [(q', s)]).drop p.rhs.length)) (.n p.lhs) = some q)
    (hp : p.lhs ≠ .file) (hlt : l.length < p.rhs.length) :
    ∃ s', feed stack' t = feed s' t ∧
      Parallel (reduceOutline p q (l ++ [(q', s)])) (outline s') := by
  have hlength : (l ++ [(q', s)]).length ≤ p.rhs.length := by
    rw [List.length_append]
    exact hlt
  have hnil := List.drop_eq_nil_of_le hlength
  rw [hnil] at hgoto
  rw [reduceOutline, hnil]
  rcases goto_zero hgoto with hlhs | ⟨hlhs, rfl, hnext⟩ | hnext
  · have hhead : p.rhs.head? = some s := by
      rw [List.take_of_length_le hlength, List.map_append] at hsymbols
      rw [← List.getLast?_reverse, ← hsymbols]
      simp
    exact absurd second (next?_head hlhs hhead first)
  · obtain ⟨s', hfeed, hs'⟩ := feed_behind houtline haction hsymbols (by rw [hnil]; exact hnext) hp
    refine ⟨s', hfeed, ?_⟩
    rw [hs', hnil, hlhs]
    exact .statement
  · obtain ⟨s', hfeed, hs'⟩ := feed_behind houtline haction hsymbols (by rw [hnil]; exact hnext) hp
    refine ⟨s', hfeed, ?_⟩
    rw [hs', hnil]
    exact .behind hgoto hnext (List.forall_mem_nil _)

/-- A reduction that leaves some of a stack leaves it before the items on the other one. -/
theorem reduce_part (houtline : outline stack' = l ++ [(q', s), (2, .n .items)])
    (first : next? 0 s = some q') (second : next? 2 s = some q') (nonzero : ∀ c ∈ l, c.1 ≠ 0)
    (haction : action? (topState (l ++ [(q', s)])) t.kind = some (.reduce p))
    (hsymbols : ((l ++ [(q', s)]).take p.rhs.length).map Prod.snd = p.rhs.reverse)
    (hgoto : next? (topState ((l ++ [(q', s)]).drop p.rhs.length)) (.n p.lhs) = some q)
    (hp : p.lhs ≠ .file) (hge : p.rhs.length ≤ l.length) :
    ∃ s', feed stack' t = feed s' t ∧
      Parallel (reduceOutline p q (l ++ [(q', s)])) (outline s') := by
  have hdrop : (l ++ [(q', s)]).drop p.rhs.length = l.drop p.rhs.length ++ [(q', s)] :=
    List.drop_append_of_le_length hge
  have hgoto' : next? (topState ((l ++ [(q', s)]).drop p.rhs.length ++ [(2, .n .items)]))
      (.n p.lhs) = some q := by
    rw [hdrop] at hgoto ⊢
    rw [List.append_assoc, List.singleton_append, topState_append_cons, hgoto]
  obtain ⟨s', hfeed, hs'⟩ := feed_behind houtline haction hsymbols hgoto' hp
  refine ⟨s', hfeed, ?_⟩
  rw [hs', reduceOutline, hdrop, List.append_assoc, ← List.cons_append, ← List.cons_append]
  exact .behind first second (List.forall_mem_cons.mpr ⟨goto?_ne_zero hgoto, fun c hc =>
    nonzero c (List.mem_of_mem_drop hc)⟩)

end Behind

/-- Where a stack is reduced before a token, one that runs in parallel is. -/
theorem Parallel.reduce (h : Parallel (outline stack) (outline stack'))
    (haction : action? (topState (outline stack)) t.kind = some (.reduce p))
    (hsymbols : ((outline stack).take p.rhs.length).map Prod.snd = p.rhs.reverse)
    (hgoto : next? (topState ((outline stack).drop p.rhs.length)) (.n p.lhs) = some q)
    (hp : p.lhs ≠ .file) :
    ∃ s', feed stack' t = feed s' t ∧ Parallel (reduceOutline p q (outline stack)) (outline s') := by
  have hitems : next? 0 (.n .items) = some 2 := by decide
  obtain ⟨hreduction, hfollow⟩ := action?_reduce haction
  have hfirst : reductionOf? 0 ≠ some p := by
    intro hfile
    have heq : reductionOf? 0 = some .fileEmpty := by decide
    rw [heq] at hfile
    cases hfile
    exact hp rfl
  generalize hl : outline stack = l at *
  generalize hl' : outline stack' = l' at h
  cases h with
  | same =>
    obtain ⟨s', hfeed, hs'⟩ := feed_of_outline stack' t (hl' ▸ haction) (hl' ▸ hsymbols)
      (hl' ▸ hgoto) hp
    refine ⟨s', hfeed, ?_⟩
    rw [hs', hl']
    exact .same _
  | blank => exact absurd hreduction hfirst
  | items => exact absurd hreduction hfirst
  | newline =>
    have heq : reductionOf? 3 = some .itemsBlank := by decide
    obtain rfl : .itemsBlank = p := Option.some.inj (heq.symm.trans hreduction)
    obtain rfl : 2 = q := Option.some.inj (hitems.symm.trans hgoto)
    obtain ⟨s', hfeed, hs'⟩ := feed_of_more (p := .itemsMoreBlank) hl' rfl rfl (by decide)
      (by decide) hfollow
    refine ⟨s', hfeed, ?_⟩
    rw [hs']
    exact .same _
  | statement =>
    have heq : reductionOf? 4 = some .itemsStatement := by decide
    obtain rfl : .itemsStatement = p := Option.some.inj (heq.symm.trans hreduction)
    obtain rfl : 2 = q := Option.some.inj (hitems.symm.trans hgoto)
    obtain ⟨s', hfeed, hs'⟩ := feed_of_more (p := .itemsMore) hl' rfl rfl (by decide)
      (by decide) hfollow
    refine ⟨s', hfeed, ?_⟩
    rw [hs']
    exact .same _
  | @behind l q' s first second nonzero =>
    rcases Nat.lt_or_ge l.length p.rhs.length with hlt | hge
    · exact reduce_all hl' first second haction hsymbols hgoto hp hlt
    · exact reduce_part hl' first second nonzero haction hsymbols hgoto hp hge

/-- A file is reduced to nothing more. -/
theorem action?_of_file {state q : Nat} (h : next? state (.n .file) = some q) (a : Terminal) :
    action? q a = none := by
  have hall : (gotos.all fun l => l.all fun x => x.1 != .file || x.2 == 1) = true := by
    decide +kernel
  have hq : q = 1 := by simpa using entry_of_lookup hall h
  have hshifts : shiftsOf 1 = [] := by decide
  have hreduction : reductionOf? 1 = none := by decide
  rw [hq, action?, hshifts, hreduction]
  rfl

/-- What the rules for a file take is accepted. -/
theorem accepted_of_outline {stack : Stack} {t : Token} (hp : p.lhs = .file)
    (haction : action? (topState (outline stack)) t.kind = some (.reduce p))
    (hsymbols : (outline stack).map Prod.snd = p.rhs.reverse) :
    ∃ tree, feed stack t = .accepted tree := by
  have hgoto : next? 0 (.n .file) = some 1 := by decide
  have hlength : stack.length = p.rhs.length := by
    have hlength := congrArg List.length hsymbols
    simpa [outline] using hlength
  have hdrop : (outline stack).drop p.rhs.length = [] :=
    List.drop_eq_nil_of_le (by rw [outline, List.length_map, hlength])
  have htake : (outline stack).take p.rhs.length = outline stack :=
    List.take_of_length_le (by rw [outline, List.length_map, hlength])
  have hgoto' : next? (topState ((outline stack).drop p.rhs.length)) (.n p.lhs) = some 1 := by
    rw [hdrop, hp]
    exact hgoto
  obtain ⟨children, hreduce⟩ := reduce?_of_outline (htake.symm ▸ hsymbols) hgoto'
  rw [List.drop_eq_nil_of_le (Nat.le_of_eq hlength)] at hreduce
  have hrule : p = .fileEmpty ∨ p = .fileItems := by
    have hmem := hp ▸ p.mem_rules
    simpa [Nonterminal.rules] using hmem
  rw [← top_eq] at haction
  rcases hrule with rfl | rfl
  · exact ⟨_, feed_of_accept haction hreduce⟩
  · exact ⟨_, feed_of_accept haction hreduce⟩

/-- Where a stack accepts the end of input, one that runs in parallel does. -/
theorem Parallel.accept (h : Parallel (outline stack) (outline stack')) (hp : p.lhs = .file)
    (haction : action? (topState (outline stack)) t.kind = some (.reduce p))
    (hsymbols : (outline stack).map Prod.snd = p.rhs.reverse) :
    ∃ tree, feed stack' t = .accepted tree := by
  obtain ⟨-, hfollow⟩ := action?_reduce haction
  rw [hp] at hfollow
  have hitems : ∀ {s : Stack}, outline s = [(2, .n .items)] → ∃ tree, feed s t = .accepted tree := by
    intro s hs
    have hlast : action? 2 t.kind = some (.reduce .fileItems) := by
      obtain heq : t.kind = .endOfInput := List.mem_singleton.mp hfollow
      rw [heq]
      rfl
    exact accepted_of_outline (p := .fileItems) rfl (by rw [hs]; exact hlast) (by rw [hs]; rfl)
  have hrule : p = .fileEmpty ∨ p = .fileItems := by
    have hmem := hp ▸ p.mem_rules
    simpa [Nonterminal.rules] using hmem
  generalize hl : outline stack = l at *
  generalize hl' : outline stack' = l' at h
  cases h with
  | same => exact accepted_of_outline hp (hl' ▸ haction) (hl' ▸ hsymbols)
  | blank =>
    have hmem : Terminal.endOfInput ∈ Nonterminal.follow .items := by decide
    obtain ⟨s, hfeed, hs⟩ := feed_of_blank hl' (List.mem_singleton.mp hfollow ▸ hmem)
    rw [hfeed]
    exact hitems hs
  | items => exact hitems hl'
  | newline => rcases hrule with rfl | rfl <;> cases hsymbols
  | statement => rcases hrule with rfl | rfl <;> cases hsymbols
  | @behind l q' s first second nonzero =>
    rcases hrule with rfl | rfl
    · exact absurd (List.map_eq_nil_iff.mp hsymbols) (by simp)
    · change _ = [Symbol.n .items] at hsymbols
      have hs : s = .n .items := by
        have hlast := congrArg List.getLast? hsymbols
        simpa using hlast
      have hnone : next? 2 (.n .items) = none := by decide
      rw [hs, hnone] at second
      cases second

end Tokens

/-- On a stack that runs in parallel a token of the same kind does the same. -/
theorem Parallel.advance {fuel : Nat} {stack stack' : Stack} {t t' : Token}
    (h : Parallel (outline stack) (outline stack')) (hkind : t'.kind = t.kind) :
    (advance fuel stack t).Parallel (feed stack' t') := by
  induction fuel generalizing stack stack' with
  | zero => exact True.intro
  | succ fuel ih =>
    rw [Automaton.advance]
    cases haction : action? (top stack) t.kind with
    | none => exact True.intro
    | some action =>
      rw [top_eq] at haction
      cases action with
      | shift q =>
        rw [← hkind] at haction
        obtain ⟨s', hfeed, hs'⟩ := h.shift (action?_shift haction)
        rw [hkind] at hs'
        rw [hfeed]
        exact hs'
      | reduce p =>
        dsimp only
        rw [← hkind] at haction
        cases hreduce : reduce? p stack with
        | none => exact True.intro
        | some next =>
          obtain ⟨q, hsymbols, hgoto, houtline⟩ := outline_of_reduce? hreduce
          by_cases hp : p.lhs = .file
          · split
            · next heq => cases heq
            · next heq =>
              cases heq
              have hdrop : (outline stack).drop p.rhs.length = [] := (List.cons.inj houtline).2.symm
              rw [List.take_of_length_le (List.drop_eq_nil_iff.mp hdrop)] at hsymbols
              obtain ⟨tree, hfeed⟩ := h.accept hp haction hsymbols
              rw [hfeed]
              exact True.intro
            · next heq =>
              cases heq
              have hnone : action? (top next) t.kind = none := by
                rw [top_eq, houtline]
                exact action?_of_file (hp ▸ hgoto) t.kind
              cases fuel with
              | zero => exact True.intro
              | succ fuel =>
                rw [Automaton.advance, hnone]
                exact True.intro
          · obtain ⟨s', hfeed, hs'⟩ := h.reduce haction hsymbols hgoto hp
            rw [← houtline] at hs'
            rw [hfeed]
            split
            · next heq => cases heq
            · next heq =>
              cases heq
              exact absurd (Symbol.n.inj (Prod.mk.inj (List.cons.inj houtline).1).2).symm hp
            · next heq =>
              cases heq
              exact ih hs'

theorem Parallel.feed {stack stack' : Stack} {t t' : Token}
    (h : Parallel (outline stack) (outline stack')) (hkind : t'.kind = t.kind) :
    (feed stack t).Parallel (feed stack' t') := h.advance hkind

end Automaton
end Starlark
