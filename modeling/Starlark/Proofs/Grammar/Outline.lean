import Starlark.Proofs.Grammar.First
import Starlark.Proofs.Parser.Levels

/-! # Outlines

The outline of a derivation keeps its statements, their alternatives and their suites. Where the
tokens of a derivation are on levels, the indented suites are what the levels are opened for: so
every statement and every alternative begins on a line of the width of its block.
-/
namespace Starlark

inductive Outline
  /-- A statement or an alternative of one, by its tokens, with its suite and its alternatives. -/
  | item (tokens : List Token) (contents : List Outline)
  | suite (isIndented : Bool) (statements : List Outline)

/-- What the derivations of a nonterminal are in an outline. -/
inductive Role
  | group | small | headed | suite | phrase

def Nonterminal.role : Nonterminal → Role
  | .file | .items | .line | .smalls | .block | .elifs => .group
  | .small => .small
  | .statement | .elifClause | .elseClause => .headed
  | .suite => .suite
  | _ => .phrase

mutual

def Tree.outline : {s : Symbol} → Tree s → List Outline
  | _, .leaf _ => []
  | _, .node p xs =>
    match p.lhs.role with
    | .group => xs.outline
    | .small => [.item xs.tokens []]
    | .headed => if p = .statementLine then xs.outline else [.item xs.tokens xs.outline]
    | .suite => [.suite (p = .suiteBlock) xs.outline]
    | .phrase => []

def Forest.outline : {ss : List Symbol} → Forest ss → List Outline
  | _, .nil => []
  | _, .cons x xs => x.outline ++ xs.outline

end

/-- The first of some tokens is on a line of some width. -/
def BeginsOn (width : Token → Option Nat) (w : Nat) (ts : List Token) : Prop :=
  ∃ t, ts.head? = some t ∧ width t = some w

/-- An outline on lines of a width: a statement and its alternatives begin on such lines, and so do
the statements of a suite on the line of its header. The statements of an indented suite begin on
lines of one common width that is greater. -/
inductive Outline.LaidOut (width : Token → Option Nat) : Nat → Outline → Prop
  | item {w : Nat} {ts : List Token} {contents : List Outline} (begins : BeginsOn width w ts)
      (inner : ∀ o ∈ contents, LaidOut width w o) : LaidOut width w (.item ts contents)
  | line {w : Nat} {statements : List Outline} (inner : ∀ o ∈ statements, LaidOut width w o) :
      LaidOut width w (.suite false statements)
  | block {w wider : Nat} {statements : List Outline} (wide : w < wider)
      (inner : ∀ o ∈ statements, LaidOut width wider o) : LaidOut width w (.suite true statements)

namespace Tree

theorem exists_token {kind : Terminal} : (x : Tree (.t kind)) →
    ∃ t, t.kind = kind ∧ x.tokens = [t]
  | .leaf t => ⟨t, rfl, rfl⟩

/-! ### Parts without items -/

@[simp] theorem outline_terminal {kind : Terminal} : (x : Tree (.t kind)) → x.outline = []
  | .leaf _ => rfl

theorem outline_phrase {A : Nonterminal} (h : A.role = .phrase) :
    (x : Tree (.n A)) → x.outline = []
  | .node p xs => by
    rw [Tree.outline, h]

@[simp] theorem outline_expr {l : Level} (x : Tree (.n (.expr l))) : x.outline = [] :=
  outline_phrase rfl x

@[simp] theorem outline_exprList (x : Tree (.n .exprList)) : x.outline = [] :=
  outline_phrase rfl x

@[simp] theorem outline_targetList (x : Tree (.n .targetList)) : x.outline = [] :=
  outline_phrase rfl x

@[simp] theorem outline_parameters (x : Tree (.n .parameters)) : x.outline = [] :=
  outline_phrase rfl x

end Tree

theorem Production.indent_not_mem_rhs :
    ∀ p : Production, p ≠ .suiteBlock → ∀ s ∈ p.rhs, s ≠ .t .indent ∧ s ≠ .t .dedent :=
  forall_of_all (by decide +kernel)

/-- Where the trees of a nonterminal are items, they do not begin with a token of the layout. -/
theorem Nonterminal.first_plain (A : Nonterminal) (h : A.role = .small ∨ A.role = .headed) :
    ∀ t ∈ A.first, t ∉ Layout.kinds := by
  cases A
  case small | statement | elifClause | elseClause => decide
  all_goals simp [role] at h

namespace OnLevels
variable {width : Token → Option Nat} {levels levels' : List Nat} {t : Token} {ts : List Token}

theorem eq_of_nil (h : OnLevels width levels [] levels') : levels' = levels := by
  cases h
  rfl

theorem begins (h : OnLevels width levels (t :: ts) levels') (ht : t.kind ∉ Layout.kinds) :
    BeginsOn width (levels.headD 0) (t :: ts) := by
  cases h with
  | newline kind rest => exact absurd kind fun h => ht (by rw [h]; decide)
  | indent kind wide rest => exact absurd kind fun h => ht (by rw [h]; decide)
  | dedent kind rest => exact absurd kind fun h => ht (by rw [h]; decide)
  | plain kind line rest => exact ⟨t, rfl, line⟩

theorem of_indent (h : OnLevels width levels [t] levels') (ht : t.kind = .indent) :
    ∃ wider, levels.headD 0 < wider ∧ levels' = wider :: levels := by
  cases h with
  | newline kind rest => cases ht.symm.trans kind
  | indent kind wide rest => exact ⟨_, wide, rest.eq_of_nil⟩
  | dedent kind rest => cases ht.symm.trans kind
  | plain kind line rest => exact absurd ht fun h => kind (by rw [h]; decide)

theorem of_dedent {wider : Nat} (h : OnLevels width (wider :: levels) [t] levels')
    (ht : t.kind = .dedent) : levels' = levels := by
  cases h with
  | newline kind rest => cases ht.symm.trans kind
  | indent kind wide rest => cases ht.symm.trans kind
  | dedent kind rest => exact rest.eq_of_nil
  | plain kind line rest => exact absurd ht fun h => kind (by rw [h]; decide)

end OnLevels

section Keeps
variable (width : Token → Option Nat)

/-- Does a tree of anything but a mark leave the levels as they are, with everything in its outline
on the innermost one? -/
def Tree.Keeps {s : Symbol} (x : Tree s) : Prop :=
  s ≠ .t .indent ∧ s ≠ .t .dedent → ∀ levels levels', OnLevels width levels x.tokens levels' →
    levels' = levels ∧ ∀ o ∈ x.outline, o.LaidOut width (levels.headD 0)

def Forest.Keep : {ss : List Symbol} → Forest ss → Prop
  | _, .nil => True
  | _, .cons x xs => x.Keeps width ∧ xs.Keep

variable {width} {levels levels' : List Nat}

theorem Forest.Keep.laidOut {ss : List Symbol} {xs : Forest ss} (hkeep : xs.Keep width)
    (hss : ∀ s ∈ ss, s ≠ .t .indent ∧ s ≠ .t .dedent)
    (h : OnLevels width levels xs.tokens levels') :
    levels' = levels ∧ ∀ o ∈ xs.outline, o.LaidOut width (levels.headD 0) := by
  induction ss generalizing levels with
  | nil =>
    cases xs
    exact ⟨h.eq_of_nil, List.forall_mem_nil _⟩
  | cons s ss ih =>
    cases xs with
    | cons x xs =>
      rw [List.forall_mem_cons] at hss
      obtain ⟨between, hx, hxs⟩ := OnLevels.split h
      obtain ⟨rfl, hx⟩ := hkeep.1 hss.1 _ _ hx
      obtain ⟨rfl, hxs⟩ := ih hkeep.2 hss.2 hxs
      exact ⟨rfl, List.forall_mem_append.mpr ⟨hx, hxs⟩⟩

/-- An indented suite is between the marks that open and close a level. -/
theorem Forest.Keep.block : ∀ {xs : Forest Production.suiteBlock.rhs}, xs.Keep width →
    OnLevels width levels xs.tokens levels' →
    levels' = levels ∧ (Outline.suite true xs.outline).LaidOut width (levels.headD 0)
  | .cons line (.cons indent (.cons block (.cons dedent .nil))), ⟨hline, _, hblock, _⟩, h => by
    obtain ⟨_, hfirst, h⟩ := OnLevels.split h
    obtain ⟨_, hopens, h⟩ := OnLevels.split h
    obtain ⟨_, hinner, hcloses⟩ := OnLevels.split h
    obtain ⟨t, ht, hindent⟩ := indent.exists_token
    obtain ⟨u, hu, hdedent⟩ := dedent.exists_token
    rw [hindent] at hopens
    rw [Forest.tokens, Forest.tokens, hdedent] at hcloses
    obtain ⟨rfl, -⟩ := hline (by decide) _ _ hfirst
    obtain ⟨wider, hwide, rfl⟩ := hopens.of_indent ht
    obtain ⟨rfl, hlaidOut⟩ := hblock (by decide) _ _ hinner
    obtain rfl := OnLevels.of_dedent hcloses hu
    refine ⟨rfl, .block hwide ?_⟩
    simpa [Forest.outline] using hlaidOut

/-- A statement and an alternative begin with a token of the text. -/
theorem Forest.begins {p : Production} (xs : Forest p.rhs)
    (hrole : p.lhs.role = .small ∨ p.lhs.role = .headed)
    (h : OnLevels width levels xs.tokens levels') :
    BeginsOn width (levels.headD 0) xs.tokens := by
  have hfile : Symbol.n p.lhs ≠ .n .file := by
    intro hfile
    rw [Symbol.n.injEq] at hfile
    rw [hfile] at hrole
    rcases hrole with hrole | hrole <;> cases hrole
  obtain ⟨t, ts, htokens, ht⟩ := (Tree.node p xs).exists_first hfile
  rw [Tree.tokens] at htokens
  rw [htokens] at h ⊢
  exact h.begins (p.lhs.first_plain hrole t.kind ht)

theorem Forest.Keep.node {p : Production} {xs : Forest p.rhs} (hkeep : xs.Keep width) :
    (Tree.node p xs).Keeps width := by
  intro _ levels levels' h
  rw [Tree.tokens] at h
  by_cases hp : p = .suiteBlock
  · subst hp
    obtain ⟨hlevels, hblock⟩ := hkeep.block h
    exact ⟨hlevels, List.forall_mem_singleton.mpr hblock⟩
  · obtain ⟨hlevels, hxs⟩ := hkeep.laidOut (p.indent_not_mem_rhs hp) h
    refine ⟨hlevels, ?_⟩
    rw [Tree.outline]
    split
    · exact hxs
    · next hrole => exact List.forall_mem_singleton.mpr (.item (xs.begins (.inl hrole) h) nofun)
    · next hrole =>
      split
      · exact hxs
      · exact List.forall_mem_singleton.mpr (.item (xs.begins (.inr hrole) h) hxs)
    · rw [decide_eq_false hp]
      exact List.forall_mem_singleton.mpr (.line hxs)
    · exact List.forall_mem_nil _

theorem Tree.keeps_leaf (t : Token) : (Tree.leaf t).Keeps width := by
  intro hkind levels levels' h
  refine ⟨?_, List.forall_mem_nil _⟩
  cases h with
  | newline kind rest => exact rest.eq_of_nil
  | indent kind wide rest => exact absurd (congrArg Symbol.t kind) hkind.1
  | dedent kind rest => exact absurd (congrArg Symbol.t kind) hkind.2
  | plain kind line rest => exact rest.eq_of_nil

end Keeps

mutual

theorem Tree.keeps (width : Token → Option Nat) : ∀ {s : Symbol} (x : Tree s), x.Keeps width
  | _, .leaf t => Tree.keeps_leaf t
  | _, .node _ xs => (Forest.keep width xs).node

theorem Forest.keep (width : Token → Option Nat) :
    ∀ {ss : List Symbol} (xs : Forest ss), xs.Keep width
  | _, .nil => True.intro
  | _, .cons x xs => ⟨Tree.keeps width x, Forest.keep width xs⟩

end

/-- The statements of an accepted source are laid out from the first column on. -/
theorem Parser.laidOut_of_derive {source : List Char} {tree : Tree (.n .file)}
    (h : derive source = .ok tree) :
    ∀ o ∈ tree.outline, o.LaidOut (tokenWidth source) 0 := by
  obtain ⟨levels, hlevels⟩ := onLevels_of_derive h
  exact (tree.keeps _ (by decide) _ _ hlevels).2

end Starlark
