import Starlark.Proofs.Grammar.Corners
import Starlark.Proofs.Parser.Sound

/-! # The locations of statements

Only an empty file has no tokens, so every other tree has a span, and every statement of a parsed
file has a location.
-/
namespace Starlark

/-- Do the statements of a meaning have locations? -/
def Nonterminal.Located : (x : Nonterminal) → x.Meaning → Prop
  | .file => fun ss => ∀ s ∈ ss, s.loc ≠ none
  | .items => fun ss => ∀ s ∈ ss, s.loc ≠ none
  | .statement => fun ss => ∀ s ∈ ss, s.loc ≠ none
  | .line => fun ss => ∀ s ∈ ss, s.loc ≠ none
  | .smalls => fun ss => ∀ s ∈ ss, s.loc ≠ none
  | .small => fun s => s.loc ≠ none
  | _ => fun _ => True

def Symbol.Located : (s : Symbol) → s.Meaning → Prop
  | .t _ => fun _ => True
  | .n x => x.Located

def Meanings.Located : (ss : List Symbol) → Meanings ss → Prop
  | [] => fun _ => True
  | s :: ss => fun vs => s.Located vs.1 ∧ Meanings.Located ss vs.2

namespace Build
variable {α β : Type}

/-- A computation whose result, if there is one, has a property. -/
def Returns (m : Build α) (P : α → Prop) : Prop :=
  ∀ n a n', m.run.run n = (.ok a, n') → P a

namespace Returns
variable {m : Build α} {P : α → Prop} {Q : β → Prop}

theorem pure {a : α} (h : P a) : Returns (Pure.pure a) P := by
  rintro n _ _ ⟨⟩
  exact h

theorem bind {k : α → Build β} (hm : Returns m P) (hk : ∀ a, P a → Returns (k a) Q) :
    Returns (m >>= k) Q := by
  intro n b n' h
  simp only [ExceptT.run_bind, StateT.run_bind] at h
  cases hrun : m.run.run n with
  | mk r n₁ =>
    cases r with
    | error fault =>
      simp only [hrun] at h
      cases h
    | ok a =>
      simp only [hrun] at h
      exact hk a (hm n a n₁ hrun) n₁ b n' h

theorem mono {P' : α → Prop} (hm : Returns m P) (h : ∀ a, P a → P' a) : Returns m P' :=
  fun n a n' hrun => h a (hm n a n' hrun)

theorem trivial (m : Build α) : Returns m fun _ => True := fun _ _ _ _ => True.intro

end Returns

/-- Properties of what symbols stand for, alone and in a sequence, that terminals at the leaves have
and that actions keep. -/
structure Keeps (file : String) (T : Token → Prop) (P : (s : Symbol) → s.Meaning → Prop)
    (Q : (ss : List Symbol) → Meanings ss → Prop) : Prop where
  leaf (t : Token) : T t → P (.t t.kind) t
  nil : Q [] ()
  cons {s : Symbol} {ss : List Symbol} {v : s.Meaning} {vs : Meanings ss} :
    P s v → Q ss vs → Q (s :: ss) (v, vs)
  action (span : Option Span) (p : Production) (vs : Meanings p.rhs) :
    Q p.rhs vs → Returns (Build.action file span p vs) (P (.n p.lhs))

mutual

/-- What a tree stands for has each property that actions keep. -/
theorem Keeps.tree {file : String} {T : Token → Prop} {P : (s : Symbol) → s.Meaning → Prop}
    {Q : (ss : List Symbol) → Meanings ss → Prop} (h : Keeps file T P Q) :
    ∀ {s : Symbol} (x : Tree s), (∀ t ∈ x.tokens, T t) → Returns (x.build file) fun v => P s v.1
  | _, .leaf t, ht => by
    rw [Tree.build]
    exact .pure (h.leaf t (ht t (List.mem_singleton_self t)))
  | _, .node p xs, ht => by
    rw [Tree.build]
    exact .bind (h.forest xs ht) fun v hv =>
      .bind (h.action v.2 p v.1 hv) fun a ha => .pure ha

theorem Keeps.forest {file : String} {T : Token → Prop} {P : (s : Symbol) → s.Meaning → Prop}
    {Q : (ss : List Symbol) → Meanings ss → Prop} (h : Keeps file T P Q) :
    ∀ {ss : List Symbol} (xs : Forest ss), (∀ t ∈ xs.tokens, T t) →
      Returns (xs.build file) fun vs => Q ss vs.1
  | _, .nil, _ => by
    rw [Forest.build]
    exact .pure h.nil
  | _, .cons x xs, ht => by
    rw [Forest.tokens, List.forall_mem_append] at ht
    rw [Forest.build]
    exact .bind (h.tree x ht.1) fun v hv =>
      .bind (h.forest xs ht.2) fun vs hvs => .pure (h.cons hv hvs)

end

theorem load_located (file : String) {loc : Option Location} (hloc : loc ≠ none) (source : Token)
    (bs : List LoadBinding) : Returns (load file loc source bs) fun s => s.loc ≠ none := by
  unfold load
  split
  · exact .bind (.trivial _) fun _ _ => .bind (.trivial _) fun _ _ => .pure hloc
  · exact .bind (.trivial _) fun _ _ => .pure hloc

/-- A statement gets the location of its tree, and a block those of its statements. -/
theorem action_located (file : String) (span : Span) (p : Production) (vs : Meanings p.rhs)
    (h : Meanings.Located p.rhs vs) :
    Returns (action file (some span) p vs) (p.lhs.Located) := by
  have hloc : ((some span).map (·.inFile file)) ≠ none := Option.some_ne_none _
  cases p
  case fileEmpty | itemsBlank => exact .pure fun s hs => by cases hs
  case fileItems | itemsStatement | itemsMoreBlank | statementLine => exact .pure h.1
  case itemsMore =>
    refine .pure fun s hs => ?_
    rcases List.mem_append.mp hs with hs | hs
    · exact h.1 s hs
    · exact h.2.1 s hs
  case ifElifElse | ifElif | ifElse | ifOnly | forLoop =>
    exact .pure (List.forall_mem_singleton.mpr hloc)
  case defNone | defSome =>
    exact .bind (.trivial _) fun _ _ => .pure (List.forall_mem_singleton.mpr hloc)
  case lineManySemicolon | lineMany => exact .pure (List.forall_mem_cons.mpr ⟨h.1, h.2.1⟩)
  case lineOneSemicolon | lineOne => exact .pure (List.forall_mem_singleton.mpr h.1)
  case smallsOne => exact .pure (List.forall_mem_singleton.mpr h.2.1)
  case smallsMore =>
    refine .pure fun s hs => ?_
    rcases List.mem_append.mp hs with hs | hs
    · exact h.1 s hs
    · exact List.forall_mem_singleton.mpr h.2.2.1 s hs
  case exprStatement | assign | augmentedAssign | returnValue | returnNone | passFlow | breakFlow
      | continueFlow =>
    exact .pure hloc
  case loadSomeComma | loadSome => exact load_located file hloc _ vs.2.2.2.1
  case loadNoneComma | loadNone => exact load_located file hloc _ []
  -- The other meanings have no statements at their top.
  all_goals exact fun _ _ _ _ => True.intro

end Build

theorem Span.join_ne_none {a b : Option Span} (h : a ≠ none) : Span.join a b ≠ none := by
  cases a with
  | none => exact absurd rfl h
  | some a => cases b <;> exact Option.some_ne_none _

mutual

/-- A tree of anything but a whole file has a span, and every tree has located statements. -/
theorem Tree.build_located (file : String) : ∀ {s : Symbol} (tree : Tree s),
    Build.Returns (tree.build file) fun v =>
      (s ≠ .n .file → v.2 ≠ none) ∧ s.Located v.1
  | _, .leaf _ => by
    rw [Tree.build]
    exact .pure ⟨fun _ => Option.some_ne_none _, True.intro⟩
  | _, .node p xs => by
    rw [Tree.build]
    refine .bind (Forest.build_located file xs p.file_not_mem_rhs) fun v hv => ?_
    obtain ⟨values, span⟩ := v
    by_cases hp : p = .fileEmpty
    · subst hp
      exact .bind (P := Nonterminal.Located .file) (.pure fun s hs => by cases hs) fun a ha =>
        .pure ⟨fun h => absurd rfl h, ha⟩
    · have hspan := hv.1 (p.rhs_ne_nil hp)
      obtain ⟨span, rfl⟩ := Option.ne_none_iff_exists'.mp hspan
      exact .bind (Build.action_located file span p values hv.2) fun a ha =>
        .pure ⟨fun _ => Option.some_ne_none _, ha⟩

theorem Forest.build_located (file : String) : ∀ {ss : List Symbol} (xs : Forest ss),
    Symbol.n .file ∉ ss → Build.Returns (xs.build file) fun vs =>
      (ss ≠ [] → vs.2 ≠ none) ∧ Meanings.Located ss vs.1
  | _, .nil, _ => by
    rw [Forest.build]
    exact .pure ⟨fun h => absurd rfl h, True.intro⟩
  | _, .cons x xs, h => by
    rw [Forest.build]
    rw [List.mem_cons, not_or] at h
    refine .bind (Tree.build_located file x) fun v hv => ?_
    refine .bind (Forest.build_located file xs h.2) fun vs hvs => .pure ?_
    exact ⟨fun _ => Span.join_ne_none (hv.1 (Ne.symm h.1)), hv.2, hvs.2⟩

end

/-- Every statement of a parsed source has a location. -/
theorem parseStatements_located {text file : String} {firstId : Nat} {ss : List Stmt}
    {notes : Notes} (h : parseStatements text file firstId = (.ok ss, notes)) :
    ∀ s ∈ ss, s.loc ≠ none := by
  obtain ⟨tree, span, -, hbuild⟩ := tree_of_parseStatements h
  exact (tree.build_located file _ _ _ hbuild).2

end Starlark
