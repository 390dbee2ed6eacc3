import Starlark.Grammar.Meaning

/-! # A line break before a file

The rules for a file let line breaks stand before and between its statements, and they add nothing
to its meaning. So a tree with one more line break before everything else has the same value.
-/
namespace Starlark

theorem Tree.build_terminal (file : String) {kind : Terminal} :
    (x : Tree (.t kind)) → ∃ t : Token, x.build file = pure (t, some t.span)
  | .leaf t => ⟨t, rfl⟩

/-- The meaning of a tree, without its span. -/
def Tree.value {s : Symbol} (x : Tree s) (file : String) : Build s.Meaning :=
  Prod.fst <$> x.build file

namespace Tree
variable {file : String}

/-- The value of a node is what the action of its rule makes of the values of its children. -/
theorem value_node (p : Production) (xs : Forest p.rhs) :
    (Tree.node p xs).value file =
      (xs.build file >>= fun (vs, span) => Build.action file span p vs) := by
  simp [value, Tree.build]

theorem value_itemsBlank (t : Tree (.t .newline)) :
    (Tree.node .itemsBlank (.cons t .nil)).value file = pure [] := by
  obtain ⟨u, hu⟩ := t.build_terminal file
  have haction : ∀ span vs, Build.action file span .itemsBlank vs = pure [] := fun _ _ => rfl
  simp only [value_node, haction, Forest.build, hu, pure_bind]

theorem value_itemsStatement (x : Tree (.n .statement)) :
    (Tree.node .itemsStatement (.cons x .nil)).value file = x.value file := by
  have haction : ∀ span vs, Build.action file span .itemsStatement vs = pure vs.1 :=
    fun _ _ => rfl
  rw [value_node]
  simp [haction, value, Forest.build]

theorem value_itemsMoreBlank (x : Tree (.n .items)) (t : Tree (.t .newline)) :
    (Tree.node .itemsMoreBlank (.cons x (.cons t .nil))).value file = x.value file := by
  obtain ⟨u, hu⟩ := t.build_terminal file
  have haction : ∀ span vs, Build.action file span .itemsMoreBlank vs = pure vs.1 :=
    fun _ _ => rfl
  rw [value_node]
  simp [haction, value, Forest.build, hu]

theorem value_itemsMore (x : Tree (.n .items)) (y : Tree (.n .statement)) :
    (Tree.node .itemsMore (.cons x (.cons y .nil))).value file = (do
      let ss ← x.value file
      let ts ← y.value file
      return ss ++ ts) := by
  have haction : ∀ span vs, Build.action file span .itemsMore vs = pure (vs.1 ++ vs.2.1) :=
    fun _ _ => rfl
  rw [value_node]
  simp [haction, value, Forest.build]

theorem value_fileItems (x : Tree (.n .items)) :
    (Tree.node .fileItems (.cons x .nil)).value file = x.value file := by
  have haction : ∀ span vs, Build.action file span .fileItems vs = pure vs.1 := fun _ _ => rfl
  rw [value_node]
  simp [haction, value, Forest.build]

theorem value_fileEmpty : (Tree.node .fileEmpty .nil).value file = pure [] := by
  have haction : ∀ span vs, Build.action file span .fileEmpty vs = pure [] := fun _ _ => rfl
  simp only [value_node, haction, Forest.build, pure_bind]

theorem sizeOf_lt_node {p : Production} {n size : Nat} (xs : Forest p.rhs)
    (hsize : sizeOf (Tree.node p xs) = size) (h : n ≤ sizeOf xs) : n < size := by
  rw [Tree.node.sizeOf_spec] at hsize
  omega

theorem sizeOf_le_cons {s : Symbol} {ss : List Symbol} (x : Tree s) (xs : Forest ss) :
    sizeOf x ≤ sizeOf (Forest.cons x xs) := by
  rw [Forest.cons.sizeOf_spec]
  omega

/-- A line break before some items does not change their meaning. -/
theorem exists_items (b : Tree (.t .newline)) {s : Symbol} (x : Tree s) (hs : s = .n .items) :
    ∃ y : Tree (.n .items), y.tokens = b.tokens ++ x.tokens ∧
      ∀ file, y.value file = (hs ▸ x).value file := by
  -- The rules for items have the shorter items first, so the line break goes down to the first one.
  induction hsize : sizeOf x using Nat.strongRecOn generalizing s with
  | _ size ih =>
  cases x with
  | leaf t => cases hs
  | node p xs =>
    cases p
    case itemsBlank =>
      obtain _ | ⟨t, _ | _⟩ := xs
      refine ⟨.node .itemsMoreBlank (.cons (.node .itemsBlank (.cons b .nil)) (.cons t .nil)), ?_,
        fun file => ?_⟩
      · simp [Tree.tokens, Forest.tokens]
      · exact (value_itemsMoreBlank _ t).trans
          ((value_itemsBlank b).trans (value_itemsBlank t).symm)
    case itemsStatement =>
      obtain _ | ⟨x, _ | _⟩ := xs
      refine ⟨.node .itemsMore (.cons (.node .itemsBlank (.cons b .nil)) (.cons x .nil)), ?_,
        fun file => ?_⟩
      · simp [Tree.tokens, Forest.tokens]
      · refine (value_itemsMore _ x).trans (Eq.trans ?_ (value_itemsStatement x).symm)
        simp [value_itemsBlank]
    case itemsMoreBlank =>
      obtain _ | ⟨x, _ | ⟨t, _ | _⟩⟩ := xs
      obtain ⟨y, htokens, hvalue⟩ := ih _ (sizeOf_lt_node _ hsize (sizeOf_le_cons x _)) x rfl rfl
      refine ⟨.node .itemsMoreBlank (.cons y (.cons t .nil)), ?_, fun file => ?_⟩
      · simp [Tree.tokens, Forest.tokens, htokens]
      · exact (value_itemsMoreBlank y t).trans
          ((hvalue file).trans (value_itemsMoreBlank x t).symm)
    case itemsMore =>
      obtain _ | ⟨x, _ | ⟨x', _ | _⟩⟩ := xs
      obtain ⟨y, htokens, hvalue⟩ := ih _ (sizeOf_lt_node _ hsize (sizeOf_le_cons x _)) x rfl rfl
      refine ⟨.node .itemsMore (.cons y (.cons x' .nil)), ?_, fun file => ?_⟩
      · simp [Tree.tokens, Forest.tokens, htokens]
      · refine (value_itemsMore y x').trans (Eq.trans ?_ (value_itemsMore x x').symm)
        rw [hvalue file]
    all_goals cases hs

/-- A line break before a file does not change its meaning. -/
theorem exists_file (b : Tree (.t .newline)) {s : Symbol} (x : Tree s) (hs : s = .n .file) :
    ∃ y : Tree (.n .file), y.tokens = b.tokens ++ x.tokens ∧
      ∀ file, y.value file = (hs ▸ x).value file := by
  cases x with
  | leaf t => cases hs
  | node p xs =>
    cases p
    case fileEmpty =>
      cases xs
      refine ⟨.node .fileItems (.cons (.node .itemsBlank (.cons b .nil)) .nil), ?_, fun file => ?_⟩
      · simp [Tree.tokens, Forest.tokens]
      · exact (value_fileItems _).trans ((value_itemsBlank b).trans value_fileEmpty.symm)
    case fileItems =>
      obtain _ | ⟨x, _ | _⟩ := xs
      obtain ⟨y, htokens, hvalue⟩ := exists_items b x rfl
      refine ⟨.node .fileItems (.cons y .nil), ?_, fun file => ?_⟩
      · simp [Tree.tokens, Forest.tokens, htokens]
      · exact (value_fileItems y).trans ((hvalue file).trans (value_fileItems x).symm)
    all_goals cases hs

end Tree
end Starlark
