import Starlark.Proofs.Grammar.Numbering
import Starlark.Proofs.Reference.Expressions
import Starlark.Proofs.Reference.Statements

/-! # What a tree builds, the reference grammar yields

The value built from a tree is a value that the form behind its symbol yields for its tokens, by
induction on the tree with one case of the rules at each node.
-/
namespace Starlark
namespace Reference

theorem sound (p : Production) : Sound p := by
  have hp := p.mem_rules
  cases hA : p.lhs with
  | file => exact file_sound p (hA ▸ hp)
  | items => exact items_sound p (hA ▸ hp)
  | statement => exact statement_sound p (hA ▸ hp)
  | line => exact line_sound p (hA ▸ hp)
  | smalls => exact smalls_sound p (hA ▸ hp)
  | small => exact small_sound p (hA ▸ hp)
  | suite => exact suite_sound p (hA ▸ hp)
  | block => exact block_sound p (hA ▸ hp)
  | augmentedOp => exact augmentedOp_sound p (hA ▸ hp)
  | loadArgs => exact loadArgs_sound p (hA ▸ hp)
  | loadArg => exact loadArg_sound p (hA ▸ hp)
  | stringToken => exact stringToken_sound p (hA ▸ hp)
  | elifs => exact elifs_sound p (hA ▸ hp)
  | elifClause => exact elifClause_sound p (hA ▸ hp)
  | elseClause => exact elseClause_sound p (hA ▸ hp)
  | parameters => exact parameters_sound p (hA ▸ hp)
  | parameterRest => exact parameterRest_sound p (hA ▸ hp)
  | parameter => exact parameter_sound p (hA ▸ hp)
  | exprList => exact exprList_sound p (hA ▸ hp)
  | exprRest => exact exprRest_sound p (hA ▸ hp)
  | targetList => exact targetList_sound p (hA ▸ hp)
  | targetRest => exact targetRest_sound p (hA ▸ hp)
  | expr l =>
    cases l with
    | test => exact test_sound p (hA ▸ hp)
    | binary b => exact binary_sound b p (hA ▸ hp)
    | negation => exact negation_sound p (hA ▸ hp)
    | unary => exact unary_sound p (hA ▸ hp)
    | primary => exact primary_sound p (hA ▸ hp)
    | atom => exact atom_sound p (hA ▸ hp)
  | rest b => exact rest_sound b p (hA ▸ hp)
  | operator b =>
    rw [hA] at hp
    obtain ⟨op, -, rfl⟩ := List.mem_map.mp hp
    exact operator_sound op
  | unaryOp => exact unaryOp_sound p (hA ▸ hp)
  | arguments => exact arguments_sound p (hA ▸ hp)
  | argumentRest => exact argumentRest_sound p (hA ▸ hp)
  | argument => exact argument_sound p (hA ▸ hp)
  | subscript => exact subscript_sound p (hA ▸ hp)
  | entry => exact entry_sound p (hA ▸ hp)
  | entryRest => exact entryRest_sound p (hA ▸ hp)
  | clauses => exact clauses_sound p (hA ▸ hp)
  | clause => exact clause_sound p (hA ▸ hp)
  | compFor => exact compFor_sound p (hA ▸ hp)

end Reference

open Reference

mutual

theorem Tree.stands (file : String) : ∀ {σ : Symbol} (x : Tree σ) {n n' : Notes} {v : σ.Meaning}
    {s : Option Span}, (x.build file).run.run n = (.ok (v, s), n') →
    StandsFor file σ x.tokens n v s n'
  | _, .leaf t, _, _, _, _, h => by
    cases h
    exact .t t
  | _, .node p xs, _, _, _, _, h => by
    rw [Tree.build] at h
    obtain ⟨⟨vs, s⟩, n₁, hxs, h⟩ := Build.of_run_bind h
    obtain ⟨w, n₂, hact, h⟩ := Build.of_run_bind h
    cases h
    exact sound p file _ _ _ _ _ _ _ (Forest.stands file xs hxs) hact

theorem Forest.stands (file : String) : ∀ {ss : List Symbol} (xs : Forest ss) {n n' : Notes}
    {vs : Meanings ss} {s : Option Span}, (xs.build file).run.run n = (.ok (vs, s), n') →
    StandsAll file ss xs.tokens n vs s n'
  | _, .nil, _, _, _, _, h => by
    cases h
    exact .nil
  | _, .cons x xs, _, _, _, _, h => by
    rw [Forest.build] at h
    obtain ⟨⟨v, s⟩, n₁, hx, h⟩ := Build.of_run_bind h
    obtain ⟨⟨vs, u⟩, n₂, hxs, h⟩ := Build.of_run_bind h
    cases h
    exact .cons (Tree.stands file x hx) (Forest.stands file xs hxs)

end

end Starlark
