import Starlark.Proofs.Grammar.Located
import Starlark.Proofs.Syntax.Plain

/-! # Blocks are not empty

A line has a statement and a block has a line, so no rule that takes a block is given an empty one;
and the clause that the rules of a comprehension put first is a loop.
-/
namespace Starlark

/-- Are the blocks of a meaning not empty, and is a loop one? -/
def Nonterminal.Filled : (x : Nonterminal) → x.Meaning → Prop
  | .statement | .line | .smalls | .suite | .block | .elseClause => fun ss => ss ≠ []
  | .elifs => fun cs => ∀ c ∈ cs, c.block ≠ []
  | .elifClause => fun c => c.block ≠ []
  | .compFor => fun c => c.isEach = true
  | _ => fun _ => True

def Symbol.Filled : (s : Symbol) → s.Meaning → Prop
  | .t _ => fun _ => True
  | .n x => x.Filled

def Meanings.Filled : (ss : List Symbol) → Meanings ss → Prop
  | [] => fun _ => True
  | s :: ss => fun vs => s.Filled vs.1 ∧ Meanings.Filled ss vs.2

namespace Build

/-- The action of a rule fills a block. -/
theorem action_filled (file : String) (span : Option Span) (p : Production) (vs : Meanings p.rhs)
    (h : Meanings.Filled p.rhs vs) : Returns (action file span p vs) p.lhs.Filled := by
  cases p
  case statementLine | suiteLine | blockOne => exact .pure h.1
  case ifElifElse | ifElif | ifElse | ifOnly | forLoop | lineManySemicolon | lineMany
      | lineOneSemicolon | lineOne | smallsOne =>
    exact .pure (List.cons_ne_nil _ _)
  case defNone | defSome => exact .bind (.trivial _) fun _ _ => .pure (List.cons_ne_nil _ _)
  case smallsMore | blockMore => exact .pure (List.append_ne_nil_of_left_ne_nil h.1 _)
  case suiteBlock => exact .pure h.2.2.1
  case elseClause => exact .pure h.2.2.1
  case elifClause => exact .pure h.2.2.2.1
  case elifsOne => exact .pure (List.forall_mem_singleton.mpr h.1)
  case elifsMore =>
    exact .pure (List.forall_mem_append.mpr ⟨h.1, List.forall_mem_singleton.mpr h.2.1⟩)
  case compFor => exact .pure rfl
  all_goals exact fun _ _ _ _ => True.intro

theorem keeps_filled (file : String) :
    Keeps file (fun _ => True) (fun s => s.Filled) Meanings.Filled where
  leaf _ _ := True.intro
  nil := True.intro
  cons hv hvs := ⟨hv, hvs⟩
  action := action_filled file

end Build

theorem Tree.build_filled (file : String) {s : Symbol} (tree : Tree s) :
    Build.Returns (tree.build file) fun v => s.Filled v.1 :=
  (Build.keeps_filled file).tree tree fun _ _ => True.intro

theorem Forest.build_filled (file : String) {ss : List Symbol} (xs : Forest ss) :
    Build.Returns (xs.build file) fun vs => Meanings.Filled ss vs.1 :=
  (Build.keeps_filled file).forest xs fun _ _ => True.intro

/-- No `else` clause has an empty block. -/
theorem elseBlock_ne_nil {file : String} {tree : Tree (.n .elseClause)} {n n' : Notes}
    {block : List Stmt} {span : Option Span}
    (h : (tree.build file).run.run n = (.ok (block, span), n')) : block ≠ [] :=
  tree.build_filled file n _ n' h

end Starlark
