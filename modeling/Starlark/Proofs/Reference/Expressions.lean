import Starlark.Proofs.Reference.Stands

/-! # The expressions that a tree builds

One theorem for each nonterminal of expressions, one case for each of its rules.
-/
namespace Starlark.Reference

theorem exprList_sound : ∀ p ∈ Nonterminal.exprList.rules, Sound p := by
  simp only [Nonterminal.rules, List.forall_mem_cons]
  refine ⟨?_, ?_, ?_, ?_, List.forall_mem_nil _⟩
  · intro file ts n n' n'' vs s w h hact
    obtain _ | ⟨h₁, _ | _⟩ := h
    cases hact
    exact .r (.left h₁.trim)
  · intro file ts n n' n'' vs s w h hact
    obtain _ | ⟨h₁, _ | ⟨h₂, _ | ⟨h₃, _ | _⟩⟩⟩ := h
    cases hact
    exact .r (.right (.r (.tupleManyComma h₁ h₂ h₃)))
  · intro file ts n n' n'' vs s w h hact
    obtain _ | ⟨h₁, _ | ⟨h₂, _ | _⟩⟩ := h
    cases hact
    exact .r (.right (.r (.tupleMany h₁ h₂)))
  · intro file ts n n' n'' vs s w h hact
    obtain _ | ⟨h₁, _ | ⟨h₂, _ | _⟩⟩ := h
    cases hact
    exact .r (.right (.r (.tupleOneComma h₁ h₂)))

theorem exprRest_sound : ∀ p ∈ Nonterminal.exprRest.rules, Sound p := by
  simp only [Nonterminal.rules, List.forall_mem_cons]
  refine ⟨?_, ?_, List.forall_mem_nil _⟩
  · intro file ts n n' n'' vs s w h hact
    obtain _ | ⟨h₁, _ | ⟨h₂, _ | _⟩⟩ := h
    cases hact
    exact .afterOne h₁ h₂
  · intro file ts n n' n'' vs s w h hact
    obtain _ | ⟨h₁, _ | ⟨h₂, _ | ⟨h₃, _ | _⟩⟩⟩ := h
    cases hact
    exact .afterMore h₁ h₂ h₃

theorem targetList_sound : ∀ p ∈ Nonterminal.targetList.rules, Sound p := by
  simp only [Nonterminal.rules, List.forall_mem_cons]
  refine ⟨?_, ?_, ?_, ?_, List.forall_mem_nil _⟩
  · intro file ts n n' n'' vs s w h hact
    obtain _ | ⟨h₁, _ | _⟩ := h
    cases hact
    exact .r (.left h₁.trim)
  · intro file ts n n' n'' vs s w h hact
    obtain _ | ⟨h₁, _ | ⟨h₂, _ | ⟨h₃, _ | _⟩⟩⟩ := h
    cases hact
    exact .r (.right (.r (.tupleManyComma h₁ h₂ h₃)))
  · intro file ts n n' n'' vs s w h hact
    obtain _ | ⟨h₁, _ | ⟨h₂, _ | _⟩⟩ := h
    cases hact
    exact .r (.right (.r (.tupleMany h₁ h₂)))
  · intro file ts n n' n'' vs s w h hact
    obtain _ | ⟨h₁, _ | ⟨h₂, _ | _⟩⟩ := h
    cases hact
    exact .r (.right (.r (.tupleOneComma h₁ h₂)))

theorem targetRest_sound : ∀ p ∈ Nonterminal.targetRest.rules, Sound p := by
  simp only [Nonterminal.rules, List.forall_mem_cons]
  refine ⟨?_, ?_, List.forall_mem_nil _⟩
  · intro file ts n n' n'' vs s w h hact
    obtain _ | ⟨h₁, _ | ⟨h₂, _ | _⟩⟩ := h
    cases hact
    exact .afterOne h₁ h₂
  · intro file ts n n' n'' vs s w h hact
    obtain _ | ⟨h₁, _ | ⟨h₂, _ | ⟨h₃, _ | _⟩⟩⟩ := h
    cases hact
    exact .afterMore h₁ h₂ h₃

theorem test_sound : ∀ p ∈ (Nonterminal.expr .test).rules, Sound p := by
  simp only [Nonterminal.rules, List.forall_mem_cons]
  refine ⟨?_, ?_, List.forall_mem_nil _⟩
  · intro file ts n n' n'' vs s w h hact
    obtain _ | ⟨h₁, _ | ⟨h₂, _ | ⟨h₃, _ | ⟨h₄, _ | ⟨h₅, _ | _⟩⟩⟩⟩⟩ := h
    have hs := Yields.seq h₁ (.seq h₂ (.seq h₃ (.seq h₄ (.seq h₅ .eps))))
    exact .r (.left (.act hs hact))
  · intro file ts n n' n'' vs s w h hact
    obtain _ | ⟨h₁, _ | _⟩ := h
    cases hact
    exact .r (.right h₁.trim)

theorem binary_sound (b : BinaryLevel) : ∀ p ∈ (Nonterminal.expr (.binary b)).rules, Sound p := by
  simp only [Nonterminal.rules, List.forall_mem_cons]
  refine ⟨?_, ?_, List.forall_mem_nil _⟩
  · intro file ts n n' n'' vs s w h hact
    obtain _ | ⟨h₁, _ | ⟨h₂, _ | _⟩⟩ := h
    have hs := Yields.seq h₁ (.seq (.plus h₂) .eps)
    exact .r (.act hs hact)
  · intro file ts n n' n'' vs s w h hact
    obtain _ | ⟨h₁, _ | _⟩ := h
    exact .r (.act (.seq h₁ (.empty .eps)) hact)

theorem rest_sound (b : BinaryLevel) : ∀ p ∈ (Nonterminal.rest b).rules, Sound p := by
  simp only [Nonterminal.rules, List.forall_mem_cons]
  refine ⟨?_, ?_, List.forall_mem_nil _⟩
  · intro file ts n n' n'' vs s w h hact
    obtain _ | ⟨h₁, _ | ⟨h₂, _ | _⟩⟩ := h
    cases hact
    exact .one (.map (.seq h₁ (.seq h₂ .eps)))
  · intro file ts n n' n'' vs s w h hact
    obtain _ | ⟨h₁, _ | ⟨h₂, _ | ⟨h₃, _ | _⟩⟩⟩ := h
    cases hact
    exact .more h₁ (.map (.seq h₂ (.seq h₃ .eps)))

theorem operator_sound (op : BinaryOp) : Sound (.operator op) := by
  cases op with
  | notIn =>
    intro file ts n n' n'' vs s w h hact
    obtain _ | ⟨h₁, _ | ⟨h₂, _ | _⟩⟩ := h
    have hs := Yields.seq h₁ (.seq h₂ .eps)
    exact .r (.right (.act hs hact))
  | lt | gt | eq | ge | le | ne | isIn =>
    intro file ts n n' n'' vs s w h hact
    obtain _ | ⟨h₁, _ | _⟩ := h
    cases hact
    exact .r (.left (.sign _ _ (by decide) h₁.trim))
  | _ =>
    intro file ts n n' n'' vs s w h hact
    obtain _ | ⟨h₁, _ | _⟩ := h
    cases hact
    exact .r (.sign _ _ (by decide) h₁.trim)

theorem negation_sound : ∀ p ∈ (Nonterminal.expr .negation).rules, Sound p := by
  simp only [Nonterminal.rules, List.forall_mem_cons]
  refine ⟨?_, ?_, List.forall_mem_nil _⟩
  · intro file ts n n' n'' vs s w h hact
    obtain _ | ⟨h₁, _ | ⟨h₂, _ | _⟩⟩ := h
    have hs := Yields.seq h₁ (.seq h₂ .eps)
    exact .r (.left (.act hs hact))
  · intro file ts n n' n'' vs s w h hact
    obtain _ | ⟨h₁, _ | _⟩ := h
    cases hact
    exact .r (.right h₁.trim)

theorem unary_sound : ∀ p ∈ (Nonterminal.expr .unary).rules, Sound p := by
  simp only [Nonterminal.rules, List.forall_mem_cons]
  refine ⟨?_, ?_, List.forall_mem_nil _⟩
  · intro file ts n n' n'' vs s w h hact
    obtain _ | ⟨h₁, _ | ⟨h₂, _ | _⟩⟩ := h
    have hs := Yields.seq h₁ (.seq h₂ .eps)
    exact .r (.left (.act hs hact))
  · intro file ts n n' n'' vs s w h hact
    obtain _ | ⟨h₁, _ | _⟩ := h
    cases hact
    exact .r (.right h₁.trim)

theorem unaryOp_sound : ∀ p ∈ Nonterminal.unaryOp.rules, Sound p := by
  simp only [Nonterminal.rules, List.forall_mem_cons]
  refine ⟨?_, ?_, ?_, List.forall_mem_nil _⟩
  · intro file ts n n' n'' vs s w h hact
    obtain _ | ⟨h₁, _ | _⟩ := h
    exact .r (.left (.act h₁.trim hact))
  · intro file ts n n' n'' vs s w h hact
    obtain _ | ⟨h₁, _ | _⟩ := h
    exact .r (.right (.left (.act h₁.trim hact)))
  · intro file ts n n' n'' vs s w h hact
    obtain _ | ⟨h₁, _ | _⟩ := h
    exact .r (.right (.right (.act h₁.trim hact)))

theorem primary_sound : ∀ p ∈ (Nonterminal.expr .primary).rules, Sound p := by
  simp only [Nonterminal.rules, List.forall_mem_cons]
  refine ⟨?_, ?_, ?_, ?_, ?_, List.forall_mem_nil _⟩
  · intro file ts n n' n'' vs s w h hact
    obtain _ | ⟨h₁, _ | ⟨h₂, _ | ⟨h₃, _ | _⟩⟩⟩ := h
    exact .r (.left (.act (.seq h₁ (.seq h₂ (.absent (.r .commasNone) (.seq h₃ .eps)))) hact))
  · intro file ts n n' n'' vs s w h hact
    obtain _ | ⟨h₁, _ | ⟨h₂, _ | ⟨h₃, _ | ⟨h₄, _ | _⟩⟩⟩⟩ := h
    have hs := Yields.seq h₁ (.seq h₂ (.seq h₃ (.seq h₄ .eps)))
    exact .r (.left (.act hs hact))
  · intro file ts n n' n'' vs s w h hact
    obtain _ | ⟨h₁, _ | ⟨h₂, _ | ⟨h₃, _ | ⟨h₄, _ | _⟩⟩⟩⟩ := h
    have hs := Yields.seq h₁ (.seq h₂ (.seq h₃ (.seq h₄ .eps)))
    exact .r (.right (.left (.act hs hact)))
  · intro file ts n n' n'' vs s w h hact
    obtain _ | ⟨h₁, _ | ⟨h₂, _ | ⟨h₃, _ | _⟩⟩⟩ := h
    have hs := Yields.seq h₁ (.seq h₂ (.seq h₃ .eps))
    exact .r (.right (.right (.left (.act hs hact))))
  · intro file ts n n' n'' vs s w h hact
    obtain _ | ⟨h₁, _ | _⟩ := h
    cases hact
    exact .r (.right (.right (.right h₁.trim)))

theorem arguments_sound : ∀ p ∈ Nonterminal.arguments.rules, Sound p := by
  simp only [Nonterminal.rules, List.forall_mem_cons]
  refine ⟨?_, ?_, ?_, ?_, List.forall_mem_nil _⟩
  · intro file ts n n' n'' vs s w h hact
    obtain _ | ⟨h₁, _ | ⟨h₂, _ | ⟨h₃, _ | _⟩⟩⟩ := h
    cases hact
    exact .r (.commasManyComma h₁ h₂ h₃)
  · intro file ts n n' n'' vs s w h hact
    obtain _ | ⟨h₁, _ | ⟨h₂, _ | _⟩⟩ := h
    cases hact
    exact .r (.commasMany h₁ h₂)
  · intro file ts n n' n'' vs s w h hact
    obtain _ | ⟨h₁, _ | ⟨h₂, _ | _⟩⟩ := h
    cases hact
    exact .r (.commasOneComma h₁ h₂)
  · intro file ts n n' n'' vs s w h hact
    obtain _ | ⟨h₁, _ | _⟩ := h
    cases hact
    exact .r (.commasOne h₁)

theorem argumentRest_sound : ∀ p ∈ Nonterminal.argumentRest.rules, Sound p := by
  simp only [Nonterminal.rules, List.forall_mem_cons]
  refine ⟨?_, ?_, List.forall_mem_nil _⟩
  · intro file ts n n' n'' vs s w h hact
    obtain _ | ⟨h₁, _ | ⟨h₂, _ | _⟩⟩ := h
    cases hact
    exact .afterOne h₁ h₂
  · intro file ts n n' n'' vs s w h hact
    obtain _ | ⟨h₁, _ | ⟨h₂, _ | ⟨h₃, _ | _⟩⟩⟩ := h
    cases hact
    exact .afterMore h₁ h₂ h₃

theorem argument_sound : ∀ p ∈ Nonterminal.argument.rules, Sound p := by
  simp only [Nonterminal.rules, List.forall_mem_cons]
  refine ⟨?_, ?_, ?_, ?_, List.forall_mem_nil _⟩
  · intro file ts n n' n'' vs s w h hact
    obtain _ | ⟨h₁, _ | _⟩ := h
    exact .r (.left (.act h₁.trim hact))
  · intro file ts n n' n'' vs s w h hact
    obtain _ | ⟨h₁, _ | ⟨h₂, _ | ⟨h₃, _ | _⟩⟩⟩ := h
    have hs := Yields.seq h₁ (.seq h₂ (.seq h₃ .eps))
    exact .r (.right (.left (.act hs hact)))
  · intro file ts n n' n'' vs s w h hact
    obtain _ | ⟨h₁, _ | ⟨h₂, _ | _⟩⟩ := h
    have hs := Yields.seq h₁ (.seq h₂ .eps)
    exact .r (.right (.right (.left (.act hs hact))))
  · intro file ts n n' n'' vs s w h hact
    obtain _ | ⟨h₁, _ | ⟨h₂, _ | _⟩⟩ := h
    have hs := Yields.seq h₁ (.seq h₂ .eps)
    exact .r (.right (.right (.right (.act hs hact))))

theorem subscript_sound : ∀ p ∈ Nonterminal.subscript.rules, Sound p := by
  simp only [Nonterminal.rules, List.forall_mem_cons]
  refine ⟨?_, ?_, ?_, ?_, ?_, ?_, ?_, ?_, ?_, ?_, ?_, ?_, ?_, List.forall_mem_nil _⟩
  · intro file ts n n' n'' vs s w h hact
    obtain _ | ⟨h₁, _ | _⟩ := h
    exact .r (.left (.act h₁.trim hact))
  · intro file ts n n' n'' vs s w h hact
    obtain _ | ⟨h₁, _ | ⟨h₂, _ | ⟨h₃, _ | ⟨h₄, _ | ⟨h₅, _ | _⟩⟩⟩⟩⟩ := h
    have hs := Yields.seq (.some h₁) (.seq h₂ (.seq (.some h₃) (.some (.seq h₄ (.seq
      (.some h₅) .eps)))))
    exact .r (.right (.r (.act hs hact)))
  · intro file ts n n' n'' vs s w h hact
    obtain _ | ⟨h₁, _ | ⟨h₂, _ | ⟨h₃, _ | ⟨h₄, _ | _⟩⟩⟩⟩ := h
    exact .r (.right (.r (.act (.seq (.some h₁) (.seq h₂ (.seq (.some h₃) (.some (.seq h₄
      (.skip .eps)))))) hact)))
  · intro file ts n n' n'' vs s w h hact
    obtain _ | ⟨h₁, _ | ⟨h₂, _ | ⟨h₃, _ | _⟩⟩⟩ := h
    exact .r (.right (.r (.act (.seq (.some h₁) (.seq h₂ (.seq (.some h₃) .none))) hact)))
  · intro file ts n n' n'' vs s w h hact
    obtain _ | ⟨h₁, _ | ⟨h₂, _ | ⟨h₃, _ | ⟨h₄, _ | _⟩⟩⟩⟩ := h
    exact .r (.right (.r (.act (.seq (.some h₁) (.seq h₂ (.skip (.some (.seq h₃ (.seq
      (.some h₄) .eps)))))) hact)))
  · intro file ts n n' n'' vs s w h hact
    obtain _ | ⟨h₁, _ | ⟨h₂, _ | ⟨h₃, _ | _⟩⟩⟩ := h
    exact .r (.right (.r (.act (.seq (.some h₁) (.seq h₂ (.skip (.some (.seq h₃
      (.skip .eps)))))) hact)))
  · intro file ts n n' n'' vs s w h hact
    obtain _ | ⟨h₁, _ | ⟨h₂, _ | _⟩⟩ := h
    exact .r (.right (.r (.act (.seq (.some h₁) (.seq h₂ (.skip .none))) hact)))
  · intro file ts n n' n'' vs s w h hact
    obtain _ | ⟨h₁, _ | ⟨h₂, _ | ⟨h₃, _ | ⟨h₄, _ | _⟩⟩⟩⟩ := h
    exact .r (.right (.r (.act (.skip (.seq h₁ (.seq (.some h₂) (.some (.seq h₃ (.seq
      (.some h₄) .eps)))))) hact)))
  · intro file ts n n' n'' vs s w h hact
    obtain _ | ⟨h₁, _ | ⟨h₂, _ | ⟨h₃, _ | _⟩⟩⟩ := h
    exact .r (.right (.r (.act (.skip (.seq h₁ (.seq (.some h₂) (.some (.seq h₃
      (.skip .eps)))))) hact)))
  · intro file ts n n' n'' vs s w h hact
    obtain _ | ⟨h₁, _ | ⟨h₂, _ | _⟩⟩ := h
    exact .r (.right (.r (.act (.skip (.seq h₁ (.seq (.some h₂) .none))) hact)))
  · intro file ts n n' n'' vs s w h hact
    obtain _ | ⟨h₁, _ | ⟨h₂, _ | ⟨h₃, _ | _⟩⟩⟩ := h
    exact .r (.right (.r (.act (.skip (.seq h₁ (.skip (.some (.seq h₂ (.seq
      (.some h₃) .eps)))))) hact)))
  · intro file ts n n' n'' vs s w h hact
    obtain _ | ⟨h₁, _ | ⟨h₂, _ | _⟩⟩ := h
    exact .r (.right (.r (.act (.skip (.seq h₁ (.skip (.some (.seq h₂ (.skip .eps)))))) hact)))
  · intro file ts n n' n'' vs s w h hact
    obtain _ | ⟨h₁, _ | _⟩ := h
    exact .r (.right (.r (.act (.skip (.seq h₁ (.skip .none))) hact)))

section Atoms

variable {file : String} {ts : List Token} {n n' : Notes} {e : Expr} {s : Option Span}

theorem atom_of_listDisplay (h : Yields file listDisplay ts n e s n') :
    Yields file (.r (.expr .atom)) ts n e s n' := by
  apply Yields.r
  exact .right (.right (.right (.right (.right (.left h)))))

theorem atom_of_listComprehension (h : Yields file listComprehension ts n e s n') :
    Yields file (.r (.expr .atom)) ts n e s n' := by
  apply Yields.r
  exact .right (.right (.right (.right (.right (.right (.left h))))))

theorem atom_of_dictDisplay (h : Yields file dictDisplay ts n e s n') :
    Yields file (.r (.expr .atom)) ts n e s n' := by
  apply Yields.r
  exact .right (.right (.right (.right (.right (.right (.right (.left h)))))))

theorem atom_of_dictComprehension (h : Yields file dictComprehension ts n e s n') :
    Yields file (.r (.expr .atom)) ts n e s n' := by
  apply Yields.r
  exact .right (.right (.right (.right (.right (.right (.right (.right h)))))))

end Atoms

theorem atom_sound : ∀ p ∈ (Nonterminal.expr .atom).rules, Sound p := by
  simp only [Nonterminal.rules, List.forall_mem_cons]
  refine ⟨?_, ?_, ?_, ?_, ?_, ?_, ?_, ?_, ?_, ?_, ?_, ?_, ?_, ?_, ?_, ?_, ?_, ?_, ?_, ?_, ?_, ?_,
    List.forall_mem_nil _⟩
  · intro file ts n n' n'' vs s w h hact
    obtain _ | ⟨h₁, _ | _⟩ := h
    exact .r (.left (.act h₁.trim hact))
  · intro file ts n n' n'' vs s w h hact
    obtain _ | ⟨h₁, _ | _⟩ := h
    exact .r (.right (.left (.r (.act (.left h₁.trim) hact))))
  · intro file ts n n' n'' vs s w h hact
    obtain _ | ⟨h₁, _ | _⟩ := h
    exact .r (.right (.left (.r (.act (.right (.left h₁.trim)) hact))))
  · intro file ts n n' n'' vs s w h hact
    obtain _ | ⟨h₁, _ | _⟩ := h
    exact .r (.right (.left (.r (.act (.right (.right h₁.trim)) hact))))
  · intro file ts n n' n'' vs s w h hact
    obtain _ | ⟨h₁, _ | _⟩ := h
    exact .r (.right (.right (.left (.r (.act (.left h₁.trim) hact)))))
  · intro file ts n n' n'' vs s w h hact
    obtain _ | ⟨h₁, _ | _⟩ := h
    exact .r (.right (.right (.left (.r (.act (.right h₁.trim) hact)))))
  · intro file ts n n' n'' vs s w h hact
    obtain _ | ⟨h₁, _ | ⟨h₂, _ | _⟩⟩ := h
    have hs := Yields.seq h₁ (.seq h₂ .eps)
    exact .r (.right (.right (.right (.left (.act hs hact)))))
  · intro file ts n n' n'' vs s w h hact
    obtain _ | ⟨h₁, _ | ⟨h₂, _ | ⟨h₃, _ | _⟩⟩⟩ := h
    have hs := Yields.seq h₁ (.seq h₂ (.seq h₃ .eps))
    exact .r (.right (.right (.right (.right (.left (.act hs hact))))))
  · intro file ts n n' n'' vs s w h hact
    obtain _ | ⟨h₁, _ | ⟨h₂, _ | _⟩⟩ := h
    exact atom_of_listDisplay (.act (.seq h₁ (.absent .commasNone (.seq h₂ .eps))) hact)
  · intro file ts n n' n'' vs s w h hact
    obtain _ | ⟨h₁, _ | ⟨h₂, _ | ⟨h₃, _ | _⟩⟩⟩ := h
    have hs := Yields.seq h₁ (.seq (.commasOne h₂) (.seq h₃ .eps))
    exact atom_of_listDisplay (.act (hs.cast (by simp) (by simp)) hact)
  · intro file ts n n' n'' vs s w h hact
    obtain _ | ⟨h₁, _ | ⟨h₂, _ | ⟨h₃, _ | ⟨h₄, _ | _⟩⟩⟩⟩ := h
    have hs := Yields.seq h₁ (.seq (.commasOneComma h₂ h₃) (.seq h₄ .eps))
    exact atom_of_listDisplay (.act (hs.cast (by simp) (by simp)) hact)
  · intro file ts n n' n'' vs s w h hact
    obtain _ | ⟨h₁, _ | ⟨h₂, _ | ⟨h₃, _ | ⟨h₄, _ | _⟩⟩⟩⟩ := h
    have hs := Yields.seq h₁ (.seq (.commasMany h₂ h₃) (.seq h₄ .eps))
    exact atom_of_listDisplay (.act (hs.cast (by simp) (by simp)) hact)
  · intro file ts n n' n'' vs s w h hact
    obtain _ | ⟨h₁, _ | ⟨h₂, _ | ⟨h₃, _ | ⟨h₄, _ | ⟨h₅, _ | _⟩⟩⟩⟩⟩ := h
    have hs := Yields.seq h₁ (.seq (.commasManyComma h₂ h₃ h₄) (.seq h₅ .eps))
    exact atom_of_listDisplay (.act (hs.cast (by simp) (by simp)) hact)
  · intro file ts n n' n'' vs s w h hact
    obtain _ | ⟨h₁, _ | ⟨h₂, _ | ⟨h₃, _ | ⟨h₄, _ | _⟩⟩⟩⟩ := h
    exact atom_of_listComprehension (.act (.seq h₁ (.seq h₂ (.seq h₃ (.empty
      (.seq h₄ .eps))))) hact)
  · intro file ts n n' n'' vs s w h hact
    obtain _ | ⟨h₁, _ | ⟨h₂, _ | ⟨h₃, _ | ⟨h₄, _ | ⟨h₅, _ | _⟩⟩⟩⟩⟩ := h
    have hs := Yields.seq h₁ (.seq h₂ (.seq h₃ (.seq (.plus h₄) (.seq h₅ .eps))))
    exact atom_of_listComprehension (.act hs hact)
  · intro file ts n n' n'' vs s w h hact
    obtain _ | ⟨h₁, _ | ⟨h₂, _ | _⟩⟩ := h
    exact atom_of_dictDisplay (.act (.seq h₁ (.absent .commasNone (.seq h₂ .eps))) hact)
  · intro file ts n n' n'' vs s w h hact
    obtain _ | ⟨h₁, _ | ⟨h₂, _ | ⟨h₃, _ | _⟩⟩⟩ := h
    have hs := Yields.seq h₁ (.seq (.commasOne h₂) (.seq h₃ .eps))
    exact atom_of_dictDisplay (.act (hs.cast (by simp) (by simp)) hact)
  · intro file ts n n' n'' vs s w h hact
    obtain _ | ⟨h₁, _ | ⟨h₂, _ | ⟨h₃, _ | ⟨h₄, _ | _⟩⟩⟩⟩ := h
    have hs := Yields.seq h₁ (.seq (.commasOneComma h₂ h₃) (.seq h₄ .eps))
    exact atom_of_dictDisplay (.act (hs.cast (by simp) (by simp)) hact)
  · intro file ts n n' n'' vs s w h hact
    obtain _ | ⟨h₁, _ | ⟨h₂, _ | ⟨h₃, _ | ⟨h₄, _ | _⟩⟩⟩⟩ := h
    have hs := Yields.seq h₁ (.seq (.commasMany h₂ h₃) (.seq h₄ .eps))
    exact atom_of_dictDisplay (.act (hs.cast (by simp) (by simp)) hact)
  · intro file ts n n' n'' vs s w h hact
    obtain _ | ⟨h₁, _ | ⟨h₂, _ | ⟨h₃, _ | ⟨h₄, _ | ⟨h₅, _ | _⟩⟩⟩⟩⟩ := h
    have hs := Yields.seq h₁ (.seq (.commasManyComma h₂ h₃ h₄) (.seq h₅ .eps))
    exact atom_of_dictDisplay (.act (hs.cast (by simp) (by simp)) hact)
  · intro file ts n n' n'' vs s w h hact
    obtain _ | ⟨h₁, _ | ⟨h₂, _ | ⟨h₃, _ | ⟨h₄, _ | _⟩⟩⟩⟩ := h
    exact atom_of_dictComprehension (.act (.seq h₁ (.seq h₂ (.seq h₃ (.empty
      (.seq h₄ .eps))))) hact)
  · intro file ts n n' n'' vs s w h hact
    obtain _ | ⟨h₁, _ | ⟨h₂, _ | ⟨h₃, _ | ⟨h₄, _ | ⟨h₅, _ | _⟩⟩⟩⟩⟩ := h
    have hs := Yields.seq h₁ (.seq h₂ (.seq h₃ (.seq (.plus h₄) (.seq h₅ .eps))))
    exact atom_of_dictComprehension (.act hs hact)

theorem entry_sound : ∀ p ∈ Nonterminal.entry.rules, Sound p := by
  simp only [Nonterminal.rules, List.forall_mem_cons]
  refine ⟨?_, List.forall_mem_nil _⟩
  · intro file ts n n' n'' vs s w h hact
    obtain _ | ⟨h₁, _ | ⟨h₂, _ | ⟨h₃, _ | _⟩⟩⟩ := h
    have hs := Yields.seq h₁ (.seq h₂ (.seq h₃ .eps))
    exact .r (.act hs hact)

theorem entryRest_sound : ∀ p ∈ Nonterminal.entryRest.rules, Sound p := by
  simp only [Nonterminal.rules, List.forall_mem_cons]
  refine ⟨?_, ?_, List.forall_mem_nil _⟩
  · intro file ts n n' n'' vs s w h hact
    obtain _ | ⟨h₁, _ | ⟨h₂, _ | _⟩⟩ := h
    cases hact
    exact .afterOne h₁ h₂
  · intro file ts n n' n'' vs s w h hact
    obtain _ | ⟨h₁, _ | ⟨h₂, _ | ⟨h₃, _ | _⟩⟩⟩ := h
    cases hact
    exact .afterMore h₁ h₂ h₃

theorem clauses_sound : ∀ p ∈ Nonterminal.clauses.rules, Sound p := by
  simp only [Nonterminal.rules, List.forall_mem_cons]
  refine ⟨?_, ?_, List.forall_mem_nil _⟩
  · intro file ts n n' n'' vs s w h hact
    obtain _ | ⟨h₁, _ | _⟩ := h
    cases hact
    exact .one h₁.trim
  · intro file ts n n' n'' vs s w h hact
    obtain _ | ⟨h₁, _ | ⟨h₂, _ | _⟩⟩ := h
    cases hact
    exact .more h₁ h₂.trim

theorem clause_sound : ∀ p ∈ Nonterminal.clause.rules, Sound p := by
  simp only [Nonterminal.rules, List.forall_mem_cons]
  refine ⟨?_, ?_, List.forall_mem_nil _⟩
  · intro file ts n n' n'' vs s w h hact
    obtain _ | ⟨h₁, _ | _⟩ := h
    cases hact
    exact .r (.left h₁.trim)
  · intro file ts n n' n'' vs s w h hact
    obtain _ | ⟨h₁, _ | ⟨h₂, _ | _⟩⟩ := h
    have hs := Yields.seq h₁ (.seq h₂ .eps)
    exact .r (.right (.r (.act hs hact)))

theorem compFor_sound : ∀ p ∈ Nonterminal.compFor.rules, Sound p := by
  simp only [Nonterminal.rules, List.forall_mem_cons]
  refine ⟨?_, List.forall_mem_nil _⟩
  · intro file ts n n' n'' vs s w h hact
    obtain _ | ⟨h₁, _ | ⟨h₂, _ | ⟨h₃, _ | ⟨h₄, _ | _⟩⟩⟩⟩ := h
    have hs := Yields.seq h₁ (.seq h₂ (.seq h₃ (.seq h₄ .eps)))
    exact .r (.act hs hact)

end Starlark.Reference
