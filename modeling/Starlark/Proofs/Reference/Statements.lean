import Starlark.Proofs.Reference.Stands

/-! # The statements that a tree builds

One theorem for each nonterminal of files and statements, one case for each of its rules.
-/
namespace Starlark.Reference

section Alternatives

variable {file : String} {ts : List Token} {n n' : Notes} {v : Stmt} {s : Option Span}

theorem statement_of_if (h : Yields file (.r .ifStmt) ts n v s n') :
    Yields file (.r .stmt) ts n [v] s n' := by
  apply Yields.r
  exact .right (.map (.r (.left h)))

theorem statement_of_for (h : Yields file (.r .forStmt) ts n v s n') :
    Yields file (.r .stmt) ts n [v] s n' := by
  apply Yields.r
  exact .right (.map (.r (.right (.left h))))

theorem statement_of_def (h : Yields file (.r .funcdef) ts n v s n') :
    Yields file (.r .stmt) ts n [v] s n' := by
  apply Yields.r
  exact .right (.map (.r (.right (.right h))))

theorem small_of_return (h : Yields file (.r .returnStmt) ts n v s n') :
    Yields file (.r .smallStmt) ts n v s n' := by
  apply Yields.r
  exact .right (.right (.right (.left h)))

theorem small_of_load (h : Yields file (.r .loadStmt) ts n v s n') :
    Yields file (.r .smallStmt) ts n v s n' := by
  apply Yields.r
  exact .right (.right (.right (.right (.right (.right (.right h))))))

end Alternatives

theorem file_sound : ∀ p ∈ Nonterminal.file.rules, Sound p := by
  simp only [Nonterminal.rules, List.forall_mem_cons]
  refine ⟨?_, ?_, List.forall_mem_nil _⟩
  · intro file ts n n' n'' vs s w h hact
    obtain _ | _ := h
    cases hact
    exact .r (.map .nil)
  · intro file ts n n' n'' vs s w h hact
    obtain _ | ⟨⟨vss, h₁, rfl⟩, _ | _⟩ := h
    cases hact
    exact .r (.map (.plus h₁.trim))

theorem items_sound : ∀ p ∈ Nonterminal.items.rules, Sound p := by
  simp only [Nonterminal.rules, List.forall_mem_cons]
  refine ⟨?_, ?_, ?_, ?_, List.forall_mem_nil _⟩
  · intro file ts n n' n'' vs s w h hact
    obtain _ | ⟨h₁, _ | _⟩ := h
    cases hact
    exact ⟨_, .one (.left (.map h₁.trim)), rfl⟩
  · intro file ts n n' n'' vs s w h hact
    obtain _ | ⟨h₁, _ | _⟩ := h
    cases hact
    exact ⟨_, .one (.right h₁.trim), (List.flatten_singleton ..).symm⟩
  · intro file ts n n' n'' vs s w h hact
    obtain _ | ⟨⟨vss, h₁, rfl⟩, _ | ⟨h₂, _ | _⟩⟩ := h
    cases hact
    exact ⟨_, .more h₁ (.left (.map h₂.trim)), by simp⟩
  · intro file ts n n' n'' vs s w h hact
    obtain _ | ⟨⟨vss, h₁, rfl⟩, _ | ⟨h₂, _ | _⟩⟩ := h
    cases hact
    exact ⟨_, .more h₁ (.right h₂.trim), by simp⟩

theorem statement_sound : ∀ p ∈ Nonterminal.statement.rules, Sound p := by
  simp only [Nonterminal.rules, List.forall_mem_cons]
  refine ⟨?_, ?_, ?_, ?_, ?_, ?_, ?_, ?_, List.forall_mem_nil _⟩
  · intro file ts n n' n'' vs s w h hact
    obtain _ | ⟨h₁, _ | _⟩ := h
    cases hact
    exact .r (.left h₁.trim)
  · intro file ts n n' n'' vs s w h hact
    obtain _ | ⟨h₁, _ | ⟨h₂, _ | ⟨h₃, _ | ⟨h₄, _ | ⟨h₅, _ | ⟨h₆, _ | _⟩⟩⟩⟩⟩⟩ := h
    cases hact
    have hs := Yields.seq h₁ (.seq h₂ (.seq h₃ (.seq h₄ (.seq (.plus h₅) (.seq (.some h₆) .eps)))))
    exact statement_of_if (.r (.build hs))
  · intro file ts n n' n'' vs s w h hact
    obtain _ | ⟨h₁, _ | ⟨h₂, _ | ⟨h₃, _ | ⟨h₄, _ | ⟨h₅, _ | _⟩⟩⟩⟩⟩ := h
    cases hact
    exact statement_of_if (.r (.build (.seq h₁ (.seq h₂ (.seq h₃ (.seq h₄ (.seq (.plus h₅)
      (.skip .eps))))))))
  · intro file ts n n' n'' vs s w h hact
    obtain _ | ⟨h₁, _ | ⟨h₂, _ | ⟨h₃, _ | ⟨h₄, _ | ⟨h₅, _ | _⟩⟩⟩⟩⟩ := h
    cases hact
    exact statement_of_if (.r (.build (.seq h₁ (.seq h₂ (.seq h₃ (.seq h₄ (.empty (.seq
      (.some h₅) .eps))))))))
  · intro file ts n n' n'' vs s w h hact
    obtain _ | ⟨h₁, _ | ⟨h₂, _ | ⟨h₃, _ | ⟨h₄, _ | _⟩⟩⟩⟩ := h
    cases hact
    exact statement_of_if (.r (.build (.seq h₁ (.seq h₂ (.seq h₃ (.seq h₄ (.empty
      (.skip .eps))))))))
  · intro file ts n n' n'' vs s w h hact
    obtain _ | ⟨h₁, _ | ⟨h₂, _ | ⟨h₃, _ | ⟨h₄, _ | ⟨h₅, _ | ⟨h₆, _ | _⟩⟩⟩⟩⟩⟩ := h
    cases hact
    have hs := Yields.seq h₁ (.seq h₂ (.seq h₃ (.seq h₄ (.seq h₅ (.seq h₆ .eps)))))
    exact statement_of_for (.r (.build hs))
  · intro file ts n n' n'' vs s w h hact
    obtain _ | ⟨h₁, _ | ⟨h₂, _ | ⟨h₃, _ | ⟨h₄, _ | ⟨h₅, _ | ⟨h₆, _ | _⟩⟩⟩⟩⟩⟩ := h
    cases hact
    exact statement_of_def (.r (.act (.seq h₁ (.seq h₂ (.seq h₃ (.absent (.r .commasNone)
      (.seq h₄ (.seq h₅ (.seq h₆ .eps))))))) rfl))
  · intro file ts n n' n'' vs s w h hact
    obtain _ | ⟨h₁, _ | ⟨h₂, _ | ⟨h₃, _ | ⟨h₄, _ | ⟨h₅, _ | ⟨h₆, _ | ⟨h₇, _ | _⟩⟩⟩⟩⟩⟩⟩ := h
    cases hact
    have hs := Yields.seq h₁ (.seq h₂ (.seq h₃ (.seq h₄ (.seq h₅ (.seq h₆ (.seq h₇ .eps))))))
    exact statement_of_def (.r (.act hs rfl))

theorem line_sound : ∀ p ∈ Nonterminal.line.rules, Sound p := by
  simp only [Nonterminal.rules, List.forall_mem_cons]
  refine ⟨?_, ?_, ?_, ?_, List.forall_mem_nil _⟩
  · intro file ts n n' n'' vs s w h hact
    obtain _ | ⟨h₁, _ | ⟨h₂, _ | ⟨h₃, _ | ⟨h₄, _ | _⟩⟩⟩⟩ := h
    have hs := Yields.seq h₁ (.seq (.plus h₂) (.seq (.some h₃) (.seq h₄ .eps)))
    exact .r (.act hs hact)
  · intro file ts n n' n'' vs s w h hact
    obtain _ | ⟨h₁, _ | ⟨h₂, _ | ⟨h₃, _ | _⟩⟩⟩ := h
    exact .r (.act (.seq h₁ (.seq (.plus h₂) (.skip (.seq h₃ .eps)))) hact)
  · intro file ts n n' n'' vs s w h hact
    obtain _ | ⟨h₁, _ | ⟨h₂, _ | ⟨h₃, _ | _⟩⟩⟩ := h
    exact .r (.act (.seq h₁ (.empty (.seq (.some h₂) (.seq h₃ .eps)))) hact)
  · intro file ts n n' n'' vs s w h hact
    obtain _ | ⟨h₁, _ | ⟨h₂, _ | _⟩⟩ := h
    exact .r (.act (.seq h₁ (.empty (.skip (.seq h₂ .eps)))) hact)

theorem smalls_sound : ∀ p ∈ Nonterminal.smalls.rules, Sound p := by
  simp only [Nonterminal.rules, List.forall_mem_cons]
  refine ⟨?_, ?_, List.forall_mem_nil _⟩
  · intro file ts n n' n'' vs s w h hact
    obtain _ | ⟨h₁, _ | ⟨h₂, _ | _⟩⟩ := h
    cases hact
    exact .afterOne h₁ h₂
  · intro file ts n n' n'' vs s w h hact
    obtain _ | ⟨h₁, _ | ⟨h₂, _ | ⟨h₃, _ | _⟩⟩⟩ := h
    cases hact
    exact .afterMore h₁ h₂ h₃

theorem small_sound : ∀ p ∈ Nonterminal.small.rules, Sound p := by
  simp only [Nonterminal.rules, List.forall_mem_cons]
  refine ⟨?_, ?_, ?_, ?_, ?_, ?_, ?_, ?_, ?_, ?_, ?_, ?_, List.forall_mem_nil _⟩
  · intro file ts n n' n'' vs s w h hact
    obtain _ | ⟨h₁, _ | _⟩ := h
    exact .r (.left (.r (.act h₁.trim hact)))
  · intro file ts n n' n'' vs s w h hact
    obtain _ | ⟨h₁, _ | ⟨h₂, _ | ⟨h₃, _ | _⟩⟩⟩ := h
    have hs := Yields.seq h₁ (.seq h₂ (.seq h₃ .eps))
    exact .r (.right (.left (.r (.act hs hact))))
  · intro file ts n n' n'' vs s w h hact
    obtain _ | ⟨h₁, _ | ⟨h₂, _ | ⟨h₃, _ | _⟩⟩⟩ := h
    have hs := Yields.seq h₁ (.seq h₂ (.seq h₃ .eps))
    exact .r (.right (.right (.left (.r (.act hs hact)))))
  · intro file ts n n' n'' vs s w h hact
    obtain _ | ⟨h₁, _ | ⟨h₂, _ | _⟩⟩ := h
    have hs := Yields.seq h₁ (.seq (.some h₂) .eps)
    exact small_of_return (.r (.act hs hact))
  · intro file ts n n' n'' vs s w h hact
    obtain _ | ⟨h₁, _ | _⟩ := h
    exact small_of_return (.r (.act (.seq h₁ (.skip .eps)) hact))
  · intro file ts n n' n'' vs s w h hact
    obtain _ | ⟨h₁, _ | _⟩ := h
    exact .r (.right (.right (.right (.right (.left (.r (.act h₁.trim hact)))))))
  · intro file ts n n' n'' vs s w h hact
    obtain _ | ⟨h₁, _ | _⟩ := h
    exact .r (.right (.right (.right (.right (.right (.left (.r (.act h₁.trim hact))))))))
  · intro file ts n n' n'' vs s w h hact
    obtain _ | ⟨h₁, _ | _⟩ := h
    exact .r (.right (.right (.right (.right (.right (.right (.left (.r (.act h₁.trim hact)))))))))
  · intro file ts n n' n'' vs s w h hact
    obtain _ | ⟨h₁, _ | ⟨h₂, _ | ⟨h₃, _ | ⟨h₄, _ | ⟨h₅, _ | ⟨h₆, _ | _⟩⟩⟩⟩⟩⟩ := h
    have hs := Yields.seq h₁ (.seq h₂ (.seq h₃ (.seq (.plus h₄) (.seq (.some h₅) (.seq h₆ .eps)))))
    exact small_of_load (.r (.act hs hact))
  · intro file ts n n' n'' vs s w h hact
    obtain _ | ⟨h₁, _ | ⟨h₂, _ | ⟨h₃, _ | ⟨h₄, _ | ⟨h₅, _ | _⟩⟩⟩⟩⟩ := h
    exact small_of_load (.r (.act (.seq h₁ (.seq h₂ (.seq h₃ (.seq (.plus h₄) (.skip
      (.seq h₅ .eps)))))) hact))
  · intro file ts n n' n'' vs s w h hact
    obtain _ | ⟨h₁, _ | ⟨h₂, _ | ⟨h₃, _ | ⟨h₄, _ | ⟨h₅, _ | _⟩⟩⟩⟩⟩ := h
    exact small_of_load (.r (.act (.seq h₁ (.seq h₂ (.seq h₃ (.empty (.seq (.some h₄)
      (.seq h₅ .eps)))))) hact))
  · intro file ts n n' n'' vs s w h hact
    obtain _ | ⟨h₁, _ | ⟨h₂, _ | ⟨h₃, _ | ⟨h₄, _ | _⟩⟩⟩⟩ := h
    exact small_of_load (.r (.act (.seq h₁ (.seq h₂ (.seq h₃ (.empty (.skip
      (.seq h₄ .eps)))))) hact))

theorem suite_sound : ∀ p ∈ Nonterminal.suite.rules, Sound p := by
  simp only [Nonterminal.rules, List.forall_mem_cons]
  refine ⟨?_, ?_, List.forall_mem_nil _⟩
  · intro file ts n n' n'' vs s w h hact
    obtain _ | ⟨h₁, _ | _⟩ := h
    cases hact
    exact .r (.left h₁.trim)
  · intro file ts n n' n'' vs s w h hact
    obtain _ | ⟨h₁, _ | ⟨h₂, _ | ⟨⟨vss, h₃, rfl⟩, _ | ⟨h₄, _ | _⟩⟩⟩⟩ := h
    cases hact
    exact .r (.right (.map (.seq h₁ (.seq h₂ (.seq h₃ (.seq h₄ .eps))))))

theorem block_sound : ∀ p ∈ Nonterminal.block.rules, Sound p := by
  simp only [Nonterminal.rules, List.forall_mem_cons]
  refine ⟨?_, ?_, List.forall_mem_nil _⟩
  · intro file ts n n' n'' vs s w h hact
    obtain _ | ⟨h₁, _ | _⟩ := h
    cases hact
    exact ⟨_, .one h₁.trim, (List.flatten_singleton ..).symm⟩
  · intro file ts n n' n'' vs s w h hact
    obtain _ | ⟨⟨vss, h₁, rfl⟩, _ | ⟨h₂, _ | _⟩⟩ := h
    cases hact
    exact ⟨_, .more h₁ h₂.trim, by simp⟩

theorem augmentedOp_sound : ∀ p ∈ Nonterminal.augmentedOp.rules, Sound p := by
  simp only [Nonterminal.rules, List.forall_mem_cons]
  refine ⟨?_, ?_, ?_, ?_, ?_, ?_, ?_, ?_, ?_, ?_, ?_, List.forall_mem_nil _⟩
  all_goals
    intro file ts n n' n'' vs s w h hact
    obtain _ | ⟨h₁, _ | _⟩ := h
    cases hact
    exact .r (.sign _ _ (by decide) h₁.trim)

theorem loadArgs_sound : ∀ p ∈ Nonterminal.loadArgs.rules, Sound p := by
  simp only [Nonterminal.rules, List.forall_mem_cons]
  refine ⟨?_, ?_, List.forall_mem_nil _⟩
  · intro file ts n n' n'' vs s w h hact
    obtain _ | ⟨h₁, _ | ⟨h₂, _ | _⟩⟩ := h
    cases hact
    exact .afterOne h₁ h₂
  · intro file ts n n' n'' vs s w h hact
    obtain _ | ⟨h₁, _ | ⟨h₂, _ | ⟨h₃, _ | _⟩⟩⟩ := h
    cases hact
    exact .afterMore h₁ h₂ h₃

theorem loadArg_sound : ∀ p ∈ Nonterminal.loadArg.rules, Sound p := by
  simp only [Nonterminal.rules, List.forall_mem_cons]
  refine ⟨?_, ?_, List.forall_mem_nil _⟩
  · intro file ts n n' n'' vs s w h hact
    obtain _ | ⟨h₁, _ | _⟩ := h
    exact .r (.left (.act h₁.trim hact))
  · intro file ts n n' n'' vs s w h hact
    obtain _ | ⟨h₁, _ | ⟨h₂, _ | ⟨h₃, _ | _⟩⟩⟩ := h
    have hs := Yields.seq h₁ (.seq h₂ (.seq h₃ .eps))
    exact .r (.right (.act hs hact))

theorem stringToken_sound : ∀ p ∈ Nonterminal.stringToken.rules, Sound p := by
  simp only [Nonterminal.rules, List.forall_mem_cons]
  refine ⟨?_, ?_, List.forall_mem_nil _⟩
  · intro file ts n n' n'' vs s w h hact
    obtain _ | ⟨h₁, _ | _⟩ := h
    cases hact
    exact .r (.left h₁.trim)
  · intro file ts n n' n'' vs s w h hact
    obtain _ | ⟨h₁, _ | _⟩ := h
    cases hact
    exact .r (.right h₁.trim)

theorem elifs_sound : ∀ p ∈ Nonterminal.elifs.rules, Sound p := by
  simp only [Nonterminal.rules, List.forall_mem_cons]
  refine ⟨?_, ?_, List.forall_mem_nil _⟩
  · intro file ts n n' n'' vs s w h hact
    obtain _ | ⟨h₁, _ | _⟩ := h
    cases hact
    exact .one h₁.trim
  · intro file ts n n' n'' vs s w h hact
    obtain _ | ⟨h₁, _ | ⟨h₂, _ | _⟩⟩ := h
    cases hact
    exact .more h₁ h₂.trim

theorem elifClause_sound : ∀ p ∈ Nonterminal.elifClause.rules, Sound p := by
  simp only [Nonterminal.rules, List.forall_mem_cons]
  refine ⟨?_, List.forall_mem_nil _⟩
  · intro file ts n n' n'' vs s w h hact
    obtain _ | ⟨h₁, _ | ⟨h₂, _ | ⟨h₃, _ | ⟨h₄, _ | _⟩⟩⟩⟩ := h
    have hs := Yields.seq h₁ (.seq h₂ (.seq h₃ (.seq h₄ .eps)))
    exact .r (.act hs hact)

theorem elseClause_sound : ∀ p ∈ Nonterminal.elseClause.rules, Sound p := by
  simp only [Nonterminal.rules, List.forall_mem_cons]
  refine ⟨?_, List.forall_mem_nil _⟩
  · intro file ts n n' n'' vs s w h hact
    obtain _ | ⟨h₁, _ | ⟨h₂, _ | ⟨h₃, _ | _⟩⟩⟩ := h
    have hs := Yields.seq h₁ (.seq h₂ (.seq h₃ .eps))
    exact .r (.act hs hact)

theorem parameters_sound : ∀ p ∈ Nonterminal.parameters.rules, Sound p := by
  simp only [Nonterminal.rules, List.forall_mem_cons]
  refine ⟨?_, ?_, ?_, ?_, List.forall_mem_nil _⟩
  · intro file ts n n' n'' vs s w h hact
    obtain _ | ⟨h₁, _ | ⟨h₂, _ | ⟨h₃, _ | _⟩⟩⟩ := h
    cases hact
    exact .r (.commasManyComma h₁ h₂ h₃)
  · intro file ts n n' n'' vs s w h hact
    obtain _ | ⟨h₁, _ | ⟨h₂, _ | _⟩⟩ := h
    cases hact
    exact .r (.commasMany h₁ h₂)
  · intro file ts n n' n'' vs s w h hact
    obtain _ | ⟨h₁, _ | ⟨h₂, _ | _⟩⟩ := h
    cases hact
    exact .r (.commasOneComma h₁ h₂)
  · intro file ts n n' n'' vs s w h hact
    obtain _ | ⟨h₁, _ | _⟩ := h
    cases hact
    exact .r (.commasOne h₁)

theorem parameterRest_sound : ∀ p ∈ Nonterminal.parameterRest.rules, Sound p := by
  simp only [Nonterminal.rules, List.forall_mem_cons]
  refine ⟨?_, ?_, List.forall_mem_nil _⟩
  · intro file ts n n' n'' vs s w h hact
    obtain _ | ⟨h₁, _ | ⟨h₂, _ | _⟩⟩ := h
    cases hact
    exact .afterOne h₁ h₂
  · intro file ts n n' n'' vs s w h hact
    obtain _ | ⟨h₁, _ | ⟨h₂, _ | ⟨h₃, _ | _⟩⟩⟩ := h
    cases hact
    exact .afterMore h₁ h₂ h₃

theorem parameter_sound : ∀ p ∈ Nonterminal.parameter.rules, Sound p := by
  simp only [Nonterminal.rules, List.forall_mem_cons]
  refine ⟨?_, ?_, ?_, ?_, ?_, List.forall_mem_nil _⟩
  · intro file ts n n' n'' vs s w h hact
    obtain _ | ⟨h₁, _ | _⟩ := h
    exact .r (.left (.act h₁.trim hact))
  · intro file ts n n' n'' vs s w h hact
    obtain _ | ⟨h₁, _ | ⟨h₂, _ | ⟨h₃, _ | _⟩⟩⟩ := h
    have hs := Yields.seq h₁ (.seq h₂ (.seq h₃ .eps))
    exact .r (.right (.left (.act hs hact)))
  · intro file ts n n' n'' vs s w h hact
    obtain _ | ⟨h₁, _ | ⟨h₂, _ | _⟩⟩ := h
    have hs := Yields.seq h₁ (.seq (.some h₂) .eps)
    exact .r (.right (.right (.left (.act hs hact))))
  · intro file ts n n' n'' vs s w h hact
    obtain _ | ⟨h₁, _ | _⟩ := h
    exact .r (.right (.right (.left (.act (.seq h₁ (.skip .eps)) hact))))
  · intro file ts n n' n'' vs s w h hact
    obtain _ | ⟨h₁, _ | ⟨h₂, _ | _⟩⟩ := h
    have hs := Yields.seq h₁ (.seq h₂ .eps)
    exact .r (.right (.right (.right (.act hs hact))))

end Starlark.Reference
