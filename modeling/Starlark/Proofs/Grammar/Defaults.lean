import Starlark.Proofs.Grammar.Located

/-! # The parameters of a parsed file

In a parsed file only an optional parameter has a default value, in every function at any depth.
-/
namespace Starlark

/-- Only an optional parameter may have a default value. -/
def Parameter.Proper (p : Parameter) : Prop := p.kind = .optional ∨ p.default = none

mutual

/-- Are the parameters of all functions in a statement proper? -/
def Stmt.Proper : Stmt → Prop
  | .define _ ps b _ => (∀ p ∈ ps, p.Proper) ∧ Stmt.ProperAll b
  | .ifElse _ a b _ => Stmt.ProperAll a ∧ Stmt.ProperAll b
  | .forLoop _ _ b _ => Stmt.ProperAll b
  | .expr _ _ => True
  | .assign _ _ _ => True
  | .augmentedAssign _ _ _ _ => True
  | .returns _ _ => True
  | .flow _ _ => True
  | .load _ _ _ => True

def Stmt.ProperAll : List Stmt → Prop
  | [] => True
  | s :: ss => s.Proper ∧ Stmt.ProperAll ss

end

namespace Stmt

theorem properAll_append (ss ts : List Stmt) :
    ProperAll (ss ++ ts) ↔ ProperAll ss ∧ ProperAll ts := by
  induction ss with
  | nil => simp [ProperAll]
  | cons s ss ih => rw [List.cons_append, ProperAll, ProperAll, ih, and_assoc]

theorem properAll_elifChain (cs : List ElifClause) (b : List Stmt) :
    ProperAll (elifChain cs b) ↔ (∀ c ∈ cs, ProperAll c.block) ∧ ProperAll b := by
  induction cs with
  | nil => simp [elifChain]
  | cons c cs ih =>
    rw [elifChain] at ih ⊢
    simp only [List.foldr_cons, ProperAll, Proper, ih, List.forall_mem_cons, and_true,
      and_assoc]

end Stmt

/-- Are the parameters of a meaning proper, and those of the functions in it? -/
def Nonterminal.Proper : (x : Nonterminal) → x.Meaning → Prop
  | .file => Stmt.ProperAll
  | .items => Stmt.ProperAll
  | .statement => Stmt.ProperAll
  | .line => Stmt.ProperAll
  | .smalls => Stmt.ProperAll
  | .suite => Stmt.ProperAll
  | .block => Stmt.ProperAll
  | .elseClause => Stmt.ProperAll
  | .small => Stmt.Proper
  | .elifs => fun cs => ∀ c ∈ cs, Stmt.ProperAll c.block
  | .elifClause => fun c => Stmt.ProperAll c.block
  | .parameters => fun ps => ∀ p ∈ ps, p.Proper
  | .parameterRest => fun ps => ∀ p ∈ ps, p.Proper
  | .parameter => Parameter.Proper
  | _ => fun _ => True

def Symbol.Proper : (s : Symbol) → s.Meaning → Prop
  | .t _ => fun _ => True
  | .n x => x.Proper

def Meanings.Proper : (ss : List Symbol) → Meanings ss → Prop
  | [] => fun _ => True
  | s :: ss => fun vs => s.Proper vs.1 ∧ Meanings.Proper ss vs.2

namespace Build

theorem load_proper (file : String) (loc : Option Location) (source : Token)
    (bs : List LoadBinding) : Returns (load file loc source bs) Stmt.Proper := by
  unfold load
  split
  · exact .bind (.trivial _) fun _ _ => .bind (.trivial _) fun _ _ => .pure True.intro
  · exact .bind (.trivial _) fun _ _ => .pure True.intro

/-- Every action makes proper parameters, and keeps those that it is given. -/
theorem action_proper (file : String) (span : Option Span) (p : Production) (vs : Meanings p.rhs)
    (h : Meanings.Proper p.rhs vs) : Returns (action file span p vs) p.lhs.Proper := by
  cases p
  case parameterOptional => exact .bind (.trivial _) fun _ _ => .pure (.inl rfl)
  case parameterMandatory | parameterStar | parameterStarStar =>
    exact .bind (.trivial _) fun _ _ => .pure (.inr rfl)
  case parameterBareStar => exact .pure (.inr rfl)
  case parametersManyComma | parametersMany =>
    exact .pure (List.forall_mem_cons.mpr ⟨h.1, h.2.1⟩)
  case parametersOneComma | parametersOne => exact .pure (List.forall_mem_singleton.mpr h.1)
  case parameterRestOne => exact .pure (List.forall_mem_singleton.mpr h.2.1)
  case parameterRestMore =>
    exact .pure (List.forall_mem_append.mpr ⟨h.1, List.forall_mem_singleton.mpr h.2.2.1⟩)
  case defNone =>
    have hnone : ∀ p ∈ ([] : List Parameter), p.Proper := List.forall_mem_nil _
    exact .bind (.trivial _) fun _ _ => .pure ⟨⟨hnone, h.2.2.2.2.2.1⟩, True.intro⟩
  case defSome =>
    exact .bind (.trivial _) fun _ _ => .pure ⟨⟨h.2.2.2.1, h.2.2.2.2.2.2.1⟩, True.intro⟩
  case ifElifElse =>
    have helse := (Stmt.properAll_elifChain _ _).mpr ⟨h.2.2.2.2.1, h.2.2.2.2.2.1⟩
    exact .pure ⟨⟨h.2.2.2.1, helse⟩, True.intro⟩
  case ifElif =>
    have helse := (Stmt.properAll_elifChain _ []).mpr ⟨h.2.2.2.2.1, True.intro⟩
    exact .pure ⟨⟨h.2.2.2.1, helse⟩, True.intro⟩
  case ifElse => exact .pure ⟨⟨h.2.2.2.1, h.2.2.2.2.1⟩, True.intro⟩
  case ifOnly => exact .pure ⟨⟨h.2.2.2.1, True.intro⟩, True.intro⟩
  case forLoop => exact .pure ⟨h.2.2.2.2.2.1, True.intro⟩
  case elifsOne => exact .pure (List.forall_mem_singleton.mpr h.1)
  case elifsMore =>
    exact .pure (List.forall_mem_append.mpr ⟨h.1, List.forall_mem_singleton.mpr h.2.1⟩)
  case elifClause => exact .pure h.2.2.2.1
  case fileEmpty | itemsBlank => exact .pure True.intro
  case fileItems | itemsStatement | itemsMoreBlank | statementLine | suiteLine | blockOne =>
    exact .pure h.1
  case suiteBlock | elseClause => exact .pure h.2.2.1
  case itemsMore | blockMore => exact .pure ((Stmt.properAll_append _ _).mpr ⟨h.1, h.2.1⟩)
  case lineManySemicolon | lineMany => exact .pure ⟨h.1, h.2.1⟩
  case lineOneSemicolon | lineOne => exact .pure ⟨h.1, True.intro⟩
  case smallsOne => exact .pure ⟨h.2.1, True.intro⟩
  case smallsMore =>
    exact .pure ((Stmt.properAll_append _ _).mpr ⟨h.1, h.2.2.1, True.intro⟩)
  case exprStatement | assign | augmentedAssign | returnValue | returnNone | passFlow | breakFlow
      | continueFlow =>
    exact .pure True.intro
  case loadSomeComma | loadSome => exact load_proper file _ _ vs.2.2.2.1
  case loadNoneComma | loadNone => exact load_proper file _ _ []
  -- The other meanings have no functions and no parameters.
  all_goals exact fun _ _ _ _ => True.intro

theorem keeps_proper (file : String) :
    Keeps file (fun _ => True) (fun s => s.Proper) Meanings.Proper where
  leaf _ _ := True.intro
  nil := True.intro
  cons hv hvs := ⟨hv, hvs⟩
  action := action_proper file

end Build

/-- The parameters in a parsed source are proper. -/
theorem parseStatements_proper {text file : String} {firstId : Nat} {ss : List Stmt}
    {notes : Notes} (h : parseStatements text file firstId = (.ok ss, notes)) :
    Stmt.ProperAll ss := by
  obtain ⟨tree, span, -, hbuild⟩ := tree_of_parseStatements h
  exact (Build.keeps_proper file).tree tree (fun _ _ => True.intro) _ _ _ hbuild

end Starlark
