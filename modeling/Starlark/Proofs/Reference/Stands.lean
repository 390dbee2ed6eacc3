import Starlark.Proofs.Grammar.Corners
import Starlark.Proofs.Reference.Derivation

/-! # The forms behind the nonterminals

Each nonterminal of the parser stands for a form of the reference grammar, and each of its rules
for one way to read that form: with its optional parts spelled out, and with its repetitions
collected from the left.
-/
namespace Starlark.Reference
open Form

/-- The values that the form behind a nonterminal yields. -/
@[reducible] def Stands (file : String) : (A : Nonterminal) → List Token → Notes → A.Meaning →
    Option Span → Notes → Prop
  | .file => Yields file (r .start)
  | .items => fun ts n v s n' => ∃ vs, Yields file (plus item) ts n vs s n' ∧ v = vs.flatten
  | .statement => Yields file (r .stmt)
  | .line => Yields file (r .simpleStmt)
  | .smalls => Yields file (plus (after .semicolon (r .smallStmt)))
  | .small => Yields file (r .smallStmt)
  | .suite => Yields file (r .suite)
  | .block => fun ts n v s n' => ∃ vs, Yields file (plus (r .stmt)) ts n vs s n' ∧ v = vs.flatten
  | .augmentedOp => Yields file (r .augOp)
  | .loadArgs => Yields file (plus (after .comma (r .loadArg)))
  | .loadArg => Yields file (r .loadArg)
  | .stringToken => Yields file (r .stringToken)
  | .elifs => Yields file (plus (r .elifClause))
  | .elifClause => Yields file (r .elifClause)
  | .elseClause => Yields file (r .elseClause)
  | .parameters => Yields file (r .parameters)
  | .parameterRest => Yields file (plus (after .comma (r .parameter)))
  | .parameter => Yields file (r .parameter)
  | .exprList => Yields file (r .testList)
  | .exprRest => Yields file (plus (after .comma (r (.expr .test))))
  | .targetList => Yields file (r .exprlist)
  | .targetRest => Yields file (plus (after .comma (r (.expr (.binary .bitOr)))))
  | .expr l => Yields file (r (.expr l))
  | .rest b => Yields file (plus (link b))
  | .operator b => Yields file (r (.operator b))
  | .unaryOp => Yields file (r .unaryOp)
  | .arguments => Yields file (r .arguments)
  | .argumentRest => Yields file (plus (after .comma (r .argument)))
  | .argument => Yields file (r .argument)
  | .subscript => Yields file (r .subscript)
  | .entry => Yields file (r .dictEntry)
  | .entryRest => Yields file (plus (after .comma (r .dictEntry)))
  | .clauses => Yields file (plus (r .compClause))
  | .clause => Yields file (r .compClause)
  | .compFor => Yields file (r .compFor)

@[reducible] def StandsFor (file : String) : (s : Symbol) → List Token → Notes → s.Meaning →
    Option Span → Notes → Prop
  | .t a => Yields file (t a)
  | .n A => Stands file A

/-- The values of a sequence of symbols, one after the other. -/
inductive StandsAll (file : String) : (ss : List Symbol) → List Token → Notes → Meanings ss →
    Option Span → Notes → Prop
  | nil {n : Notes} : StandsAll file [] [] n () none n
  | cons {σ : Symbol} {ss : List Symbol} {ts us : List Token} {n n' n'' : Notes} {v : σ.Meaning}
    {vs : Meanings ss} {s u : Option Span} (h : StandsFor file σ ts n v s n')
    (hs : StandsAll file ss us n' vs u n'') :
    StandsAll file (σ :: ss) (ts ++ us) n (v, vs) (Span.join s u) n''

/-- Where the action of a rule gives a value to a reading of its right side, the form behind its
left side yields that value. -/
def Sound (p : Production) : Prop :=
  ∀ (file : String) (ts : List Token) (n n' n'' : Notes) (vs : Meanings p.rhs) (s : Option Span)
    (w : p.lhs.Meaning), StandsAll file p.rhs ts n vs s n' →
    (Build.action file s p vs).run.run n' = (.ok w, n'') → Stands file p.lhs ts n w s n''

namespace Yields

variable {file : String} {α : Type} {f : Form α} {ts us ws : List Token} {n n₁ n₂ n₃ : Notes}
  {v : α} {vs : List α} {tok : Token} {s u x : Option Span}

theorem cast (h : Yields file f ts n v s n₁) (hts : ts = us) (hs : s = u) :
    Yields file f us n v u n₁ := by
  subst hts hs
  exact h

theorem commasManyComma (h₁ : Yields file f ts n v s n₁)
    (h₂ : Yields file (.plus (after .comma f)) us n₁ vs u n₂)
    (h₃ : Yields file (.t .comma) ws n₂ tok x n₃) :
    Yields file (commas f) (ts ++ (us ++ (ws ++ []))) n (v :: vs)
      (Span.join s (Span.join u (Span.join x Option.none))) n₃ :=
  .map (.some (.seq h₁ (.seq (.plus h₂) (.seq (.some h₃) .eps))))

theorem commasMany (h₁ : Yields file f ts n v s n₁)
    (h₂ : Yields file (.plus (after .comma f)) us n₁ vs u n₂) :
    Yields file (commas f) (ts ++ (us ++ [])) n (v :: vs)
      (Span.join s (Span.join u Option.none)) n₂ :=
  .map (.some (.seq h₁ (.seq (.plus h₂) (.skip .eps))))

theorem commasOneComma (h₁ : Yields file f ts n v s n₁)
    (h₂ : Yields file (.t .comma) us n₁ tok u n₂) :
    Yields file (commas f) (ts ++ (us ++ [])) n [v]
      (Span.join s (Span.join u Option.none)) n₂ :=
  .map (.some (.seq h₁ (.empty (.seq (.some h₂) .eps))))

theorem commasOne (h : Yields file f ts n v s n₁) :
    Yields file (commas f) (ts ++ []) n [v] (Span.join s Option.none) n₁ :=
  .map (.some (.seq h (.empty (.skip .eps))))

theorem commasNone : Yields file (commas f) [] n [] Option.none n := .map .none

theorem afterOne {a : Terminal} (h₁ : Yields file (.t a) ts n tok s n₁)
    (h₂ : Yields file f us n₁ v u n₂) :
    Yields file (.plus (after a f)) (ts ++ (us ++ [])) n [v]
      (Span.join s (Span.join u Option.none)) n₂ := .one (.map (.seq h₁ (.seq h₂ .eps)))

theorem afterMore {a : Terminal} (h : Yields file (.plus (after a f)) ts n vs s n₁)
    (h₁ : Yields file (.t a) us n₁ tok u n₂) (h₂ : Yields file f ws n₂ v x n₃) :
    Yields file (.plus (after a f)) (ts ++ (us ++ (ws ++ []))) n (vs ++ [v])
      (Span.join s (Span.join u (Span.join x Option.none))) n₃ :=
  .more h (.map (.seq h₁ (.seq h₂ .eps)))

theorem sign {a : Terminal} {op : BinaryOp} (x : Terminal × BinaryOp)
    (l : List (Terminal × BinaryOp)) (hmem : (a, op) ∈ x :: l)
    (h : Yields file (.t a) ts n tok s n₁) : Yields file (signs x l) ts n op s n₁ := by
  induction l generalizing x with
  | nil =>
    cases List.mem_singleton.mp hmem
    exact .map h
  | cons y l ih =>
    rcases List.mem_cons.mp hmem with heq | hrest
    · subst heq
      exact .left (.map h)
    · exact .right (ih y hrest)

variable {g : Form Expr} {e : Expr} {es : List Expr}

theorem tupleManyComma (h₁ : Yields file g ts n e s n₁)
    (h₂ : Yields file (.plus (after .comma g)) us n₁ es u n₂)
    (h₃ : Yields file (.t .comma) ws n₂ tok x n₃) :
    Yields file (tuple g) (ts ++ (us ++ (ws ++ []))) n
      (.list (e :: es) true ((Span.join s (Span.join u (Span.join x Option.none))).map
        (·.inFile file)))
      (Span.join s (Span.join u (Span.join x Option.none))) n₃ :=
  .build (.left (.map (.seq h₁ (.seq h₂ (.seq (.some h₃) .eps)))))

theorem tupleMany (h₁ : Yields file g ts n e s n₁)
    (h₂ : Yields file (.plus (after .comma g)) us n₁ es u n₂) :
    Yields file (tuple g) (ts ++ (us ++ [])) n
      (.list (e :: es) true ((Span.join s (Span.join u Option.none)).map (·.inFile file)))
      (Span.join s (Span.join u Option.none)) n₂ :=
  .build (.left (.map (.seq h₁ (.seq h₂ (.skip .eps)))))

theorem tupleOneComma (h₁ : Yields file g ts n e s n₁)
    (h₂ : Yields file (.t .comma) us n₁ tok u n₂) :
    Yields file (tuple g) (ts ++ (us ++ [])) n
      (.list [e] true ((Span.join s (Span.join u Option.none)).map (·.inFile file)))
      (Span.join s (Span.join u Option.none)) n₂ :=
  .build (.right (.map (.seq h₁ (.seq h₂ .eps))))

end Yields
end Starlark.Reference
