import Starlark.Proofs.Syntax.RoundTrip

/-! # Numerals with too many digits

A fault of one leaf is the fault of every tree around it. So a file that assigns a number whose
decimal digits are too many is no file at all, though it is well-formed but for that.
-/
namespace Starlark
open Reference Form

/-- A tree of some tokens, the meaning of which has a fault. -/
def Faulty (file : String) (σ : Symbol) (ts : List Token) (n : Notes) (fault : NumeralFault) :
    Prop :=
  ∃ x : Tree σ, x.tokens = ts ∧ ∃ n', (x.build file).run.run n = (.error fault, n')

def FaultyAll (file : String) (ss : List Symbol) (ts : List Token) (n : Notes)
    (fault : NumeralFault) : Prop :=
  ∃ xs : Forest ss, xs.tokens = ts ∧ ∃ n', (xs.build file).run.run n = (.error fault, n')

section
variable {file : String} {σ : Symbol} {ss : List Symbol} {ts us : List Token} {n n' : Notes}
  {fault : NumeralFault}

theorem FaultyAll.head (h : Faulty file σ ts n fault) (xs : Forest ss) :
    FaultyAll file (σ :: ss) (ts ++ xs.tokens) n fault := by
  obtain ⟨x, rfl, n', hx⟩ := h
  refine ⟨.cons x xs, rfl, n', ?_⟩
  rw [Forest.build, Build.run_bind, hx]

theorem FaultyAll.tail {v : σ.Meaning} {s : Option Span} (h : Built file σ ts n v s n')
    (hs : FaultyAll file ss us n' fault) : FaultyAll file (σ :: ss) (ts ++ us) n fault := by
  obtain ⟨x, rfl, hx⟩ := h
  obtain ⟨xs, rfl, n'', hxs⟩ := hs
  refine ⟨.cons x xs, rfl, n'', ?_⟩
  rw [Forest.build, Build.run_bind, hx]
  dsimp only
  rw [Build.run_bind, hxs]

theorem FaultyAll.one (h : Faulty file σ ts n fault) : FaultyAll file [σ] ts n fault := by
  have hhead := FaultyAll.head h .nil
  rwa [Forest.tokens, List.append_nil] at hhead

theorem Faulty.node (p : Production) (h : FaultyAll file p.rhs ts n fault) :
    Faulty file (.n p.lhs) ts n fault := by
  obtain ⟨xs, rfl, n', hxs⟩ := h
  refine ⟨.node p xs, rfl, n', ?_⟩
  rw [Tree.build, Build.run_bind, hxs]

theorem Faulty.action (p : Production) {vs : Meanings p.rhs} {s : Option Span} {n'' : Notes}
    (h : BuiltAll file p.rhs ts n vs s n')
    (hact : (Build.action file s p vs).run.run n' = (.error fault, n'')) :
    Faulty file (.n p.lhs) ts n fault := by
  obtain ⟨xs, rfl, hxs⟩ := h
  refine ⟨.node p xs, rfl, n'', ?_⟩
  rw [Tree.build, Build.run_bind, hxs]
  dsimp only
  rw [Build.run_bind, hact]

theorem Faulty.decimal {tok : Token} (hkind : tok.kind = .decimal)
    (h : decodeInteger tok.text = .error fault) (n : Notes) :
    Faulty file (.n (.expr .atom)) [tok] n fault := by
  refine .action .decimal (.one (.leaf hkind n)) (?_ : _ = (_, n))
  dsimp only [Build.action, Build.integer]
  rw [h]
  rfl

/-- A fault of an atom is one of a whole expression. -/
theorem Faulty.test (h : Faulty file (.n (.expr .atom)) ts n fault) :
    Faulty file (.n (.expr .test)) ts n fault :=
  Level.climb (R := fun l => Faulty file (.n (.expr l)) ts n fault)
    (fun h => .node .testOr (.one h)) (fun b h => .node (.single b) (.one h))
    (fun h => .node .negationComparison (.one h)) (fun h => .node .unaryPrimary (.one h))
    (fun h => .node .primaryAtom (.one h)) h (by decide)

/-- The tokens of an assignment of a numeral with a fault. -/
theorem faulty_assignment {x : Expr} {xs : List Mark} {digits : List Char}
    (hx : Spells file (exprForm .test) xs fun v => v.bare = x.bare)
    (hfault : decodeInteger digits = .error fault)
    (hts : ts.map Token.shape = shapes ((xs ++ .blank :: .spelled .equal :: .blank ::
      [.token .decimal digits]) ++ [Mark.lineBreak])) :
    Faulty file (.n .file) ts n fault := by
  rw [List.append_assoc, shapes_append] at hts
  obtain ⟨us, ws, rfl, hus, hws⟩ := List.map_eq_append_iff.mp hts
  obtain ⟨sign, ws, rfl, hsign, hws⟩ := List.map_eq_cons_iff.mp hws
  obtain ⟨number, ws, rfl, hnumber, hws⟩ := List.map_eq_cons_iff.mp hws
  obtain ⟨line, ws, rfl, hline, hws⟩ := List.map_eq_cons_iff.mp hws
  obtain rfl : ws = [] := List.map_eq_nil_iff.mp hws
  obtain ⟨v, s, n', hlhs, -, -⟩ := spells_testList hx us n hus
  obtain ⟨hkind, rfl⟩ := Prod.mk.inj hnumber
  have hrhs : Faulty file (.n .exprList) [number] n' fault :=
    .node .exprListSingle (.one (.test (.decimal hkind hfault n')))
  have hsign : Built file (.t .equal) [sign] n' sign (some sign.span) n' :=
    .leaf (Prod.mk.inj hsign).1 n'
  have hsmall : Faulty file (.n .small) (us ++ ([sign] ++ [number])) n fault :=
    .node .assign (.tail hlhs (.tail hsign (.one hrhs)))
  obtain ⟨leaf, hleaf, -⟩ : Built file (.t .newline) [line] n line (some line.span) n :=
    .leaf (Prod.mk.inj hline).1 n
  have hfile : Faulty file (.n .file) (us ++ ([sign] ++ [number]) ++ (leaf.tokens ++ [])) n fault :=
    .node .fileItems (.one (.node .itemsStatement (.one (.node .statementLine (.one
      (.node .lineOne (.head hsmall (.cons leaf .nil))))))))
  rw [hleaf, List.append_assoc] at hfile
  exact hfile

end

/-- The digits of a number that has too many, assigned to a name, are a syntax error. -/
theorem parseStatements_tooLong {k : Nat} (h : ¬ k < 10 ^ maxDecimalDigits) {text : String}
    (htext : text.toList = decimalText k) (file : String) (firstId : Nat) :
    ∃ notes, parseStatements ("x = " ++ text) file firstId =
      (.error (.numeral (.tooLong (decimalText k).length)), notes) := by
  have hx : (Expr.ident .target).Prints file .test := .loosest (.ident Identifier.isPlain_target)
  obtain ⟨xs, _, ⟨⟩, hxs, hxphrase, -, hxspells⟩ := hx
  obtain ⟨hphrase, hbegins⟩ := phrase_decimal k
  have hfault : decodeInteger (decimalText k) = .error (.tooLong (decimalText k).length) := by
    rw [decodeInteger_decimalText, if_neg h]
  have hsource : ("x = " ++ text).toList =
      sources (xs ++ .blank :: .spelled .equal :: .blank :: [.token .decimal (decimalText k)]) := by
    rw [String.toList_append, sources_append, hxs, htext]
    simp only [sources_cons, sources_nil, List.append_nil]
    rfl
  have hline : Phrase
      (xs ++ .blank :: .spelled .equal :: .blank :: [.token .decimal (decimalText k)]) :=
    hxphrase.infixed (by decide) hphrase hbegins.not_blank
  obtain ⟨tree, htokens, notes, hbuild⟩ :=
    faulty_assignment hxspells hfault (n := ⟨firstId, [], []⟩) (placed_shapes _ ⟨1, 1⟩)
  refine ⟨notes, ?_⟩
  rw [parseStatements, hsource, Parser.derive_placed hline htokens]
  dsimp only
  rw [hbuild]

namespace Workspace

/-- A natural number of too many digits is plain but for that. It has no text, and its decimal
digits are not read as that number. -/
theorem not_readsBack_of_tooLong (k : Nat) (h : ¬ k < 10 ^ maxDecimalDigits) (w : Workspace)
    (name : String) :
    (Expr.int k none).Plain (0 ≤ ·) ∧ ¬ w.ReadsBack name (.int k none) ∧
      ¬ w.Reads name (toString (k : Int)) (.int k none) := by
  refine ⟨Int.natCast_nonneg k, ?_, ?_⟩
  · rintro ⟨text, htext, -⟩
    rw [Expr.text?, integerText?_natCast, if_neg h] at htext
    cases htext
  · rintro ⟨-, -, x, rhs, loc, hstatements, -⟩
    have hempty : (w.parse ("x = " ++ toString (k : Int)) name).1.statements = [] := by
      obtain ⟨notes, hparse⟩ := parseStatements_tooLong h (decimalText_toString k) name w.nextId
      rw [parse, hparse]
      rfl
    exact List.cons_ne_nil _ _ (hstatements.symm.trans hempty)

/-- The least natural number that is not read back. -/
theorem not_readsBack_ten_pow :
    (Expr.int (10 ^ maxDecimalDigits : Nat) none).Plain (0 ≤ ·) ∧
      ¬ empty.ReadsBack "defs.bzl" (.int (10 ^ maxDecimalDigits : Nat) none) ∧
      ¬ empty.Reads "defs.bzl" (toString ((10 ^ maxDecimalDigits : Nat) : Int))
        (.int (10 ^ maxDecimalDigits : Nat) none) :=
  not_readsBack_of_tooLong (10 ^ maxDecimalDigits) (Nat.lt_irrefl (10 ^ maxDecimalDigits)) empty
    "defs.bzl"

end Workspace
end Starlark
