import Starlark.Proofs.Syntax.RoundTrip

/-! # Assignments to hexadecimal numerals

The digits of a hexadecimal numeral are not counted, so the integers of a file may have more decimal
digits than are ever written. A line may even assign to such an integer: that it is no target is
not for the parser to tell.
-/
namespace Starlark
open Reference Form

/-- An assignment to an integer, and then one to a name. -/
def AssignsNumber (n : Int) (ss : List Stmt) : Prop :=
  ∃ x a b c d e, ss = [.assign (.int n a) (.int 1 b) c, .assign (.ident x) (.int 2 d) e] ∧
    x.name = "x"

variable {file : String}

theorem spells_digit {k : Nat} (h : k < 10) :
    Spells file (exprForm .test) [.token .decimal (decimalText k)]
      fun v => v.bare = (Expr.int k none).bare := by
  have hvalue : decodeInteger (decimalText k) = .ok k := by
    rw [decodeInteger_decimalText, if_pos (by exact_mod_cast (IsNumeral.of_digit h).2)]
  exact (spells_integer (.left (.t _ _ _)) hvalue).climb (Level.test_rank_le .atom)

theorem spells_hexadecimal (n : Nat) :
    Spells file (exprForm .test) [.token .hexadecimal (hexadecimalNumeral n)]
      fun v => v.bare = (Expr.int n none).bare :=
  (spells_integer (.right (.left (.t _ _ _))) (decodeInteger_hexadecimalNumeral n)).climb
    (Level.test_rank_le .atom)

theorem Expr.eq_of_bare_int {e : Expr} {n : Int} (h : e.bare = (Expr.int n none).bare) :
    ∃ loc, e = .int n loc := by
  cases e with
  | int m loc =>
    obtain rfl : m = n := (Expr.int.inj h).1
    exact ⟨loc, rfl⟩
  | _ => cases h

/-- A hexadecimal numeral of any length is parsed as what a line assigns to. -/
theorem parseStatements_hexadecimal {n : Nat} {text : String}
    (htext : text.toList = hexadecimalNumeral n ++ " = 1; x = 2".toList) (file : String)
    (firstId : Nat) :
    ∃ ss notes, parseStatements text file firstId = (.ok ss, notes) ∧ AssignsNumber n ss ∧
      notes.errors = [] ∧ notes.events = [] := by
  have hx : (Expr.ident .target).Prints file .test := .loosest (.ident Identifier.isPlain_target)
  obtain ⟨xs, _, ⟨⟩, hxs, hxphrase, hxbegins, hxspells⟩ := hx
  obtain ⟨hnumber, -⟩ := phrase_hexadecimal n
  obtain ⟨hone, honebegins⟩ := phrase_decimal 1
  obtain ⟨htwo, htwobegins⟩ := phrase_decimal 2
  have hfirst := hnumber.infixed (t := .equal) (by decide) hone honebegins.not_blank
  have hsecond := hxphrase.infixed (t := .equal) (by decide) htwo htwobegins.not_blank
  have hline := hfirst.follow (t := .semicolon) (by decide)
    ((hsecond.blank (hxbegins.not_blank.append _)).separator (by decide))
  have hspells := spells_statements
    (spells_assignment (spells_hexadecimal n) (spells_digit (k := 1) (by decide)))
    (Spells.one (.after (spells_assignment hxspells (spells_digit (k := 2) (by decide)))))
  have hsource : text.toList = sources
      ([.token .hexadecimal (hexadecimalNumeral n)] ++ .blank :: .spelled .equal :: .blank ::
        [.token .decimal (decimalText 1)] ++ .spelled .semicolon :: .blank ::
        (xs ++ .blank :: .spelled .equal :: .blank :: [.token .decimal (decimalText 2)])) := by
    simp only [htext, sources_append, sources_cons, hxs, sources_nil, List.append_assoc]
    rfl
  obtain ⟨ss, notes, hparse, ⟨s, _, rfl, hs, t, rfl, ht⟩, hquiet⟩ :=
    parseStatements_of_spells hsource hline hspells firstId
  obtain ⟨lhs, rhs, c, rfl, hlhs, hrhs⟩ := hs
  obtain ⟨lhs', rhs', e, rfl, hlhs', hrhs'⟩ := ht
  obtain ⟨a, rfl⟩ := Expr.eq_of_bare_int hlhs
  obtain ⟨b, rfl⟩ := Expr.eq_of_bare_int hrhs
  obtain ⟨x, rfl, hname⟩ := Expr.eq_of_bare_ident hlhs'
  obtain ⟨d, rfl⟩ := Expr.eq_of_bare_int hrhs'
  exact ⟨_, notes, hparse, ⟨x, a, b, c, d, e, rfl, hname⟩, hquiet⟩

end Starlark
