import Starlark.Proofs.Grammar.Corners
import Starlark.Proofs.Reference.Expanded

/-! # Trees for the rules of the reference grammar

One inequality of languages for each rule of the reference grammar. A repetition lies in the
language of the nonterminal that collects it, and what remains is a sum with one product for each
rule of the parser.
-/
namespace Starlark.Reference
open Computability Form

/-- The sequences of terminals that a rule is shown to derive. -/
def grown : Rule → Language Terminal
  | .start => N .file
  | .stmt | .compoundStmt | .ifStmt | .forStmt | .funcdef => N .statement
  | .simpleStmt => N .line
  | .smallStmt | .exprStmt | .assignStmt | .augAssignStmt | .returnStmt | .passStmt | .breakStmt
  | .continueStmt | .loadStmt => N .small
  | .suite => N .suite
  | .augOp => N .augmentedOp
  | .loadArg => N .loadArg
  | .stringToken => N .stringToken
  | .elifClause => N .elifClause
  | .elseClause => N .elseClause
  | .parameters => 1 + N .parameters
  | .parameter => N .parameter
  | .testList | .testTuple => N .exprList
  | .exprlist | .exprTuple => N .targetList
  | .expr l => E l
  | .operator b => N (.operator b)
  | .unaryOp => N .unaryOp
  | .arguments => 1 + N .arguments
  | .argument => N .argument
  | .subscript | .subscriptSlice => N .subscript
  | .dictEntry => N .entry
  | .compClause | .compIf => N .clause
  | .compFor => N .compFor
  | .number | .string => E .atom

section Repetitions

variable {f A : Language Terminal}

theorem plus_le (hone : f ≤ A) (hmore : A * f ≤ A) : f * f∗ ≤ A := mul_kstar_le hone hmore

theorem star_le (hone : f ≤ A) (hmore : A * f ≤ A) : f∗ ≤ 1 + A := by
  rw [← one_add_mul_kstar]
  exact add_le_add le_rfl (plus_le hone hmore)

theorem smalls_star : (T .semicolon * N .small)∗ ≤ 1 + N .smalls :=
  star_le (rule_le .smallsOne) (rule_le .smallsMore)

theorem loadArgs_star : (T .comma * N .loadArg)∗ ≤ 1 + N .loadArgs :=
  star_le (rule_le .loadArgsOne) (rule_le .loadArgsMore)

theorem elifs_star : (N .elifClause)∗ ≤ 1 + N .elifs :=
  star_le (rule_le .elifsOne) (rule_le .elifsMore)

theorem block_plus : N .statement * (N .statement)∗ ≤ N .block :=
  plus_le (rule_le .blockOne) (rule_le .blockMore)

theorem parameterRest_star : (T .comma * N .parameter)∗ ≤ 1 + N .parameterRest :=
  star_le (rule_le .parameterRestOne) (rule_le .parameterRestMore)

theorem exprRest_plus : T .comma * E .test * (T .comma * E .test)∗ ≤ N .exprRest :=
  plus_le (rule_le .exprRestOne) (rule_le .exprRestMore)

theorem exprRest_star : (T .comma * E .test)∗ ≤ 1 + N .exprRest :=
  star_le (rule_le .exprRestOne) (rule_le .exprRestMore)

theorem targetRest_plus : T .comma * E (.binary .bitOr) * (T .comma * E (.binary .bitOr))∗ ≤
    N .targetRest :=
  plus_le (rule_le .targetRestOne) (rule_le .targetRestMore)

theorem rest_star (b : BinaryLevel) : (N (.operator b) * E b.operand)∗ ≤ 1 + N (.rest b) :=
  star_le (rule_le (.restOne b)) (rule_le (.restMore b))

theorem argumentRest_star : (T .comma * N .argument)∗ ≤ 1 + N .argumentRest :=
  star_le (rule_le .argumentRestOne) (rule_le .argumentRestMore)

theorem entryRest_star : (T .comma * N .entry)∗ ≤ 1 + N .entryRest :=
  star_le (rule_le .entryRestOne) (rule_le .entryRestMore)

theorem clauses_star : (N .clause)∗ ≤ 1 + N .clauses :=
  star_le (rule_le .clausesOne) (rule_le .clausesMore)

end Repetitions

/-- The sequences of terminals of a form. -/
abbrev grow {α : Type} (f : Form α) : Language Terminal := f.lang grown

theorem start_le : grow (Rule.form .start) ≤ N .file := by
  have hitem : grow item ≤ N .items := add_le (rule_le .itemsBlank) (rule_le .itemsStatement)
  have hmore : N .items * grow item ≤ N .items := by
    rw [show grow item = T .newline + N .statement from rfl, mul_add]
    exact add_le (rule_le .itemsMoreBlank) (rule_le .itemsMore)
  calc
    grow (Rule.form .start) = (grow item)∗ := rfl
    _ ≤ 1 + N .items := star_le hitem hmore
    _ ≤ N .file := add_le (rule_le .fileEmpty) (rule_le .fileItems)

theorem simpleStmt_le : grow (Rule.form .simpleStmt) ≤ N .line := by
  dsimp only [grow, Rule.form, map, after, lang, grown]
  simp only [mul_one]
  grw [smalls_star]
  simp only [add_mul, mul_add, one_mul, add_le_iff]
  exact ⟨⟨rule_le .lineOne, rule_le .lineMany⟩, rule_le .lineOneSemicolon,
    rule_le .lineManySemicolon⟩

theorem suite_le : grow (Rule.form .suite) ≤ N .suite := by
  dsimp only [grow, Rule.form, lang_orElse, map, lang, grown]
  simp only [mul_one]
  grw [block_plus]
  exact add_le (rule_le .suiteLine) (rule_le .suiteBlock)

theorem augOp_le : grow (Rule.form .augOp) ≤ N .augmentedOp := by
  dsimp only [grow, Rule.form, signs, lang_orElse, map, sign, lang, grown]
  simp only [add_le_iff]
  exact ⟨rule_le .augmentedAdd, rule_le .augmentedSub, rule_le .augmentedMul,
    rule_le .augmentedDiv, rule_le .augmentedFloorDiv, rule_le .augmentedMod,
    rule_le .augmentedBitAnd, rule_le .augmentedBitOr, rule_le .augmentedBitXor,
    rule_le .augmentedShiftLeft, rule_le .augmentedShiftRight⟩

theorem returnStmt_le : grow (Rule.form .returnStmt) ≤ N .small := by
  dsimp only [grow, Rule.form, build, lang, grown]
  simp only [mul_one, mul_add]
  exact add_le (rule_le .returnNone) (rule_le .returnValue)

theorem loadStmt_le : grow (Rule.form .loadStmt) ≤ N .small := by
  dsimp only [grow, Rule.form, map, after, lang, grown]
  simp only [mul_one]
  grw [loadArgs_star]
  simp only [add_mul, mul_add, one_mul, add_le_iff]
  exact ⟨⟨rule_le .loadNone, rule_le .loadSome⟩, rule_le .loadNoneComma, rule_le .loadSomeComma⟩

theorem loadArg_le : grow (Rule.form .loadArg) ≤ N .loadArg := by
  dsimp only [grow, Rule.form, lang_orElse, lang, grown]
  simp only [mul_one]
  exact add_le (rule_le .loadPlain) (rule_le .loadAlias)

theorem ifStmt_le : grow (Rule.form .ifStmt) ≤ N .statement := by
  dsimp only [grow, Rule.form, build, lang, grown]
  simp only [mul_one]
  grw [elifs_star]
  simp only [add_mul, mul_add, one_mul, mul_one, add_le_iff]
  exact ⟨⟨rule_le .ifOnly, rule_le .ifElif⟩, rule_le .ifElse, rule_le .ifElifElse⟩

theorem funcdef_le : grow (Rule.form .funcdef) ≤ N .statement := by
  dsimp only [grow, Rule.form, lang, grown]
  simp only [mul_one, add_mul, mul_add, one_mul]
  exact add_le (rule_le .defNone) (rule_le .defSome)

/-- Parts set apart by commas lie in a language that holds each way to spell them out. -/
theorem commas_le {α : Type} {f : Form α} {A B : Language Terminal}
    (hstar : (T .comma * grow f)∗ ≤ 1 + A) (hone : grow f ≤ B) (honeComma : grow f * T .comma ≤ B)
    (hmany : grow f * A ≤ B) (hmanyComma : grow f * (A * T .comma) ≤ B) :
    grow (commas f) ≤ 1 + B := by
  dsimp only [grow, commas, after, map, lang]
  simp only [mul_one]
  grw [hstar]
  simp only [add_mul, mul_add, one_mul, mul_one]
  exact add_le_add le_rfl (add_le (add_le hone hmany) (add_le honeComma hmanyComma))

theorem parameters_le : grow (Rule.form .parameters) ≤ 1 + N .parameters :=
  commas_le parameterRest_star (rule_le .parametersOne) (rule_le .parametersOneComma)
    (rule_le .parametersMany) (rule_le .parametersManyComma)

theorem arguments_le : grow (Rule.form .arguments) ≤ 1 + N .arguments :=
  commas_le argumentRest_star (rule_le .argumentsOne) (rule_le .argumentsOneComma)
    (rule_le .argumentsMany) (rule_le .argumentsManyComma)

theorem parameter_le : grow (Rule.form .parameter) ≤ N .parameter := by
  dsimp only [grow, Rule.form, lang_orElse, lang, grown]
  simp only [mul_one, mul_add, add_le_iff]
  exact ⟨rule_le .parameterMandatory, rule_le .parameterOptional,
    ⟨rule_le .parameterBareStar, rule_le .parameterStar⟩, rule_le .parameterStarStar⟩

theorem tuple_le {f : Form Expr} {A B : Language Terminal}
    (hplus : T .comma * grow f * (T .comma * grow f)∗ ≤ A) (hmany : grow f * A ≤ B)
    (hmanyComma : grow f * (A * T .comma) ≤ B) (honeComma : grow f * T .comma ≤ B) :
    grow (tuple f) ≤ B := by
  dsimp only [grow, tuple, after, build, map, lang_orElse, lang]
  simp only [mul_one]
  grw [hplus]
  simp only [mul_add, mul_one]
  exact add_le (add_le hmany hmanyComma) honeComma

theorem testTuple_le : grow (Rule.form .testTuple) ≤ N .exprList :=
  tuple_le exprRest_plus (rule_le .exprListMany) (rule_le .exprListManyComma)
    (rule_le .exprListOneComma)

theorem exprTuple_le : grow (Rule.form .exprTuple) ≤ N .targetList :=
  tuple_le targetRest_plus (rule_le .targetListMany) (rule_le .targetListManyComma)
    (rule_le .targetListOneComma)

theorem argument_le : grow (Rule.form .argument) ≤ N .argument := by
  dsimp only [grow, Rule.form, lang_orElse, build, lang, grown]
  simp only [mul_one, add_le_iff]
  exact ⟨rule_le .argumentPositional, rule_le .argumentKeyword, rule_le .argumentStar,
    rule_le .argumentStarStar⟩

theorem subscriptSlice_le : grow (Rule.form .subscriptSlice) ≤ N .subscript := by
  dsimp only [grow, Rule.form, map, lang, grown]
  simp only [mul_one, add_mul, mul_add, one_mul, add_le_iff]
  and_intros
  · exact rule_le .slice
  · exact rule_le .sliceStart
  · exact rule_le .sliceStop
  · exact rule_le .sliceStartStop
  · exact rule_le .sliceColon
  · exact rule_le .sliceStartColon
  · exact rule_le .sliceStopColon
  · exact rule_le .sliceStartStopColon
  · exact rule_le .sliceStep
  · exact rule_le .sliceStartStep
  · exact rule_le .sliceStopStep
  · exact rule_le .sliceStartStopStep

theorem signs_le {b : BinaryLevel} (x : Terminal × BinaryOp) (l : List (Terminal × BinaryOp))
    (hsigns : ∀ y ∈ x :: l, y.2.symbols = [.t y.1] ∧ y.2.level = b) :
    grow (signs x l) ≤ N (.operator b) := by
  have hsign : ∀ y : Terminal × BinaryOp, y.2.symbols = [.t y.1] ∧ y.2.level = b →
      T y.1 ≤ N (.operator b) := by
    intro y ⟨hsymbols, hlevel⟩
    have hrule : sequence y.2.symbols ≤ N (.operator y.2.level) := rule_le (.operator y.2)
    rwa [hsymbols, hlevel] at hrule
  induction l generalizing x with
  | nil => exact hsign x (hsigns x List.mem_cons_self)
  | cons y l ih =>
    have hrest := ih y fun z hz => hsigns z (List.mem_cons_of_mem x hz)
    exact add_le (hsign x (hsigns x List.mem_cons_self)) hrest

theorem operator_le (b : BinaryLevel) : grow (operatorForm b) ≤ N (.operator b) := by
  cases b with
  | comparison =>
    have hnotIn : T .kwNot * (T .kwIn * 1) ≤ N (.operator .comparison) := by
      rw [mul_one]
      exact rule_le (.operator .notIn)
    exact add_le (signs_le _ _ (by decide)) hnotIn
  | _ => exact signs_le _ _ (by decide)

theorem binary_le (b : BinaryLevel) : grow (exprForm (.binary b)) ≤ E (.binary b) := by
  dsimp only [grow, exprForm, build, link, map, lang, grown]
  simp only [mul_one]
  grw [rest_star]
  simp only [mul_add, mul_one]
  exact add_le (rule_le (.single b)) (rule_le (.chain b))

theorem primary_le : grow (exprForm .primary) ≤ E .primary := by
  dsimp only [grow, exprForm, lang_orElse, build, lang, grown]
  simp only [mul_one, add_mul, mul_add, one_mul, add_le_iff]
  exact ⟨⟨rule_le .callNone, rule_le .callSome⟩, rule_le .index, rule_le .dot,
    rule_le .primaryAtom⟩

theorem list_le : grow (commas (r (.expr .test))) ≤
    1 + (E .test + E .test * T .comma + E .test * N .exprRest + E .test *
      (N .exprRest * T .comma)) := by
  refine commas_le exprRest_star ?_ ?_ ?_ ?_
  · exact le_add_right (le_add_right (le_add_right le_rfl))
  · exact le_add_right (le_add_right (le_add_left le_rfl))
  · exact le_add_right (le_add_left le_rfl)
  · exact le_add_left le_rfl

theorem dict_le : grow (commas (r .dictEntry)) ≤
    1 + (N .entry + N .entry * T .comma + N .entry * N .entryRest +
      N .entry * (N .entryRest * T .comma)) := by
  refine commas_le entryRest_star ?_ ?_ ?_ ?_
  · exact le_add_right (le_add_right (le_add_right le_rfl))
  · exact le_add_right (le_add_right (le_add_left le_rfl))
  · exact le_add_right (le_add_left le_rfl)
  · exact le_add_left le_rfl

theorem listDisplay_le : grow listDisplay ≤ E .atom := by
  change T .lbracket * (grow (commas (r (.expr .test))) * (T .rbracket * 1)) ≤ E .atom
  grw [list_le]
  simp only [add_mul, mul_add, one_mul, mul_one, mul_assoc, add_le_iff]
  exact ⟨rule_le .listEmpty, ⟨⟨rule_le .listOne, rule_le .listOneComma⟩, rule_le .listMany⟩,
    rule_le .listManyComma⟩

theorem dictDisplay_le : grow dictDisplay ≤ E .atom := by
  change T .lbrace * (grow (commas (r .dictEntry)) * (T .rbrace * 1)) ≤ E .atom
  grw [dict_le]
  simp only [add_mul, mul_add, one_mul, mul_one, mul_assoc, add_le_iff]
  exact ⟨rule_le .dictEmpty, ⟨⟨rule_le .dictOne, rule_le .dictOneComma⟩, rule_le .dictMany⟩,
    rule_le .dictManyComma⟩

theorem listComprehension_le : grow listComprehension ≤ E .atom := by
  dsimp only [grow, listComprehension, build, lang, grown]
  grw [clauses_star]
  simp only [add_mul, mul_add, one_mul, mul_one]
  exact add_le (rule_le .listCompFor) (rule_le .listCompClauses)

theorem dictComprehension_le : grow dictComprehension ≤ E .atom := by
  dsimp only [grow, dictComprehension, build, lang, grown]
  grw [clauses_star]
  simp only [add_mul, mul_add, one_mul, mul_one]
  exact add_le (rule_le .dictCompFor) (rule_le .dictCompClauses)

theorem atom_le : grow (exprForm .atom) ≤ E .atom := by
  dsimp only [grow, exprForm, lang_orElse, build, lang, grown]
  simp only [mul_one, add_le_iff]
  exact ⟨rule_le .name, le_rfl, le_rfl, rule_le .emptyTuple, rule_le .paren, listDisplay_le,
    listComprehension_le, dictDisplay_le, dictComprehension_le⟩

theorem expr_le (l : Level) : grow (exprForm l) ≤ E l := by
  cases l with
  | test =>
    dsimp only [grow, exprForm, lang_orElse, build, lang, grown]
    simp only [mul_one]
    exact add_le (rule_le .conditional) (rule_le .testOr)
  | binary b => exact binary_le b
  | negation =>
    dsimp only [grow, exprForm, lang_orElse, build, lang, grown]
    simp only [mul_one]
    exact add_le (rule_le .not) (rule_le .negationComparison)
  | unary =>
    dsimp only [grow, exprForm, lang_orElse, build, lang, grown]
    simp only [mul_one]
    exact add_le (rule_le .unary) (rule_le .unaryPrimary)
  | primary => exact primary_le
  | atom => exact atom_le

theorem form_le (q : Rule) : grow q.form ≤ grown q := by
  cases q with
  | start => exact start_le
  | stmt => exact add_le (rule_le .statementLine) le_rfl
  | simpleStmt => exact simpleStmt_le
  | smallStmt =>
    dsimp only [grow, Rule.form, lang_orElse, lang, grown]
    simp only [add_idem, le_refl]
  | compoundStmt =>
    dsimp only [grow, Rule.form, lang_orElse, lang, grown]
    simp only [add_idem, le_refl]
  | suite => exact suite_le
  | exprStmt => exact rule_le .exprStatement
  | augOp => exact augOp_le
  | returnStmt => exact returnStmt_le
  | passStmt => exact rule_le .passFlow
  | breakStmt => exact rule_le .breakFlow
  | continueStmt => exact rule_le .continueFlow
  | loadStmt => exact loadStmt_le
  | loadArg => exact loadArg_le
  | stringToken => exact add_le (rule_le .stringShort) (rule_le .stringLong)
  | ifStmt => exact ifStmt_le
  | funcdef => exact funcdef_le
  | parameters => exact parameters_le
  | parameter => exact parameter_le
  | testList => exact add_le (rule_le .exprListSingle) le_rfl
  | testTuple => exact testTuple_le
  | exprlist => exact add_le (rule_le .targetListSingle) le_rfl
  | exprTuple => exact exprTuple_le
  | expr l => exact expr_le l
  | operator b => exact operator_le b
  | unaryOp => exact add_le (rule_le .unaryPlus) (add_le (rule_le .unaryMinus)
    (rule_le .unaryTilde))
  | arguments => exact arguments_le
  | argument => exact argument_le
  | subscript => exact add_le (rule_le .subscriptKey) le_rfl
  | subscriptSlice => exact subscriptSlice_le
  | compClause => exact add_le (rule_le .clauseFor) le_rfl
  | number => exact add_le (rule_le .decimal) (add_le (rule_le .hexadecimal) (rule_le .octal))
  | string => exact add_le (rule_le .string) (rule_le .longString)
  | assignStmt =>
    dsimp only [grow, Rule.form, build, lang, grown]
    simp only [mul_one]
    exact rule_le .assign
  | augAssignStmt =>
    dsimp only [grow, Rule.form, build, lang, grown]
    simp only [mul_one]
    exact rule_le .augmentedAssign
  | elifClause =>
    dsimp only [grow, Rule.form, build, lang, grown]
    simp only [mul_one]
    exact rule_le .elifClause
  | elseClause =>
    dsimp only [grow, Rule.form, map, lang, grown]
    simp only [mul_one]
    exact rule_le .elseClause
  | forStmt =>
    dsimp only [grow, Rule.form, build, lang, grown]
    simp only [mul_one]
    exact rule_le .forLoop
  | dictEntry =>
    dsimp only [grow, Rule.form, build, lang, grown]
    simp only [mul_one]
    exact rule_le .entry
  | compFor =>
    dsimp only [grow, Rule.form, build, lang, grown]
    simp only [mul_one]
    exact rule_le .compFor
  | compIf =>
    dsimp only [grow, Rule.form, build, lang, grown]
    simp only [mul_one]
    exact rule_le .clauseIf

/-- Whatever the reference grammar derives is at the leaves of a tree. -/
theorem tree_of_derives {w : List Terminal} (h : Derives (r .start) w) :
    ∃ x : Tree (.n .file), x.tokens.map Token.kind = w := mem_lang form_le h

end Starlark.Reference
