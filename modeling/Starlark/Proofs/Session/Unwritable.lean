import Starlark.Proofs.Resolve.Order
import Starlark.Proofs.Resolve.Sites
import Starlark.Proofs.Session.Parse
import Starlark.Proofs.Session.Validate
import Starlark.Proofs.Syntax.Hexadecimal

/-! # A file that stops its validation

An integer that a hexadecimal numeral stands for may have too many decimal digits to be written. A
file that assigns to such an integer is parsed without errors, and its validation raises a fault
where it would report the target. It says nothing of what follows.
-/
namespace Starlark

namespace AssignsNumber
variable {n : Nat} {ss : List Stmt}

theorem noted_eq_nil (hss : AssignsNumber n ss) (settings : Settings) :
    settings.noted ss = [] := by
  obtain ⟨x, a, b, c, d, e, rfl, -⟩ := hss
  have hloads : loadOrderErrors none
      [.assign (.int n a) (.int 1 b) c, .assign (.ident x) (.int 2 d) e] = [] := by
    cases c with
    | none => rfl
    | some loc => rfl
  have hbound : ∀ strict, Declared.errors strict [] (Stmt.declaredAll
      [.assign (.int n a) (.int 1 b) c, .assign (.ident x) (.int 2 d) e]) = [] := by
    intro strict
    cases strict with
    | false => rfl
    | true => rfl
  rw [Settings.noted, hloads, hbound, List.map_nil, ite_self, List.append_nil]

/-- The number is refused, and then the name is looked up, which the block of the file binds. -/
theorem findingsAll_eq (hss : AssignsNumber n ss) :
    ∃ a x, Stmt.moduleFrame ss = ⟨.global, [x.name]⟩ ∧
      ∀ fs, Stmt.findingsAll fs 0 ss = [.refusal (.int n a), .name x fs] := by
  obtain ⟨x, a, b, c, d, e, rfl, -⟩ := hss
  exact ⟨a, x, rfl, fun fs => rfl⟩

theorem exists_site (hss : AssignsNumber n ss) (predeclared : List String) :
    ∃ site ∈ Stmt.sites predeclared ss,
      (Frame.find? site.2 site.1.name).map (·.scope) = some .global := by
  obtain ⟨a, x, hframe, hfound⟩ := hss.findingsAll_eq
  refine ⟨(x, Stmt.topFrames predeclared ss), ?_, ?_⟩
  · rw [Stmt.sites, hfound]
    exact List.mem_filterMap.mpr ⟨_, List.mem_cons_of_mem _ List.mem_cons_self, rfl⟩
  · rw [Stmt.topFrames, hframe]
    simp [Frame.find?, Frame.binds]

/-- The visit stops at a number that cannot be written, so nothing is found. -/
theorem findings_eq_nil (hss : AssignsNumber n ss) (h : ¬ n < 10 ^ maxDecimalDigits)
    (settings : Settings) (predeclared : List String) :
    settings.findings predeclared ss = [] ∧ ss.any Stmt.halts = true := by
  obtain ⟨a, x, -, hfound⟩ := hss.findingsAll_eq
  have hrefusal : Finding.refusal (.int n a) = .unwritable := by
    rw [Finding.refusal, Expr.text?, integerText?_natCast, if_neg h]
  constructor
  · rw [Settings.findings, hss.noted_eq_nil, Stmt.visited, hfound, hrefusal]
    rfl
  · rw [← Stmt.any_stops_findingsAll predeclared ss, hfound, hrefusal]
    rfl

end AssignsNumber

namespace Workspace

/-- Every validation of the file raises the fault and reports nothing, and the name behind the number
gets no tag. -/
theorem validate_hexadecimal {n : Nat} (h : ¬ n < 10 ^ maxDecimalDigits) {text : String}
    (htext : text.toList = hexadecimalNumeral n ++ " = 1; x = 2".toList) (w : Workspace)
    (name : String) {settings : Settings} (known : settings.env.KnownFlags) :
    ∃ f w₁ f' w' site, w.parse text name = (f, w₁) ∧ w₁.errors f = [] ∧
      w₁.validate f settings = (.error .unwritable, f', w') ∧ w'.errors f' = [] ∧
      site ∈ Stmt.sites settings.env.predeclared f.statements ∧
      (Frame.find? site.2 site.1.name).map (·.scope) = some .global ∧
      f'.tags.get? site.1 = none := by
  obtain ⟨ss, notes, hparse, hss, herrors, hevents⟩ :=
    parseStatements_hexadecimal htext name w.nextId
  obtain ⟨site, hsite, hscope⟩ := hss.exists_site settings.env.predeclared
  obtain ⟨hfound, hhalts⟩ := hss.findings_eq_nil h settings settings.env.predeclared
  cases hfile : w.parse text name with
  | mk f w₁ =>
    have hp := parsed_of_parse hfile
    have hr := hp.reporter_lt
    have hclean : w₁.errors f = [] ∧ f.escapes = [] ∧ f.statements = ss := by
      rw [parse, hparse] at hfile
      cases hfile
      refine ⟨?_, hevents, rfl⟩
      rw [errors, reporter, SourceFile.ofStatements, List.getD_eq_getElem?_getD,
        List.getElem?_concat_length]
      exact herrors
    obtain ⟨hnone, hescapes, rfl⟩ := hclean
    have hnew : f.newErrors settings = [] := by
      rw [SourceFile.newErrors, SourceFile.findings, hfound, SourceFile.pendingEscapes, hescapes,
        ite_self]
      rfl
    have ht : f.tags.recordAll (settings.tags (f.findings settings)) = .ok .empty := by
      rw [SourceFile.findings, hfound, hp.tags_eq, Settings.tags]
      split <;> rfl
    have hv := validate_eq known hr ht
    rw [hhalts, if_pos rfl, hnew] at hv
    refine ⟨f, w₁, _, _, site, rfl, hnone, hv, ?_, hsite, hscope, rfl⟩
    refine (errors_extend hr rfl []).trans ?_
    rw [hnone, List.append_nil]

end Workspace

/-! ## A source with such an integer -/

/-- The number is `16 ^ 4000 - 1`, which has 4817 decimal digits. -/
def unwritableSource : String :=
  "0x" ++ String.ofList (List.replicate 4000 'f') ++ " = 1; x = 2"

theorem unwritableSource_toList :
    unwritableSource.toList = hexadecimalNumeral (16 ^ 4000 - 1) ++ " = 1; x = 2".toList := by
  rw [hexadecimalNumeral, hexadecimalText_replicate (by decide), unwritableSource,
    String.toList_append, String.toList_append, String.toList_ofList (l := List.replicate 4000 'f')]
  generalize List.replicate 4000 'f' = digits
  rfl

/-- An assignment to that number. -/
def unwritableTarget : Stmt := .assign (.int (16 ^ 4000 - 1 : Nat) none) (.int 1 none) none

theorem unwritable_sixteen_pow : ¬ 16 ^ 4000 - 1 < 10 ^ maxDecimalDigits := by
  decide +kernel

end Starlark
