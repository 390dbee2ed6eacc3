import Starlark.Proofs.Grammar.Numbering
import Starlark.Proofs.Resolve.Trace

/-! # The identifiers that a visit looks up

They are some of the occurrences of the tree, in the same order, so they have different numbers
wherever the occurrences do.
-/
namespace Starlark

/-- The identifier that a finding looks up, if it does. -/
def Finding.name? : Finding → Option Identifier
  | .name x _ => some x
  | .misplaced _ _ | .noted _ | .unwritable => none

/-- The identifiers that some findings look up. -/
def Finding.names (found : List Finding) : List Identifier := found.filterMap name?

namespace Finding

@[simp] theorem names_nil : names [] = [] := rfl

@[simp] theorem names_append (es ds : List Finding) : names (es ++ ds) = names es ++ names ds :=
  List.filterMap_append

@[simp] theorem names_misplacedIf (c : Prop) [Decidable c] (m : Misplacement)
    (loc : Option Location) : names (misplacedIf c m loc) = [] := by
  unfold misplacedIf
  split
  · rfl
  · rfl

@[simp] theorem names_noted (ds : List Diagnostic) : names (ds.map .noted) = [] := by
  simp [names, List.filterMap_map, Function.comp_def, name?]

@[simp] theorem names_refusal (e : Expr) : names [.refusal e] = [] :=
  refusal_cases (P := fun d => names [d] = []) (fun _ => rfl) rfl

end Finding

open Finding

mutual

theorem Expr.findings_names (fs : List Frame) :
    ∀ e : Expr, (names (e.findings fs)).Sublist e.occurrences
  | .ident x => .refl [x]
  | .int _ _ => .slnil
  | .str _ => .slnil
  | .list es _ _ => by
    rw [Expr.findings, Expr.occurrences]
    exact Expr.findingsAll_names fs es
  | .dict ds _ => by
    rw [Expr.findings, Expr.occurrences]
    exact Entry.findingsAll_names fs ds
  | .binary x _ y _ => by
    rw [Expr.findings, Expr.occurrences, names_append]
    exact (Expr.findings_names fs x).append (Expr.findings_names fs y)
  | .unary _ x _ => by
    rw [Expr.findings, Expr.occurrences]
    exact Expr.findings_names fs x
  | .conditional t c e _ => by
    rw [Expr.findings, Expr.occurrences, names_append, names_append]
    exact ((Expr.findings_names fs c).append (Expr.findings_names fs t)).append
      (Expr.findings_names fs e)
  | .dot o _ _ => by
    rw [Expr.findings, Expr.occurrences]
    exact Expr.findings_names fs o
  | .index o k _ => by
    rw [Expr.findings, Expr.occurrences, names_append]
    exact (Expr.findings_names fs o).append (Expr.findings_names fs k)
  | .slice o a b c _ => by
    rw [Expr.findings, Expr.occurrences, names_append, names_append, names_append]
    exact (((Expr.findings_names fs o).append (Expr.findingsOpt_names fs a)).append
      (Expr.findingsOpt_names fs b)).append (Expr.findingsOpt_names fs c)
  | .call f as _ => by
    rw [Expr.findings, Expr.occurrences, names_append]
    exact (Expr.findings_names fs f).append (Argument.findingsAll_names fs as)
  | .comprehension b cs _ _ => by
    rw [Expr.findings, Expr.occurrences, names_append]
    exact (Clause.findingsAll_names _ cs).append (Body.findings_names _ b)

theorem Expr.findingsAll_names (fs : List Frame) :
    ∀ es : List Expr, (names (Expr.findingsAll fs es)).Sublist (Expr.occurrencesAll es)
  | [] => .slnil
  | e :: es => by
    rw [Expr.findingsAll, Expr.occurrencesAll, names_append]
    exact (Expr.findings_names fs e).append (Expr.findingsAll_names fs es)

theorem Expr.findingsOpt_names (fs : List Frame) :
    ∀ e : Option Expr, (names (Expr.findingsOpt fs e)).Sublist (Expr.occurrencesOpt e)
  | none => .slnil
  | some e => by
    rw [Expr.findingsOpt, Expr.occurrencesOpt]
    exact Expr.findings_names fs e

theorem Entry.findings_names (fs : List Frame) :
    ∀ d : Entry, (names (d.findings fs)).Sublist d.occurrences
  | .mk k v _ => by
    rw [Entry.findings, Entry.occurrences, names_append]
    exact (Expr.findings_names fs k).append (Expr.findings_names fs v)

theorem Entry.findingsAll_names (fs : List Frame) :
    ∀ ds : List Entry, (names (Entry.findingsAll fs ds)).Sublist (Entry.occurrencesAll ds)
  | [] => .slnil
  | d :: ds => by
    rw [Entry.findingsAll, Entry.occurrencesAll, names_append]
    exact (Entry.findings_names fs d).append (Entry.findingsAll_names fs ds)

theorem Argument.findings_names (fs : List Frame) :
    ∀ a : Argument, (names (a.findings fs)).Sublist a.occurrences
  | .mk _ v _ _ => by
    rw [Argument.findings, Argument.occurrences]
    exact Expr.findings_names fs v

theorem Argument.findingsAll_names (fs : List Frame) :
    ∀ as : List Argument,
      (names (Argument.findingsAll fs as)).Sublist (Argument.occurrencesAll as)
  | [] => .slnil
  | a :: as => by
    rw [Argument.findingsAll, Argument.occurrencesAll, names_append]
    exact (Argument.findings_names fs a).append (Argument.findingsAll_names fs as)

theorem Clause.findings_names (fs : List Frame) :
    ∀ c : Clause, (names (c.findings fs)).Sublist c.occurrences
  | .each vars iterable _ => by
    rw [Clause.findings, Clause.occurrences, names_append]
    exact (Expr.findings_names fs iterable).append (Expr.targetFindings_names fs vars)
  | .guard c _ => by
    rw [Clause.findings, Clause.occurrences]
    exact Expr.findings_names fs c

theorem Clause.findingsAll_names (fs : List Frame) :
    ∀ cs : List Clause, (names (Clause.findingsAll fs cs)).Sublist (Clause.occurrencesAll cs)
  | [] => .slnil
  | c :: cs => by
    rw [Clause.findingsAll, Clause.occurrencesAll, names_append]
    exact (Clause.findings_names fs c).append (Clause.findingsAll_names fs cs)

theorem Body.findings_names (fs : List Frame) :
    ∀ b : Body, (names (b.findings fs)).Sublist b.occurrences
  | .item e => by
    rw [Body.findings, Body.occurrences]
    exact Expr.findings_names fs e
  | .entry d => by
    rw [Body.findings, Body.occurrences]
    exact Entry.findings_names fs d

/-- Nothing under an expression that is no target is looked up. -/
theorem Expr.targetFindings_names (fs : List Frame) :
    ∀ e : Expr, (names (e.targetFindings fs)).Sublist e.occurrences
  | .ident x => .refl [x]
  | .index o k _ => by
    rw [Expr.targetFindings, Expr.occurrences, names_append]
    exact (Expr.findings_names fs o).append (Expr.findings_names fs k)
  | .list es _ _ => by
    rw [Expr.targetFindings, Expr.occurrences]
    exact Expr.targetFindingsAll_names fs es
  | .int _ _ | .str _ | .dict _ _ | .binary _ _ _ _ | .unary _ _ _ | .conditional _ _ _ _
  | .dot _ _ _ | .slice _ _ _ _ _ | .call _ _ _ | .comprehension _ _ _ _ => by
    rw [Expr.targetFindings, names_refusal]
    · exact List.nil_sublist _
    all_goals nofun

theorem Expr.targetFindingsAll_names (fs : List Frame) :
    ∀ es : List Expr, (names (Expr.targetFindingsAll fs es)).Sublist (Expr.occurrencesAll es)
  | [] => .slnil
  | e :: es => by
    rw [Expr.targetFindingsAll, Expr.occurrencesAll, names_append]
    exact (Expr.targetFindings_names fs e).append (Expr.targetFindingsAll_names fs es)

end

theorem Parameter.defaultFindings_names (fs : List Frame) (ps : List Parameter) :
    (names (Parameter.defaultFindings fs ps)).Sublist (ps.flatMap Parameter.occurrences) := by
  induction ps with
  | nil => exact .slnil
  | cons p ps ih =>
    rw [Parameter.defaultFindings, List.flatMap_cons, names_append]
    refine List.Sublist.append ?_ ih
    refine List.Sublist.trans ?_ (List.sublist_append_left _ _)
    split
    · exact Expr.findingsOpt_names fs p.default
    · exact List.nil_sublist _

mutual

theorem Stmt.findings_names (fs : List Frame) (n : Nat) :
    ∀ s : Stmt, (names (s.findings fs n)).Sublist s.occurrences
  | .expr e _ => by
    rw [Stmt.findings, Stmt.occurrences]
    exact Expr.findings_names fs e
  | .assign lhs rhs _ => by
    rw [Stmt.findings, Stmt.occurrences, names_append]
    exact (Expr.findings_names fs rhs).append (Expr.targetFindings_names fs lhs)
  | .augmentedAssign _ lhs rhs _ => by
    unfold Stmt.findings
    rw [Stmt.occurrences, names_append, names_append, names_misplacedIf, List.nil_append]
    exact (Expr.findings_names fs rhs).append (Expr.targetFindings_names fs lhs)
  | .ifElse c a b _ => by
    rw [Stmt.findings, Stmt.occurrences, names_append, names_append, names_append,
      names_misplacedIf, List.nil_append]
    exact ((Expr.findings_names fs c).append (Stmt.findingsAll_names fs n a)).append
      (Stmt.findingsAll_names fs n b)
  | .forLoop lhs collection b _ => by
    rw [Stmt.findings, Stmt.occurrences, names_append, names_append, names_append,
      names_misplacedIf, List.nil_append]
    exact ((Expr.findings_names fs collection).append (Expr.targetFindings_names fs lhs)).append
      (Stmt.findingsAll_names fs (n + 1) b)
  | .define _ ps b _ => by
    rw [Stmt.findings, Stmt.occurrences, names_append, names_append, names_append,
      names_misplacedIf, names_noted, List.nil_append, List.append_nil]
    exact (((Parameter.defaultFindings_names fs ps).append
      (Stmt.findingsAll_names _ n b))).cons _
  | .returns result _ => by
    rw [Stmt.findings, Stmt.occurrences, names_append, names_misplacedIf, List.nil_append]
    exact Expr.findingsOpt_names fs result
  | .flow _ _ => by
    rw [Stmt.findings, names_misplacedIf]
    exact List.nil_sublist _
  | .load _ bs _ => by
    rw [Stmt.findings, Stmt.occurrences, names_append, names_misplacedIf, List.nil_append]
    simp [names, List.filterMap_map, Function.comp_def, name?]

theorem Stmt.findingsAll_names (fs : List Frame) (n : Nat) :
    ∀ ss : List Stmt, (names (Stmt.findingsAll fs n ss)).Sublist (Stmt.occurrencesAll ss)
  | [] => .slnil
  | s :: ss => by
    rw [Stmt.findingsAll, Stmt.occurrencesAll, names_append]
    exact (Stmt.findings_names fs n s).append (Stmt.findingsAll_names fs n ss)

end

/-- An identifier that is looked up, with the blocks around it, innermost first. -/
def Finding.site? : Finding → Option (Identifier × List Frame)
  | .name x frames => some (x, frames)
  | .misplaced _ _ | .noted _ | .unwritable => none

/-- The places of a file where identifiers are looked up, with the blocks around them. -/
def Stmt.sites (predeclared : List String) (ss : List Stmt) : List (Identifier × List Frame) :=
  (Stmt.findingsAll (Stmt.topFrames predeclared ss) 0 ss).filterMap Finding.site?

/-- The places to which the visit of a file comes. -/
def Stmt.reachedSites (predeclared : List String) (ss : List Stmt) :
    List (Identifier × List Frame) := (Stmt.visited predeclared ss).filterMap Finding.site?

theorem Stmt.reachedSites_isPrefix (predeclared : List String) (ss : List Stmt) :
    reachedSites predeclared ss <+: sites predeclared ss :=
  (List.takeWhile_prefix _).filterMap _

/-- The tag of a site: the scope of the innermost block that binds the name. -/
def siteTag? (site : Identifier × List Frame) : Option (Identifier × Scope) :=
  (Frame.find? site.2 site.1.name).map fun f => (site.1, f.scope)

theorem Settings.sites_noted (settings : Settings) (ss : List Stmt) :
    (settings.noted ss).filterMap Finding.site? = [] := by
  have hnoted : ∀ ds : List Diagnostic, (ds.map Finding.noted).filterMap Finding.site? = [] := by
    intro ds
    simp [List.filterMap_map, Function.comp_def, Finding.site?]
  rw [noted, List.filterMap_append, hnoted, List.append_nil]
  split
  · exact hnoted _
  · rfl

/-- Only a visit looks identifiers up. -/
theorem Settings.findings_sites (settings : Settings) (predeclared : List String)
    (ss : List Stmt) :
    (settings.findings predeclared ss).filterMap Finding.site? =
      Stmt.reachedSites predeclared ss := by
  rw [findings, List.filterMap_append, sites_noted, List.nil_append, Stmt.reachedSites]

/-- In a strict file the tags are those of the sites. -/
theorem Settings.tags_findings {settings : Settings} (hs : settings.buildFile = false)
    (predeclared : List String) (ss : List Stmt) :
    settings.tags (settings.findings predeclared ss) =
      (Stmt.reachedSites predeclared ss).filterMap siteTag? := by
  have hsite : Finding.tag? = fun e => e.site?.bind siteTag? := by
    funext e
    cases e <;> rfl
  rw [← settings.findings_sites, List.filterMap_filterMap, ← hsite, tags, hs]
  rfl

end Starlark
