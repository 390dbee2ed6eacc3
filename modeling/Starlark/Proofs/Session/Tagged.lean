import Starlark.Proofs.Resolve.Reached
import Starlark.Proofs.Session.Lexical

/-! # Accepted files are fully tagged

A strict validation that accepts a parsed file has tagged every occurrence of its tree, but for
the names of functions and of their parameters, and it has tagged nothing else.
-/
namespace Starlark

theorem ScopeTable.mem_numbers_iff (t : ScopeTable) (i : Nat) :
    i ∈ t.tags.map (·.1) ↔ ∃ x s, t.get? x = some s ∧ x.id = i := by
  constructor
  · intro hi
    have hsome : (t.tags.lookup i).isSome := by
      rw [List.lookup_isSome_iff]
      obtain ⟨p, hp, rfl⟩ := List.mem_map.mp hi
      exact ⟨p, hp, beq_self_eq_true p.1⟩
    obtain ⟨s, hs⟩ := Option.isSome_iff_exists.mp hsome
    exact ⟨⟨"", i, none⟩, s, hs, rfl⟩
  · rintro ⟨x, s, hx, rfl⟩
    have hsome : (t.tags.lookup x.id).isSome := Option.isSome_of_eq_some hx
    obtain ⟨p, hp, hid⟩ := List.lookup_isSome_iff.mp hsome
    exact List.mem_map.mpr ⟨p, hp, (beq_iff_eq.mp hid).symm⟩

/-- The sites of a file are the identifiers that its visit looks up. -/
theorem Stmt.mem_numbers_sites (predeclared : List String) (ss : List Stmt) (i : Nat) :
    i ∈ numbers (Finding.names (Stmt.findingsAll (Stmt.topFrames predeclared ss) 0 ss)) ↔
      ∃ site ∈ Stmt.sites predeclared ss, site.1.id = i := by
  have hname : Finding.name? = fun e => e.site?.map (·.1) := by
    funext e
    cases e <;> rfl
  rw [numbers, Finding.names, hname, ← List.map_filterMap, ← Stmt.sites, List.map_map,
    List.mem_map]
  rfl

namespace Workspace
variable {w v v' : Workspace} {text name : String} {f f' : SourceFile} {env : Environment}

theorem parse_proper (w : Workspace) (text name : String) :
    Stmt.ProperAll (w.parse text name).1.statements := by
  rcases w.statements_of_parse text name with hnone | ⟨notes, hstatements⟩
  · rw [hnone]
    exact True.intro
  · exact parseStatements_proper hstatements

/-- A file with the statements of a parse and a fresh table: if it is accepted, the numbers in its
table are those of all its occurrences but the names of functions and of parameters. -/
theorem validate_tags_all (hparse : (w.parse text name).1.statements = f.statements)
    (hfresh : f.tags = .empty) (hr : f.reporter < v.reporters.length)
    (h : v.validate f ⟨env, false⟩ = (.ok true, f', v')) (i : Nat) :
    i ∈ f'.tags.tags.map (·.1) ↔
      i ∈ numbers (Stmt.occurrencesAll f.statements) ∧
        i ∉ numbers (Stmt.functionNamesAll f.statements) := by
  have hproper : Stmt.ProperAll f.statements := hparse ▸ w.parse_proper text name
  have hnodup : (numbers (Stmt.occurrencesAll f.statements)).Nodup :=
    hparse ▸ (parsed_of_parse rfl).nodup
  have hcons : Stmt.Consistent f.statements := .of_subset hnodup fun _ hs => hs
  obtain ⟨known, hhalts, t, ht⟩ := recordAll_of_validate hr h
  rw [validate_ok known hr hhalts ht] at h
  simp only [Prod.mk.injEq, Except.ok.injEq] at h
  obtain ⟨hfine, rfl, -⟩ := h
  -- No errors: all findings are names, and all of these are bound.
  have hnone : (f.findings ⟨env, false⟩).filterMap (Finding.diagnostic? env) = [] := by
    have hnew := (List.append_eq_nil_iff.mp (List.isEmpty_iff.mp hfine)).2
    exact (List.append_eq_nil_iff.mp hnew).2
  have hstops := (Settings.any_stops_file ⟨env, false⟩ env.predeclared f.statements
    f.statements).trans hhalts
  rw [SourceFile.findings, Settings.findings, Stmt.visited_eq hhalts] at hnone
  obtain ⟨hsettled, hbound⟩ := (Finding.diagnostics_eq_nil _ _).mp ⟨hstops, hnone⟩
  rw [List.filterMap_append, Settings.sites_noted, List.nil_append, ← Stmt.sites] at hbound
  rw [Finding.settled_append] at hsettled
  rw [hfresh, SourceFile.findings, @Settings.tags_findings ⟨env, false⟩ rfl,
    Stmt.reachedSites_eq hhalts] at ht
  obtain ⟨hsites, honly⟩ :=
    ScopeTable.extends_sites hcons (List.Subset.refl _) (ScopeTable.extends_of_recordAll ht)
  rw [← Stmt.mem_numbers_names hproper hsettled.2 hnodup, Stmt.mem_numbers_sites,
    ScopeTable.mem_numbers_iff]
  constructor
  · rintro ⟨x, s, hx, rfl⟩
    exact honly x s hx
  · rintro ⟨site, hsite, rfl⟩
    have hsome := Frame.isSome_find?.mpr (hbound site hsite)
    obtain ⟨found, hfound⟩ := Option.isSome_iff_exists.mp hsome
    refine ⟨site.1, found.scope, ?_, rfl⟩
    rw [hsites site hsite, hfound, Option.map_some]

theorem validate_tags_all_of_function :
    ∃ f w f' w', empty.parse "y = 1\ndef f(x = y):\n  return x\n" "f.bzl" = (f, w) ∧
      f.tags = .empty ∧ f.reporter < w.reporters.length ∧
      w.validate f ⟨.standard {} [], false⟩ = (.ok true, f', w') ∧
      ∀ i, i ∈ f'.tags.tags.map (·.1) ↔
        i ∈ numbers (Stmt.occurrencesAll f.statements) ∧
          i ∉ numbers (Stmt.functionNamesAll f.statements) := by
  have fine : ((empty.parse "y = 1\ndef f(x = y):\n  return x\n" "f.bzl").2.validate
      (empty.parse "y = 1\ndef f(x = y):\n  return x\n" "f.bzl").1
      ⟨.standard {} [], false⟩).1.toOption = some true := by
    decide +kernel
  cases hparse : empty.parse "y = 1\ndef f(x = y):\n  return x\n" "f.bzl" with
  | mk f w =>
    have hp := parsed_of_parse hparse
    rw [hparse] at fine
    rcases hv : w.validate f ⟨.standard {} [], false⟩ with ⟨_ | accepted, f', w'⟩
    · rw [hv] at fine
      cases fine
    · rw [hv] at fine
      cases fine
      exact ⟨f, w, f', w', rfl, hp.tags_eq, hp.reporter_lt, hv,
        validate_tags_all (congrArg (·.1.statements) hparse) hp.tags_eq hp.reporter_lt hv⟩

end Workspace
end Starlark
