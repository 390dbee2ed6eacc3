import Starlark.Proofs.Scope.Conflicts
import Starlark.Proofs.Session.Validate

/-! # Where a validation raises an internal error

In a tree that was built by hand several places may share one identifier. A strict validation
raises an internal error exactly if some number comes with two scopes before the visit stops, and it
does so at the first such place; no other internal error can be met. A validation in build mode tags
nothing and raises none.
-/
namespace Starlark

/-- A finding whose tags cannot be recorded calls for a tag, and that one cannot be recorded. -/
theorem Settings.record_of_tags {settings : Settings} {t : ScopeTable} {e : Finding}
    {fault : Fault} (h : t.recordAll (settings.tags [e]) = .error fault) :
    ∃ x scope, e.tag? = some (x, scope) ∧ t.record x scope = .error fault := by
  rw [tags] at h
  split at h
  · cases h
  · rw [List.filterMap_cons] at h
    cases htag : e.tag? with
    | none =>
      rw [htag] at h
      cases h
    | some p =>
      obtain ⟨x, scope⟩ := p
      rw [htag] at h
      exact ⟨x, scope, rfl, (t.recordAll_singleton x scope).symm.trans h⟩

namespace SourceFile

/-- The numbers and scopes of the tags of a file and of those that some findings call for. -/
def pairs (f : SourceFile) (found : List Finding) : List (Nat × Scope) :=
  f.tags.entries ++ ScopeTable.pairs (found.filterMap Finding.tag?)

/-- Among the findings of a file, the one after `es` calls for a tag of `x`, and it is the first
with which a number comes with two scopes. -/
structure FirstConflict (f : SourceFile) (settings : Settings) (es : List Finding)
    (x : Identifier) (previous scope : Scope) : Prop where
  found : ∃ e ds, f.findings settings = es ++ e :: ds ∧ e.tag? = some (x, scope)
  before : ¬Conflicting (f.pairs es)
  previous_mem : (x.id, previous) ∈ f.pairs es
  ne : previous ≠ scope

theorem FirstConflict.conflicting {f : SourceFile} {settings : Settings} {es : List Finding}
    {x : Identifier} {previous scope : Scope} (h : f.FirstConflict settings es x previous scope) :
    Conflicting (f.pairs (f.findings settings)) := by
  obtain ⟨e, ds, hfound, htag⟩ := h.found
  have hpairs : f.pairs (f.findings settings) =
      f.pairs es ++ (x.id, scope) :: ScopeTable.pairs (ds.filterMap Finding.tag?) := by
    simp only [pairs, hfound, List.filterMap_append, List.filterMap_cons, htag, ScopeTable.pairs,
      List.map_append, List.map_cons, List.append_assoc]
  rw [hpairs]
  exact ⟨_, List.mem_append_left _ h.previous_mem, _,
    List.mem_append_right _ List.mem_cons_self, rfl, h.ne⟩

end SourceFile

namespace Workspace
variable {w w' : Workspace} {f f' : SourceFile} {env : Environment}

/-- What a validation has written when it stops after some findings. -/
structure StopsAfter (w : Workspace) (f : SourceFile) (settings : Settings) (es : List Finding)
    (f' : SourceFile) (w' : Workspace) : Prop where
  mem_entries : ∀ p, p ∈ f'.tags.entries ↔ p ∈ f.pairs es
  errors_eq : w'.errors f' = w.errors f ++ f.pendingEscapes settings
    ++ es.filterMap (Finding.diagnostic? settings.env)

/-- Where the tags of the findings do not agree, a fault is raised at the first conflict. -/
theorem validate_firstConflict (known : env.KnownFlags) (hr : f.reporter < w.reporters.length)
    {fault : Fault}
    (ht : f.tags.recordAll (Settings.tags ⟨env, false⟩ (f.findings ⟨env, false⟩)) =
      .error fault) :
    ∃ es x previous scope f' w', f.FirstConflict ⟨env, false⟩ es x previous scope ∧
      w.validate f ⟨env, false⟩ = (.error (.retagged x.name previous scope), f', w') ∧
      w.StopsAfter f ⟨env, false⟩ es f' w' := by
  obtain ⟨es, e, ds, t, hfound, htags, hfault, hv⟩ :=
    @validate_stops w f ⟨env, false⟩ known hr fault ht
  -- The table where it stops has the tags of `es`, so the previous scope is among these.
  have hmem : ∀ p, p ∈ t.entries ↔ p ∈ f.pairs es :=
    (ScopeTable.extends_of_recordAll htags).mem_entries
  obtain ⟨x, scope, htag, hrecord⟩ := Settings.record_of_tags hfault
  obtain ⟨previous, hprevious, hne, rfl⟩ := ScopeTable.record_error hrecord
  refine ⟨es, x, previous, scope, _, _, ?_, hv, hmem, ?_⟩
  · exact ⟨⟨e, ds, hfound, htag⟩, ScopeTable.not_conflicting_of_recordAll htags,
      (hmem _).mp hprevious, hne⟩
  · exact (errors_extend hr rfl _).trans (List.append_assoc _ _ _).symm

/-- Internal errors are conflicts of tags. In build mode there are none. A strict validation
raises one exactly if the tags of the file and those that its findings call for, in visiting
order, pair a number with two scopes. It raises it at the first place where they do: then all
tags before that place are added to those of the file, which are unchanged, and all errors before
it are reported. The only other fault, in either mode, is that of a target that cannot be reported,
and before it everything is written that was found. -/
theorem validate_internal_iff (known : env.KnownFlags) (hr : f.reporter < w.reporters.length) :
    (∃ fine f' w', w.validate f ⟨env, true⟩ =
      (if f.statements.any Stmt.halts then .error .unwritable else .ok fine, f', w')) ∧
    ((∃ fault f' w', w.validate f ⟨env, false⟩ = (.error fault, f', w') ∧
        fault.isInternal = true) ↔
      Conflicting (f.pairs (f.findings ⟨env, false⟩))) ∧
    ∀ fault f' w', w.validate f ⟨env, false⟩ = (.error fault, f', w') →
      (∃ es x previous scope, f.FirstConflict ⟨env, false⟩ es x previous scope ∧
        fault = .retagged x.name previous scope ∧ w.StopsAfter f ⟨env, false⟩ es f' w') ∨
      f.statements.any Stmt.halts = true ∧ fault = .unwritable ∧
        w.StopsAfter f ⟨env, false⟩ (f.findings ⟨env, false⟩) f' w' := by
  refine ⟨⟨_, _, _, @validate_eq w f ⟨env, true⟩ known hr f.tags rfl⟩, ?_⟩
  cases ht : f.tags.recordAll (Settings.tags ⟨env, false⟩ (f.findings ⟨env, false⟩)) with
  | error fault =>
    obtain ⟨es, x, previous, scope, f', w', hfirst, hv, hstops⟩ :=
      validate_firstConflict known hr ht
    rw [hv]
    refine ⟨iff_of_true ⟨_, _, _, rfl, rfl⟩ hfirst.conflicting, ?_⟩
    rintro _ _ _ ⟨⟩
    exact .inl ⟨es, x, previous, scope, hfirst, rfl, hstops⟩
  | ok t =>
    have hnot := ScopeTable.not_conflicting_of_recordAll ht
    rw [@validate_eq w f ⟨env, false⟩ known hr t ht]
    refine ⟨iff_of_false ?_ hnot, ?_⟩
    · rintro ⟨fault, f', w', h, hinternal⟩
      split at h
      · cases h
        cases hinternal
      · cases h
    · rintro fault f' w' h
      split at h
      · next hhalts =>
        cases h
        refine .inr ⟨hhalts, rfl, (ScopeTable.extends_of_recordAll ht).mem_entries, ?_⟩
        exact (errors_extend hr rfl _).trans (List.append_assoc _ _ _).symm
      · cases h

/-- One identifier at top level and in a function that has a parameter of its name. -/
def sharedIdentifier : List Stmt :=
  [.assign (.ident ⟨"x", 0, none⟩) (.int 1 none) none,
    .define ⟨"f", 1, none⟩ [⟨.mandatory, some ⟨"x", 2, none⟩, none, none⟩]
      [.expr (.ident ⟨"x", 0, none⟩) none] none]

theorem validate_internal_of_sharedIdentifier :
    ∃ f w env, empty.build sharedIdentifier "f.bzl" = (f, w) ∧
      env.KnownFlags ∧ f.reporter < w.reporters.length ∧
      (∃ fine f' w', w.validate f ⟨env, true⟩ =
        (if f.statements.any Stmt.halts then .error .unwritable else .ok fine, f', w')) ∧
      Conflicting (f.pairs (f.findings ⟨env, false⟩)) ∧
      ∃ fault f' w', w.validate f ⟨env, false⟩ = (.error fault, f', w') ∧
        fault.isInternal = true ∧
        ((∃ es x previous scope, f.FirstConflict ⟨env, false⟩ es x previous scope ∧
          fault = .retagged x.name previous scope ∧ w.StopsAfter f ⟨env, false⟩ es f' w') ∨
        f.statements.any Stmt.halts = true ∧ fault = .unwritable ∧
          w.StopsAfter f ⟨env, false⟩ (f.findings ⟨env, false⟩) f' w') := by
  have known : (Environment.standard {} []).KnownFlags := by
    intro g hg
    cases hg
  have hr : (empty.build sharedIdentifier "f.bzl").1.reporter <
      (empty.build sharedIdentifier "f.bzl").2.reporters.length := Nat.zero_lt_one
  have hconflict : Conflicting ((empty.build sharedIdentifier "f.bzl").1.pairs
      ((empty.build sharedIdentifier "f.bzl").1.findings ⟨.standard {} [], false⟩)) := by
    decide
  obtain ⟨hbuild, hiff, hfirst⟩ := validate_internal_iff known hr
  obtain ⟨fault, f', w', hv, hinternal⟩ := hiff.mpr hconflict
  exact ⟨_, _, _, rfl, known, hr, hbuild, hconflict, fault, f', w', hv, hinternal,
    hfirst fault f' w' hv⟩

end Workspace
end Starlark
