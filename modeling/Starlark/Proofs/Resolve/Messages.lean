import Starlark.Proofs.Diagnostic.Wording
import Starlark.Proofs.Resolve.Kinds

/-! # How messages begin and end

The end of a message of a validation is one of a few fixed texts, and so is its beginning, unless
it is about a guarded name. So a text that begins or ends in another way is no such message.
-/
namespace Starlark

/-- How messages about what stands out of place begin. -/
def misplacedFronts : List String :=
  ["if ", "for ", "return ", "load ", "nested ", "break", "continue", "pass", "cannot "]

theorem Misplacement.message_beginsWith (m : Misplacement) :
    BeginsWith misplacedFronts m.message := by
  cases m with
  | conditionalAtTop => exact .append ⟨"if ", by decide, by decide⟩ _
  | loopAtTop => exact .append ⟨"for ", by decide, by decide⟩ _
  | returnAtTop => exact ⟨"return ", by decide, by decide⟩
  | loadInFunction => exact ⟨"load ", by decide, by decide⟩
  | functionInFunction => exact ⟨"nested ", by decide, by decide⟩
  | flowOutsideLoop kind =>
    cases kind with
    | breakLoop => exact .append ⟨"break", by decide, by decide⟩ _
    | continueLoop => exact .append ⟨"continue", by decide, by decide⟩ _
    | pass => exact .append ⟨"pass", by decide, by decide⟩ _
  | augmentedPattern => exact ⟨"cannot ", by decide, by decide⟩
  | notAssignable target => exact .append (.append ⟨"cannot ", by decide, by decide⟩ _) _

/-- How messages about unknown names begin. -/
def unknownNameFronts : List String := ["contains ", "The value ", "name '"]

theorem obsoleteMessage?_beginsWith {name message : String}
    (h : obsoleteMessage? name = some message) : BeginsWith ["The value "] message := by
  unfold obsoleteMessage? at h
  split at h
  · cases h
    exact .append (.append (.append ⟨"The value ", by decide, by decide⟩ _) _) _
  · split at h
    · cases h
      exact .append (.append (.append ⟨"The value ", by decide, by decide⟩ _) _) _
    · cases h

theorem unknownNameMessage_beginsWith (name : String) (candidates : List String) :
    BeginsWith unknownNameFronts (unknownNameMessage name candidates) := by
  unfold unknownNameMessage
  split
  · exact ⟨"contains ", by decide, by decide⟩
  · split
    · next message h =>
      obtain ⟨t, ht, hprefix⟩ := obsoleteMessage?_beginsWith h
      obtain rfl := List.mem_singleton.mp ht
      exact ⟨_, by decide, hprefix⟩
    · exact .append (.append (.append ⟨"name '", by decide, by decide⟩ _) _) _

/-- An error of a load is about a name that it binds again. -/
theorem repeatedLoads_message (seen : List String) (bs : List LoadBinding) :
    ∀ d ∈ repeatedLoads seen bs,
      ∃ name, d.message = "load statement defines '" ++ name ++ "' more than once" := by
  induction bs generalizing seen with
  | nil => simp [repeatedLoads]
  | cons b bs ih =>
    simp only [repeatedLoads]
    split
    · rw [List.forall_mem_cons]
      exact ⟨⟨_, rfl⟩, ih _⟩
    · exact ih _

theorem repeatedLoads_beginsWith (seen : List String) (bs : List LoadBinding) :
    ∀ d ∈ repeatedLoads seen bs, BeginsWith ["load "] d.message := by
  intro d hd
  obtain ⟨name, hname⟩ := repeatedLoads_message seen bs d hd
  rw [hname]
  exact .append (.append ⟨"load ", by decide, by decide⟩ _) _

theorem mem_loadOrderErrors (first : Option Location) (ss : List Stmt) :
    ∀ d ∈ loadOrderErrors first ss, ∃ l loc, d = loadOrderError l loc := by
  induction ss generalizing first with
  | nil => simp [loadOrderErrors]
  | cons s ss ih =>
    cases first with
    | none =>
      simp only [loadOrderErrors]
      split
      · exact ih _
      · split
        · exact ih _
        · exact ih _
    | some l =>
      simp only [loadOrderErrors]
      split
      · exact ih _
      · split
        · rw [List.forall_mem_cons]
          exact ⟨⟨l, s.loc, rfl⟩, ih _⟩
        · exact ih _

theorem loadOrderErrors_beginsWith (first : Option Location) (ss : List Stmt) :
    ∀ d ∈ loadOrderErrors first ss, BeginsWith ["load() "] d.message := by
  intro d hd
  obtain ⟨l, loc, rfl⟩ := mem_loadOrderErrors first ss d hd
  have hfront : BeginsWith ["load() "]
      "load() statements must be called before any other statement. " :=
    ⟨"load() ", by decide, by decide⟩
  exact ((((hfront.append _).append _).append _).append _).append _

theorem readOnlyError_beginsWith (name : String) (loc : Option Location) :
    BeginsWith ["Variable "] (readOnlyError name loc).message :=
  .append (.append (.append (.append ⟨"Variable ", by decide, by decide⟩ _) _) _) _

/-- The break, continue or pass that a finding reports. -/
def Finding.flow? : Finding → Option (FlowKind × Option Location)
  | .misplaced (.flowOutsideLoop kind) loc => some (kind, loc)
  | _ => none

/-- How messages end, but for those about a break or continue. -/
def messageEndings : List String :=
  ["y).", "sequence]", "inside a function", "top level", "top level.", "tuple expression", "'",
    "(s)", "). ", ").", "defined", "?)", "once", ")", "this check.",
    "setting --" ++ Semantics.loadFlag, "setting --" ++ Semantics.escapesFlag,
    "setting --" ++ Semantics.loadFlag ++ "=false",
    "setting --" ++ Semantics.escapesFlag ++ "=false"]

def EndsAsListed (text : String) : Prop := ∃ t ∈ messageEndings, t.toList <:+ text.toList

namespace EndsAsListed

theorem append {text : String} (h : EndsAsListed text) (front : String) :
    EndsAsListed (front ++ text) := EndsWith.append h front

theorem not_suffix {text ending : String} (h : EndsAsListed text)
    (hapart : ∀ t ∈ messageEndings, ¬ t.toList <:+ ending.toList ∧ ¬ ending.toList <:+ t.toList) :
    ¬ ending.toList <:+ text.toList := EndsWith.not_suffix h hapart

end EndsAsListed

theorem Misplacement.endsAsListed_or_flow (m : Misplacement) :
    EndsAsListed m.message ∨ ∃ kind, m = .flowOutsideLoop kind := by
  cases m with
  | conditionalAtTop => exact .inl (.append ⟨"y).", by decide, by decide⟩ _)
  | loopAtTop => exact .inl (.append ⟨"sequence]", by decide, by decide⟩ _)
  | returnAtTop => exact .inl ⟨"inside a function", by decide, by decide⟩
  | loadInFunction => exact .inl ⟨"top level", by decide, by decide⟩
  | functionInFunction => exact .inl ⟨"top level.", by decide, by decide⟩
  | flowOutsideLoop kind => exact .inr ⟨kind, rfl⟩
  | augmentedPattern => exact .inl ⟨"tuple expression", by decide, by decide⟩
  | notAssignable target => exact .inl (.append ⟨"'", by decide, by decide⟩ _)

theorem unknownNameMessage_endsAsListed (name : String) (candidates : List String) :
    EndsAsListed (unknownNameMessage name candidates) := by
  unfold unknownNameMessage
  split
  · exact ⟨"(s)", by decide, by decide⟩
  · split
    · next message h =>
      unfold obsoleteMessage? at h
      split at h
      · cases h
        exact .append ⟨"). ", by decide, by decide⟩ _
      · split at h
        · cases h
          exact .append ⟨").", by decide, by decide⟩ _
        · cases h
    · unfold Spelling.didYouMean
      split
      · rw [String.append_empty]
        exact .append ⟨"defined", by decide, by decide⟩ _
      · exact .append (.append ⟨"?)", by decide, by decide⟩ _) _

theorem EndsAsListed.setting {back : String} (h : "setting --" ++ back ∈ messageEndings)
    (front : String) : EndsAsListed (front ++ ("setting --" ++ back)) := by
  refine ⟨_, h, ?_⟩
  rw [String.toList_append (s := front)]
  exact List.suffix_append _ _

/-- The message for a guarded name ends with its flag, or says that the flag is off. -/
theorem GuardedName.accessMessage_endsAsListed {g : GuardedName} (h : Semantics.Knows g.flag) :
    EndsAsListed g.accessMessage := by
  have henabled : "It may be enabled by setting --" = "It may be enabled by " ++ "setting --" := by
    decide
  have hreenabled : "It may be temporarily re-enabled by setting --" =
      "It may be temporarily re-enabled by " ++ "setting --" := by
    decide
  unfold accessMessage
  cases g.guard with
  | experimental =>
    simp only [henabled, String.append_assoc]
    refine .append (.append (.setting ?_ _) _) _
    rcases h with h | h <;> rw [h] <;> decide
  | deprecated =>
    simp only [hreenabled, String.append_assoc]
    refine .append (.append (.setting ?_ _) _) _
    rcases h with h | h <;> rw [h] <;> decide

theorem repeatedLoads_endsAsListed (seen : List String) (bs : List LoadBinding) :
    ∀ d ∈ repeatedLoads seen bs, EndsAsListed d.message := by
  intro d hd
  obtain ⟨name, hname⟩ := repeatedLoads_message seen bs d hd
  rw [hname]
  exact .append ⟨"once", by decide, by decide⟩ _

theorem readOnlyError_endsAsListed (name : String) (loc : Option Location) :
    EndsAsListed (readOnlyError name loc).message :=
  .append ⟨")", by decide, by decide⟩ _

theorem loadOrderErrors_endsAsListed (first : Option Location) (ss : List Stmt) :
    ∀ d ∈ loadOrderErrors first ss, EndsAsListed d.message := by
  intro d hd
  obtain ⟨l, loc, rfl⟩ := mem_loadOrderErrors first ss d hd
  exact .append ⟨"this check.", by decide, by decide⟩ _

/-- A finding that is not about a break or continue gives a message that ends as listed. -/
def Finding.EndsAsListed (env : Environment) (e : Finding) : Prop :=
  e.flow? = none → ∀ d ∈ e.diagnostic? env, Starlark.EndsAsListed d.message

theorem Finding.endsAsListed_noted (env : Environment) (d : Diagnostic) :
    (noted d).EndsAsListed env ↔ Starlark.EndsAsListed d.message := by
  simp [Finding.EndsAsListed, flow?, diagnostic?]

theorem Finding.kinds_endsAsListed {env : Environment} (known : env.KnownFlags) :
    Kinds (·.EndsAsListed env) := by
  refine ⟨fun x frames _ d hd => ?_, fun m loc hflow d hd => ?_, fun bs d hd => ?_, nofun⟩
  · rw [diagnostic?] at hd
    split at hd
    · cases hd
    · cases hd
      rw [unresolvedError]
      split
      · next g hg =>
        have hguarded : g ∈ env.guarded := List.mem_of_mem_filter (List.mem_of_find?_eq_some hg)
        exact GuardedName.accessMessage_endsAsListed (known g hguarded)
      · exact unknownNameMessage_endsAsListed _ _
  · cases hd
    rcases m.endsAsListed_or_flow with hm | ⟨kind, rfl⟩
    · exact hm
    · cases hflow
  · exact (endsAsListed_noted env d).mpr (repeatedLoads_endsAsListed [] bs d hd)

/-- What a file gives rise to is about a break or continue, or its message ends as listed. -/
theorem Settings.findings_endsAsListed {settings : Settings} (known : settings.env.KnownFlags)
    (predeclared : List String) (ss : List Stmt) :
    ∀ e ∈ settings.findings predeclared ss, e.EndsAsListed settings.env := by
  refine forall_findings (Finding.kinds_endsAsListed known) (fun name loc => ?_) (fun d hd => ?_)
  · exact (Finding.endsAsListed_noted _ _).mpr (readOnlyError_endsAsListed name loc)
  · exact (Finding.endsAsListed_noted _ _).mpr (loadOrderErrors_endsAsListed none ss d hd)

end Starlark
