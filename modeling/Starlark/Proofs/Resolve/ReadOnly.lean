import Mathlib.Data.List.Basic
import Starlark.Proofs.Resolve.Messages
import Starlark.Proofs.Resolve.Order

/-! # Repeated bindings

The message of a repeated binding is like no other message of a file without guarded names. So
the errors of a file in which names may be bound again are the other ones.
-/
namespace Starlark

/-- An error for a repeated binding at module level. -/
def Diagnostic.IsReadOnly (d : Diagnostic) : Prop := ∃ name loc, d = readOnlyError name loc

/-- What follows the name in the message of a repeated binding. -/
def readOnlyRest : String := " is read only (read more at " ++ readOnlyUrl ++ ")"

/-- The name in the message of a repeated binding. -/
def readOnlyName (message : String) : String :=
  .ofList ((message.toList.drop 9).take (message.length - (9 + readOnlyRest.length)))

theorem readOnlyError_message (name : String) (loc : Option Location) :
    (readOnlyError name loc).message = "Variable " ++ name ++ readOnlyRest := by
  unfold readOnlyError readOnlyRest
  generalize " is read only (read more at " = middle
  simp only [String.append_assoc]

theorem readOnlyName_message (name : String) (loc : Option Location) :
    readOnlyName (readOnlyError name loc).message = name := by
  have hpre : "Variable ".toList.length = 9 := rfl
  have hdrop : ("Variable " ++ name ++ readOnlyRest).toList.drop 9 =
      name.toList ++ readOnlyRest.toList := by
    rw [String.toList_append, String.toList_append, List.append_assoc, List.drop_left' hpre]
  have hlen : ("Variable " ++ name ++ readOnlyRest).length - (9 + readOnlyRest.length) =
      name.toList.length := by
    rw [String.length_append, String.length_append, ← String.length_toList, hpre,
      String.length_toList]
    omega
  rw [readOnlyError_message, readOnlyName, hdrop, hlen, List.take_left, String.ofList_toList]

instance : DecidablePred Diagnostic.IsReadOnly := fun d =>
  decidable_of_iff (d = readOnlyError (readOnlyName d.message) d.loc) (by
    constructor
    · exact fun h => ⟨_, _, h⟩
    · rintro ⟨name, loc, rfl⟩
      rw [readOnlyName_message]
      rfl)

/-- A text that begins in another way is not about a repeated binding. -/
theorem BeginsWith.not_isReadOnly {fronts : List String} {d : Diagnostic}
    (h : BeginsWith fronts d.message)
    (hapart : ∀ t ∈ fronts, ¬ t.toList <+: "Variable ".toList ∧ ¬ "Variable ".toList <+: t.toList) :
    ¬ d.IsReadOnly := by
  rintro ⟨name, loc, rfl⟩
  refine h.not_begins hapart ?_
  rw [readOnlyError_message, String.append_assoc, String.toList_append]
  exact List.prefix_append _ _

theorem Finding.kinds_not_isReadOnly {env : Environment} (h : env.guarded = []) :
    Finding.Kinds fun e => ∀ d ∈ e.diagnostic? env, ¬ d.IsReadOnly where
  name x frames d hd := by
    have hhidden : env.hiddenNames = [] := by rw [Environment.hiddenNames, h, List.filter_nil]
    rw [Finding.diagnostic?] at hd
    split at hd
    · cases hd
    · rw [unresolvedError, hhidden] at hd
      cases hd
      exact (unknownNameMessage_beginsWith _ _).not_isReadOnly (by decide)
  misplaced m loc d hd := by
    cases hd
    exact m.message_beginsWith.not_isReadOnly (by decide)
  noted bs d hd := by
    rintro _ ⟨⟩
    exact (repeatedLoads_beginsWith [] bs d hd).not_isReadOnly (by decide)
  unwritable := nofun

/-- Where names may be bound again, the errors of a collection are those that are no repeated
bindings. -/
theorem Declared.filter_errors {ds : List Declared}
    (h : ∀ d ∈ ds.filterMap note?, ¬ d.IsReadOnly) (seen : List String) :
    (errors true seen ds).filter (¬ ·.IsReadOnly) = errors false seen ds := by
  induction ds generalizing seen with
  | nil => rfl
  | cons d ds ih =>
    cases d with
    | bound x =>
      have hx : (readOnlyError x.name x.loc).IsReadOnly := ⟨_, _, rfl⟩
      simp only [errors, List.filter_append, ih h]
      split
      · simp [hx]
      · simp
    | noted d =>
      rw [List.filterMap_cons, note?, List.forall_mem_cons] at h
      have hd : decide (¬ d.IsReadOnly) = true := decide_eq_true h.1
      rw [errors, List.filter_cons, hd, if_pos rfl, ih h.2, errors]

/-- The diagnostics of a build file: those of a strict file without a check of the loads, less the
repeated bindings. -/
theorem Settings.filter_findings {env : Environment} (h : env.guarded = [])
    (predeclared : List String) (ss : List Stmt) :
    (Declared.errors true [] (Stmt.declaredAll ss) ++
        (Stmt.visited predeclared ss).filterMap (Finding.diagnostic? env)).filter
          (¬ ·.IsReadOnly) =
      Declared.errors false [] (Stmt.declaredAll ss) ++
        (Stmt.visited predeclared ss).filterMap (Finding.diagnostic? env) := by
  have hkinds := Finding.kinds_not_isReadOnly h
  have hnotes : ∀ d ∈ (Stmt.declaredAll ss).filterMap Declared.note?, ¬ d.IsReadOnly :=
    fun d hd => Stmt.forall_notesAll hkinds ss d hd d rfl
  rw [List.filter_append, Declared.filter_errors hnotes]
  refine congrArg _ (List.filter_eq_self.mpr fun d hd => ?_)
  obtain ⟨e, he, hde⟩ := List.mem_filterMap.mp hd
  exact decide_eq_true (Stmt.forall_visited hkinds predeclared ss e he d hde)

end Starlark
