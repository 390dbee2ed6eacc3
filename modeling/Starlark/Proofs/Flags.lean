import Starlark.Environment

/-! # Environments with known flags

A name that depends on a flag that does not exist makes every question about the environment
fail. Where all flags are known the visible and the restricted names are plain filters, and
together they are all the guarded names.
-/
namespace Starlark

def Semantics.Knows (name : String) : Prop := name = loadFlag ∨ name = escapesFlag

instance (name : String) : Decidable (Semantics.Knows name) :=
  inferInstanceAs (Decidable (name = Semantics.loadFlag ∨ name = Semantics.escapesFlag))

/-- The value of a known flag. -/
def Semantics.isOn (s : Semantics) (name : String) : Bool :=
  if name = loadFlag then s.disallowLoadAfterStatement else s.restrictStringEscapes

theorem Semantics.flag_of_knows {name : String} (s : Semantics) (h : Knows name) :
    s.flag name = .ok (s.isOn name) := by
  rcases h with rfl | rfl
  · rfl
  · rfl

/-- Only a known flag has a value, and the fault of an unknown one is no internal error. -/
theorem Semantics.flag_cases (s : Semantics) (name : String) :
    Knows name ∨ s.flag name = .error (.unknownFlag name) := by
  by_cases hl : name = loadFlag
  · exact Or.inl (Or.inl hl)
  · by_cases he : name = escapesFlag
    · exact Or.inl (Or.inr he)
    · exact Or.inr (by simp only [flag, hl, he, ↓reduceIte])

/-- Is a name whose flag is known in reach? -/
def GuardedName.isVisible (g : GuardedName) (s : Semantics) : Bool :=
  match g.guard with
  | .experimental => s.isOn g.flag
  | .deprecated => !s.isOn g.flag

theorem GuardedName.isAccessible_of_knows {g : GuardedName} (s : Semantics)
    (h : Semantics.Knows g.flag) : g.isAccessible s = .ok (g.isVisible s) := by
  cases hguard : g.guard with
  | experimental => simp only [isAccessible, isVisible, s.flag_of_knows h, hguard, Except.map]
  | deprecated => simp only [isAccessible, isVisible, s.flag_of_knows h, hguard, Except.map]

namespace Environment

/-- Every guarded name depends on a flag that exists. -/
def KnownFlags (env : Environment) : Prop := ∀ g ∈ env.guarded, Semantics.Knows g.flag

/-- Is a flag that of the first guarded name whose flag does not exist? -/
def FirstUnknown (env : Environment) (flag : String) : Prop :=
  ∃ before g after, env.guarded = before ++ g :: after ∧
    (∀ g' ∈ before, Semantics.Knows g'.flag) ∧ ¬Semantics.Knows g.flag ∧ g.flag = flag

theorem firstUnknown_or_knownFlags (env : Environment) :
    env.KnownFlags ∨ ∃ flag, env.FirstUnknown flag := by
  cases hfind : env.guarded.find? (fun g => ¬Semantics.Knows g.flag) with
  | none => exact Or.inl fun g hg => by simpa using List.find?_eq_none.mp hfind g hg
  | some g =>
    obtain ⟨hunknown, before, after, hsplit, hbefore⟩ := List.find?_eq_some_iff_append.mp hfind
    exact Or.inr ⟨g.flag, before, g, after, hsplit, by simpa using hbefore, by simpa using hunknown,
      rfl⟩

private theorem filterAuxM_ok {α : Type} {p : α → Except Fault Bool} {q : α → Bool}
    (xs acc : List α) (h : ∀ x ∈ xs, p x = .ok (q x)) :
    List.filterAuxM p xs acc = .ok ((xs.filter q).reverse ++ acc) := by
  induction xs generalizing acc with
  | nil => rfl
  | cons x xs ih =>
    have hx := h x List.mem_cons_self
    have hxs := fun y hy => h y (List.mem_cons_of_mem x hy)
    simp only [List.filterAuxM, hx, bind, Except.bind]
    cases hq : q x with
    | true => simpa [hq] using ih (x :: acc) hxs
    | false => simpa [hq] using ih acc hxs

/-- A filter stops at the first element that has no answer. -/
private theorem filterAuxM_stops {α : Type} {p : α → Except Fault Bool} {before : List α} {x : α}
    {fault : Fault} (hbefore : ∀ y ∈ before, ∃ b, p y = .ok b) (hx : p x = .error fault)
    (after acc : List α) : List.filterAuxM p (before ++ x :: after) acc = .error fault := by
  induction before generalizing acc with
  | nil => simp only [List.nil_append, List.filterAuxM, hx, bind, Except.bind]
  | cons y ys ih =>
    obtain ⟨b, hb⟩ := hbefore y List.mem_cons_self
    simp only [List.cons_append, List.filterAuxM, hb, bind, Except.bind]
    exact ih (fun z hz => hbefore z (List.mem_cons_of_mem y hz)) _

variable {env : Environment} {flag : String}

/-- The guarded names that are out of reach, where all flags are known. -/
def hiddenNames (env : Environment) : List GuardedName :=
  env.guarded.filter fun g => !g.isVisible env.semantics

/-- The names of the universe block, where all flags are known. -/
def predeclared (env : Environment) : List String :=
  (env.globals ++ (env.guarded.filter (·.isVisible env.semantics)).map (·.name)).eraseDups

theorem guardedWhere_eq (h : env.KnownFlags) (accessible : Bool) :
    env.guardedWhere accessible =
      .ok (env.guarded.filter fun g => g.isVisible env.semantics == accessible) := by
  have hg : ∀ g ∈ env.guarded, (g.isAccessible env.semantics).map (· == accessible) =
      .ok (g.isVisible env.semantics == accessible) := by
    intro g hg
    rw [g.isAccessible_of_knows env.semantics (h g hg), Except.map]
  simp only [guardedWhere, List.filterM, filterAuxM_ok env.guarded [] hg, bind, Except.bind,
    pure, Except.pure, List.append_nil, List.reverse_reverse]

theorem restricted_eq (h : env.KnownFlags) : env.restricted = .ok env.hiddenNames := by
  simp only [restricted, guardedWhere_eq h, hiddenNames, beq_false]

theorem variableNames_eq (h : env.KnownFlags) : env.variableNames = .ok env.predeclared := by
  simp only [variableNames, guardedWhere_eq h, Except.map, predeclared, beq_true]

/-- Where a flag is unknown, the names of an accessibility are not at hand, and the fault is that of
the first such flag. -/
theorem FirstUnknown.guardedWhere (h : env.FirstUnknown flag) (accessible : Bool) :
    env.guardedWhere accessible = .error (.unknownFlag flag) := by
  obtain ⟨before, g, after, hsplit, hbefore, hunknown, rfl⟩ := h
  have hanswers : ∀ g' ∈ before, ∃ b,
      (g'.isAccessible env.semantics).map (· == accessible) = .ok b := fun g' hg' =>
    ⟨_, by rw [g'.isAccessible_of_knows env.semantics (hbefore g' hg'), Except.map]⟩
  have hfault : (g.isAccessible env.semantics).map (· == accessible) =
      .error (.unknownFlag g.flag) := by
    rw [GuardedName.isAccessible, (env.semantics.flag_cases g.flag).resolve_left hunknown]
    rfl
  rw [Environment.guardedWhere, hsplit, List.filterM, filterAuxM_stops hanswers hfault]
  rfl

theorem FirstUnknown.variableNames (h : env.FirstUnknown flag) :
    env.variableNames = .error (.unknownFlag flag) := by
  rw [Environment.variableNames, h.guardedWhere, Except.map]

theorem guardedWhere_fault (env : Environment) (accessible : Bool) :
    env.KnownFlags ∨ ∃ name, env.guardedWhere accessible = .error (.unknownFlag name) :=
  env.firstUnknown_or_knownFlags.imp_right fun ⟨flag, h⟩ => ⟨flag, h.guardedWhere accessible⟩

theorem knownFlags_or_fault (env : Environment) :
    env.KnownFlags ∨ ∃ name, env.variableNames = .error (.unknownFlag name) :=
  env.firstUnknown_or_knownFlags.imp_right fun ⟨flag, h⟩ => ⟨flag, h.variableNames⟩

end Environment
end Starlark
