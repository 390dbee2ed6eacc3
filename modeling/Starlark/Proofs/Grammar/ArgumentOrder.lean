import Mathlib.Data.List.Basic
import Starlark.Grammar.Meaning

/-! # The order of arguments

The legal orders of arguments are a regular language. They are also the lists in which every kind
may stand before all later ones, so a beginning of a legal order is one itself, and a scan that
remembers which kinds it has met finds the first argument after which nothing is legal any more.
-/
namespace Starlark

/-- Positional arguments, then keyword arguments, then at most one `*` argument and at most one
`**` argument. -/
def LegalOrder (ks : List ArgumentKind) : Prop :=
  ∃ p k s d : Nat, s ≤ 1 ∧ d ≤ 1 ∧
    ks = List.replicate p .positional ++ List.replicate k .keyword ++ List.replicate s .star
      ++ List.replicate d .starStar

/-- Can more kinds make a legal order of these? -/
def BeginsLegally (ks : List ArgumentKind) : Prop := ∃ more, LegalOrder (ks ++ more)

/-- May an argument of one kind stand anywhere before one of another? -/
def ArgumentKind.MayPrecede : ArgumentKind → ArgumentKind → Prop
  | .positional, _ => True
  | .keyword, y => y ≠ .positional
  | .star, y => y = .starStar
  | .starStar, _ => False

open ArgumentKind

variable {x y : ArgumentKind} {ks : List ArgumentKind}

theorem LegalOrder.cons (hks : LegalOrder ks) (h : ∀ y ∈ ks, x.MayPrecede y) :
    LegalOrder (x :: ks) := by
  obtain ⟨p, k, s, d, hs, hd, rfl⟩ := hks
  have hnone : ∀ {y : ArgumentKind} {n : Nat}, ¬x.MayPrecede y →
      (∀ z ∈ List.replicate n y, x.MayPrecede z) → n = 0 := by
    intro y n hy hn
    by_contra hne
    exact hy (hn y (List.mem_replicate.mpr ⟨hne, rfl⟩))
  simp only [List.forall_mem_append] at h
  obtain ⟨⟨⟨hp, hk⟩, hs'⟩, hd'⟩ := h
  cases x with
  | positional => exact ⟨p + 1, k, s, d, hs, hd, rfl⟩
  | keyword =>
    obtain rfl := hnone (by simp [MayPrecede]) hp
    exact ⟨0, k + 1, s, d, hs, hd, rfl⟩
  | star =>
    obtain rfl := hnone (by simp [MayPrecede]) hp
    obtain rfl := hnone (by simp [MayPrecede]) hk
    obtain rfl := hnone (by simp [MayPrecede]) hs'
    exact ⟨0, 0, 1, d, Nat.le_refl 1, hd, rfl⟩
  | starStar =>
    obtain rfl := hnone id hp
    obtain rfl := hnone id hk
    obtain rfl := hnone id hs'
    obtain rfl := hnone id hd'
    exact ⟨0, 0, 0, 1, hs, Nat.le_refl 1, rfl⟩

theorem LegalOrder.pairwise (h : LegalOrder ks) : ks.Pairwise MayPrecede := by
  obtain ⟨p, k, s, d, hs, hd, rfl⟩ := h
  have hcross : ∀ {x y : ArgumentKind} (n m : Nat), x.MayPrecede y →
      ∀ a ∈ List.replicate n x, ∀ b ∈ List.replicate m y, a.MayPrecede b := by
    intro x y n m h a ha b hb
    rw [List.eq_of_mem_replicate ha, List.eq_of_mem_replicate hb]
    exact h
  simp only [List.pairwise_append, List.mem_append, or_imp, forall_and, List.pairwise_replicate]
  exact ⟨⟨⟨.inr trivial, .inr nofun, hcross p k trivial⟩, .inl hs, hcross p s trivial,
    hcross k s nofun⟩, .inl hd, ⟨hcross p d trivial, hcross k d nofun⟩, hcross s d rfl⟩

/-- An order is legal exactly if every kind may stand before all later ones. -/
theorem legalOrder_iff : LegalOrder ks ↔ ks.Pairwise MayPrecede := by
  refine ⟨LegalOrder.pairwise, fun h => ?_⟩
  induction h with
  | nil => exact ⟨0, 0, 0, 0, Nat.zero_le 1, Nat.zero_le 1, rfl⟩
  | cons h _ ih => exact ih.cons h

/-- What begins a legal order is one. -/
theorem beginsLegally_iff : BeginsLegally ks ↔ ks.Pairwise MayPrecede := by
  constructor
  · rintro ⟨more, h⟩
    exact (List.pairwise_append.mp h.pairwise).1
  · intro h
    exact ⟨[], by rwa [List.append_nil, legalOrder_iff]⟩

theorem forall_mayPrecede_iff : (∀ x ∈ ks, x.MayPrecede y) ↔
    .starStar ∉ ks ∧ (y ≠ .starStar → .star ∉ ks) ∧ (y = .positional → .keyword ∉ ks) := by
  constructor
  · intro h
    exact ⟨h .starStar, fun hy hstar => hy (h .star hstar),
      fun hy hkeyword => h .keyword hkeyword hy⟩
  · rintro ⟨hstarStar, hstar, hkeyword⟩ x hx
    cases x with
    | positional => trivial
    | keyword => exact fun hy => hkeyword hy hx
    | star =>
      by_contra hy
      exact hstar hy hx
    | starStar => exact hstarStar hx

/-- The scan after arguments of some kinds, none of them misplaced. -/
def misplacedAfter (seen : List ArgumentKind) (as : List Argument) : Option (String × Argument) :=
  misplacedArgument? (.keyword ∈ seen) (.star ∈ seen) (.starStar ∈ seen) as

variable {seen : List ArgumentKind} {a : Argument} {as : List Argument}

theorem misplacedAfter_cons (h : ∀ x ∈ seen, x.MayPrecede a.kind) :
    misplacedAfter seen (a :: as) = misplacedAfter (seen ++ [a.kind]) as := by
  obtain ⟨hstarStar, hstar, hkeyword⟩ := forall_mayPrecede_iff.mp h
  rw [misplacedAfter, misplacedAfter, misplacedArgument?]
  cases hkind : a.kind with
  | positional => simp [hstarStar, hstar, hkeyword, hkind]
  | keyword => simp [hstarStar, hstar, hkind]
  | star => simp [hstarStar, hstar, hkind]
  | starStar => simp [hstarStar]

theorem misplacedAfter_cons_misplaced (as : List Argument)
    (h : ¬∀ x ∈ seen, x.MayPrecede a.kind) :
    ∃ message, misplacedAfter seen (a :: as) = some (message, a) := by
  rw [forall_mayPrecede_iff] at h
  rw [misplacedAfter, misplacedArgument?]
  by_cases hstarStar : .starStar ∈ seen
  · simp [hstarStar]
  · simp only [hstarStar, not_false_eq_true, true_and] at h
    cases hkind : a.kind with
    | positional =>
      have hmet : .keyword ∈ seen ∨ .star ∈ seen := by
        by_contra hnone
        exact h (by simpa [hkind, and_comm] using hnone)
      simp [hstarStar, hmet]
    | keyword =>
      have hstar : .star ∈ seen := by simpa [hkind] using h
      simp [hstarStar, hstar]
    | star =>
      have hstar : .star ∈ seen := by simpa [hkind] using h
      simp [hstarStar, hstar]
    | starStar => simp [hkind] at h

/-- A scan meets no misplaced argument if the order is legal, and else the first one after which
it is not. -/
theorem misplacedAfter_cases (as : List Argument) (hseen : seen.Pairwise MayPrecede) :
    misplacedAfter seen as = none ∧ (seen ++ as.map Argument.kind).Pairwise MayPrecede ∨
    ∃ before a after message, as = before ++ a :: after ∧
      misplacedAfter seen as = some (message, a) ∧
      (seen ++ before.map Argument.kind).Pairwise MayPrecede ∧
      ¬(seen ++ (before ++ [a]).map Argument.kind).Pairwise MayPrecede := by
  -- The kinds seen stand for the flags of the scan, so a step only adds one kind to them.
  induction as generalizing seen with
  | nil => exact .inl ⟨by simp [misplacedAfter, misplacedArgument?], by simpa using hseen⟩
  | cons a as ih =>
    have hnext : (seen ++ [a.kind]).Pairwise MayPrecede ↔ ∀ x ∈ seen, x.MayPrecede a.kind := by
      simp [List.pairwise_append, hseen]
    by_cases h : ∀ x ∈ seen, x.MayPrecede a.kind
    · rw [misplacedAfter_cons h]
      rcases ih (hnext.mpr h) with
        ⟨hnone, hall⟩ | ⟨before, b, after, message, rfl, hsome, hbefore, hb⟩
      · exact .inl ⟨hnone, by simpa using hall⟩
      · exact .inr ⟨a :: before, b, after, message, rfl, hsome, by simpa using hbefore,
          by simpa using hb⟩
    · obtain ⟨message, hsome⟩ := misplacedAfter_cons_misplaced as h
      exact .inr ⟨[], a, as, message, rfl, hsome, by simpa using hseen,
        fun hall => h (hnext.mp hall)⟩

namespace Build
variable (loc : Option Location) (f : Expr)

theorem call_run_inOrder (h : misplacedAfter [] as = none) (n : Notes) :
    (call loc f as).run.run n = (.ok (.call f as loc), n) := by
  change misplacedArgument? false false false as = none at h
  rw [call, h]
  rfl

theorem call_run_misplaced {message : String} (h : misplacedAfter [] as = some (message, a))
    (n : Notes) :
    (call loc f as).run.run n =
      (.ok (.call f as loc), { n with errors := n.errors ++ [{ message, loc := a.loc }] }) := by
  change misplacedArgument? false false false as = some (message, a) at h
  rw [call, h]
  rfl

/-- A call reports nothing about its arguments exactly if they are in a legal order. Otherwise it
reports one error, at the first argument whose kind, with those before it, begins no legal order. -/
theorem call_reports_order (as : List Argument) (n : Notes) :
    (((call loc f as).run.run n).2.errors = n.errors ↔ LegalOrder (as.map Argument.kind)) ∧
    ((call loc f as).run.run n = (.ok (.call f as loc), n) ∨
      ∃ before a after message, as = before ++ a :: after ∧
        BeginsLegally (before.map Argument.kind) ∧
        ¬BeginsLegally ((before ++ [a]).map Argument.kind) ∧
        (call loc f as).run.run n =
          (.ok (.call f as loc), { n with errors := n.errors ++ [{ message, loc := a.loc }] })) := by
  rcases misplacedAfter_cases as .nil with
    ⟨hnone, hall⟩ | ⟨before, a, after, message, rfl, hsome, hbefore, ha⟩
  · have hrun := call_run_inOrder loc f hnone n
    rw [hrun]
    exact ⟨iff_of_true rfl (legalOrder_iff.mpr hall), .inl rfl⟩
  · have hrun := call_run_misplaced loc f hsome n
    have hillegal : ¬LegalOrder ((before ++ a :: after).map Argument.kind) := by
      intro h
      have hall := h.pairwise
      rw [List.append_cons, List.map_append] at hall
      exact ha (List.pairwise_append.mp hall).1
    rw [hrun]
    refine ⟨iff_of_false (by simp) hillegal, .inr ⟨before, a, after, message, rfl, ?_, ?_, rfl⟩⟩
    · rwa [beginsLegally_iff]
    · rwa [beginsLegally_iff]

end Build
end Starlark
