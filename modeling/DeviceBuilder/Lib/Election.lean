import DeviceBuilder.Lib.Dict
import Mathlib.Order.Lattice
import Mathlib.Data.List.Pairwise

/-!
# Elections

Candidates stand in groups and have a rank; the candidate of lowest rank in its
group is elected, among equals the first.

* `elect`: the elected candidate of each group.
* `elect_spec`: the elected one is a candidate of the group, and no candidate of
  the group has a lower rank.
* `exists_elect`: a group with a candidate has an elected one.
-/

namespace Election

variable {α β ρ : Type*} [DecidableEq β] [LinearOrder ρ]

/-- The first candidate of each group, in the order of `l`. -/
def firsts (group : α → β) (l : List α) : Dict β α :=
  l.foldl (fun d a => if (d.get? (group a)).isSome then d else d.set (group a) a) ∅

/-- The candidate of lowest rank in each group. -/
def elect (rank : α → ρ) (group : α → β) (l : List α) : Dict β α :=
  firsts group (l.mergeSort fun a b => decide (rank a ≤ rank b))

variable {rank : α → ρ} {group : α → β} {l : List α} {a : α} {b : β}

theorem get?_firsts (group : α → β) (l : List α) (b : β) :
    (firsts group l).get? b = l.find? fun a => decide (group a = b) := by
  have hrun : ∀ d : Dict β α,
      (l.foldl (fun d a => if (d.get? (group a)).isSome then d else d.set (group a) a) d).get? b =
        (d.get? b).or (l.find? fun a => decide (group a = b)) := by
    induction l with
    | nil => intro d; simp
    | cons a l ih =>
      intro d
      rw [List.foldl_cons, ih]
      by_cases hb : group a = b
      · subst hb
        cases hd : d.get? (group a) with
        | none => simp
        | some v => simp [hd]
      · have hfind : (a :: l).find? (fun a => decide (group a = b)) = l.find? fun a => decide (group a = b) := by
          simp [hb]
        rw [hfind]
        split
        · rfl
        · rw [Dict.get?_set_ne fun he => hb he.symm]
  exact (hrun ∅).trans (by simp)

theorem elect_spec (h : (elect rank group l).get? b = some a) :
    a ∈ l ∧ group a = b ∧ ∀ c ∈ l, group c = b → rank a ≤ rank c := by
  unfold elect at h
  rw [get?_firsts] at h
  have hperm := List.mergeSort_perm l fun a b => decide (rank a ≤ rank b)
  have hsorted : (l.mergeSort fun a b => decide (rank a ≤ rank b)).Pairwise fun a b => rank a ≤ rank b := by
    have htrans : ∀ a b c : α, decide (rank a ≤ rank b) = true → decide (rank b ≤ rank c) = true →
        decide (rank a ≤ rank c) = true :=
      fun a b c hab hbc => decide_eq_true (le_trans (of_decide_eq_true hab) (of_decide_eq_true hbc))
    have htotal : ∀ a b : α, (decide (rank a ≤ rank b) || decide (rank b ≤ rank a)) = true := by
      intro a b
      simp only [Bool.or_eq_true, decide_eq_true_eq]
      exact le_total (rank a) (rank b)
    have hp := List.pairwise_mergeSort htrans htotal l
    exact hp.imp fun hab => of_decide_eq_true hab
  refine ⟨hperm.mem_iff.1 (List.mem_of_find?_eq_some h), by simpa using List.find?_some h, fun c hc hb => ?_⟩
  -- the candidates before it are of other groups
  obtain ⟨-, as, bs, hl, has⟩ := List.find?_eq_some_iff_append.1 h
  have hc' : c ∈ as ++ a :: bs := hl ▸ hperm.mem_iff.2 hc
  rcases List.mem_append.1 hc' with hc' | hc'
  · have := has c hc'
    simp [hb] at this
  · rcases List.mem_cons.1 hc' with rfl | hc'
    · exact le_refl _
    · rw [hl] at hsorted
      exact List.rel_of_pairwise_cons (List.pairwise_append.1 hsorted).2.1 hc'

/-- A group with a candidate has an elected one. -/
theorem exists_elect (rank : α → ρ) (group : α → β) (ha : a ∈ l) :
    ∃ c, (elect rank group l).get? (group a) = some c := by
  unfold elect
  rw [get?_firsts]
  refine Option.isSome_iff_exists.1 (List.find?_isSome.2 ⟨a, ?_, by simp⟩)
  exact (List.mergeSort_perm l _).mem_iff.2 ha

end Election
