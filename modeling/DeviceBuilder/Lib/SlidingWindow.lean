import Mathlib.Data.List.Basic
import Mathlib.Order.Interval.Set.Defs
import Mathlib.Order.Lattice

/-!
# Sliding windows over recorded times

A list of non-decreasing times, from which the ones before a cutoff are dropped.

* `since_sublist`: what lies in the window is kept, in order.
* `le_of_mem_since`: nothing else is.
-/

namespace SlidingWindow

variable {T : Type*} [LinearOrder T] {cutoff a : T} {times kept : List T}

/-- The times from the cutoff on, of a non-decreasing list. -/
def since (cutoff : T) (times : List T) : List T := times.dropWhile (· < cutoff)

theorem since_cons : since cutoff (a :: times) =
    if a < cutoff then since cutoff times else a :: times := by
  unfold since
  rw [List.dropWhile_cons]
  simp

theorem since_sublist_self (cutoff : T) (times : List T) : (since cutoff times).Sublist times := List.dropWhile_sublist _

/-- **What lies in the window is kept.** -/
theorem since_sublist (h : kept.Sublist times) (hk : ∀ a ∈ kept, cutoff ≤ a) :
    kept.Sublist (since cutoff times) := by
  induction h with
  | slnil => exact List.Sublist.slnil
  | @cons kept times a hsub ih =>
    rw [since_cons]
    split_ifs with ha
    · exact ih hk
    · exact hsub.cons a
  | @cons_cons kept times a hsub ih =>
    rw [since_cons, if_neg (not_lt.2 (hk a List.mem_cons_self))]
    exact hsub.cons_cons a

/-- **Nothing before the window is kept.** -/
theorem le_of_mem_since (hs : times.Pairwise (· ≤ ·)) (ha : a ∈ since cutoff times) :
    cutoff ≤ a := by
  induction times with
  | nil => exact absurd ha List.not_mem_nil
  | cons b times ih =>
    rw [since_cons] at ha
    split_ifs at ha with hb
    · exact ih hs.of_cons ha
    · have hcb : cutoff ≤ b := not_lt.1 hb
      rcases List.mem_cons.1 ha with rfl | hmem
      · exact hcb
      · exact le_trans hcb ((List.pairwise_cons.1 hs).1 a hmem)

/-- The last of non-decreasing times is their maximum. -/
theorem le_getLast (hs : times.Pairwise (· ≤ ·)) (ha : a ∈ times) {last : T}
    (hl : times.getLast? = some last) : a ≤ last := by
  obtain ⟨init, rfl⟩ := List.getLast?_eq_some_iff.1 hl
  rcases List.mem_append.1 ha with hmem | hmem
  · exact (List.pairwise_append.1 hs).2.2 a hmem last List.mem_cons_self
  · rw [List.mem_singleton.1 hmem]

theorem pairwise_snoc (hs : times.Pairwise (· ≤ ·)) (hle : ∀ b ∈ times, b ≤ a) :
    (times ++ [a]).Pairwise (· ≤ ·) := by
  rw [List.pairwise_append]
  refine ⟨hs, List.pairwise_singleton _ _, fun b hb c hc => ?_⟩
  rw [List.mem_singleton.1 hc]
  exact hle b hb

end SlidingWindow
