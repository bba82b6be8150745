import Mathlib.Data.List.Nodup

/-!
# Insertion-ordered key sets

The keys of an insertion-ordered dictionary, as a list: `add` appends a new key
and keeps the place of an old one, `drop` removes a key. Values that are mutable
objects live elsewhere, under their key.
-/

namespace KeyList

variable {κ : Type*} [DecidableEq κ] {l : List κ} {k k' : κ}

/-- Assign key `k`: a new key goes last. -/
def add (l : List κ) (k : κ) : List κ := if k ∈ l then l else l ++ [k]

/-- Remove key `k`, if present. -/
def drop (l : List κ) (k : κ) : List κ := l.filter (· ≠ k)

@[simp] theorem mem_add : k' ∈ add l k ↔ k' ∈ l ∨ k' = k := by
  unfold add; split
  · constructor
    · exact Or.inl
    · rintro (h | rfl) <;> assumption
  · simp

@[simp] theorem mem_drop : k' ∈ drop l k ↔ k' ∈ l ∧ k' ≠ k := by simp [drop]

theorem nodup_add (h : l.Nodup) : (add l k).Nodup := by
  unfold add; split
  · exact h
  · rename_i hk
    rw [List.nodup_append]
    refine ⟨h, List.nodup_singleton k, ?_⟩
    rintro a ha b hb rfl
    simp at hb; subst hb; exact hk ha

theorem nodup_drop (h : l.Nodup) : (drop l k).Nodup := h.filter _

@[simp] theorem count_drop_self : (drop l k).count k = 0 := by
  rw [List.count_eq_zero]; simp

@[simp] theorem count_drop_of_ne (h : k' ≠ k) : (drop l k).count k' = l.count k' := by
  unfold drop; rw [List.count_filter]; simpa using h

theorem count_add_self (h : l.count k = 0) : (add l k).count k = 1 := by
  have hk : k ∉ l := List.count_eq_zero.1 h
  simp [add, hk, h]

@[simp] theorem count_add_of_ne (h : k' ≠ k) : (add l k).count k' = l.count k' := by
  unfold add; split
  · rfl
  · rw [List.count_append, List.count_singleton]; simp [Ne.symm h]

theorem drop_eq_self (h : k ∉ l) : drop l k = l := by
  unfold drop; rw [List.filter_eq_self]
  intro a ha; simp; rintro rfl; exact h ha

end KeyList
