import Mathlib.Data.List.Perm.Subperm
import DeviceBuilder.Lib.Dict

/-!
# The order of a dictionary's values

Assigning an old key keeps its place and removing one keeps the others', so what
stays of the values keeps its order.

* `values_erase_sublist`, `values_erase_sublist_set`: the values under the other
  keys, among the old ones and among the new.
* `nodup_values_set`: a new value keeps the values distinct.
* `filter_mem_sublist`: a list ordered as the values stays so.
-/

namespace Dict

variable {κ ν : Type*} [DecidableEq κ] {D : Dict κ ν} {key : κ} {v y : ν}

theorem values_erase_sublist : (D.erase key).values.Sublist D.values :=
  List.filter_sublist.map _

/-- No value is held under two keys. -/
theorem nodup_values_iff :
    D.values.Nodup ↔ ∀ k₁ k₂ v, D.get? k₁ = some v → D.get? k₂ = some v → k₁ = k₂ := by
  unfold values
  rw [List.nodup_map_iff_inj_on (List.Nodup.of_map _ D.nodup)]
  constructor
  · intro h k₁ k₂ v h₁ h₂
    exact congrArg Prod.fst (h _ (get?_eq_some.1 h₁) _ (get?_eq_some.1 h₂) rfl)
  · rintro h ⟨k₁, v⟩ h₁ ⟨k₂, v'⟩ h₂ rfl
    rw [h k₁ k₂ v (get?_eq_some.2 h₁) (get?_eq_some.2 h₂)]

theorem nodup_values_set (hn : D.values.Nodup) (hv : v ∉ D.values) :
    (D.set key v).values.Nodup := by
  rw [nodup_values_iff] at hn ⊢
  have hv' : ∀ k', D.get? k' ≠ some v := fun k' hk => hv (mem_values.2 ⟨k', hk⟩)
  intro k₁ k₂ u h₁ h₂
  rw [get?_set] at h₁ h₂
  split_ifs at h₁ h₂ with e₁ e₂ e₂
  · rw [e₁, e₂]
  · cases h₁
    exact absurd h₂ (hv' k₂)
  · cases h₂
    exact absurd h₁ (hv' k₁)
  · exact hn k₁ k₂ u h₁ h₂

theorem mem_values_set (h : y ∈ (D.set key v).values) : y = v ∨ y ∈ (D.erase key).values := by
  obtain ⟨key', hy⟩ := mem_values.1 h
  rw [get?_set] at hy
  split_ifs at hy with hk
  · exact Or.inl (Option.some.inj hy).symm
  · exact Or.inr (mem_values.2 ⟨key', by rwa [get?_erase_ne hk]⟩)

theorem values_erase_sublist_set : (D.erase key).values.Sublist (D.set key v).values := by
  unfold set
  split_ifs with hk
  · have hitems : ∀ items : List (κ × ν), ((items.filter fun e => e.1 ≠ key).map Prod.snd).Sublist
        ((items.map fun e => if e.1 = key then (e.1, v) else e).map Prod.snd) := by
      intro items
      induction items with
      | nil => exact List.Sublist.refl _
      | cons e items ih =>
        by_cases he : e.1 = key
        · rw [List.filter_cons_of_neg (by simp [he]), List.map_cons, List.map_cons]
          exact ih.cons _
        · rw [List.filter_cons_of_pos (by simp [he]), List.map_cons, List.map_cons, List.map_cons,
            if_neg he]
          exact ih.cons_cons _
    exact hitems D.items
  · have hi : (D.push key v hk).values = D.values ++ [v] := by
      unfold values push
      rw [List.map_append]
      rfl
    rw [hi]
    exact values_erase_sublist.trans (List.sublist_append_left _ _)

end Dict

namespace List

variable {ν : Type*} [DecidableEq ν] {l V V' : List ν}

/-- A list whose members in `V` come in the order of `V` keeps the order of fewer members. -/
theorem filter_mem_sublist (h : (l.filter (· ∈ V)).Sublist V) (hs : V'.Sublist V) (hn : V.Nodup) :
    (l.filter (· ∈ V')).Sublist V' := by
  have hV : V' = V.filter (· ∈ V') := by
    have hsub : V'.Sublist (V.filter (· ∈ V')) := by
      have := hs.filter (· ∈ V')
      rwa [List.filter_eq_self.2 fun x hx => by simpa using hx] at this
    have hle := (List.subperm_of_subset (hn.filter (· ∈ V')) fun x hx =>
      of_decide_eq_true (List.mem_filter.1 hx).2).length_le
    exact hsub.eq_of_length_le hle
  have hl : l.filter (· ∈ V') = (l.filter (· ∈ V)).filter (· ∈ V') := by
    rw [List.filter_filter]
    refine List.filter_congr fun x _ => ?_
    by_cases hx : x ∈ V'
    · simp [hx, hs.subset hx]
    · simp [hx]
  rw [hl]
  exact (h.filter _).trans (hV ▸ List.Sublist.refl _)

end List
