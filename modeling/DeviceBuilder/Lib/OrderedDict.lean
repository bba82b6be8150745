import DeviceBuilder.Lib.Dict
import Mathlib.Data.List.Count

/-!
# Moving and popping keys

The two operations an insertion-ordered dictionary has as an LRU queue; both
fail where Python raises `KeyError`.

* `moveToEnd`, `get?_moveToEnd`, `size_moveToEnd`: the items stay the same.
* `popFirst`, `get?_popFirst`: the oldest item goes.
-/

namespace Dict

variable {κ ν : Type*} [DecidableEq κ] {d d' : Dict κ ν} {k k' : κ} {v : ν}

def size (d : Dict κ ν) : ℕ := d.items.length

/-- The oldest key. -/
def first? (d : Dict κ ν) : Option κ := d.items.head?.map Prod.fst

/-- Make `k` the newest key; fails without it. -/
def moveToEnd (d : Dict κ ν) (k : κ) : Option (Dict κ ν) :=
  (d.get? k).map fun v => (d.erase k).set k v

/-- Remove the oldest item; fails when there is none. -/
def popFirst (d : Dict κ ν) : Option (Dict κ ν) :=
  match d with
  | ⟨[], _⟩ => none
  | ⟨_ :: items, h⟩ => some ⟨items, (List.nodup_cons.1 h).2⟩

theorem get?_moveToEnd (h : d.moveToEnd k = some d') : d'.get? k' = d.get? k' := by
  obtain ⟨v, hv, rfl⟩ := Option.map_eq_some_iff.1 h
  rw [get?_set]
  by_cases hk : k' = k
  · rw [if_pos hk, hk, hv]
  · rw [if_neg hk, get?_erase_ne hk]

theorem moveToEnd_eq_none : d.moveToEnd k = none ↔ d.get? k = none := Option.map_eq_none_iff

theorem size_erase (h : d.get? k = some v) : (d.erase k).size + 1 = d.size := by
  have hone : d.items.countP (fun e => e.1 = k) = 1 := by
    have hk : k ∈ d.keys := mem_keys.2 ⟨v, h⟩
    have hcount : d.keys.count k = 1 := List.count_eq_one_of_mem d.nodup hk
    unfold keys at hcount
    rw [List.count, List.countP_map] at hcount
    rw [← hcount]
    apply List.countP_congr
    intro e _
    simp
  have hsplit := List.length_eq_countP_add_countP (fun e : κ × ν => decide (e.1 ≠ k)) (l := d.items)
  have hkeep : (d.erase k).size = d.items.countP (fun e => decide (e.1 ≠ k)) :=
    (List.countP_eq_length_filter ..).symm
  have hrest : d.items.countP (fun e => decide ¬decide (e.1 ≠ k) = true) = 1 := by
    rw [← hone]
    apply List.countP_congr
    intro e _
    simp
  unfold size at hkeep ⊢
  omega

theorem size_set_of_not_mem (h : d.get? k = none) : (d.set k v).size = d.size + 1 := by
  unfold set
  rw [dif_neg (get?_eq_none.1 h)]
  exact List.length_append

theorem size_moveToEnd (h : d.moveToEnd k = some d') : d'.size = d.size := by
  obtain ⟨v, hv, rfl⟩ := Option.map_eq_some_iff.1 h
  rw [size_set_of_not_mem get?_erase_self, size_erase hv]

omit [DecidableEq κ] in
theorem popFirst_eq_none : d.popFirst = none ↔ d.size = 0 := by
  obtain ⟨items, h⟩ := d
  cases items <;> simp [popFirst, size]

/-- **Only the oldest key goes.** -/
theorem get?_popFirst (h : d.popFirst = some d') (hk : d.first? ≠ some k) :
    d'.get? k = d.get? k := by
  obtain ⟨items, hn⟩ := d
  cases items with
  | nil => cases h
  | cons e items =>
    cases h
    have hne : e.1 ≠ k := fun he => hk (congrArg some he)
    unfold get?
    rw [List.find?_cons_of_neg (by simpa using hne)]

theorem get?_of_popFirst (h : d.popFirst = some d') (hv : d'.get? k = some v) :
    d.get? k = some v := by
  obtain ⟨items, hn⟩ := d
  cases items with
  | nil => cases h
  | cons e items =>
    cases h
    exact get?_eq_some.2 (List.mem_cons_of_mem e (get?_eq_some.1 hv))

end Dict
