import Mathlib.Data.List.Nodup
import Mathlib.Data.Option.Basic

/-!
# Insertion-ordered dictionaries

A dictionary is its list of items, with no key twice. Assigning an old key keeps
its place, a new key goes last.

* `Dict.get?_eq_some`: a lookup is membership of an item.
* `get?_set`, `get?_erase`, `get?_keep`, `get?_adjust`, `get?_mapValues`, `get?_foldl_set`: what each
  operation does to every lookup. Nothing else about the operations is needed.
* `filterMap_erase`, `filterMap_set`: items that are filtered out may come and go.
* `items_eq_nil`: the dictionary is empty iff no key is found.
-/

structure Dict (κ ν : Type*) where
  items : List (κ × ν)
  nodup : (items.map Prod.fst).Nodup

namespace Dict

variable {κ ν : Type*} [DecidableEq κ] {d : Dict κ ν} {k k' : κ} {v v' : ν}

instance : EmptyCollection (Dict κ ν) := ⟨⟨[], List.nodup_nil⟩⟩

instance : Inhabited (Dict κ ν) := ⟨∅⟩

instance [DecidableEq ν] : DecidableEq (Dict κ ν) := fun a b =>
  decidable_of_iff (a.items = b.items) <| by
    cases a; cases b; simp

def keys (d : Dict κ ν) : List κ := d.items.map Prod.fst

def values (d : Dict κ ν) : List ν := d.items.map Prod.snd

def get? (d : Dict κ ν) (k : κ) : Option ν := (d.items.find? (fun e => e.1 = k)).map Prod.snd

def isEmpty (d : Dict κ ν) : Bool := d.items.isEmpty

/-- Keep the items that pass a test. -/
def keep (d : Dict κ ν) (p : κ → ν → Bool) : Dict κ ν where
  items := d.items.filter fun e => p e.1 e.2
  nodup := d.nodup.sublist (List.filter_sublist.map _)

/-- Remove key `k`, if present. -/
def erase (d : Dict κ ν) (k : κ) : Dict κ ν := d.keep fun k' _ => k' ≠ k

/-- Change the value under `k` in place, if present. -/
def adjust (d : Dict κ ν) (k : κ) (f : ν → ν) : Dict κ ν where
  items := d.items.map fun e => if e.1 = k then (e.1, f e.2) else e
  nodup := by
    have : (d.items.map fun e => if e.1 = k then (e.1, f e.2) else e).map Prod.fst =
        d.items.map Prod.fst := by
      rw [List.map_map]
      apply List.map_congr_left
      intro e _
      by_cases h : e.1 = k <;> simp [h]
    rw [this]
    exact d.nodup

/-- Change every value in place. -/
def mapValues (d : Dict κ ν) (f : ν → ν) : Dict κ ν where
  items := d.items.map fun e => (e.1, f e.2)
  nodup := by
    rw [List.map_map]
    exact d.nodup

/-- Add a key that is not there. -/
def push (d : Dict κ ν) (k : κ) (v : ν) (h : k ∉ d.keys) : Dict κ ν where
  items := d.items ++ [(k, v)]
  nodup := by
    rw [List.map_append, List.nodup_append]
    refine ⟨d.nodup, List.nodup_singleton _, ?_⟩
    rintro a ha b hb rfl
    rw [List.map_cons, List.map_nil, List.mem_singleton] at hb
    subst hb
    exact h ha

/-- Assign `v` to `k`. -/
def set (d : Dict κ ν) (k : κ) (v : ν) : Dict κ ν :=
  if h : k ∈ d.keys then d.adjust k fun _ => v else d.push k v h

/-- **A lookup is membership of an item.** -/
theorem get?_eq_some : d.get? k = some v ↔ (k, v) ∈ d.items := by
  unfold get?
  rw [Option.map_eq_some_iff]
  constructor
  · rintro ⟨⟨a, b⟩, he, rfl⟩
    have hk : a = k := by simpa using List.find?_some he
    subst hk
    exact List.mem_of_find?_eq_some he
  · intro h
    obtain ⟨e, he⟩ : ∃ e, d.items.find? (fun e => e.1 = k) = some e := by
      rw [← Option.isSome_iff_exists, List.find?_isSome]
      exact ⟨(k, v), h, by simp⟩
    refine ⟨e, he, ?_⟩
    have hk : e.1 = k := by simpa using List.find?_some he
    have := List.inj_on_of_nodup_map d.nodup (List.mem_of_find?_eq_some he) h hk
    rw [this]

theorem mem_keys : k ∈ d.keys ↔ ∃ v, d.get? k = some v := by
  simp only [keys, List.mem_map, get?_eq_some, Prod.exists, exists_and_right, exists_eq_right]

theorem get?_eq_none : d.get? k = none ↔ k ∉ d.keys := by
  rw [mem_keys, Option.eq_none_iff_forall_ne_some]
  push Not
  rfl

@[simp] theorem get?_empty : (∅ : Dict κ ν).get? k = none := rfl

theorem get?_keep {p : κ → ν → Bool} : (d.keep p).get? k = (d.get? k).filter (p k) := by
  ext v
  simp only [Option.filter_eq_some_iff, get?_eq_some, keep, List.mem_filter]

theorem get?_mapValues {f : ν → ν} : (d.mapValues f).get? k = (d.get? k).map f := by
  unfold get? mapValues
  simp only
  induction d.items with
  | nil => rfl
  | cons e es ih =>
    by_cases h : e.1 = k
    · simp [h]
    · simpa [h] using ih

theorem get?_adjust {f : ν → ν} :
    (d.adjust k f).get? k' = if k' = k then (d.get? k').map f else d.get? k' := by
  ext v
  by_cases h : k' = k
  · subst h
    simp only [if_pos, get?_eq_some, adjust, List.mem_map, Option.map_eq_some_iff]
    constructor
    · rintro ⟨⟨a, b⟩, hm, he⟩
      by_cases ha : a = k'
      · subst ha; simp at he; exact ⟨b, hm, he⟩
      · simp [ha] at he
    · rintro ⟨b, hm, rfl⟩
      exact ⟨(k', b), hm, by simp⟩
  · simp only [if_neg h, get?_eq_some, adjust, List.mem_map]
    constructor
    · rintro ⟨⟨a, b⟩, hm, he⟩
      by_cases ha : a = k
      · subst ha; simp at he; exact absurd he.1.symm h
      · simp only [ha, if_false] at he; rwa [← he]
    · intro hm
      exact ⟨(k', v), hm, by simp [h]⟩

theorem get?_set : (d.set k v).get? k' = if k' = k then some v else d.get? k' := by
  unfold set
  by_cases hk : k ∈ d.keys
  · rw [dif_pos hk, get?_adjust]
    by_cases h : k' = k
    · subst h
      obtain ⟨w, hw⟩ := mem_keys.1 hk
      simp [hw]
    · simp [h]
  · rw [dif_neg hk]
    ext w
    simp only [get?_eq_some, push, List.mem_append, List.mem_singleton, Prod.mk.injEq]
    by_cases h : k' = k
    · subst h
      have : (k', w) ∉ d.items := fun hm => hk (List.mem_map_of_mem (f := Prod.fst) hm)
      simp [this, eq_comm]
    · simp [h, get?_eq_some]

theorem get?_erase : (d.erase k).get? k' = if k' = k then none else d.get? k' := by
  unfold erase
  rw [get?_keep]
  by_cases h : k' = k
  · simp [h, Option.filter]
    cases d.get? k <;> simp
  · cases hd : d.get? k' <;> simp [h]

@[simp] theorem get?_set_self : (d.set k v).get? k = some v := by rw [get?_set, if_pos rfl]

theorem get?_set_ne (h : k' ≠ k) : (d.set k v).get? k' = d.get? k' := by rw [get?_set, if_neg h]

@[simp] theorem get?_erase_self : (d.erase k).get? k = none := by rw [get?_erase, if_pos rfl]

theorem get?_erase_ne (h : k' ≠ k) : (d.erase k).get? k' = d.get? k' := by
  rw [get?_erase, if_neg h]

/-- An item of what is left after removing `k` was there before. -/
theorem of_get?_erase (h : (d.erase k).get? k' = some v) : k' ≠ k ∧ d.get? k' = some v := by
  rw [get?_erase] at h
  split at h
  · cases h
  · exact ⟨‹_›, h⟩

theorem isEmpty_iff : d.isEmpty = true ↔ ∀ k, d.get? k = none := by
  unfold isEmpty
  rw [List.isEmpty_iff]
  constructor
  · intro h k
    rw [get?_eq_none, keys, h]
    exact List.not_mem_nil
  · intro h
    rw [List.eq_nil_iff_forall_not_mem]
    rintro ⟨k, v⟩ hm
    have := h k
    rw [get?_eq_some.2 hm] at this
    cases this

theorem isEmpty_eq_false : d.isEmpty = false ↔ ∃ k v, d.get? k = some v := by
  rw [← Bool.not_eq_true, isEmpty_iff]
  push Not
  simp only [Option.ne_none_iff_exists']

theorem eq_empty (h : ∀ k, d.get? k = none) : d = ∅ := by
  have := List.isEmpty_iff.1 (isEmpty_iff.2 h)
  cases d
  simp only at this
  subst this
  rfl

theorem mem_values : v ∈ d.values ↔ ∃ k, d.get? k = some v := by
  simp only [values, List.mem_map, get?_eq_some, Prod.exists, exists_eq_right]

/-- Assigning the items of another dictionary, one after another. -/
theorem get?_foldl_set {β : Type*} (g : κ × β → ν) (r : Dict κ β) (d : Dict κ ν) :
    (r.items.foldl (fun d e => d.set e.1 (g e)) d).get? k = match r.get? k with
      | some v => some (g (k, v))
      | none => d.get? k := by
  have run : ∀ (l : List (κ × β)) (d : Dict κ ν), (l.map Prod.fst).Nodup →
      (∀ v, (k, v) ∈ l → (l.foldl (fun d e => d.set e.1 (g e)) d).get? k = some (g (k, v))) ∧
        ((∀ v, (k, v) ∉ l) → (l.foldl (fun d e => d.set e.1 (g e)) d).get? k = d.get? k) := by
    intro l
    induction l with
    | nil => exact fun d _ => ⟨fun v h => (List.not_mem_nil h).elim, fun _ => rfl⟩
    | cons e l ih =>
      intro d hn
      rw [List.map_cons, List.nodup_cons] at hn
      obtain ⟨hold, hnew⟩ := ih (d.set e.1 (g e)) hn.2
      refine ⟨fun v hv => ?_, fun h => ?_⟩
      · rcases List.mem_cons.1 hv with he | hv
        · have habsent : ∀ v, (k, v) ∉ l := by
            intro v' hv'
            rw [← he] at hn
            exact hn.1 (List.mem_map.2 ⟨(k, v'), hv', rfl⟩)
          rw [List.foldl_cons, hnew habsent, ← he, get?_set_self]
        · exact hold v hv
      · have hk : k ≠ e.1 := by
          rintro rfl
          exact h e.2 (List.mem_cons_self ..)
        rw [List.foldl_cons, hnew fun v hv => h v (List.mem_cons_of_mem e hv), get?_set_ne hk]
  obtain ⟨hold, hnew⟩ := run r.items d r.nodup
  split
  · rename_i v hv
    exact hold v (get?_eq_some.1 hv)
  · rename_i hv
    refine hnew fun v hmem => ?_
    rw [get?_eq_some.2 hmem] at hv
    cases hv

/-! ### Dictionaries that stay the same -/

theorem erase_absent (h : d.get? k = none) : d.erase k = d := by
  have hitems : (d.erase k).items = d.items := by
    refine List.filter_eq_self.2 fun e he => ?_
    have hne : e.1 ≠ k := by
      rintro rfl
      rw [get?_eq_some.2 he] at h
      cases h
    simpa using hne
  cases hd : d.erase k
  cases d
  rw [hd] at hitems
  cases hitems
  rfl

theorem adjust_same {g : ν → ν} (h : ∀ v, d.get? k = some v → g v = v) : d.adjust k g = d := by
  have hitems : (d.adjust k g).items = d.items := by
    refine (List.map_congr_left fun e he => ?_).trans (List.map_id _)
    by_cases hk : e.1 = k
    · have hv := h e.2 (get?_eq_some.2 (hk ▸ he))
      rw [if_pos hk, hv]
      rfl
    · rw [if_neg hk]
      rfl
  cases hd : d.adjust k g
  cases d
  rw [hd] at hitems
  cases hitems
  rfl

theorem set_same (h : d.get? k = some v) : d.set k v = d := by
  unfold set
  rw [dif_pos (mem_keys.2 ⟨v, h⟩)]
  exact adjust_same fun v' hv => by rw [h] at hv; exact Option.some.inj hv

/-- An item that is filtered out may go. -/
theorem filterMap_erase {β : Type*} {f : ν → Option β} (h : ∀ v, d.get? k = some v → f v = none) :
    (d.erase k).values.filterMap f = d.values.filterMap f := by
  unfold values erase keep
  rw [List.filterMap_map, List.filterMap_map, List.filterMap_filter]
  refine List.filterMap_congr fun e he => ?_
  by_cases hk : e.1 = k
  · have hv := h e.2 (get?_eq_some.2 (hk ▸ he))
    simp [hk, hv]
  · simp [hk]

/-- And one may come, or change. -/
theorem filterMap_set {β : Type*} {f : ν → Option β} (h : ∀ v, d.get? k = some v → f v = none) (hv : f v = none) :
    (d.set k v).values.filterMap f = d.values.filterMap f := by
  unfold values set
  split
  · unfold adjust
    rw [List.map_map, List.filterMap_map, List.filterMap_map]
    refine List.filterMap_congr fun e he => ?_
    by_cases hk : e.1 = k
    · have hv' := h e.2 (get?_eq_some.2 (hk ▸ he))
      simp [hk, hv, hv']
    · simp [hk]
  · unfold push
    simp [hv]

end Dict
