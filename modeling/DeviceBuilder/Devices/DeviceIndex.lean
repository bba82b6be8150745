import DeviceBuilder.Lib.Dict
import Mathlib.Data.List.Sort

/-!
# The device index (`_DeviceIndex` of `controllers/_device_scanner.py`)

The four maps of the index hold references to shared `Device` objects, which other
controllers change in place. The scanner watches one directory, so a path is its
file name, and a device's `configuration` is the name of its path.

* `DeviceIndex.set`, `pop`, `rebuildInPathOrder`: the source's operations; `none`
  where it raises.
* `Lockstep`: the four maps have the same devices, and each bucket is sorted.
* `Lockstep.set`, `Lockstep.pop`, `Lockstep.rebuild`, `Lockstep.touch`: the operations
  do not raise and keep it; so does an edit in place.
-/

namespace DeviceBuilder.Devices.Index

/-- A device as the index sees it: `rest` is every field but two. -/
structure Row (F α : Type) where
  name : F
  configuration : F
  rest : α
  deriving DecidableEq

/-- A reference to a `Device` object. -/
abbrev Ref := ℕ

/-- The objects; references from `next` on are not in use. -/
structure Heap (F α : Type) where
  row : Ref → Row F α
  next : Ref

/-- A new object. -/
def Heap.alloc {F α : Type} (h : Heap F α) (d : Row F α) : Heap F α := ⟨Function.update h.row h.next d, h.next + 1⟩

/-- Another controller changes an object in place: every field but `name` and `configuration`. -/
def Heap.touch {F α : Type} (h : Heap F α) (r : Ref) (rest : α) : Heap F α :=
  { h with row := Function.update h.row r { h.row r with rest } }

structure DeviceIndex (F K : Type) where
  devices : Dict F Ref
  devicesByName : Dict F (List Ref)
  devicesByConfiguration : Dict F Ref
  cacheKeys : Dict F K

variable {F α K : Type} [LinearOrder F] [DecidableEq α]

def DeviceIndex.empty : DeviceIndex F K := ⟨∅, ∅, ∅, ∅⟩

/-- `list.remove`: the first element that is the object, or equals it; `none` where it raises. -/
def remove (h : Heap F α) (r : Ref) : List Ref → Option (List Ref)
  | [] => none
  | x :: l => if x = r ∨ h.row x = h.row r then some l else (remove h r l).map (x :: ·)

/-- The insertion loop of `set`. -/
def insert (h : Heap F α) (r : Ref) : List Ref → List Ref
  | [] => [r]
  | x :: l => if (h.row x).configuration < (h.row r).configuration then x :: insert h r l else r :: x :: l

namespace DeviceIndex

/-- `_unindex_name` -/
def unindexName (h : Heap F α) (ix : DeviceIndex F K) (r : Ref) : Option (DeviceIndex F K) := do
  let name := (h.row r).name
  let bucket ← ix.devicesByName.get? name
  let bucket ← remove h r bucket
  if bucket = [] then
    return { ix with devicesByName := ix.devicesByName.erase name }
  else
    return { ix with devicesByName := ix.devicesByName.set name bucket }

/-- The start of `set`: a device that is there leaves its bucket. -/
def unindexPath (h : Heap F α) (ix : DeviceIndex F K) (path : F) : Option (DeviceIndex F K) :=
  match ix.devices.get? path with
  | some previous => ix.unindexName h previous
  | none => some ix

/-- `set` -/
def set (h : Heap F α) (ix : DeviceIndex F K) (path : F) (device : Ref) (cacheKey : K) : Option (DeviceIndex F K) := do
  let ix ← ix.unindexPath h path
  let row := h.row device
  let bucket := (ix.devicesByName.get? row.name).getD []
  return { devices := ix.devices.set path device
           cacheKeys := ix.cacheKeys.set path cacheKey
           devicesByConfiguration := ix.devicesByConfiguration.set row.configuration device
           devicesByName := ix.devicesByName.set row.name (insert h device bucket) }

/-- `pop` -/
def pop (h : Heap F α) (ix : DeviceIndex F K) (path : F) : Option (DeviceIndex F K × Option Ref) :=
  let device := ix.devices.get? path
  let ix := { ix with devices := ix.devices.erase path, cacheKeys := ix.cacheKeys.erase path }
  match device with
  | none => some (ix, none)
  | some r => do
    let ix := { ix with devicesByConfiguration := ix.devicesByConfiguration.erase (h.row r).configuration }
    let ix ← ix.unindexName h r
    return (ix, some r)

/-- The items of `d` in the order of `order`. -/
def reorder {ν : Type} (d : Dict F ν) (order : List F) : Dict F ν :=
  order.foldl (fun e p => match d.get? p with | some v => e.set p v | none => e) ∅

/-- `rebuild_in_path_order` -/
def rebuildInPathOrder (ix : DeviceIndex F K) (order : List F) : Option (DeviceIndex F K) :=
  if ix.devices.keys.all (· ∈ order) then
    some { ix with devices := reorder ix.devices order, cacheKeys := reorder ix.cacheKeys order }
  else none

/-- `get_by_name` -/
def getByName (ix : DeviceIndex F K) (name : F) : List Ref := (ix.devicesByName.get? name).getD []

end DeviceIndex

open DeviceIndex

/-- **The maps are in lockstep.** -/
structure Lockstep (h : Heap F α) (ix : DeviceIndex F K) : Prop where
  fresh : ∀ p r, ix.devices.get? p = some r → r < h.next
  configuration : ∀ p r, ix.devices.get? p = some r → (h.row r).configuration = p
  byConfiguration : ∀ p, ix.devicesByConfiguration.get? p = ix.devices.get? p
  cacheKeys : ∀ p, (ix.cacheKeys.get? p).isSome = (ix.devices.get? p).isSome
  mem_bucket : ∀ n r, r ∈ ix.getByName n ↔ (h.row r).name = n ∧ ix.devices.get? (h.row r).configuration = some r
  sorted : ∀ n, (ix.getByName n).Pairwise fun a b => (h.row a).configuration < (h.row b).configuration
  bucket_ne : ∀ n, ix.devicesByName.get? n ≠ some []

variable {h : Heap F α} {ix ix' : DeviceIndex F K} {p q : F} {r x : Ref} {key : K} {l : List Ref}

/-! ### The buckets -/

/-- Is the first configuration below the second? -/
def Below (h : Heap F α) (a b : Ref) : Prop := (h.row a).configuration < (h.row b).configuration

theorem remove_of_mem (hl : l.Pairwise (Below h)) (hr : r ∈ l) :
    ∃ l', remove h r l = some l' ∧ l'.Pairwise (Below h) ∧ ∀ x, x ∈ l' ↔ x ∈ l ∧ x ≠ r := by
  induction l with
  | nil => exact absurd hr List.not_mem_nil
  | cons y l ih =>
    obtain ⟨hy, hl⟩ := List.pairwise_cons.mp hl
    unfold remove
    by_cases hyr : y = r
    · subst hyr
      refine ⟨l, if_pos (.inl rfl), hl, fun x => ?_⟩
      have hnot : y ∉ l := fun hm => lt_irrefl _ (hy y hm)
      constructor
      · exact fun hx => ⟨.tail _ hx, fun hq => hnot (hq ▸ hx)⟩
      · rintro ⟨hx, hne⟩
        exact (List.mem_cons.mp hx).resolve_left hne
    · have hr : r ∈ l := (List.mem_cons.mp hr).resolve_left (Ne.symm hyr)
      -- an equal device would have the same configuration
      have hne : h.row y ≠ h.row r := fun hq => (hy r hr).ne (congrArg Row.configuration hq)
      obtain ⟨l', hl', hsorted, hmem⟩ := ih hl hr
      refine ⟨y :: l', ?_, ?_, fun x => ?_⟩
      · rw [if_neg (by simp [hyr, hne]), hl']; rfl
      · exact List.pairwise_cons.mpr ⟨fun x hx => hy x ((hmem x).mp hx).1, hsorted⟩
      · rw [List.mem_cons, List.mem_cons, hmem]
        constructor
        · rintro (rfl | ⟨hx, hxr⟩)
          · exact ⟨.inl rfl, hyr⟩
          · exact ⟨.inr hx, hxr⟩
        · rintro ⟨rfl | hx, hxr⟩
          · exact .inl rfl
          · exact .inr ⟨hx, hxr⟩

omit [DecidableEq α] in
theorem mem_insert : x ∈ insert h r l ↔ x = r ∨ x ∈ l := by
  induction l with
  | nil => simp [insert]
  | cons y l ih =>
    unfold insert
    split
    · rw [List.mem_cons, ih, List.mem_cons]; tauto
    · rw [List.mem_cons]

omit [DecidableEq α] in
theorem insert_sorted (hl : l.Pairwise (Below h)) (hr : ∀ x ∈ l, (h.row x).configuration ≠ (h.row r).configuration) :
    (insert h r l).Pairwise (Below h) := by
  induction l with
  | nil => exact List.pairwise_singleton ..
  | cons y l ih =>
    obtain ⟨hy, hl'⟩ := List.pairwise_cons.mp hl
    unfold insert
    split
    case isTrue hlt =>
      refine List.pairwise_cons.mpr ⟨fun x hx => ?_, ih hl' fun x hx => hr x (.tail _ hx)⟩
      rcases mem_insert.mp hx with rfl | hx
      · exact hlt
      · exact hy x hx
    case isFalse hle =>
      have hlt : Below h r y := lt_of_le_of_ne (not_lt.mp hle) (hr y (.head _)).symm
      refine List.pairwise_cons.mpr ⟨fun x hx => ?_, hl⟩
      rcases List.mem_cons.mp hx with rfl | hx
      · exact hlt
      · exact hlt.trans (hy x hx)

theorem getByName_def {n : F} : ix.getByName n = (ix.devicesByName.get? n).getD [] := rfl

/-- The index without the device of `path` in its buckets. -/
structure Unindexed (h : Heap F α) (ix : DeviceIndex F K) (path : F) (ix' : DeviceIndex F K) : Prop where
  devices : ix'.devices = ix.devices
  byConfiguration : ix'.devicesByConfiguration = ix.devicesByConfiguration
  cacheKeys : ix'.cacheKeys = ix.cacheKeys
  mem_bucket : ∀ n x, x ∈ ix'.getByName n ↔ x ∈ ix.getByName n ∧ (h.row x).configuration ≠ path
  sorted : ∀ n, (ix'.getByName n).Pairwise (Below h)
  bucket_ne : ∀ n, ix'.devicesByName.get? n ≠ some []

/-- `_unindex_name` does not raise on an indexed device. -/
theorem Lockstep.unindexName (hL : Lockstep h ix) (hr : ix.devices.get? p = some r) :
    ∃ ix', ix.unindexName h r = some ix' ∧ Unindexed h ix p ix' := by
  have hconf := hL.configuration p r hr
  have hmem : r ∈ ix.getByName (h.row r).name := (hL.mem_bucket _ r).mpr ⟨rfl, by rw [hconf, hr]⟩
  obtain ⟨b, hb⟩ : ∃ b, ix.devicesByName.get? (h.row r).name = some b := by
    cases hb : ix.devicesByName.get? (h.row r).name with
    | none => rw [getByName_def, hb] at hmem; exact absurd hmem List.not_mem_nil
    | some b => exact ⟨b, rfl⟩
  have hget : ix.getByName (h.row r).name = b := by rw [getByName_def, hb]; rfl
  obtain ⟨b', hb', hsorted, hb'mem⟩ := remove_of_mem (hget ▸ hL.sorted _) (hget ▸ hmem)
  -- the device of `p` is in its own bucket only
  have hone : ∀ n x, x ∈ ix.getByName n → ((h.row x).configuration = p ↔ x = r) := by
    intro n x hx
    have hx := ((hL.mem_bucket n x).mp hx).2
    constructor
    · intro hq
      rw [hq, hr] at hx
      exact (Option.some.inj hx).symm
    · rintro rfl; exact hconf
  have hnew : ∀ n, (if n = (h.row r).name then b' else ix.getByName n).Pairwise (Below h) ∧
      ∀ x, x ∈ (if n = (h.row r).name then b' else ix.getByName n) ↔
        x ∈ ix.getByName n ∧ (h.row x).configuration ≠ p := by
    intro n
    split
    case isTrue hn =>
      subst hn
      refine ⟨hsorted, fun x => ?_⟩
      rw [hb'mem, ← hget]
      exact and_congr_right fun hx => not_congr (hone _ x hx).symm
    case isFalse hn =>
      refine ⟨hL.sorted n, fun x => ⟨fun hx => ⟨hx, fun hq => ?_⟩, And.left⟩⟩
      obtain rfl := (hone n x hx).mp hq
      exact hn ((hL.mem_bucket n x).mp hx).1.symm
  unfold DeviceIndex.unindexName
  simp only [hb, hb', Option.bind_eq_bind, Option.bind_some]
  by_cases hnil : b' = []
  · rw [if_pos hnil]
    have hg : ∀ n, (⟨ix.devices, ix.devicesByName.erase (h.row r).name, ix.devicesByConfiguration,
        ix.cacheKeys⟩ : DeviceIndex F K).getByName n = if n = (h.row r).name then b' else ix.getByName n := by
      intro n
      rw [getByName_def, Dict.get?_erase, hnil]
      split <;> rfl
    refine ⟨_, rfl, rfl, rfl, rfl, fun n x => ?_, fun n => ?_, fun n => ?_⟩
    · rw [hg]; exact (hnew n).2 x
    · rw [hg]; exact (hnew n).1
    · rw [Dict.get?_erase]
      split
      · intro h
        cases h
      · exact hL.bucket_ne n
  · rw [if_neg hnil]
    have hg : ∀ n, (⟨ix.devices, ix.devicesByName.set (h.row r).name b', ix.devicesByConfiguration,
        ix.cacheKeys⟩ : DeviceIndex F K).getByName n = if n = (h.row r).name then b' else ix.getByName n := by
      intro n
      rw [getByName_def, Dict.get?_set]
      split <;> rfl
    refine ⟨_, rfl, rfl, rfl, rfl, fun n x => ?_, fun n => ?_, fun n => ?_⟩
    · rw [hg]; exact (hnew n).2 x
    · rw [hg]; exact (hnew n).1
    · rw [Dict.get?_set]
      split
      · exact fun hq => hnil (Option.some.inj hq)
      · exact hL.bucket_ne n

/-! ### The operations -/

/-- **`set` does not raise**, and keeps the lockstep. -/
theorem Lockstep.set (hL : Lockstep h ix) (hr : r < h.next) (hp : (h.row r).configuration = p) :
    ∃ ix', ix.set h p r key = some ix' ∧ Lockstep h ix' ∧ ix'.devices = ix.devices.set p r ∧
      ix'.cacheKeys = ix.cacheKeys.set p key := by
  obtain ⟨ix₁, h₁, hU⟩ : ∃ ix₁, ix.unindexPath h p = some ix₁ ∧ Unindexed h ix p ix₁ := by
    unfold DeviceIndex.unindexPath
    cases hprev : ix.devices.get? p with
    | some previous => exact hL.unindexName hprev
    | none =>
      refine ⟨ix, rfl, rfl, rfl, rfl, fun n x => ⟨fun hx => ⟨hx, fun hq => ?_⟩, And.left⟩, hL.sorted, hL.bucket_ne⟩
      have hx := ((hL.mem_bucket n x).mp hx).2
      rw [hq, hprev] at hx
      cases hx
  unfold DeviceIndex.set
  simp only [h₁, Option.bind_eq_bind, Option.bind_some]
  set b := insert h r ((ix₁.devicesByName.get? (h.row r).name).getD []) with hb
  have hg : ∀ n, (⟨ix₁.devices.set p r, ix₁.devicesByName.set (h.row r).name b,
      ix₁.devicesByConfiguration.set (h.row r).configuration r, ix₁.cacheKeys.set p key⟩ :
        DeviceIndex F K).getByName n = if n = (h.row r).name then b else ix₁.getByName n := by
    intro n
    rw [getByName_def, Dict.get?_set]
    split <;> rfl
  refine ⟨_, rfl, ⟨?_, ?_, ?_, ?_, ?_, ?_, ?_⟩, by rw [hU.devices], by rw [hU.cacheKeys]⟩
  case refine_1 =>
    intro q x hx
    rw [hU.devices, Dict.get?_set] at hx
    split at hx
    · exact Option.some.inj hx ▸ hr
    · exact hL.fresh q x hx
  case refine_2 =>
    intro q x hx
    rw [hU.devices, Dict.get?_set] at hx
    split at hx
    case isTrue hq => rw [← Option.some.inj hx, hp, hq]
    case isFalse => exact hL.configuration q x hx
  case refine_3 =>
    intro q
    rw [hU.devices, hU.byConfiguration, hp, Dict.get?_set, Dict.get?_set, hL.byConfiguration]
  case refine_4 =>
    intro q
    rw [hU.devices, hU.cacheKeys, Dict.get?_set, Dict.get?_set]
    split
    · rfl
    · exact hL.cacheKeys q
  case refine_5 =>
    intro n x
    rw [hg, hU.devices, Dict.get?_set]
    have old : x ∈ ix₁.getByName n ↔
        (h.row x).name = n ∧ ix.devices.get? (h.row x).configuration = some x ∧ (h.row x).configuration ≠ p := by
      rw [hU.mem_bucket, hL.mem_bucket, and_assoc]
    by_cases hx : (h.row x).configuration = p
    · -- only the new device has this path
      rw [if_pos hx, Option.some.injEq]
      split
      case isTrue hn =>
        rw [hb, mem_insert, ← getByName_def, ← hn, old]
        constructor
        · rintro (rfl | ⟨-, -, hne⟩)
          · exact ⟨hn.symm, rfl⟩
          · exact absurd hx hne
        · rintro ⟨-, rfl⟩; exact .inl rfl
      case isFalse hn =>
        rw [old]
        constructor
        · rintro ⟨-, -, hne⟩; exact absurd hx hne
        · rintro ⟨hname, rfl⟩; exact absurd hname.symm hn
    · rw [if_neg hx]
      split
      case isTrue hn =>
        rw [hb, mem_insert, ← getByName_def, ← hn, old]
        constructor
        · rintro (rfl | ⟨hname, hget, -⟩)
          · exact absurd hp hx
          · exact ⟨hname, hget⟩
        · rintro ⟨hname, hget⟩; exact .inr ⟨hname, hget, hx⟩
      case isFalse => rw [old]; exact ⟨fun h => ⟨h.1, h.2.1⟩, fun h => ⟨h.1, h.2, hx⟩⟩
  case refine_6 =>
    intro n
    rw [hg]
    split
    · apply insert_sorted (hU.sorted _)
      intro x hx
      rw [hp]
      exact ((hU.mem_bucket _ x).mp hx).2
    · exact hU.sorted n
  case refine_7 =>
    intro n
    rw [Dict.get?_set]
    split
    · intro hq
      have hmem : r ∈ b := mem_insert.mpr (.inl rfl)
      rw [Option.some.inj hq] at hmem
      exact List.not_mem_nil hmem
    · exact hU.bucket_ne n

/-- **`pop` does not raise**, and keeps the lockstep. -/
theorem Lockstep.pop (hL : Lockstep h ix) :
    ∃ ix', ix.pop h p = some (ix', ix.devices.get? p) ∧ Lockstep h ix' ∧ ix'.devices = ix.devices.erase p := by
  unfold DeviceIndex.pop
  cases hr : ix.devices.get? p with
  | none =>
    have hkeys : ix.cacheKeys.get? p = none := by
      have := hL.cacheKeys p
      rwa [hr, Option.isSome_none, Option.isSome_eq_false_iff, Option.isNone_iff_eq_none] at this
    refine ⟨ix, ?_, hL, (Dict.erase_absent hr).symm⟩
    simp only [Dict.erase_absent hr, Dict.erase_absent hkeys]
  | some r =>
    have hp := hL.configuration p r hr
    obtain ⟨ix₁, h₁, hU⟩ := hL.unindexName hr
    -- the other maps are not looked at
    have hpop : DeviceIndex.unindexName h ⟨ix.devices.erase p, ix.devicesByName,
        ix.devicesByConfiguration.erase (h.row r).configuration, ix.cacheKeys.erase p⟩ r =
          some ⟨ix.devices.erase p, ix₁.devicesByName, ix.devicesByConfiguration.erase (h.row r).configuration,
            ix.cacheKeys.erase p⟩ := by
      unfold DeviceIndex.unindexName at h₁ ⊢
      simp only [Option.bind_eq_bind, Option.bind_eq_some_iff] at h₁
      obtain ⟨b, hb, b', hb', h₁⟩ := h₁
      simp only [hb, hb', Option.bind_eq_bind, Option.bind_some]
      split at h₁
      case isTrue hn => cases h₁; rw [if_pos hn]; rfl
      case isFalse hn => cases h₁; rw [if_neg hn]; rfl
    simp only [hpop, Option.bind_eq_bind, Option.bind_some]
    refine ⟨_, rfl, ⟨?_, ?_, ?_, ?_, ?_, hU.sorted, hU.bucket_ne⟩, rfl⟩
    · exact fun q x hx => hL.fresh q x (Dict.of_get?_erase hx).2
    · exact fun q x hx => hL.configuration q x (Dict.of_get?_erase hx).2
    · intro q
      rw [hp, Dict.get?_erase, Dict.get?_erase, hL.byConfiguration]
    · intro q
      rw [Dict.get?_erase, Dict.get?_erase]
      split
      · rfl
      · exact hL.cacheKeys q
    · intro n x
      have hx := hU.mem_bucket n x
      rw [hL.mem_bucket, and_assoc] at hx
      rw [Dict.get?_erase]
      refine hx.trans (and_congr_right fun _ => ?_)
      split
      case isTrue hq => exact ⟨fun h => absurd hq h.2, fun h => by cases h⟩
      case isFalse hq => exact ⟨And.left, fun h => ⟨h, hq⟩⟩

theorem get?_reorder {ν : Type} {d : Dict F ν} {order : List F} :
    (reorder d order).get? p = if p ∈ order then d.get? p else none := by
  have run : ∀ (l : List F) (e : Dict F ν), (∀ q v, e.get? q = some v → d.get? q = some v) →
      (l.foldl (fun e p => match d.get? p with | some v => e.set p v | none => e) e).get? p =
        if p ∈ l then d.get? p else e.get? p := by
    intro l
    induction l with
    | nil => intro e _; rw [if_neg List.not_mem_nil]; rfl
    | cons q l ih =>
      intro e he
      rw [List.foldl_cons]
      cases hq : d.get? q with
      | none =>
        rw [ih e he]
        by_cases hpq : p = q
        · subst hpq
          have hnone : e.get? p = none := by
            cases hv : e.get? p with
            | none => rfl
            | some v => rw [he p v hv] at hq; cases hq
          simp [hq, hnone]
        · simp [hpq]
      | some v =>
        rw [ih _ fun q' v' hv => ?_]
        · by_cases hpq : p = q
          · subst hpq; simp [hq]
          · simp [hpq, Dict.get?_set_ne hpq]
        · rw [Dict.get?_set] at hv
          split at hv
          case isTrue heq => rw [heq, hq, hv]
          case isFalse => exact he q' v' hv
  rw [reorder, run order ∅ (by simp), Dict.get?_empty]

omit [DecidableEq α] in
/-- **`rebuild_in_path_order`** raises or keeps every device. -/
theorem Lockstep.rebuild {order : List F} (hL : Lockstep h ix) (hr : ix.rebuildInPathOrder order = some ix') :
    Lockstep h ix' ∧ ∀ p, ix'.devices.get? p = ix.devices.get? p := by
  unfold DeviceIndex.rebuildInPathOrder at hr
  split at hr
  case isFalse => cases hr
  case isTrue hall =>
    obtain rfl := Option.some.inj hr
    have hd : ∀ p, (reorder ix.devices order).get? p = ix.devices.get? p := by
      intro p
      rw [get?_reorder]
      split
      · rfl
      case isFalse hp =>
        by_contra hne
        have hk : p ∈ ix.devices.keys := by
          by_contra hk
          exact hne (Dict.get?_eq_none.mpr hk).symm
        exact hp (of_decide_eq_true (List.all_eq_true.mp hall p hk))
    refine ⟨⟨?_, ?_, ?_, fun p => ?_, ?_, hL.sorted, hL.bucket_ne⟩, hd⟩
    · exact fun p r hp => hL.fresh p r ((hd p).symm.trans hp)
    · exact fun p r hp => hL.configuration p r ((hd p).symm.trans hp)
    · exact fun p => (hL.byConfiguration p).trans (hd p).symm
    · have hp := hL.cacheKeys p
      rw [hd]
      rw [get?_reorder]
      split
      · exact hp
      case isFalse hno =>
        -- a path that is not in the order has no device, and so no key
        have hnone : ix.devices.get? p = none := by rw [← hd, get?_reorder, if_neg hno]
        rw [hnone]; rfl
    · intro n r
      rw [hd]
      exact hL.mem_bucket n r

omit [LinearOrder F] [DecidableEq α] in
@[simp] theorem row_touch_name {rest : α} : ((h.touch r rest).row x).name = (h.row x).name := by
  unfold Heap.touch
  by_cases hx : x = r
  · subst hx; simp
  · simp [Function.update_of_ne hx]

omit [LinearOrder F] [DecidableEq α] in
@[simp] theorem row_touch_configuration {rest : α} : ((h.touch r rest).row x).configuration = (h.row x).configuration := by
  unfold Heap.touch
  by_cases hx : x = r
  · subst hx; simp
  · simp [Function.update_of_ne hx]

omit [DecidableEq α] in
/-- An edit in place keeps the lockstep. -/
theorem Lockstep.touch {rest : α} (hL : Lockstep h ix) : Lockstep (h.touch r rest) ix where
  fresh := hL.fresh
  configuration p x hx := row_touch_configuration.trans (hL.configuration p x hx)
  byConfiguration := hL.byConfiguration
  cacheKeys := hL.cacheKeys
  mem_bucket n x := by rw [row_touch_name, row_touch_configuration]; exact hL.mem_bucket n x
  sorted n := by simp only [row_touch_configuration]; exact hL.sorted n
  bucket_ne := hL.bucket_ne

omit [DecidableEq α] in
/-- So does a new object. -/
theorem Lockstep.alloc {d : Row F α} (hL : Lockstep h ix) : Lockstep (h.alloc d) ix := by
  have old : ∀ {x}, x < h.next → (h.alloc d).row x = h.row x := fun hx => Function.update_of_ne hx.ne _ _
  have hin : ∀ n x, x ∈ ix.getByName n → x < h.next := fun n x hx => hL.fresh _ x ((hL.mem_bucket n x).mp hx).2
  refine ⟨fun p r hp => (hL.fresh p r hp).trans (Nat.lt_succ_self _), fun p r hp => ?_, hL.byConfiguration,
    hL.cacheKeys, fun n r => ?_, fun n => ?_, hL.bucket_ne⟩
  · rw [old (hL.fresh p r hp)]; exact hL.configuration p r hp
  · constructor
    · intro hr
      rw [old (hin n r hr)]
      exact (hL.mem_bucket n r).mp hr
    · rintro ⟨hn, hd⟩
      rw [old (hL.fresh _ r hd)] at hn hd
      exact (hL.mem_bucket n r).mpr ⟨hn, hd⟩
  · refine (hL.sorted n).imp_of_mem fun ha hb hab => ?_
    rw [old (hin n _ ha), old (hin n _ hb)]
    exact hab

omit [DecidableEq α] in
theorem Lockstep.empty : Lockstep h (DeviceIndex.empty : DeviceIndex F K) where
  fresh _ _ hr := nomatch hr
  configuration _ _ hr := nomatch hr
  byConfiguration _ := rfl
  cacheKeys _ := rfl
  mem_bucket _ _ := ⟨fun hr => absurd hr List.not_mem_nil, fun hr => nomatch hr.2⟩
  sorted _ := List.Pairwise.nil
  bucket_ne _ := nofun

end DeviceBuilder.Devices.Index
