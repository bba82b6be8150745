import DeviceBuilder.Lib.Runs
import DeviceBuilder.Devices.ScanEvents

/-!
# The index is consistent and its event stream faithful

* `Faithful`: the log folds to the map of the index.
* `Faithful.setNew`, `Faithful.pop`, `Faithful.touch`: what one change does to both.
* `EventInv.step`: the invariant of the scanner; `index_faithful`: every run.
* `equal_reload_edited`: the changes alone miss an edit that follows a reload which
  found the device equal.
-/

namespace DeviceBuilder.Devices.Index

open Runs

variable {F α : Type} [LinearOrder F] [DecidableEq α] {w : EventWorld F α} {p q : F} {r : Ref}
  {m : F → Option (Row F α)} {log : List (Entry F α)} {e : Entry F α} {h : Heap F α} {ix ix' : DeviceIndex F CacheKey}

/-- The log folds to the devices of the index. -/
def Faithful (h : Heap F α) (ix : DeviceIndex F CacheKey) (log : List (Entry F α)) : Prop :=
  ∃ m, replay log = some m ∧ ∀ p, m p = (ix.devices.get? p).map h.row

omit [DecidableEq α] in
theorem replay_append (hm : replay log = some m) : replay (log ++ [e]) = replayOne m e := by
  unfold replay at hm ⊢
  rw [List.foldlM_append, hm, Option.bind_eq_bind, Option.bind_some, List.foldlM_cons]
  exact bind_pure _

/-- May a change of this kind be told of a path, there or not? -/
def Fits : ScanChange → Bool → Prop
  | .added, there => there = false
  | _, there => there = true

/-- A change that puts a device at `p`. -/
theorem Faithful.put {kind : ScanChange} (hf : Faithful h ix log) (hk : kind ≠ .removed)
    (hfits : Fits kind (ix.devices.get? p).isSome) {d : Row F α}
    (hd : ∀ q, (ix'.devices.get? q).map h.row = if q = p then some d else (ix.devices.get? q).map h.row) :
    Faithful h ix' (log ++ [.change kind p r d]) := by
  obtain ⟨m, hm, hrow⟩ := hf
  have hp : (m p).isSome = (ix.devices.get? p).isSome := by rw [hrow, Option.isSome_map]
  have hone : replayOne m (.change kind p r d) = some (Function.update m p (some d)) := by
    rw [← hp] at hfits
    cases kind with
    | added => exact if_pos (by simpa [Fits] using hfits)
    | removed => exact absurd rfl hk
    | updated | reloaded => exact if_neg (Option.isSome_iff_ne_none.mp hfits)
  refine ⟨_, (replay_append hm).trans hone, fun q => ?_⟩
  rw [hd, Function.update_apply, hrow]

/-! ### One change at a time -/

omit [LinearOrder F] [DecidableEq α] in
theorem row_alloc (hr : r < h.next) {d : Row F α} : (h.alloc d).row r = h.row r :=
  Function.update_of_ne hr.ne _ _

omit [LinearOrder F] [DecidableEq α] in
theorem row_alloc_self {d : Row F α} : (h.alloc d).row h.next = d := Function.update_self ..

theorem Faithful.alloc {d : Row F α} (hL : Lockstep h ix) (hf : Faithful h ix log) : Faithful (h.alloc d) ix log := by
  obtain ⟨m, hm, hrow⟩ := hf
  refine ⟨m, hm, fun q => ?_⟩
  rw [hrow]
  cases hq : ix.devices.get? q with
  | none => rfl
  | some r => exact congrArg some (row_alloc (hL.fresh q r hq)).symm

/-- What `setNew` does to a world in lockstep. -/
theorem setNew_spec {d : LoadedDevice F α} {key : CacheKey} {kind : ScanChange} {notifies : Bool}
    (hL : Lockstep w.heap w.index) (hf : Faithful w.heap w.index w.log) (hr : w.raised = false)
    (hk : kind ≠ .removed) (hn : notifies = true → Fits kind (w.index.devices.get? p).isSome)
    (hsame : notifies = false → (w.index.devices.get? p).map w.heap.row = some (d.row p)) :
    Lockstep (w.setNew p d key kind notifies).heap (w.setNew p d key kind notifies).index ∧
      Faithful (w.setNew p d key kind notifies).heap (w.setNew p d key kind notifies).index
        (w.setNew p d key kind notifies).log ∧
      (w.setNew p d key kind notifies).raised = false ∧
      (w.setNew p d key kind notifies).index.devices = w.index.devices.set p w.heap.next := by
  set h := w.heap.alloc (d.row p) with hh
  have hnew : h.row w.heap.next = d.row p := row_alloc_self
  obtain ⟨ix, hset, hL', hdev, -⟩ : ∃ ix, w.index.set h p w.heap.next key = some ix ∧ Lockstep h ix ∧
      ix.devices = w.index.devices.set p w.heap.next ∧ ix.cacheKeys = w.index.cacheKeys.set p key :=
    Lockstep.set hL.alloc (Nat.lt_succ_self w.heap.next) (congrArg Row.configuration hnew)
  have hf : Faithful h w.index w.log := hf.alloc hL
  have hrows : ∀ q, (ix.devices.get? q).map h.row =
      if q = p then some (d.row p) else (w.index.devices.get? q).map h.row := by
    intro q
    rw [hdev, Dict.get?_set]
    split
    · exact congrArg some hnew
    · rfl
  unfold EventWorld.setNew EventWorld.setDevice
  simp only [← hh, hset]
  cases notifies with
  | true =>
    simp only [if_true]
    refine ⟨hL', ?_, hr, hdev⟩
    have := hf.put (r := w.heap.next) hk (hn rfl) hrows
    rw [← hnew] at this
    exact this
  | false =>
    simp only [Bool.false_eq_true, if_false]
    refine ⟨hL', ?_, hr, hdev⟩
    -- the device was equal, so the fold need not change
    obtain ⟨m, hm, hrow⟩ := hf
    refine ⟨m, hm, fun q => ?_⟩
    rw [hrows, hrow]
    split
    case isTrue hq =>
      subst hq
      obtain ⟨r, hr, hrow⟩ := Option.map_eq_some_iff.mp (hsame rfl)
      rw [hr, Option.map_some, row_alloc (hL.fresh q r hr), hrow]
    case isFalse => rfl

/-! ### The scanner -/

/-- What the holder of the lock knows of the index. -/
def WorkOk (ix : DeviceIndex F CacheKey) : Work F α → Prop
  | .listing => True
  | .loading keys oldPaths removed =>
    (∀ p, p ∈ oldPaths ↔ (ix.devices.get? p).isSome) ∧ ∀ p ∈ oldPaths, p ∉ keys.keys → p ∈ removed
  | .applying keys oldPaths rows removed _ =>
    (rows.map Prod.fst).Nodup ∧
      (∀ e ∈ rows, e.1 ∈ keys.keys ∧ (e.1 ∈ oldPaths ↔ (ix.devices.get? e.1).isSome)) ∧
      ∀ p, (ix.devices.get? p).isSome → p ∈ keys.keys ∨ p ∈ removed
  | .reloading path _ previous | .statting path _ previous _ => ix.devices.get? path = some previous

structure EventInv (w : EventWorld F α) : Prop where
  lockstep : Lockstep w.heap w.index
  faithful : Faithful w.heap w.index w.log
  quiet : w.raised = false
  work : ∀ wk, w.work = some wk → WorkOk w.index wk

theorem EventInv.init : EventInv (EventWorld.init h) where
  lockstep := Lockstep.empty
  faithful := ⟨fun _ => none, rfl, fun _ => rfl⟩
  quiet := rfl
  work _ hw := nomatch hw

omit [DecidableEq α] in
/-- Work that the index allows is taken up. -/
theorem EventInv.withWork (hI : EventInv w) {wk : Option (Work F α)} (hw : ∀ v, wk = some v → WorkOk w.index v) :
    EventInv { w with work := wk } := ⟨hI.lockstep, hI.faithful, hI.quiet, hw⟩

theorem EventInv.applyOne {keys : Dict F CacheKey} {oldPaths removed : List F} {reorders : Bool}
    {rows : List (F × LoadedDevice F α)} (hI : EventInv w)
    (hw : WorkOk w.index (.applying keys oldPaths rows removed reorders : Work F α)) :
    EventInv (w.applyOne keys oldPaths removed reorders rows) := by
  obtain ⟨hnodup, hrows, hall⟩ := hw
  match rows with
  | (path, d) :: rows =>
    obtain ⟨hpath, hnodup⟩ := List.nodup_cons.mp hnodup
    obtain ⟨hkey, hold⟩ := hrows _ (.head _)
    have hkind : ∀ b : Bool, b = true → Fits (if path ∈ oldPaths then ScanChange.updated else .added)
        (w.index.devices.get? path).isSome := by
      intro _ _
      split
      case isTrue h => exact hold.mp h
      case isFalse h => exact Bool.eq_false_iff.mpr fun hs => h (hold.mpr hs)
    obtain ⟨hL, hf, hq, hdev⟩ := @setNew_spec F α _ _ w path d
      (((keys.get? path).map fun k => k.withDependencyKeys d.dependencyKeys).getD .poisoned) _ true hI.lockstep
      hI.faithful hI.quiet (by split <;> exact nofun) (hkind true) nofun
    have hget : ∀ q, (w.applyOne keys oldPaths removed reorders ((path, d) :: rows)).index.devices.get? q =
        (w.index.devices.set path w.heap.next).get? q := fun q => congrArg (fun ds => Dict.get? ds q) hdev
    refine ⟨hL, hf, hq, fun wk hwk => ?_⟩
    obtain rfl := Option.some.inj hwk
    refine ⟨hnodup, fun e he => ?_, fun p hp => ?_⟩
    · have hmem : e.1 ∈ rows.map Prod.fst := List.mem_map_of_mem he
      have hne : e.1 ≠ path := fun hq => hpath (hq ▸ hmem)
      obtain ⟨hk, ho⟩ := hrows e (.tail _ he)
      refine ⟨hk, ho.trans ?_⟩
      rw [hget, Dict.get?_set_ne hne]
    · rw [hget, Dict.get?_set] at hp
      split at hp
      case isTrue hq => exact .inl (hq ▸ hkey)
      case isFalse => exact hall p hp
  | [] =>
    match removed with
    | path :: removed =>
      obtain ⟨ix, hpop, hL, hdev⟩ := hI.lockstep.pop (p := path)
      simp only [EventWorld.applyOne, hpop]
      have hwork : WorkOk ix (.applying keys oldPaths [] removed reorders : Work F α) := by
        refine ⟨List.nodup_nil, fun _ he => absurd he List.not_mem_nil, fun p hp => ?_⟩
        rw [hdev, Dict.get?_erase] at hp
        split at hp
        · cases hp
        case isFalse hne =>
          rcases hall p hp with hk | hk
          · exact .inl hk
          · exact .inr ((List.mem_cons.mp hk).resolve_left hne)
      have hget : ∀ q, ix.devices.get? q = if q = path then none else w.index.devices.get? q := by
        intro q; rw [hdev, Dict.get?_erase]
      obtain ⟨m, hm, hrow⟩ := hI.faithful
      cases hr : w.index.devices.get? path with
      | none =>
        simp only
        refine ⟨hL, ⟨m, hm, fun q => ?_⟩, hI.quiet, fun wk hwk => Option.some.inj hwk ▸ hwork⟩
        rw [hrow, hget]
        split
        case isTrue hq => rw [hq, hr]
        case isFalse => rfl
      | some r =>
        simp only [EventWorld.notify]
        refine ⟨hL, ⟨Function.update m path none, ?_, fun q => ?_⟩, hI.quiet, fun wk hwk => Option.some.inj hwk ▸ hwork⟩
        · refine (replay_append hm).trans (if_neg ?_)
          rw [hrow, hr]; exact Option.some_ne_none _
        · rw [Function.update_apply, hget, hrow]
          split <;> rfl
    | [] =>
      simp only [EventWorld.applyOne]
      cases reorders with
      | false => exact hI.withWork nofun
      | true =>
        simp only [if_true]
        have hall : w.index.devices.keys.all (· ∈ keys.keys) = true := by
          rw [List.all_eq_true]
          intro p hp
          obtain ⟨v, hv⟩ := Dict.mem_keys.mp hp
          exact decide_eq_true ((hall p (by rw [hv]; rfl)).resolve_right List.not_mem_nil)
        cases hre : w.index.rebuildInPathOrder keys.keys with
        | none => rw [DeviceIndex.rebuildInPathOrder, if_pos hall] at hre; cases hre
        | some ix =>
          obtain ⟨hL, hdev⟩ := hI.lockstep.rebuild hre
          obtain ⟨m, hm, hrow⟩ := hI.faithful
          exact ⟨hL, ⟨m, hm, fun q => by rw [hrow, hdev]⟩, hI.quiet, nofun⟩

theorem EventInv.touch {rest : α} (hI : EventInv w) : EventInv (w.step (.touch r rest)) := by
  obtain ⟨m, hm, hrow⟩ := hI.faithful
  have hrow' : ∀ x, x ≠ r → (w.heap.touch r rest).row x = w.heap.row x := fun x hx => Function.update_of_ne hx _ _
  simp only [EventWorld.step]
  split
  case isTrue hr =>
    set path := (w.heap.row r).configuration with hpath
    refine ⟨hI.lockstep.touch, ⟨Function.update m path (some ((w.heap.touch r rest).row r)), ?_, fun q => ?_⟩,
      hI.quiet, hI.work⟩
    · refine (replay_append hm).trans (if_neg ?_)
      rw [hrow, hr]; exact Option.some_ne_none _
    · rw [Function.update_apply, hrow]
      split
      case isTrue hq => rw [hq, hr]; rfl
      case isFalse hq =>
        cases hx : w.index.devices.get? q with
        | none => rfl
        | some x =>
          refine congrArg some (hrow' x fun hxr => hq ?_).symm
          rw [hpath, ← hxr, hI.lockstep.configuration q x hx]
  case isFalse hr =>
    refine ⟨hI.lockstep.touch, ⟨m, hm, fun q => ?_⟩, hI.quiet, hI.work⟩
    rw [hrow]
    cases hx : w.index.devices.get? q with
    | none => rfl
    | some x =>
      refine congrArg some (hrow' x fun hxr => hr ?_).symm
      rw [← hxr, hI.lockstep.configuration q x hx, hx]

/-- **One step of the scanner** keeps the invariant. -/
theorem EventInv.step {a : ScanAction F α} (hI : EventInv w) : EventInv (w.step a) := by
  cases a with
  | scan =>
    simp only [EventWorld.step]
    split
    · exact hI.withWork fun v hv => Option.some.inj hv ▸ trivial
    · exact hI
  | listed keys order =>
    simp only [EventWorld.step]
    split
    case h_2 => exact hI
    case h_1 =>
      refine hI.withWork fun v hv => ?_
      obtain rfl := Option.some.inj hv
      refine ⟨fun p => ?_, fun p hp hk => ?_⟩
      · rw [Dict.mem_keys, Option.isSome_iff_exists]
      · have hmem : p ∈ w.index.devices.keys.filter (· ∉ keys.keys) := List.mem_filter.mpr ⟨hp, by simpa using hk⟩
        split
        case isTrue hperm => exact (List.isPerm_iff.mp hperm).mem_iff.mpr hmem
        case isFalse => exact hmem
  | loaded rows =>
    simp only [EventWorld.step]
    split
    case h_2 => exact hI
    case h_1 keys oldPaths removed hwork =>
      obtain ⟨hold, hremoved⟩ := hI.work _ hwork
      refine hI.withWork fun v hv => ?_
      obtain rfl := Option.some.inj hv
      refine ⟨rows.nodup.sublist (List.filter_sublist.map _), fun e he => ?_, fun p hp => ?_⟩
      · have hload := of_decide_eq_true (List.mem_filter.mp he).2
        exact ⟨(List.mem_filter.mp hload).1, hold e.1⟩
      · by_cases hk : p ∈ keys.keys
        · exact .inl hk
        · exact .inr (hremoved p ((hold p).mpr hp) hk)
  | apply =>
    simp only [EventWorld.step]
    split
    case h_2 => exact hI
    case h_1 hwork => exact hI.applyOne (hI.work _ hwork)
  | reload path =>
    simp only [EventWorld.step]
    split
    case h_2 => exact hI
    case h_1 previous _ hprev =>
      cases hkey : w.index.cacheKeys.get? path with
      | some key =>
        refine hI.withWork fun v hv => ?_
        obtain rfl := Option.some.inj hv
        exact hprev
      | none =>
        have hboth := hI.lockstep.cacheKeys path
        rw [hkey, hprev] at hboth
        cases hboth
  | reloaded row =>
    simp only [EventWorld.step]
    split
    case h_2 => exact hI
    case h_1 path key previous hwork =>
      have hprev : w.index.devices.get? path = some previous := hI.work _ hwork
      cases row with
      | some d =>
        refine hI.withWork fun v hv => ?_
        obtain rfl := Option.some.inj hv
        exact hprev
      | none =>
        obtain ⟨ix, hset, hL, hdev, -⟩ := @Lockstep.set F α _ _ _ _ _ path previous CacheKey.poisoned hI.lockstep
          (hI.lockstep.fresh _ _ hprev) (hI.lockstep.configuration _ _ hprev)
        obtain ⟨m, hm, hrow⟩ := hI.faithful
        simp only [EventWorld.setDevice, hset]
        refine ⟨hL, ⟨m, hm, fun q => ?_⟩, hI.quiet, by simp⟩
        rw [hdev, Dict.set_same hprev, hrow]
  | statted main =>
    simp only [EventWorld.step]
    split
    case h_2 => exact hI
    case h_1 path key previous d hwork =>
      have hprev : w.index.devices.get? path = some previous := hI.work _ hwork
      have hspec := fun k : CacheKey => @setNew_spec F α _ _ w path d k .reloaded
        (decide (d.row path ≠ w.heap.row previous)) hI.lockstep hI.faithful hI.quiet (by simp)
        (fun _ => by rw [hprev]; rfl) (fun hn => by
          rw [hprev, Option.map_some]
          exact congrArg some (not_not.mp (of_decide_eq_false hn)).symm)
      -- whatever key the row gets
      exact ⟨(hspec _).1, (hspec _).2.1, (hspec _).2.2.1, by simp⟩
  | fails =>
    simp only [EventWorld.step]
    split
    · exact hI
    · exact hI.withWork (by simp)
  | touch r rest => exact hI.touch

/-! ### The operations by themselves -/

theorem IndexState.step_lockstep {s : IndexState F α} {a : IndexAction F α}
    (hI : Lockstep s.heap s.index ∧ s.raised = false) : Lockstep (s.step a).heap (s.step a).index ∧ (s.step a).raised = false := by
  obtain ⟨hL, hq⟩ := hI
  cases a with
  | set path name rest key =>
    obtain ⟨ix, hset, hL', -⟩ := @Lockstep.set F α _ _ _ (s.heap.alloc ⟨name, path, rest⟩) s.index path s.heap.next key
      hL.alloc (Nat.lt_succ_self s.heap.next)
      (congrArg Row.configuration row_alloc_self)
    simp only [IndexState.step, hset]
    exact ⟨hL', hq⟩
  | setAgain path key =>
    simp only [IndexState.step]
    cases hr : s.index.devices.get? path with
    | none => exact ⟨hL, hq⟩
    | some r =>
      obtain ⟨ix, hset, hL', -⟩ := @Lockstep.set F α _ _ _ _ _ path r key hL (hL.fresh _ _ hr) (hL.configuration _ _ hr)
      simp only [hset]
      exact ⟨hL', hq⟩
  | pop path =>
    obtain ⟨ix, hpop, hL', -⟩ := hL.pop (p := path)
    simp only [IndexState.step, hpop]
    exact ⟨hL', hq⟩
  | rebuild order =>
    simp only [IndexState.step]
    split
    case h_1 hre => exact ⟨(hL.rebuild hre).1, hq⟩
    case h_2 => exact ⟨hL, hq⟩
  | touch r rest => exact ⟨hL.touch, hq⟩

/-- **The index is consistent and its event stream faithful.** In every run of the operations the maps
stay in lockstep and neither `set` nor `pop` raises; so it is in every run of the scanner, whose changes,
with the edits in place of indexed devices, fold to the devices of the index. -/
theorem index_faithful (h : Heap F α) :
    (∀ s, Reaches IndexState.step any ⟨h, DeviceIndex.empty, false⟩ s → Lockstep s.heap s.index ∧ s.raised = false) ∧
      ∀ w, Reaches EventWorld.step any (EventWorld.init h) w →
        Lockstep w.heap w.index ∧ w.raised = false ∧
          ∃ m, replay w.log = some m ∧ ∀ p, m p = (w.index.devices.get? p).map w.heap.row := by
  constructor
  · intro s hs
    exact hs.invariant (I := fun s => Lockstep s.heap s.index ∧ s.raised = false) ⟨Lockstep.empty, rfl⟩
      fun _ _ _ hI => IndexState.step_lockstep hI
  · intro w hw
    have hI : EventInv w := hw.invariant (I := EventInv) EventInv.init fun _ _ _ hI => hI.step
    exact ⟨hI.lockstep, hI.quiet, hI.faithful⟩

/-- A device is added, reloaded with no change, and then edited in place. -/
def equalReload : List (ScanAction ℕ ℕ) :=
  [.scan, .listed ((∅ : Dict ℕ CacheKey).set 1 ⟨some 0, []⟩) [],
    .loaded ((∅ : Dict ℕ (LoadedDevice ℕ ℕ)).set 1 ⟨7, 0, []⟩), .apply, .apply,
    .reload 1, .reloaded (some ⟨7, 0, []⟩), .statted (some 0), .touch 1 9]

theorem equal_reload_edited :
    let w := equalReload.foldl EventWorld.step (EventWorld.init ⟨fun _ => ⟨0, 0, 0⟩, 0⟩)
    (foldChanges w.log 1).map w.heap.row = some ⟨7, 1, 0⟩ ∧
      (w.index.devices.get? 1).map w.heap.row = some ⟨7, 1, 9⟩ := by
  decide

end DeviceBuilder.Devices.Index
