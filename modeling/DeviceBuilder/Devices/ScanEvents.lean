import DeviceBuilder.Devices.DeviceIndex
import DeviceBuilder.Devices.Scanner

/-!
# The scanner's event stream

`scan` and `reload` of `controllers/_device_scanner.py`, as far as the index and the
change events go: what an executor hop finds is arbitrary. The scanner's lock admits
one of them at a time; edits in place go on meanwhile, also from the handler of a
change, so each change is a step of its own.

* `EventWorld.step`: one step of a scan or a reload, or an edit in place.
* `replay`: the fold of the changes over the empty map.
-/

namespace DeviceBuilder.Devices.Index

inductive ScanChange
  | added
  | updated
  | removed
  | reloaded
  deriving DecidableEq, Repr

/-- What a load makes of a file. -/
structure LoadedDevice (F α : Type) where
  name : F
  rest : α
  dependencyKeys : List (Option ℕ)
  deriving DecidableEq

/-- `load_device_from_storage` names the configuration after the path. -/
def LoadedDevice.row {F α : Type} (path : F) (d : LoadedDevice F α) : Row F α := ⟨d.name, path, d.rest⟩

/-- What the log keeps: the changes handed to `on_change`, and the edits in place of indexed devices. -/
inductive Entry (F α : Type)
  | change (kind : ScanChange) (path : F) (device : Ref) (row : Row F α)
  | touched (path : F) (row : Row F α)
  deriving DecidableEq

/-- What holds the scanner's lock. -/
inductive Work (F α : Type)
  /-- `_build_cache_keys` -/
  | listing
  /-- `_load_devices` -/
  | loading (keys : Dict F CacheKey) (oldPaths : List F) (removed : List F)
  /-- The loops of `_do_scan`. -/
  | applying (keys : Dict F CacheKey) (oldPaths : List F) (rows : List (F × LoadedDevice F α)) (removed : List F)
      (reorders : Bool)
  /-- `_load_devices` of `reload` -/
  | reloading (path : F) (previousCacheKey : CacheKey) (previous : Ref)
  /-- `path.stat` of `reload` -/
  | statting (path : F) (previousCacheKey : CacheKey) (previous : Ref) (loaded : LoadedDevice F α)

structure EventWorld (F α : Type) where
  heap : Heap F α
  index : DeviceIndex F CacheKey
  log : List (Entry F α)
  work : Option (Work F α)
  /-- An operation of the index raised. -/
  raised : Bool

/-- The steps; `removed` is the order in which a set is iterated. -/
inductive ScanAction (F α : Type) [DecidableEq F]
  | scan
  | listed (keys : Dict F CacheKey) (removed : List F)
  | loaded (rows : Dict F (LoadedDevice F α))
  | apply
  | reload (path : F)
  | reloaded (row : Option (LoadedDevice F α))
  | statted (main : Option ℕ)
  | fails
  | touch (r : Ref) (rest : α)

attribute [local instance] lawfulBEq_of_linearOrder

variable {F α : Type} [LinearOrder F] [DecidableEq α]

namespace EventWorld

def init (h : Heap F α) : EventWorld F α := ⟨h, DeviceIndex.empty, [], none, false⟩

/-- `_notify` -/
def notify (w : EventWorld F α) (kind : ScanChange) (path : F) (device : Ref) : EventWorld F α :=
  { w with log := w.log ++ [.change kind path device (w.heap.row device)] }

/-- A `set` of the scanner. -/
def setDevice (w : EventWorld F α) (path : F) (device : Ref) (key : CacheKey) : EventWorld F α :=
  match w.index.set w.heap path device key with
  | some index => { w with index }
  | none => { w with raised := true }

/-- A new device is set, and the change is handed on if `notifies`. -/
def setNew (w : EventWorld F α) (path : F) (d : LoadedDevice F α) (key : CacheKey) (kind : ScanChange)
    (notifies : Bool) : EventWorld F α :=
  let device := w.heap.next
  let w := { w with heap := w.heap.alloc (d.row path) }
  let w := w.setDevice path device key
  if notifies then w.notify kind path device else w

/-- `paths_to_load` -/
def pathsToLoad (w : EventWorld F α) (keys : Dict F CacheKey) : List F :=
  keys.keys.filter fun p => w.index.cacheKeys.get? p ≠ keys.get? p

/-- One turn of the loops of `_do_scan`. -/
def applyOne (w : EventWorld F α) (keys : Dict F CacheKey) (oldPaths : List F) (removed : List F) (reorders : Bool) :
    List (F × LoadedDevice F α) → EventWorld F α
  | (path, d) :: rows =>
    let kind := if path ∈ oldPaths then ScanChange.updated else .added
    let key := (keys.get? path).map fun k => k.withDependencyKeys d.dependencyKeys
    let w := w.setNew path d (key.getD .poisoned) kind true
    { w with work := some (.applying keys oldPaths rows removed reorders) }
  | [] =>
    match removed with
    | path :: removed =>
      match w.index.pop w.heap path with
      | none => { w with raised := true, work := none }
      | some (index, device) =>
        let w := { w with index, work := some (.applying keys oldPaths [] removed reorders) }
        match device with
        | some r => w.notify .removed path r
        | none => w
    | [] =>
      if reorders then
        match w.index.rebuildInPathOrder keys.keys with
        | some index => { w with index, work := none }
        | none => { w with raised := true, work := none }
      else { w with work := none }

/-- One step. -/
def step (w : EventWorld F α) : ScanAction F α → EventWorld F α
  | .scan => if w.work.isNone then { w with work := some .listing } else w
  | .listed keys order =>
    match w.work with
    | some .listing =>
      let oldPaths := w.index.devices.keys
      let removed := oldPaths.filter (· ∉ keys.keys)
      let removed := if order.isPerm removed then order else removed
      { w with work := some (.loading keys oldPaths removed) }
    | _ => w
  | .loaded rows =>
    match w.work with
    | some (.loading keys oldPaths removed) =>
      -- a file that fails to load is left out
      let rows := rows.items.filter fun e => e.1 ∈ w.pathsToLoad keys
      let reorders := keys.keys.any (· ∉ oldPaths) || !removed.isEmpty
      { w with work := some (.applying keys oldPaths rows removed reorders) }
    | _ => w
  | .apply =>
    match w.work with
    | some (.applying keys oldPaths rows removed reorders) => w.applyOne keys oldPaths removed reorders rows
    | _ => w
  | .reload path =>
    match w.work, w.index.devices.get? path with
    | none, some previous =>
      match w.index.cacheKeys.get? path with
      | some key => { w with work := some (.reloading path key previous) }
      | none => { w with raised := true }
    | _, _ => w
  | .reloaded row =>
    match w.work with
    | some (.reloading path key previous) =>
      match row with
      | none => { w.setDevice path previous .poisoned with work := none }
      | some d => { w with work := some (.statting path key previous d) }
    | _ => w
  | .statted main =>
    match w.work with
    | some (.statting path previousKey previous d) =>
      let key : CacheKey := match main with
        | some _ => ⟨main, d.dependencyKeys⟩
        | none => previousKey.withDependencyKeys d.dependencyKeys
      { w.setNew path d key .reloaded (d.row path ≠ w.heap.row previous) with work := none }
    | _ => w
  | .fails =>
    match w.work with
    | some (.applying ..) => w
    | _ => { w with work := none }
  | .touch r rest =>
    let path := (w.heap.row r).configuration
    let heap := w.heap.touch r rest
    if w.index.devices.get? path = some r then
      { w with heap, log := w.log ++ [.touched path (heap.row r)] }
    else { w with heap }

end EventWorld

/-! ### The fold of the log -/

/-- One entry over a map; `none` when the path is there and must not be, or the other way. -/
def replayOne (m : F → Option (Row F α)) : Entry F α → Option (F → Option (Row F α))
  | .change .added p _ row => if m p = none then some (Function.update m p (some row)) else none
  | .change .removed p _ _ => if m p = none then none else some (Function.update m p none)
  | .change .updated p _ row | .change .reloaded p _ row | .touched p row =>
    if m p = none then none else some (Function.update m p (some row))

def replay (log : List (Entry F α)) : Option (F → Option (Row F α)) := log.foldlM replayOne fun _ => none

/-- The fold of the changes alone, to references. -/
def foldChanges (log : List (Entry F α)) : F → Option Ref :=
  log.foldl (fun m e => match e with
    | .change .removed p _ _ => Function.update m p none
    | .change _ p r _ => Function.update m p (some r)
    | .touched _ _ => m) fun _ => none

/-! ### The operations by themselves -/

/-- The operations of the index, and an edit in place, in any order. -/
inductive IndexAction (F α : Type)
  | set (path : F) (name : F) (rest : α) (key : CacheKey)
  | setAgain (path : F) (key : CacheKey)
  | pop (path : F)
  | rebuild (order : List F)
  | touch (r : Ref) (rest : α)

structure IndexState (F α : Type) where
  heap : Heap F α
  index : DeviceIndex F CacheKey
  /-- `set` or `pop` raised. -/
  raised : Bool

/-- One operation; `rebuild_in_path_order` refuses an order that leaves out a device. -/
def IndexState.step (s : IndexState F α) : IndexAction F α → IndexState F α
  | .set path name rest key =>
    let heap := s.heap.alloc ⟨name, path, rest⟩
    match s.index.set heap path s.heap.next key with
    | some index => { s with heap, index }
    | none => { s with raised := true }
  | .setAgain path key =>
    match s.index.devices.get? path with
    | none => s
    | some r => match s.index.set s.heap path r key with
      | some index => { s with index }
      | none => { s with raised := true }
  | .pop path =>
    match s.index.pop s.heap path with
    | some (index, _) => { s with index }
    | none => { s with raised := true }
  | .rebuild order =>
    match s.index.rebuildInPathOrder order with
    | some index => { s with index }
    | none => s
  | .touch r rest => { s with heap := s.heap.touch r rest }

end DeviceBuilder.Devices.Index
