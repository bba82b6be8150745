import DeviceBuilder.Devices.Observations
import DeviceBuilder.Lib.Runs

/-!
# Rescans under observation

A scan, or a reload, loads rows on an executor thread and swaps them in on the event
loop. The thread takes a snapshot of the shared sidecar, resolves the metadata of
each file, and copies the `runtime_state` of the row it will replace; meanwhile the
callbacks go on on the loop, and the MAC addresses they hand to background tasks
reach the sidecar.

* `RescanWorld`: the index, the two stores, and the load under way, if there is one.
* `RescanWorld.step`: one action.

The scanner's lock admits one load at a time. `seen` is a history variable: for each
row, the value of the last event that set a field.
-/

namespace DeviceBuilder.Devices

open Runs

/-- The last event that set each field of a row since it was added. -/
structure Seen where
  state : Option DeviceState := none
  activeSource : Option ReachabilitySource := none
  ip : Option String := none
  ipAddresses : Option (List String) := none
  deployedVersion : Option String := none
  deployedConfigHash : Option String := none
  network : Option String := none
  apiEncryptionActive : Option String := none
  deployedIdentityLive : Option Bool := none
  otaSigned : Option Bool := none
  macAddress : Option String := none
  queuedUpdate : Option Bool := none
  deployedName : Option String := none
  deriving DecidableEq

/-- An observation of row `d` is recorded. -/
def Seen.note (s : Seen) (d : Device) : Observation → Seen
  | .state st _ => { s with state := some st }
  | .activeSource source => { s with activeSource := some source }
  | .deployedIdentityLive live => { s with deployedIdentityLive := some live }
  | .otaSigned signed => { s with otaSigned := some signed }
  | .ip primary addresses => { s with ip := some primary, ipAddresses := some addresses }
  | .addressesCleared => { s with ipAddresses := some [] }
  | .persistedIpInvalidated staleIp => if d.ip = staleIp then { s with ip := some "" } else s
  | .version value => { s with deployedVersion := some value }
  | .macAddress mac => { s with macAddress := some mac }
  | .apiEncryption value => { s with apiEncryptionActive := some value }
  | .network value => { s with network := some value }
  | .configHash value => { s with deployedConfigHash := some value }

/-- One file of a batch in `_load_devices`. -/
structure LoadItem where
  path : String
  metadata : Option DeviceFileMetadata := none
  /-- The copied `runtime_state`, with what the YAML says: the row is complete. -/
  loaded : Option (RuntimeState × String × Bool) := none
  deriving DecidableEq

/-- The row of an item. -/
def LoadItem.device (t : LoadItem) : Option Device :=
  match t.metadata, t.loaded with
  | some m, some (runtime, name, loadedIntegrations) => some {
      name := name, loadedIntegrations := loadedIntegrations, ip := m.ip, macAddress := m.macAddress
      deployedName := m.deployedName, runtimeState := runtime }
  | _, _ => none

/-- The batch of a scan, or of a reload. -/
structure Load where
  /-- `get_all_sync` of the shared sidecar: the MAC addresses. -/
  shared : Option (String → String) := none
  items : List LoadItem

structure RescanWorld where
  index : Dict String Device := ∅
  store : String → StoreEntry := fun _ => {}
  sidecar : String → String := fun _ => ""
  /-- `_persist_device_metadata_async` of a MAC address, in the background. -/
  macWrites : List (String × String) := []
  load : Option Load := none
  seen : String → Seen := fun _ => {}

inductive RescanAction
  | observe (name : String) (o : Observation)
  | setQueuedUpdate (path : String) (isQueued : Bool)
  /-- A stamped, or cleared, `deployed_name`. -/
  | setDeployedName (path : String) (deployed : String)
  /-- Background write `i` reaches the sidecar. -/
  | macWritten (i : ℕ)
  /-- The scanner takes its lock and submits a batch. -/
  | beginLoad (paths : List String)
  | snapshotSidecar
  /-- The thread resolves the metadata of file `path`. -/
  | resolve (path : String)
  /-- It copies the `runtime_state` of the previous row; the YAML carries this name. -/
  | copy (path name : String) (loadedIntegrations : Bool)
  /-- The load of a file fails. -/
  | fails (path : String)
  /-- The loop swaps the rows in, and drops those of the removed files. -/
  | swap (removed : List String)

namespace RescanWorld

variable (w : RescanWorld)

/-! ### The event loop -/

/-- `_set_deployed_name`: the row, if it is indexed, and the store. -/
def setDeployedName (path : String) (deployed : String) : RescanWorld :=
  { w with
    index := w.index.adjust path fun d => { d with deployedName := deployed }
    store := Function.update w.store path { w.store path with deployedName := deployed }
    seen := if (w.index.get? path).isSome then
      Function.update w.seen path { w.seen path with deployedName := some deployed } else w.seen }

/-- `_clear_deployed_name`. -/
def clearDeployedName (path : String) : RescanWorld :=
  if (w.index.get? path).any (·.deployedName ≠ "") ∨ (w.store path).deployedName ≠ "" then w.setDeployedName path ""
  else w

/-- `_stamp_deployed_name`. -/
def stampDeployedName (path oldName newName : String) : RescanWorld :=
  let current := if (w.store path).deployedName ≠ "" then (w.store path).deployedName else oldName
  w.setDeployedName path (if current = newName then "" else current)

/-- The rows of a name take an observation. -/
def applyObservation (name : String) (o : Observation) : RescanWorld :=
  { w with
    index := w.index.mapValues fun d => if d.name = name then o.apply d else d
    store := fun path =>
      match w.index.get? path with
      | none => w.store path
      | some d => if d.name = name then o.persist d (w.store path) else w.store path
    macWrites :=
      match o with
      | .macAddress mac => w.macWrites ++ (w.index.items.filter fun e => e.2.name = name ∧ e.2.macAddress ≠ mac).map
          fun e => (e.1, mac)
      | _ => w.macWrites
    seen := fun path =>
      match w.index.get? path with
      | none => w.seen path
      | some d => if d.name = name then (w.seen path).note d o else w.seen path }

/-- A callback; an mDNS source that belongs to one row clears its `deployed_name`. -/
def observe (name : String) (o : Observation) : RescanWorld :=
  let rows := w.index.items.filter fun e => e.2.name = name
  match o, rows with
  | .activeSource .mdns, [e] => (w.clearDeployedName e.1).applyObservation name o
  | _, _ => w.applyObservation name o

/-- `_set_queued_update`. -/
def setQueuedUpdate (path : String) (isQueued : Bool) : RescanWorld :=
  match w.index.get? path with
  | none => w
  | some d =>
    if d.runtimeState.queuedUpdate = isQueued then w
    else { w with
      index := w.index.adjust path fun d => { d with runtimeState := { d.runtimeState with queuedUpdate := isQueued } }
      store := Function.update w.store path { w.store path with queuedUpdate := isQueued }
      seen := Function.update w.seen path { w.seen path with queuedUpdate := some isQueued } }

def macWritten (i : ℕ) : RescanWorld :=
  match w.macWrites[i]? with
  | none => w
  | some e => { w with sidecar := Function.update w.sidecar e.1 e.2, macWrites := w.macWrites.eraseIdx i }

/-! ### The executor thread -/

def setItem (path : String) (f : LoadItem → LoadItem) : RescanWorld :=
  { w with load := w.load.map fun l => { l with items := l.items.map fun t => if t.path = path then f t else t } }

def snapshotSidecar : RescanWorld :=
  { w with load := w.load.map fun l => { l with shared := some (l.shared.getD w.sidecar) } }

/-- `get_metadata(config_dir, path.name)`. -/
def resolve (isUnusable : String → Bool) (path : String) : RescanWorld :=
  match w.load.bind (·.shared) with
  | none => w
  | some shared => w.setItem path fun t =>
      { t with metadata := some (t.metadata.getD (resolveDeviceMetadata isUnusable (w.store path) (shared path))) }

/-- `load_device_from_storage`, from its copy of the previous row's `runtime_state` on. -/
def copy (path name : String) (loadedIntegrations : Bool) : RescanWorld :=
  w.setItem path fun t =>
    match t.metadata, t.loaded with
    | some m, none =>
      let runtime := ((w.index.get? path).map (·.runtimeState)).getD m.runtimeState
      { t with loaded := some (runtime, name, loadedIntegrations) }
    | _, _ => t

/-- The load of a file raises: the file is left out of the batch. -/
def fails (path : String) : RescanWorld :=
  { w with load := w.load.map fun l => { l with items := l.items.filter fun t => t.path ≠ path } }

/-! ### The swap -/

/-- `_index.set`, and what `on_scan_change` makes of a new name. -/
def swapItem (t : LoadItem) : RescanWorld :=
  match t.device with
  | none => w
  | some d =>
    let previous := w.index.get? t.path
    let w := { w with index := w.index.set t.path d }
    match previous with
    | none => w
    | some old => if old.name ≠ d.name ∧ d.loadedIntegrations then w.stampDeployedName t.path old.name d.name else w

/-- `_index.pop`, and `clear_volatile` of the REMOVED change; the row's history ends. -/
def dropRow (path : String) : RescanWorld :=
  match w.index.get? path with
  | none => w
  | some _ => { w with
      index := w.index.erase path
      store := Function.update w.store path {}
      seen := Function.update w.seen path {} }

/-- The rest of a scan, or of a reload, on the loop. -/
def swap (removed : List String) : RescanWorld :=
  match w.load with
  | none => w
  | some l =>
    if l.items.all (·.loaded.isSome) then
      let w := l.items.foldl swapItem { w with load := none }
      removed.foldl dropRow w
    else w

/-- One step. -/
def step (isUnusable : String → Bool) (w : RescanWorld) : RescanAction → RescanWorld
  | .observe name o => w.observe name o
  | .setQueuedUpdate path isQueued => w.setQueuedUpdate path isQueued
  | .setDeployedName path deployed => w.setDeployedName path deployed
  | .macWritten i => w.macWritten i
  | .beginLoad paths =>
    match w.load with
    | none => { w with load := some { items := paths.dedup.map fun path => { path := path } } }
    | some _ => w
  | .snapshotSidecar => w.snapshotSidecar
  | .resolve path => w.resolve isUnusable path
  | .copy path name loadedIntegrations => w.copy path name loadedIntegrations
  | .fails path => w.fails path
  | .swap removed => w.swap removed

end RescanWorld

end DeviceBuilder.Devices
