import Mathlib.Logic.Function.Basic

/-!
# A rename's metadata

Two stores keep what the dashboard knows of a device under its filename: the volatile
`DeviceMetadataStore` (`controllers/devices/_metadata_store.py`) and the shared sidecar
(`controllers/config/metadata.py`). A rename to another filename ends with the old YAML
gone and the new one in place; then `firmware_sync.migrate_metadata` moves both entries,
and a reload and a scan follow. Poll scans, observations and edits go on meanwhile.

* `RenameWorld.step`: a step of the rename, a scan change, a write to either store.

The rename is the one from `old` to `new`. `sidecarAt` and `storeAt` are the stores when
the old YAML went; `sidecarWritten`, `storeWritten` say what was written since, and the
`late` flags what was written under `old` after its entry was moved.
-/

namespace DeviceBuilder.Devices

/-- `STORE_FIELDS`. -/
inductive StoreField
  | ip
  | offlineSince
  | lastSeen
  | deployedConfigHash
  | deployedVersion
  | deployedName
  | network
  | queuedUpdate
  | apiEncryptionActive
  | expectedConfigHash
  | regenConfigHash
  | regenContentFingerprint
  | contentFingerprint
  | dependencies
  | buildSizeBytes
  | buildSizeDirMtime
  | buildSizeInfoMtime
  | regenFailedContentFingerprint
  | regenFailedAt
  | regenFailedAttempts
  deriving DecidableEq

/-- An entry: a field that is absent is `none`. -/
abbrev Fields (K V : Type) := K → Option V

/-- `{**old, **new}`: what the target entry has wins. -/
def Fields.merge {K V : Type} (oldEntry newEntry : Fields K V) : Fields K V := fun k => newEntry k <|> oldEntry k

/-- The two ways a rename ends. `deployedName` is what `_stamp_deployed_name` records. -/
inductive RenameKind (V : Type)
  /-- The OTA chain: `finalize_rename_swap`, then `migrate_metadata_then_scan`. -/
  | ota
  /-- `_config_only_rename`. -/
  | configOnly (deployedName : Option V)
  deriving DecidableEq

inductive RenamePhase
  | before
  /-- The new YAML is in place and the old one gone. -/
  | landed
  /-- The volatile entry has moved; its save is awaited. -/
  | storeMoved
  /-- The sidecar's transaction is over. -/
  | migrated
  /-- `rescan_renamed`. -/
  | rescanning
  | done
  deriving DecidableEq

variable {F V : Type} [DecidableEq F]

structure RenameWorld (F V : Type) where
  yaml : F → Bool
  store : F → Fields StoreField V
  sidecar : F → Fields String V
  phase : RenamePhase := .before
  /-- The sidecar's transaction did not raise. -/
  moved : Bool := false
  storeAt : F → Fields StoreField V := fun _ _ => none
  sidecarAt : F → Fields String V := fun _ _ => none
  storeWritten : F → StoreField → Bool := fun _ _ => false
  sidecarWritten : F → String → Bool := fun _ _ => false
  /-- A scan reported the old YAML's removal before its volatile entry moved. -/
  removedEarly : Bool := false
  lateStore : Bool := false
  lateSidecar : Bool := false

inductive RenameAction (F V : Type)
  /-- The swap, or `_land`. -/
  | land
  /-- The resumed rename, up to the save of the moved volatile entry. -/
  | migrate
  /-- The save and the sidecar's transaction, either of which may raise. -/
  | moveSidecar (raises : Bool)
  | settle
  /-- `rescan_renamed` returns; its scan changes are steps of their own. -/
  | finish
  /-- A scan reports that a path is gone. -/
  | scanRemoved (f : F)
  /-- A scan reports a path that is there, with what it stores of it. -/
  | scanned (f : F) (contentFingerprint : V) (dependencies : Option V)
  /-- An observation, a job's outcome, a regeneration: a field of the volatile store; `none` clears it. -/
  | observe (f : F) (field : StoreField) (value : Option V)
  /-- `set_device_metadata`: a field of the sidecar entry; `none` clears it. -/
  | edit (f : F) (field : String) (value : Option V)
  /-- `set_device_labels`, which refuses when the YAML is absent. -/
  | setLabels (f : F) (value : Option V)

namespace RenameWorld

variable (old new : F)

/-- A write to the volatile store. -/
def updateStore (w : RenameWorld F V) (f : F) (field : StoreField) (value : Option V) : RenameWorld F V :=
  { w with
    store := Function.update w.store f (Function.update (w.store f) field value)
    storeWritten := Function.update w.storeWritten f (Function.update (w.storeWritten f) field true)
    lateStore := w.lateStore || decide (f = old) }

/-- A write to the sidecar entry. -/
def updateSidecar (w : RenameWorld F V) (f : F) (field : String) (value : Option V) : RenameWorld F V :=
  { w with
    sidecar := Function.update w.sidecar f (Function.update (w.sidecar f) field value)
    sidecarWritten := Function.update w.sidecarWritten f (Function.update (w.sidecarWritten f) field true)
    lateSidecar := w.lateSidecar || decide (f = old) }

/-- `DeviceMetadataStore.clear_volatile`. -/
def clearVolatile (w : RenameWorld F V) (f : F) : RenameWorld F V :=
  { w with
    store := Function.update w.store f fun _ => none
    removedEarly := w.removedEarly || (decide (w.phase = .landed) && decide (f = old))
    lateStore := w.lateStore && !decide (f = old) }

/-- `_set_deployed_name`, by the rename itself. -/
def setDeployedName (w : RenameWorld F V) (f : F) (deployed : Option V) : RenameWorld F V :=
  { w with store := Function.update w.store f (Function.update (w.store f) .deployedName deployed) }

/-- `DeviceMetadataStore.rename`. -/
def renameStore (w : RenameWorld F V) : RenameWorld F V :=
  { w with
    store := Function.update (Function.update w.store new ((w.store old).merge (w.store new))) old fun _ => none
    lateStore := false }

/-- `rename_device_metadata`. -/
def renameSidecar (w : RenameWorld F V) : RenameWorld F V :=
  { w with
    sidecar := Function.update (Function.update w.sidecar new ((w.sidecar old).merge (w.sidecar new))) old fun _ => none
    lateSidecar := false
    moved := true }

/-- The old YAML goes; the histories start. -/
def land (w : RenameWorld F V) : RenameWorld F V :=
  { w with
    yaml := Function.update (Function.update w.yaml new true) old false
    phase := .landed
    storeAt := w.store
    sidecarAt := w.sidecar
    storeWritten := fun _ _ => false
    sidecarWritten := fun _ _ => false
    removedEarly := false }

/-- The OTA rename clears the recorded hostname, the other one records it; then the volatile entry moves. -/
def migrate (w : RenameWorld F V) (kind : RenameKind V) : RenameWorld F V :=
  let deployed := match kind with
    | .ota => none
    | .configOnly deployedName => deployedName
  { (w.setDeployedName old deployed).renameStore old new with phase := .storeMoved }

/-- The config-only rename re-asserts the hostname it recorded over a stale target entry's. -/
def settle (w : RenameWorld F V) (kind : RenameKind V) : RenameWorld F V :=
  match kind with
  | .ota => { w with phase := .rescanning }
  | .configOnly deployedName => { w.setDeployedName new deployedName with phase := .rescanning }

def finish (w : RenameWorld F V) (kind : RenameKind V) : RenameWorld F V :=
  match kind with
  | .configOnly none => { w.setDeployedName new none with phase := .done }
  | _ => { w with phase := .done }

def step (kind : RenameKind V) (w : RenameWorld F V) : RenameAction F V → RenameWorld F V
  | .land => if w.phase = .before then w.land old new else w
  | .migrate => if w.phase = .landed then w.migrate old new kind else w
  | .moveSidecar raises =>
    if w.phase = .storeMoved then
      { (if raises then w else w.renameSidecar old new) with phase := .migrated }
    else w
  | .settle => if w.phase = .migrated then w.settle new kind else w
  | .finish => if w.phase = .rescanning then w.finish new kind else w
  | .scanRemoved f => if w.yaml f then w else w.clearVolatile old f
  | .scanned f contentFingerprint dependencies =>
    let w := match dependencies with
      | none => w
      | some dependencies => w.updateStore old f .dependencies (some dependencies)
    w.updateStore old f .contentFingerprint (some contentFingerprint)
  | .observe f field value => w.updateStore old f field value
  | .edit f field value => w.updateSidecar old f field value
  | .setLabels f value => if w.yaml f then w.updateSidecar old f "labels" value else w

end RenameWorld
end DeviceBuilder.Devices
