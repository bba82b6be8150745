import DeviceBuilder.Lib.Dict

/-!
# The metadata sidecar and its labels

`.device-builder.json` holds the label catalog under `_labels`, an entry for each device
under its filename, and other catalogs under keys that start with `_`. Each change is one
locked transaction (`helpers/metadata_sidecar.py`) of `controllers/config/label_store.py`,
`controllers/config/metadata.py`, `controllers/labels.py` or another module's.

* `Sidecar R`: the parsed file. `R` is what the code does not look into.
* `createLabel`, `updateLabel`, `deleteLabelCascade`, `setDeviceLabels`,
  `setDeviceMetadata`, `removeDeviceMetadata`, `renameDeviceMetadata`,
  `clearVolatileDeviceMetadata`, `setCatalog`: the transactions' bodies.
* `SidecarWorld.transact`: the transaction around a body, with the quarantine of a file
  that does not parse.

`Label.from_dict` is the parser of a catalog row that the model starts from: a row is a
label, or it is not one and may have an `id`.
-/

namespace DeviceBuilder.Config

/-- `_LABELS_KEY`. -/
def labelsKey : String := "_labels"

structure Label where
  id : String
  name : String
  color : Option String := none
  deriving DecidableEq

variable {R : Type} [DecidableEq R]

/-- An element of the on-disk `_labels` list. -/
inductive Row (R : Type)
  | label (l : Label)
  /-- `Label.from_dict` refuses it; `id` is its `id`, if that is a string. -/
  | malformed (id : Option String) (raw : R)
  deriving DecidableEq

/-- `entry["id"]`, where that is a string. -/
def Row.id? : Row R → Option String
  | .label l => some l.id
  | .malformed id _ => id

def Row.label? : Row R → Option Label
  | .label l => some l
  | .malformed .. => none

/-- What is under `_labels`. -/
inductive Catalog (R : Type)
  | absent
  | rows (rows : List (Row R))
  | other (raw : R)
  deriving DecidableEq

/-- An element of a `labels` list, of a device or of a request. -/
inductive LabelRef (R : Type)
  | id (id : String)
  | other (raw : R)
  deriving DecidableEq

/-- An entry's `labels`. -/
inductive LabelRefs (R : Type)
  | list (refs : List (LabelRef R))
  | other (raw : R)
  deriving DecidableEq

/-- What is under any other key. -/
inductive Entry (R : Type)
  | object (labels : Option (LabelRefs R)) (fields : Dict String R)
  | other (raw : R)
  deriving DecidableEq

structure Sidecar (R : Type) where
  catalog : Catalog R := .absent
  /-- Every key but `_labels`. -/
  entries : Dict String (Entry R) := ∅
  deriving DecidableEq

/-- A device's filename: the API takes no other. -/
def DeviceFile : Type := { name : String // name.endsWith ".yaml" = true ∨ name.endsWith ".yml" = true }

/-- What a transaction raises. -/
inductive SidecarError
  | invalidArgs
  | notFound
  | typeError
  /-- `OSError`: the lock, the quarantine or the write. -/
  | osError
  deriving DecidableEq

/-! ## Validation -/

/-- Python's `str.strip` and `str.lower`. -/
structure Text where
  strip : String → String
  lower : String → String

/-- `_NAME_MAX_LEN`. -/
def nameMaxLen : ℕ := 50

/-- `_validate_name`. -/
def validateName (text : Text) (name : String) : Except SidecarError String :=
  let trimmed := text.strip name
  if trimmed = "" then .error .invalidArgs
  else if trimmed.length > nameMaxLen then .error .invalidArgs
  else .ok trimmed

/-- `_COLOR_RE`. -/
def isColor (color : String) : Bool :=
  match color.toList with
  | '#' :: digits => digits.length = 6 && digits.all fun c =>
      ('0' ≤ c && c ≤ '9') || ('a' ≤ c && c ≤ 'f') || ('A' ≤ c && c ≤ 'F')
  | _ => false

/-- `_validate_color`; the lower case of a color is that of its ASCII letters. -/
def validateColor (color : Option String) : Except SidecarError (Option String) :=
  match color with
  | none => .ok none
  | some color => if isColor color then .ok (some color.toLower) else .error .invalidArgs

/-- `_check_name_unique`: whether the name collides. -/
def nameTaken (text : Text) (catalog : List Label) (name : String) (excludeId : Option String) : Bool :=
  catalog.any fun label => some label.id ≠ excludeId && text.lower label.name = text.lower name

/-! ## Bodies of transactions -/

/-- `_decode_labels`. -/
def decodeLabels : Catalog R → List Label
  | .rows rows => rows.filterMap Row.label?
  | .absent | .other _ => []

/-- `labels_transaction`. -/
def labelsTransaction (data : Sidecar R) (edit : List Label → Except SidecarError (List Label)) :
    Except SidecarError (Sidecar R) :=
  match edit (decodeLabels data.catalog) with
  | .error e => .error e
  | .ok catalog => .ok { data with catalog := .rows (catalog.map .label) }

/-- `create_label` on a catalog; `newId` is the fresh `uuid4`. -/
def createLabel (text : Text) (newId name : String) (color : Option String) (catalog : List Label) :
    Except SidecarError (List Label) :=
  if nameTaken text catalog name none then .error .invalidArgs else .ok (catalog ++ [⟨newId, name, color⟩])

/-- `update_label` on a catalog. `none` leaves a field alone. -/
def updateLabel (text : Text) (labelId : String) (name : Option String) (color : Option (Option String))
    (catalog : List Label) : Except SidecarError (List Label) :=
  match catalog.findIdx? fun l => l.id = labelId with
  | none => .error .notFound
  | some i =>
    match catalog[i]? with
    | none => .error .notFound
    | some current =>
      let nextName := name.getD current.name
      let nextColor := color.getD current.color
      if text.lower nextName ≠ text.lower current.name ∧ nameTaken text catalog nextName (some labelId) then
        .error .invalidArgs
      else .ok (catalog.set i ⟨labelId, nextName, nextColor⟩)

/-- Drop a label from an entry, as the cascade does. -/
def Entry.dropLabel (labelId : String) : Entry R → Entry R
  | .object (some (.list refs)) fields =>
    if .id labelId ∈ refs then
      let new := refs.filter fun ref => ref ≠ .id labelId
      .object (if new = [] then none else some (.list new)) fields
    else .object (some (.list refs)) fields
  | entry => entry

/-- A key of another catalog. -/
def isReserved (key : String) : Bool := key.startsWith "_"

/-- The entries that the cascade goes through. -/
def Sidecar.dropLabel (labelId : String) (entries : Dict String (Entry R)) : Dict String (Entry R) :=
  entries.keys.foldl (fun entries key =>
    if isReserved key then entries else entries.adjust key (Entry.dropLabel labelId)) entries

/-- `delete_label_cascade`; `delete_label` raises `NOT_FOUND` after a transaction that found nothing. -/
def deleteLabelCascade (labelId : String) (data : Sidecar R) : Sidecar R × Option SidecarError :=
  match data.catalog with
  | .rows rows =>
    if rows.any fun row => row.id? = some labelId then
      ({ catalog := .rows (rows.filter fun row => row.id? ≠ some labelId)
         entries := Sidecar.dropLabel labelId data.entries }, none)
    else (data, some .notFound)
  | .absent | .other _ => (data, some .notFound)

/-- The ids that `set_device_labels` knows. -/
def knownIds : Catalog R → List String
  | .rows rows => rows.filterMap Row.id?
  | .absent | .other _ => []

/-- The requested ids, each once; `none` when one is not a string. -/
def dedupeIds : List (LabelRef R) → Option (List String)
  | [] => some []
  | .other _ :: _ => none
  | .id id :: refs => (dedupeIds refs).map fun ids => id :: ids.filter (· ≠ id)

/-- `set_device_labels`, from its transaction on. -/
def setDeviceLabels (configuration : DeviceFile) (deduped : List String) (exists_ : Bool) (data : Sidecar R) :
    Except SidecarError (Sidecar R) :=
  if !exists_ then .error .notFound
  else if deduped.any fun id => id ∉ knownIds data.catalog then .error .invalidArgs
  else
    let fields := match data.entries.get? configuration.1 with
      | some (.object _ fields) => fields
      | some (.other _) | none => ∅
    let labels := if deduped = [] then none else some (.list (deduped.map .id))
    .ok { data with entries := data.entries.set configuration.1 (.object labels fields) }

/-- The fields of `set_device_metadata` that its callers pass. -/
inductive MetadataField
  | boardId
  | boardIdUserSet
  | friendlyName
  | comment
  | macAddress
  deriving DecidableEq

def MetadataField.key : MetadataField → String
  | .boardId => "board_id"
  | .boardIdUserSet => "board_id_user_set"
  | .friendlyName => "friendly_name"
  | .comment => "comment"
  | .macAddress => "mac_address"

/-- A field is written, or cleared (`none`). -/
def setField (fields : Dict String R) (write : MetadataField × Option R) : Dict String R :=
  match write.2 with
  | some value => fields.set write.1.key value
  | none => fields.erase write.1.key

/-- `set_device_metadata`. An entry that is no object takes no field. -/
def setDeviceMetadata (filename : DeviceFile) (writes : List (MetadataField × Option R)) (data : Sidecar R) :
    Except SidecarError (Sidecar R) :=
  match data.entries.get? filename.1 with
  | none => .ok { data with entries := data.entries.set filename.1 (.object none (writes.foldl setField ∅)) }
  | some (.object labels fields) =>
    .ok { data with entries := data.entries.set filename.1 (.object labels (writes.foldl setField fields)) }
  | some (.other _) => if writes = [] then .ok data else .error .typeError

/-- `remove_device_metadata`. -/
def removeDeviceMetadata (filename : DeviceFile) (data : Sidecar R) : Sidecar R :=
  { data with entries := data.entries.erase filename.1 }

/-- `{**old, **new}`. -/
def mergeEntries (oldLabels newLabels : Option (LabelRefs R)) (oldFields newFields : Dict String R) : Entry R :=
  .object (newLabels <|> oldLabels) (newFields.items.foldl (fun fields item => fields.set item.1 item.2) oldFields)

/-- `rename_device_metadata`, to another name. -/
def renameDeviceMetadata (oldFilename newFilename : DeviceFile) (data : Sidecar R) : Sidecar R :=
  let popped := data.entries.erase oldFilename.1
  match data.entries.get? oldFilename.1 with
  | some (.object oldLabels oldFields) =>
    if oldLabels = none ∧ oldFields.isEmpty then { data with entries := popped }
    else
      let moved := match data.entries.get? newFilename.1 with
        | some (.object newLabels newFields) => mergeEntries oldLabels newLabels oldFields newFields
        | some (.other _) | none => .object oldLabels oldFields
      { data with entries := popped.set newFilename.1 moved }
  | some (.other _) | none => { data with entries := popped }

/-- `clear_volatile_device_metadata`. -/
def clearVolatileDeviceMetadata (filename : DeviceFile) (data : Sidecar R) : Sidecar R :=
  match data.entries.get? filename.1 with
  | none => data
  | some (.other _) => { data with entries := data.entries.erase filename.1 }
  | some (.object labels fields) =>
    let fields := fields.erase MetadataField.macAddress.key
    if labels = none ∧ fields.isEmpty then { data with entries := data.entries.erase filename.1 }
    else { data with entries := data.entries.set filename.1 (.object labels fields) }

/-- A key of another module's catalog. -/
def CatalogKey : Type := { key : String // isReserved key = true ∧ key ≠ labelsKey }

/-- Another module's write under its own key. -/
def writeCatalog (key : CatalogKey) (value : Option (Entry R)) (data : Sidecar R) : Sidecar R :=
  match value with
  | some value => { data with entries := data.entries.set key.1 value }
  | none => { data with entries := data.entries.erase key.1 }

/-! ## Transactions -/

inductive SidecarFile (R : Type)
  | absent
  /-- It does not parse, or it is no object. -/
  | corrupt (raw : R)
  | holds (data : Sidecar R)
  deriving DecidableEq

/-- The file, the copies of corrupt ones moved aside (the first, and the stamped ones), the YAMLs that exist, and what
the last request raised. -/
structure SidecarWorld (R : Type) where
  file : SidecarFile R := .absent
  corrupt : Option R := none
  siblings : List (ℕ × R) := []
  yaml : List String := []
  raised : Option SidecarError := none
  deriving DecidableEq

/-- What the file system answers during a transaction. -/
structure SidecarIo where
  locked : Bool := true
  quarantined : Bool := true
  /-- `time.time_ns()`. -/
  stamp : ℕ := 0
  written : Bool := true

/-- `_MAX_CORRUPT_SIBLINGS`. -/
def maxCorruptSiblings : ℕ := 3

/-- What a transaction makes of the parsed file, and what its caller raises after it. -/
abbrev Body (R : Type) := Sidecar R → Except SidecarError (Sidecar R × Option SidecarError)

namespace SidecarWorld

/-- `_prune_corrupt_siblings`: the latest three stay, and the fresh one. -/
def pruneCorruptSiblings (siblings : List (ℕ × R)) (fresh : Option ℕ) : List (ℕ × R) :=
  siblings.filter fun s => some s.1 = fresh || (siblings.filter fun t => s.1 < t.1).length < maxCorruptSiblings

/-- `_handle_corrupt_sidecar`; the answer is whether a write-back is safe. -/
def handleCorruptSidecar (w : SidecarWorld R) (raw : R) (io : SidecarIo) : SidecarWorld R × Bool :=
  if !io.quarantined then (w, false)
  else
    match w.corrupt with
    | none => ({ w with file := .absent, corrupt := some raw, siblings := pruneCorruptSiblings w.siblings none }, true)
    | some _ =>
      let siblings := (io.stamp, raw) :: w.siblings.filter fun s => s.1 ≠ io.stamp
      ({ w with file := .absent, siblings := pruneCorruptSiblings siblings (some io.stamp) }, true)

/-- `_load_metadata_guarded`. -/
def loadMetadataGuarded (w : SidecarWorld R) (io : SidecarIo) : SidecarWorld R × Sidecar R × Bool :=
  match w.file with
  | .absent => (w, {}, true)
  | .holds data => (w, data, true)
  | .corrupt raw => ((w.handleCorruptSidecar raw io).1, {}, (w.handleCorruptSidecar raw io).2)

/-- `metadata_transaction` around a body. -/
def transact (w : SidecarWorld R) (io : SidecarIo) (body : Body R) : SidecarWorld R :=
  if !io.locked then { w with raised := some .osError }
  else
    let (w, before, safe) := w.loadMetadataGuarded io
    match body before with
    | .error e => { w with raised := some e }
    | .ok (data, raised) =>
      if !safe then { w with raised := some .osError }
      else if data = before then { w with raised }
      else if !io.written then { w with raised := some .osError }
      else { w with file := .holds data, raised }

end SidecarWorld

/-- A request, or a change of the YAMLs. -/
inductive SidecarAction (R : Type)
  | create (io : SidecarIo) (newId name : String) (color : Option String)
  | update (io : SidecarIo) (labelId : String) (name : Option String) (color : Option (Option String))
  | delete (io : SidecarIo) (labelId : String)
  | setLabels (io : SidecarIo) (configuration : DeviceFile) (labelIds : List (LabelRef R))
  | setMetadata (io : SidecarIo) (filename : DeviceFile) (writes : List (MetadataField × Option R))
  /-- A device's deletion, after its YAML's. -/
  | remove (io : SidecarIo) (filename : DeviceFile)
  | rename (io : SidecarIo) (oldFilename newFilename : DeviceFile)
  /-- A device's archiving. -/
  | clearVolatile (io : SidecarIo) (filename : DeviceFile)
  | setCatalog (io : SidecarIo) (key : CatalogKey) (value : Option (Entry R))
  | yamls (names : List String)

/-- The transaction of a request. One that its validation refuses opens none, and `none` is one that needs none. -/
def SidecarAction.body (text : Text) (yaml : List String) :
    SidecarAction R → Except SidecarError (Option (SidecarIo × Body R))
  | .create io newId name color =>
    match validateName text name, validateColor color with
    | .ok name, .ok color =>
      .ok (some (io, fun data => (labelsTransaction data (createLabel text newId name color)).map (·, none)))
    | .error e, _ | _, .error e => .error e
  | .update io labelId name color =>
    if name = none ∧ color = none then .error .invalidArgs
    else
      match name.mapM (validateName text), color.mapM validateColor with
      | .ok name, .ok color =>
        .ok (some (io, fun data => (labelsTransaction data (updateLabel text labelId name color)).map (·, none)))
      | .error e, _ | _, .error e => .error e
  | .delete io labelId => .ok (some (io, fun data => .ok (deleteLabelCascade labelId data)))
  | .setLabels io configuration labelIds =>
    match dedupeIds labelIds with
    | none => .error .typeError
    | some deduped =>
      .ok (some (io, fun data => (setDeviceLabels configuration deduped (configuration.1 ∈ yaml) data).map (·, none)))
  | .setMetadata io filename writes =>
    .ok (some (io, fun data => (setDeviceMetadata filename writes data).map (·, none)))
  | .remove io filename => .ok (some (io, fun data => .ok (removeDeviceMetadata filename data, none)))
  | .rename io oldFilename newFilename =>
    if oldFilename.1 = newFilename.1 then .ok none
    else .ok (some (io, fun data => .ok (renameDeviceMetadata oldFilename newFilename data, none)))
  | .clearVolatile io filename => .ok (some (io, fun data => .ok (clearVolatileDeviceMetadata filename data, none)))
  | .setCatalog io key value => .ok (some (io, fun data => .ok (writeCatalog key value data, none)))
  | .yamls _ => .ok none

def SidecarWorld.step (text : Text) (w : SidecarWorld R) (a : SidecarAction R) : SidecarWorld R :=
  match a with
  | .yamls names => { w with yaml := names }
  | a =>
    match a.body text w.yaml with
    | .error e => { w with raised := some e }
    | .ok none => { w with raised := none }
    | .ok (some (io, body)) => w.transact io body

end DeviceBuilder.Config
