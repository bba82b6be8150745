import Mathlib.Data.List.Basic
import Mathlib.Data.Nat.Notation
import DeviceBuilder.Lib.Runs

/-!
# Commands on one configuration file

The commands of the devices controller that put a YAML in place or take it away:
`create_device` and `clone_device` (`mutations_create.py`, `mutations_clone.py`),
`import_bundle` (`mutations_import_bundle.py`), and archive, unarchive, delete and
delete_archived (`archive.py`). The state is that of one filename: the YAML of the
config dir, the one under `archive/`, the StorageJSON sidecar, and the `board_id`
of the metadata entry. A step is one call on the file system or on a store; the
commands interleave between any two of them.

* `FileStage`: where a command stands, with what it has seen.
* `ConfigFiles.advance`: its next step.
* `ConfigFiles.step`: the steps of the system.
-/

namespace DeviceBuilder

/-- A command on the filename. `α` is the content of a YAML, `σ` of a StorageJSON, `β` a
`board_id`. -/
inductive FileCommand (α σ β : Type*)
  | create (content : α) (overwrite : Bool) (storage : σ) (board : Option β)
  /-- `clone_device` into this filename. -/
  | clone (content : α) (board : Option β)
  /-- `import_bundle` of a bundle whose main config has this filename. `picks` is `overwrite`:
  `some true` where it holds the main config. -/
  | importBundle (content : α) (picks : Option Bool)
  | archive
  | unarchive
  | delete
  | deleteArchived
  deriving DecidableEq, Repr

/-- What a command does next. -/
inductive FileStage
  /-- `config_path.exists` of `create_device`. -/
  | createLook
  | createWrite (existed : Bool)
  /-- `new_path.exists` of `clone_device`. -/
  | cloneLook
  | cloneWrite
  /-- `main_existed` of `_stage_bundle`. -/
  | importLook
  | importConflicts (existed : Bool)
  | importPlace (existed : Bool)
  | importWrite (existed : Bool)
  /-- `init_device_storage`. -/
  | initStorage
  /-- `_delete_device_metadata` of `_register_new_device`. -/
  | dropEntry
  | persistBoard
  /-- The write lock of the file. -/
  | archiveLock
  | archiveLook
  | archiveTarget
  | archiveMove
  | archiveSidecar
  /-- `_clear_volatile_device_metadata`, and the release of the lock. -/
  | archiveVolatile
  | unarchiveLook
  | unarchiveTarget
  | unarchiveMove
  | deleteLock
  | deleteLook
  | deleteSidecar
  | deleteYaml
  /-- `_delete_device_metadata` of `delete_single`, and the release of the lock. -/
  | deleteEntry
  | purgeLook
  | purgeYaml
  | purgeActive
  | purgeSidecar
  | purgeEntry
  | done
  /-- `status="conflicts"`. -/
  | conflicts
  | raised
  deriving DecidableEq, Repr

structure FileTask (α σ β : Type*) where
  command : FileCommand α σ β
  stage : FileStage
  /-- It moved, overwrote, put or removed a YAML. -/
  touched : Bool := false
  deriving DecidableEq, Repr

/-- The files of one filename, and the commands on it. -/
structure ConfigFiles (α σ β : Type*) where
  active : Option α
  archived : Option α
  sidecar : Option σ
  board : Option β
  /-- The holder of `_yaml_write_lock`. -/
  lock : Option ℕ := none
  tasks : List (FileTask α σ β) := []
  /-- The creation whose YAML is the active one since it was published: the history of the run,
  which the code does not read. -/
  fresh : Option ℕ := none
  deriving DecidableEq, Repr

inductive FileAction (α σ β : Type*)
  | start (c : FileCommand α σ β)
  | next (i : ℕ)
  /-- A validation between two steps of a creation fails. -/
  | reject (i : ℕ)
  deriving DecidableEq, Repr

variable {α σ β : Type*}

/-- The first step of a command. -/
def FileCommand.entry : FileCommand α σ β → FileStage
  | .create .. => .createLook
  | .clone .. => .cloneLook
  | .importBundle .. => .importLook
  | .archive => .archiveLock
  | .unarchive => .unarchiveLook
  | .delete => .deleteLock
  | .deleteArchived => .purgeLook

/-- The YAML a command puts in place. -/
def FileCommand.content? : FileCommand α σ β → Option α
  | .create content .. | .clone content _ | .importBundle content _ => some content
  | .archive | .unarchive | .delete | .deleteArchived => none

/-- The StorageJSON a creation writes: `_init_bundle_storage` reads it off the file. -/
def FileCommand.storage? (storageOf : α → σ) (active : Option α) : FileCommand α σ β → Option σ
  | .create _ _ storage _ => some storage
  | .importBundle .. => active.map storageOf
  | _ => none

/-- The `board_id` that is persisted as chosen. -/
def FileCommand.board? : FileCommand α σ β → Option β
  | .create _ _ _ board | .clone _ board => board
  | _ => none

def FileCommand.overwrites : FileCommand α σ β → Bool
  | .create _ overwrite _ _ => overwrite
  | .importBundle _ picks => picks == some true
  | _ => false

namespace ConfigFiles

variable (storageOf : α → σ) (s : ConfigFiles α σ β) (i : ℕ) (t : FileTask α σ β)

/-- The stage of a task. -/
def goto (stage : FileStage) (touched : Bool) : ConfigFiles α σ β :=
  { s with tasks := s.tasks.set i { t with stage := stage, touched := t.touched || touched } }

/-- A new YAML is in place. -/
def publish (stage : FileStage) : ConfigFiles α σ β :=
  { s with active := t.command.content?, fresh := some i }.goto i t stage true

/-- The active YAML is replaced. -/
def replace (stage : FileStage) : ConfigFiles α σ β :=
  { s with active := t.command.content?, fresh := none }.goto i t stage true

/-- The next step of a command. -/
def advance : ConfigFiles α σ β :=
  match t.stage with
  | .createLook =>
    let existed := s.active.isSome
    if existed && !t.command.overwrites then s.goto i t .raised false
    else s.goto i t (.createWrite existed) false
  | .createWrite existed =>
    -- `write_user_yaml` over a file that existed, else the exclusive publish
    if t.command.overwrites && existed then s.replace i t .persistBoard
    else if s.active.isSome then s.goto i t .raised false
    else s.publish i t .initStorage
  | .cloneLook =>
    if s.active.isSome then s.goto i t .raised false else s.goto i t .cloneWrite false
  | .cloneWrite =>
    if s.active.isSome then s.goto i t .raised false else s.publish i t .dropEntry
  | .importLook => s.goto i t (.importConflicts s.active.isSome) false
  | .importConflicts existed =>
    match t.command with
    | .importBundle _ none =>
      if s.active.isSome then s.goto i t .conflicts false
      else s.goto i t (.importPlace existed) false
    | _ => s.goto i t (.importPlace existed) false
  | .importPlace existed =>
    if s.active.isSome && !t.command.overwrites then
      s.goto i t (if existed then .done else .initStorage) false
    else s.goto i t (.importWrite existed) false
  | .importWrite existed =>
    if existed then s.replace i t .done else s.publish i t .initStorage
  | .initStorage =>
    { s with
      sidecar := (t.command.storage? storageOf s.active).or s.sidecar }.goto i t .dropEntry false
  | .dropEntry => { s with board := none }.goto i t .persistBoard false
  | .persistBoard => { s with board := t.command.board?.or s.board }.goto i t .done false
  | .archiveLock =>
    if s.lock.isNone then { s with lock := some i }.goto i t .archiveLook false else s
  | .archiveLook =>
    if s.active.isSome then s.goto i t .archiveTarget false
    else { s with lock := none }.goto i t .raised false
  | .archiveTarget =>
    if s.archived.isSome then { s with lock := none }.goto i t .raised false
    else s.goto i t .archiveMove false
  | .archiveMove =>
    if s.active.isSome then
      { s with archived := s.active, active := none, fresh := none }.goto i t .archiveSidecar true
    else { s with lock := none }.goto i t .raised false
  | .archiveSidecar => { s with sidecar := none }.goto i t .archiveVolatile false
  | .archiveVolatile => { s with lock := none }.goto i t .done false
  | .unarchiveLook =>
    if s.archived.isSome then s.goto i t .unarchiveTarget false else s.goto i t .raised false
  | .unarchiveTarget =>
    if s.active.isSome then s.goto i t .raised false else s.goto i t .unarchiveMove false
  | .unarchiveMove =>
    -- `shutil.move` replaces the target
    if s.archived.isSome then
      { s with active := s.archived, archived := none, fresh := none }.goto i t .done true
    else s.goto i t .raised false
  | .deleteLock =>
    if s.lock.isNone then { s with lock := some i }.goto i t .deleteLook false else s
  | .deleteLook =>
    if s.active.isSome then s.goto i t .deleteSidecar false
    else { s with lock := none }.goto i t .raised false
  | .deleteSidecar => { s with sidecar := none, fresh := none }.goto i t .deleteYaml false
  | .deleteYaml => { s with active := none, fresh := none }.goto i t .deleteEntry true
  | .deleteEntry => { s with board := none, lock := none }.goto i t .done false
  | .purgeLook =>
    if s.archived.isSome then s.goto i t .purgeYaml false else s.goto i t .raised false
  | .purgeYaml =>
    if s.archived.isSome then { s with archived := none }.goto i t .purgeActive true
    else s.goto i t .raised false
  | .purgeActive => s.goto i t (if s.active.isSome then .done else .purgeSidecar) false
  | .purgeSidecar => { s with sidecar := none }.goto i t .purgeEntry false
  | .purgeEntry => { s with board := none }.goto i t .done false
  | .done | .conflicts | .raised => s

/-- The next step of the system. -/
def step (s : ConfigFiles α σ β) : FileAction α σ β → ConfigFiles α σ β
  | .start c => { s with tasks := s.tasks ++ [{ command := c, stage := c.entry }] }
  | .next i =>
    match s.tasks[i]? with
    | some t => s.advance storageOf i t
    | none => s
  | .reject i =>
    match s.tasks[i]? with
    | some t =>
      match t.stage with
      | .createWrite _ | .cloneWrite => s.goto i t .raised false
      | _ => s
    | none => s

end ConfigFiles

end DeviceBuilder
