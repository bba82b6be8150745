import DeviceBuilder.Models.Firmware
import DeviceBuilder.Helpers.RemoteBuildCleanup

/-!
# The cleanup loop beside the uploads (`controllers/remote_build/cleanup_loop.py`)

One sweep at a time runs on an executor thread. Beside it `submit_job` extracts
uploads (`submit_job/_post_ack.py`), jobs are queued and end, and builds write.

* `World`: the tree, the clock, the firmware jobs, the uploads.
* `World.move`: one step of anything but the sweep.
* `Receiver.step`: a step of the whole; the sweep's keys are the jobs active when
  it is started.
* `World.busy`: the keys with an active remote job or an upload being extracted.
* `Safe`: what must hold when a call of the sweep takes effect.
-/

namespace DeviceBuilder.RemoteBuild.Cleanup

open Helpers.RemoteBuildLayout Helpers.RemoteBuildTree Helpers.RemoteBuildCleanup
open Interleaved (Prog)

/-- An accepted upload on its way through `_validate_write_extract_bundle`. -/
structure Upload where
  dashboardId : Name
  filename : Name
  deviceName : Name
  /-- The bundle is written, and the extraction under way. -/
  written : Bool
  validId : validDashboardId dashboardId = true
  validName : validateConfigurationFilename filename = some deviceName

def Upload.key (u : Upload) : RemoteBuildPath := ⟨u.dashboardId, u.deviceName⟩

structure Job where
  configuration : Name
  /-- Empty for a job submitted locally. -/
  remotePeer : Name
  status : JobStatus
  deriving DecidableEq

def Job.isActive (job : Job) : Bool := !job.status.isTerminal

structure World where
  disk : Disk
  clock : ℕ
  jobs : List Job
  uploads : List Upload

/-- What runs beside the sweep. -/
inductive Move
  | tick (seconds : ℕ)
  | mkdir (u : Upload)
  | writeBundle (i : ℕ)
  | prepare (i : ℕ) (wiped : Bool)
  | fail (i : ℕ)
  | enqueue (i : ℕ)
  | jobMoves (i : ℕ) (status : JobStatus)
  | build (i : ℕ)

/-- Where the job or the upload of `key` has its YAML. -/
def workTree (key : RemoteBuildPath) : Path := .entry .config key.dashboardId key.deviceName

/-- `mkdir(exist_ok=True)` -/
def mkdirs (clock : ℕ) (d : Disk) (p : Path) : Disk :=
  if kind? d p = none then d.set p ⟨.dir, clock⟩ else d

/-- Something is written in the directory `p`. -/
def touch (clock : ℕ) (d : Disk) (p : Path) : Disk :=
  if kind? d p = some .dir then d.set p ⟨.dir, clock⟩ else d

/-- `write_bytes`, which follows a symlink. -/
def writeBytes (clock : ℕ) (d : Disk) (p : Path) : Disk :=
  d.set p ⟨if kind? d p = some .symlink then .symlink else .file, clock⟩

/-- The keys of the jobs `active_remote_peer_jobs` yields. -/
def World.inFlightKeys (w : World) : List RemoteBuildPath :=
  (w.jobs.filter fun job => job.isActive && !job.remotePeer.isEmpty).filterMap fun job =>
    parseFromConfiguration job.configuration

/-- The keys with an active remote job, or an upload whose bundle is written. -/
def World.busy (w : World) : List RemoteBuildPath :=
  w.inFlightKeys ++ (w.uploads.filter Upload.written).map fun u => u.key.onDisk

def World.dropUpload (w : World) (i : ℕ) : World := { w with uploads := w.uploads.eraseIdx i }

/-- `resolved_subtree`, where a symlink in the tree leads out of it, and the parent's `mkdir`. -/
def World.accepts (w : World) (u : Upload) : Bool :=
  kind? w.disk (.root .config) ≠ some .file &&
    (kind? w.disk (.dashboard .config u.key.dirId) = none ||
      kind? w.disk (.dashboard .config u.key.dirId) = some .dir) &&
    kind? w.disk u.key.subtree ≠ some .symlink

/-- One step of what runs beside the sweep; a move that is not possible changes nothing. -/
def World.move (dataRoot : Root) (w : World) : Move → World
  | .tick seconds => { w with clock := w.clock + seconds }
  | .mkdir u =>
    if w.accepts u then
      { w with
        disk := mkdirs w.clock (mkdirs w.clock w.disk (.root .config)) (.dashboard .config u.key.dirId)
        uploads := w.uploads ++ [{ u with written := false }] }
    else w
  | .writeBundle i =>
    match w.uploads[i]? with
    | none => w
    | some u =>
      -- the directory may have been pruned since it was made
      if kind? w.disk (.dashboard .config u.key.dirId) = some .dir ∧
          kind? w.disk u.key.bundle ≠ some .dir then
        { w with
          disk := writeBytes w.clock w.disk u.key.bundle
          uploads := w.uploads.set i { u with written := true } }
      else w.dropUpload i
  | .prepare i wiped =>
    match w.uploads[i]? with
    | none => w
    | some u =>
      -- `prepare_bundle_for_compile` takes the subtree away, or fills it
      if !u.written ∨ kind? w.disk (.dashboard .config u.key.dirId) ≠ some .dir then w
      else if kind? w.disk u.key.subtree = none ∧ !wiped then
        { w with disk := mkdirs w.clock w.disk u.key.subtree }
      else if kind? w.disk u.key.subtree = some .dir then
        { w with disk := if wiped then w.disk.erase u.key.subtree else touch w.clock w.disk u.key.subtree }
      else w
  | .fail i => w.dropUpload i
  | .enqueue i =>
    match w.uploads[i]? with
    | none => w
    | some u =>
      if u.written then
        { w.dropUpload i with
          jobs := w.jobs ++ [⟨u.key.configuration u.filename, u.dashboardId, .queued⟩] }
      else w
  | .jobMoves i status =>
    { w with jobs := w.jobs.modify i fun job => if job.isActive then { job with status } else job }
  | .build i =>
    match w.jobs[i]? with
    | none => w
    | some job =>
      match if job.isActive then parseFromConfiguration job.configuration else none with
      | none => w
      | some key =>
        let d := touch w.clock w.disk (workTree key)
        let dashboard := Path.dashboard dataRoot key.dirId
        if kind? d dashboard = none ∨ kind? d dashboard = some .dir then
          { w with disk := mkdirs w.clock (mkdirs w.clock d dashboard) (key.dataDir dataRoot) }
        else { w with disk := d }

/-- A sweep under way: the keys it was given, and the rest of it. -/
structure Running where
  inFlightKeys : List RemoteBuildPath
  rest : Sweep ℕ

structure Receiver where
  world : World
  sweep : Option Running

inductive Event
  | others (m : Move)
  | startSweep (ttlSeconds : ℤ)
  | answer (a : (c : Call) → c.Ans)

/-- One step of the receiver. -/
def Receiver.step (dataRoot : Root) (r : Receiver) : Event → Receiver
  | .others m => { r with world := r.world.move dataRoot m }
  | .startSweep ttlSeconds =>
    match r.sweep with
    | some _ => r
    | none =>
      let keys := r.world.inFlightKeys
      { r with sweep := some ⟨keys, sweepRemoteBuilds dataRoot ttlSeconds keys⟩ }
  | .answer a =>
    match r.sweep with
    | none => r
    | some ⟨_, .done _⟩ => { r with sweep := none }
    | some ⟨keys, .call c next⟩ =>
      if answers r.world.clock r.world.disk c.op (a c) then
        { world := { r.world with disk := after r.world.disk c.op (a c) }, sweep := some ⟨keys, next (a c)⟩ }
      else r

/-- The call the sweep waits for. -/
def Receiver.pending? (r : Receiver) : Option Call := r.sweep.bind fun s => s.rest.pending?

/-! ### What the sweep must not do -/

/-- Neither `p` nor a directory above it is a symlink. -/
def NoLink (d : Disk) (p : Path) : Prop := ∀ q, contains q p = true → kind? d q ≠ some .symlink

/-- The bundle beside it. -/
def workBundle (key : RemoteBuildPath) : Path := .entry .config key.dashboardId key.bundleName

/-- Entries are in a dashboard's directory. -/
def IsTree (d : Disk) : Prop :=
  ∀ r n e, kind? d (.entry r n e) ≠ none → kind? d (.dashboard r n) ≠ none

/-- No entry of the dashboard's directory counts as live. -/
def NoLiveEntry (d : Disk) (dashboard : Name) : Prop :=
  ∀ e, isLiveName e = true → kind? d (.entry .config dashboard e) = none

/-- **A safe call.** It reads and deletes through no symlink, deletes only entries and directories of
dashboards, no subtree or bundle of a busy key, and a data dir only when no key of its dashboard is
busy and no live entry is left there. -/
def Safe (dataRoot : Root) (w : World) (c : Call) : Prop :=
  match c.op with
  | .iterdir p | .stat p => NoLink w.disk p
  | .rmtree p => ∃ r d e, p = .entry r d e ∧ NoLink w.disk p ∧ casefold d ≠ venvsName ∧
      (∀ k ∈ w.busy, p ≠ workTree k) ∧
      (casefold e = dataDirName → r = dataRoot ∧ (∀ k ∈ w.busy, k.dirId ≠ d) ∧ NoLiveEntry w.disk d)
  | .unlink p _ => ∃ r d e, p = .entry r d e ∧ NoLink w.disk (.dashboard r d) ∧ casefold d ≠ venvsName ∧
      ∀ k ∈ w.busy, p ≠ workBundle k
  | .rmdir p => ∃ r d, p = .dashboard r d ∧ NoLink w.disk p ∧ casefold d ≠ venvsName
  | _ => True

/-! ### When it does not -/

/-- Does the pending call stand between a check and the deletion of what `key` uses? -/
def between (c : Call) (key : RemoteBuildPath) : Bool :=
  match c.site, c.op with
  | .deleteSubtreeAndSibling k, _ => k.dirId = key.dirId ∧ k.deviceName = key.deviceName
  | .reclaimDashboardDataDir dirId, _ => dirId = key.dirId
  | .reclaimOrphanBundle _, .unlink p _ => p = key.bundle
  | _, _ => false

/-- An upload writes its bundle, of a device not named like macOS metadata, while the sweep is not
about to delete what the upload uses. -/
def othersMeet (pending : Option Call) (w : World) : Move → Bool
  | .writeBundle i => (w.uploads[i]?).all fun u =>
      !"._".toList.isPrefixOf u.deviceName && pending.all fun c => !between c u.key
  | _ => true

/-- The directory or the bundle at `p` may be found cold: it is in a directory with a short name, and
no busy key that the sweep was not given uses it. -/
def mayBeCold (inFlightKeys : List RemoteBuildPath) (w : World) : Path → Bool
  | .entry r d e =>
    (kind? w.disk (.entry r d e) ≠ some .dir || d.length ≤ dashboardDirIdChars) &&
      w.busy.all fun k => k ∈ inFlightKeys ||
        (workTree k ≠ .entry r d e && workBundle k ≠ .entry r d e)
  | _ => true

/-- What the sweep finds cold may be. -/
def callMeets (inFlightKeys : List RemoteBuildPath) (w : World) (c : Call) : Bool :=
  match c.site, c.op with
  | .isCold cutoff, .stat p =>
    ((w.disk.get? p).all fun n => cutoff ≤ (n.mtime : ℤ)) || mayBeCold inFlightKeys w p
  | _, _ => true

/-- The steps on which the sweep does not lose a race or a name; a job in a directory with a long name
is of a device whose name counts as live. -/
def Receiver.meets (r : Receiver) : Event → Bool
  | .others m => othersMeet r.pending? r.world m
  | .startSweep _ => r.world.inFlightKeys.all fun k =>
    k.dashboardId.length ≤ dashboardDirIdChars || isLiveName k.deviceName
  | .answer _ => r.sweep.all fun s => s.rest.pending?.all (callMeets s.inFlightKeys r.world)

end DeviceBuilder.RemoteBuild.Cleanup
