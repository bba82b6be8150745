import DeviceBuilder.Firmware.State
import DeviceBuilder.Helpers.BuildScheduler

/-!
# The dashboard as a system of tasks

The firmware queue runs as coroutines on one event loop. A `World` is what they
share (the controller state, the device table, the offloader, the config
directory, the persisted job list), the suspended coroutines (`tasks`), and a
log of what was fired. A task records the `await` it is suspended at and the
locals it needs afterwards; one step of the system resumes one task and runs it
to its next `await`.

A command is a stack of frames, innermost call first: the top frame is the
`await` on something outside (a disk write, a lock, a subprocess), the frames
below wait for the call above them to return.
-/

namespace DeviceBuilder

inductive DeviceState
  | unknown
  | online
  | offline
  deriving DecidableEq, Repr

/-- The device-table fields the queue reads; `queuedUpdate` is the armed flag. -/
structure Device where
  state : DeviceState := .unknown
  queuedUpdate : Bool := false
  isThread : Bool := false
  deriving DecidableEq, Repr

/-- The offloader state behind `build_scheduler_snapshot`. -/
structure OffloaderState where
  remoteBuildsEnabled : Bool := true
  versionMatchPolicy : VersionMatchPolicy := .any
  includeLocalInPool : Bool := false
  pairings : List StoredPairing := []
  openPeerLinks : List Pin := []
  peerQueueStatus : Pin → Option Bool := fun _ => none
  esphomeVersion : String := ""

/-- A device YAML: `origin` is the file its configuration was first written to. -/
structure Yaml where
  origin : Configuration
  name : String
  deriving DecidableEq, Repr

/-- What a command raises. -/
inductive Err
  | notFound
  | invalidArgs
  | noCompatiblePeer (message : String)
  /-- "Running job is not the active subprocess (state out of sync)". -/
  | stateOutOfSync
  /-- An `OSError` of a file operation. -/
  | osError
  deriving DecidableEq, Repr

/-- Who called `cancel`: the user, a supersede by the jobs in `keep`, `reset_build_env`, or the
cancel of a rename tail on its head. -/
inductive CancelCause
  | user
  | supersede (keep : List JobId)
  | reset (job : JobId)
  | tail (tail : JobId)
  deriving DecidableEq, Repr

/-- The awaits inside `execute_job`'s local path; `swap` carries whether the executor removed the
old files yet. -/
inductive LocalPoint
  | chipStorage
  | chipProbe
  | relPath
  | esphomeCmd
  | spawn
  | terminate
  | pump
  | swap (removed : Bool)
  | cleanVenvs
  deriving DecidableEq, Repr

/-- The awaits inside `run_remote_job`; `terminal` carries `cancel_sent`. -/
inductive RemotePoint
  | bundle
  | submit
  | terminal (cancelSent : Bool)
  | sendCancel
  | download
  | materialise
  | relPath
  | spawn
  | terminate
  | pump
  deriving DecidableEq, Repr

/-- One await of a command coroutine, or one call waiting for its callee. -/
inductive Frame
  /-- `cancel`: the persist between the mark and the fire. -/
  | cancelMarked (j : JobId)
  /-- `cancel`: the persist after the cascade acted. -/
  | cancelReleased (j : JobId)
  /-- `cancel`: `await cancel(prereq)`. -/
  | cancelPrereq
  /-- `cancel`: `await _terminate_job_process`. -/
  | cancelTerminate
  /-- `_cancel_active_jobs` between two cancels. -/
  | sweep (rest : List JobId) (cause : CancelCause)
  /-- `commit_chain`: `await _supersede_active_jobs`. -/
  | commitSupersede
  /-- `commit_chain`: the last persist. -/
  | commitPersist
  /-- `reset_build_env`: `await cancel_all_active_jobs`. -/
  | resetSweep (j : JobId)
  /-- `clean`: the enqueue of the local job, then of the job of each peer. -/
  | cleanLocal (configuration : Configuration)
  | cleanFanOut (configuration : Configuration) (rest : List JobBuildSource)
  /-- `clear`: its persist. -/
  | clearPersist
  /-- `clean`: the boundary check between the disarm and the enqueue. -/
  | cleanValidate (configuration : Configuration)
  /-- `rename_chain`: `run_in_executor(new_path.exists)`, and its answer. -/
  | renameExists (configuration : Configuration) (newName : String) (found : Option Bool)
  /-- `begin_rename`: the read of the old YAML, and what was read. -/
  | renameRead (configuration : Configuration) (newName : String) (content : Option (Option Yaml))
  /-- `begin_rename`: `resolve_old_device_address`, and the address. -/
  | renameAddress (configuration : Configuration) (newName : String) (content : Yaml)
      (address : Option String)
  /-- `begin_rename`: `async with rename_fs_lock`. -/
  | renameLock (configuration : Configuration) (newName : String) (content : Yaml) (port : String)
      (source : JobBuildSource)
  /-- `_stage`: the supersede of the old configuration's jobs, the persist, the write. -/
  | stageSupersede (head tail : JobId) (content : Yaml)
  | stagePersist (head tail : JobId) (content : Yaml)
  | stageWrite (head tail : JobId) (content : Yaml) (written : Bool)
  /-- `begin_rename`: the rest of `commit_chain`, inside the lock. -/
  | renameCommit
  deriving DecidableEq, Repr

/-- A suspended coroutine. -/
inductive Task
  /-- `run_lane`: `await lane.queue.get()`. -/
  | laneIdle (l : LaneId)
  /-- `_await_build_gate`: `await build_gate.wait()`, and whether the waiter was resolved. -/
  | laneGate (l : LaneId) (j : JobId) (woken : Bool)
  /-- `execute_job`: the persist of `begin_run`. -/
  | laneBegin (l : LaneId) (j : JobId)
  | laneLocal (l : LaneId) (j : JobId) (pt : LocalPoint)
  | laneRemote (l : LaneId) (j : JobId) (pt : RemotePoint)
  /-- `execute_job`: the persist of `end_run`; `dying` when a cancellation is to be re-raised. -/
  | laneEnd (l : LaneId) (j : JobId) (dying : Bool)
  /-- `_drive_remote`: the persist of `begin_run`, the run, the persist of `end_run`. -/
  | driveBegin (j : JobId)
  | driveRemote (j : JobId) (pt : RemotePoint)
  | driveEnd (j : JobId)
  /-- `run_dispatch_loop`: the startup grace, `wake.wait()`, the persist of a pass. -/
  | dispatchGrace
  | dispatchWait
  | dispatchPersist
  | command (frames : List Frame)
  /-- `revert_rename`: the lock, the removal (lock held), the reload. -/
  | revertLock (j : JobId)
  | revertRemove (j : JobId) (removed : Bool)
  | revertReload (j : JobId)
  /-- `request_pair`, between the row of an approved pairing and its announcement. -/
  | announcePairing (pin : Pin)
  /-- A coroutine that ended, or that is running now. -/
  | ended
  deriving DecidableEq, Repr

/-- What the log records: the lifecycle events of the bus, with the job as it was when the event
fired, and for the reader the calls that no event shows. -/
inductive Ev
  | jobQueued (job : FirmwareJob)
  | jobStarted (job : FirmwareJob)
  /-- `JOB_COMPLETED`, `JOB_FAILED` or `JOB_CANCELLED`, by the job's status. -/
  | jobTerminal (job : FirmwareJob)
  | commandError (e : Err)
  /-- A compile was submitted through `resolve_install_source`. -/
  | submitted (j : JobId) (forceLocal : Bool)
  /-- `place_on_lane`, with the `depends_on` of the job. -/
  | placed (j : JobId) (dependsOn : Option JobId)
  /-- `cancel(j)` was called. -/
  | cancelCalled (j : JobId) (cause : CancelCause)
  /-- `_dispatch_queued_upload` created upload `j`. -/
  | wakeUpload (j : JobId)
  deriving DecidableEq, Repr

structure World where
  fw : FirmwareState := {}
  devices : Configuration → Option Device := fun _ => none
  /-- `none` when the remote-build offloader is not there. -/
  offloader : Option OffloaderState := none
  /-- The config directory. -/
  yamls : Configuration → Option Yaml := fun _ => none
  /-- The persisted job list, and the jobs a running `_save` writes next. -/
  disk : List FirmwareJob := []
  saving : Option (List JobId) := none
  tasks : List Task := []
  /-- A runner task raised: `asyncio.gather` fails and drains the others. -/
  queueDown : Bool := false
  clock : ℕ := 0
  log : List Ev := []
  /-- The log before the last restart. -/
  past : List Ev := []

namespace RemotePoint

/-- Is the await inside `tracked_subprocess`? -/
def tracked : RemotePoint → Bool
  | .terminate | .pump => true
  | _ => false

end RemotePoint

namespace LocalPoint

def tracked : LocalPoint → Bool
  | .chipProbe | .terminate | .pump => true
  | _ => false

end LocalPoint

namespace Task

/-- The job a spawn of this task is registered for. -/
def spawn : Task → Option JobId
  | .laneLocal _ j pt => if pt.tracked then some j else none
  | .laneRemote _ j pt => if pt.tracked then some j else none
  | .driveRemote j pt => if pt.tracked then some j else none
  | _ => none

/-- A waiter of `build_gate` is resolved. -/
def wakeGate : Task → Task
  | .laneGate l j _ => .laneGate l j true
  | t => t

end Task

namespace World

variable (w : World)

def isThread (c : Configuration) : Bool := ((w.devices c).map (·.isThread)).getD false

/-- `_target_is_offline`: the device is known to be offline. -/
def targetIsOffline (c : Configuration) : Bool :=
  decide ((w.devices c).map (·.state) = some .offline)

def emit (e : Ev) : World := { w with log := w.log ++ [e] }

def spawnTask (t : Task) : World := { w with tasks := w.tasks ++ [t] }

/-- `build_gate.set()`. -/
def setGate : World :=
  { w with fw := { w.fw with buildGate := true }, tasks := w.tasks.map Task.wakeGate }

def modifyJob (j : JobId) (f : FirmwareJob → FirmwareJob) : World :=
  { w with fw := w.fw.modify j f }

def placeOnLane (j : JobId) : World :=
  { w with fw := w.fw.placeOnLane w.isThread j }.emit
    (.placed j ((w.fw.obj j).bind (·.dependsOn)))

/-- Is a subprocess of `j` registered? -/
def hasSpawn (j : JobId) : Bool := w.tasks.any (fun t => decide (t.spawn = some j))

end World

/-- `build_scheduler_snapshot`. -/
def OffloaderState.snapshot (o : OffloaderState) : BuildSchedulerInputs :=
  { remoteBuildsEnabled := o.remoteBuildsEnabled
    pairings := o.pairings
    openPeerLinks := o.openPeerLinks
    peerQueueStatus := o.peerQueueStatus
    offloaderEsphomeVersion := o.esphomeVersion
    versionMatchPolicy := o.versionMatchPolicy
    includeLocalInPool := o.includeLocalInPool }

end DeviceBuilder
