import DeviceBuilder.Lib.KeyList
import DeviceBuilder.Models.Firmware

/-!
# The queue's state

`controllers/firmware/_state.py`: the three lanes, the remote build-server pool
and the job table. Jobs are mutable objects shared by the table, the lane
queues, the pool and the tasks: `obj` is the object store, keyed by `job_id`,
and every container holds ids. A job that leaves the table (`jobs`) is still an
object, and a queue or a task may still hold it.

The spawn registry is not kept here: a job has a spawn exactly while its task
is suspended inside `tracked_subprocess`. Nor are the remote runner's cancel
events: an event is set exactly when the id is in `cancelRequested`.
-/

namespace DeviceBuilder

/-- One work lane: its FIFO queue and the jobs in its slots. -/
structure Lane where
  queue : List JobId := []
  active : List JobId := []
  deriving DecidableEq, Repr

/-- `compile_lane`, `upload_lane`, `thread_upload_lane`. -/
inductive LaneId
  | compile
  | upload
  | threadUpload
  deriving DecidableEq, Repr

/-- The remote pool: `pending` (waiting), `inFlight` (driven by a task) and its `jobPeer` pins.
`retries` is `0` for a job without a loss counter. -/
structure RemoteDispatchState where
  pending : List JobId := []
  inFlight : List JobId := []
  jobPeer : List (JobId × Pin) := []
  wake : Bool := false
  retries : JobId → ℕ := fun _ => 0

namespace RemoteDispatchState

variable (pool : RemoteDispatchState)

def busyPins : List Pin := pool.jobPeer.map Prod.snd

def isInFlight (j : JobId) : Bool := decide (j ∈ pool.inFlight)

def hold (j : JobId) : RemoteDispatchState :=
  { pool with pending := KeyList.add pool.pending j, wake := true }

def drop (j : JobId) : RemoteDispatchState :=
  { pool with
    pending := KeyList.drop pool.pending j
    retries := Function.update pool.retries j 0 }

def release (j : JobId) : RemoteDispatchState :=
  { pool with
    inFlight := KeyList.drop pool.inFlight j
    jobPeer := pool.jobPeer.filter (fun e => e.1 ≠ j)
    wake := true }

def discard (j : JobId) : RemoteDispatchState := (pool.drop j).release j

/-- Move a job from waiting to in-flight on server `pin`. -/
def start (j : JobId) (pin : Pin) : RemoteDispatchState :=
  { pool with
    pending := KeyList.drop pool.pending j
    jobPeer := pool.jobPeer.filter (fun e => e.1 ≠ j) ++ [(j, pin)]
    inFlight := KeyList.add pool.inFlight j }

def rearmIfPending : RemoteDispatchState :=
  if pool.pending ≠ [] then { pool with wake := true } else pool

def recordLoss (j : JobId) : RemoteDispatchState :=
  { pool with retries := Function.update pool.retries j (pool.retries j + 1) }

def forgetLosses (j : JobId) : RemoteDispatchState :=
  { pool with retries := Function.update pool.retries j 0 }

end RemoteDispatchState

def prerequisiteFailedError : String := "prerequisite job did not complete successfully"

def targetOfflineDeferredError : String :=
  "device is offline; update queued for when it reconnects"

/-- The state of the firmware controller. -/
structure FirmwareState where
  obj : JobId → Option FirmwareJob := fun _ => none
  /-- The next `uuid4`. -/
  fresh : JobId := 0
  jobs : List JobId := []
  compileLane : Lane := {}
  uploadLane : Lane := {}
  threadUploadLane : Lane := {}
  cancelRequested : List JobId := []
  buildGate : Bool := false
  renameFsLock : Bool := false
  remoteDispatch : RemoteDispatchState := {}

/-- Job types a `remotePending` source holds in the pool. -/
def remotePoolJobTypes : List JobType := [.compile, .analyzeMemory]

namespace FirmwareState

variable (fw : FirmwareState)

def lane : LaneId → Lane
  | .compile => fw.compileLane
  | .upload => fw.uploadLane
  | .threadUpload => fw.threadUploadLane

def setLane (l : LaneId) (x : Lane) : FirmwareState :=
  match l with
  | .compile => { fw with compileLane := x }
  | .upload => { fw with uploadLane := x }
  | .threadUpload => { fw with threadUploadLane := x }

/-- Mutate a job object in place. -/
def modify (j : JobId) (f : FirmwareJob → FirmwareJob) : FirmwareState :=
  { fw with obj := Function.update fw.obj j ((fw.obj j).map f) }

/-- The job table's rows, in order. -/
def rows : List FirmwareJob := fw.jobs.filterMap fw.obj

def activeJobs : List FirmwareJob := fw.rows.filter (·.isActive)

/-- The jobs of the table held on `j`. -/
def dependents (j : JobId) : List FirmwareJob := fw.rows.filter (fun d => d.dependsOn = some j)

/-- `state.jobs.get(j)`. -/
def find (j : JobId) : Option FirmwareJob := if j ∈ fw.jobs then fw.obj j else none

def dependencySatisfied (job : FirmwareJob) : Bool :=
  match job.dependsOn with
  | none => true
  | some p =>
    match fw.find p with
    | some prereq => decide (prereq.status = .completed)
    | none => false

/-- A job whose wipe of the local build tree would race the flash of `guarded`. -/
def wipes (guarded : Configuration) (other : FirmwareJob) : Bool :=
  other.wipesLocalBuildTree &&
    (other.jobType = .resetBuildEnv || other.configuration = guarded)

/-- A flash waits for an active clean or reset that wipes the tree it reads. -/
def uploadBlocked (job : FirmwareJob) : Bool :=
  job.isNetworkFlash && fw.activeJobs.any (wipes job.flashConfiguration)

/-- Everything but a network flash compiles; a flash of an OpenThread device has its own lane. -/
def laneFor (isThread : Configuration → Bool) (job : FirmwareJob) : LaneId :=
  if !job.isNetworkFlash then .compile
  else if isThread job.configuration then .threadUpload
  else .upload

def enqueueOn (l : LaneId) (j : JobId) : FirmwareState :=
  fw.setLane l { fw.lane l with queue := (fw.lane l).queue ++ [j] }

/-- Does the pool hold this job rather than a lane? -/
def pooled (job : FirmwareJob) : Bool :=
  job.source = .remotePending && job.jobType ∈ remotePoolJobTypes

/-- `place_on_lane`, the single router: the pool for a pending remote compile, else its lane. -/
def placeOnLane (isThread : Configuration → Bool) (j : JobId) : FirmwareState :=
  match fw.obj j with
  | none => fw
  | some job =>
    let fw' := if job.dependsOn.isSome then fw.modify j ({ · with dependencyReleased := true }) else fw
    if pooled job then { fw' with remoteDispatch := fw'.remoteDispatch.hold j }
    else
      { fw' with remoteDispatch := fw'.remoteDispatch.drop j }.enqueueOn (laneFor isThread job) j

def requestCancel (j : JobId) : FirmwareState :=
  { fw with cancelRequested := KeyList.add fw.cancelRequested j }

/-- Clear a job's slot on every lane. -/
def releaseLaneSlot (j : JobId) : FirmwareState :=
  { fw with
    compileLane := { fw.compileLane with active := KeyList.drop fw.compileLane.active j }
    uploadLane := { fw.uploadLane with active := KeyList.drop fw.uploadLane.active j }
    threadUploadLane :=
      { fw.threadUploadLane with active := KeyList.drop fw.threadUploadLane.active j } }

/-- Whether `j` occupies a lane slot. -/
def jobIsOnALane (j : JobId) : Bool :=
  decide (j ∈ fw.compileLane.active) || decide (j ∈ fw.uploadLane.active) ||
    decide (j ∈ fw.threadUploadLane.active)

/-- `compile_queue_status().idle`. -/
def compileQueueIdle : Bool := fw.compileLane.active.isEmpty && fw.compileLane.queue.isEmpty

end FirmwareState

end DeviceBuilder
