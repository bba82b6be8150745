import DeviceBuilder.Firmware.Controller
import DeviceBuilder.Firmware.Offloader
import DeviceBuilder.Firmware.Persistence
import DeviceBuilder.Firmware.Runner
import DeviceBuilder.Lib.Runs

/-!
# The step function

One step of the dashboard resumes one suspended task and runs it to its next
await, or is a move of the world outside: a command arrives, a device or the
offloader changes, the executor finishes a file operation, a save reaches the
disk, an await raises, the runner is shut down, the process restarts. A step
that does not apply leaves the world as it is.

While its section runs a task is not suspended: its slot holds `ended`.
-/

namespace DeviceBuilder

inductive Action
  /-- The await of task `i` gave `input`. -/
  | resume (i : ℕ) (input : Input)
  /-- The executor ran the file operation task `i` waits for. -/
  | io (i : ℕ)
  /-- The await of task `i` raised. -/
  | raise (i : ℕ) (exc : String)
  /-- Task `i` was cancelled: `CancelledError` at its await. -/
  | shutdown (i : ℕ)
  | command (c : Command)
  /-- The scanner set a row of the device table. -/
  | device (configuration : Configuration) (device : Option Device)
  /-- `DEVICE_STATE_CHANGED`. -/
  | deviceState (configuration : Configuration) (state : DeviceState)
  | changeOffloader (change : OffloaderChange)
  | teardownOffloader
  | saveBegin
  | save
  | tick
  | restart (rows : List FirmwareJob) (devices : Configuration → Option Device)
      (offloader : Option OffloaderState) (uploadWorkers : ℕ)

namespace World

def setTask (w : World) (i : ℕ) (t : Task) : World := { w with tasks := w.tasks.set i t }

/-- Run the section of task `i`: a section takes the world without the task and gives the world
and the task's next await. -/
def runTask (w : World) (i : ℕ) (section_ : World → Task → World × Task) : World :=
  match w.tasks[i]? with
  | none => w
  | some t =>
    let (w', t') := section_ (w.setTask i .ended) t
    w'.setTask i t'

/-- A runner task ended for good. -/
def queueStops (w : World) : World := { w with queueDown := true }

/-- Resume a command with what its top frame's await gave. -/
def resumeFrames (w : World) (frames : List Frame) (input : Input) : World × Task :=
  match frames with
  | [] => (w, .ended)
  | f :: fs =>
    let f : Frame := match f, input with
      | .renameAddress configuration newName content _, .address address =>
        .renameAddress configuration newName content (some address)
      | f, _ => f
    let error : Option Err := match f, input with
      -- the old YAML cannot be rewritten
      | .renameRead .., .fail _ => some .invalidArgs
      | _, _ => none
    if w.frameReady f then w.resumeCommand (f :: fs) error else (w, .command (f :: fs))

/-- The section of a task whose await is over. -/
def resumeTask (input : Input) (w : World) (t : Task) : World × Task :=
  match t with
  | .laneIdle l => w.laneTake l
  | .laneGate l j woken => if woken then w.laneGate l j else (w, t)
  | .laneBegin l j => w.laneRun l j input
  | .laneLocal l j pt => if pt = .swap false then (w, t) else w.localResume l j pt input
  | .laneRemote l j pt => laneRemote l j (w.remoteResume j false pt input)
  | .laneEnd l _ dying =>
    if dying then ((w.laneReturn l).queueStops, .ended) else (w.laneReturn l, .laneIdle l)
  | .driveBegin j => driveReturn j (w.remoteStart j input)
  | .driveRemote j pt => driveReturn j (w.remoteResume j true pt input)
  | .driveEnd _ => (w, .ended)
  | .dispatchGrace => (w, .dispatchWait)
  | .dispatchWait => w.dispatchWake
  | .dispatchPersist => (w, .dispatchWait)
  | .command fs => w.resumeFrames fs input
  | .revertLock j => if w.fw.renameFsLock then (w, t) else w.revertLocked j
  | .revertRemove j removed => if removed then (w.setRenameLock false, .revertReload j) else (w, t)
  | .revertReload _ => (w, .ended)
  | .announcePairing _ => (w.firePoolEvents [.pairingAdded], .ended)
  | .ended => (w, .ended)

/-- A file operation of the executor. -/
def ioTask (w : World) (t : Task) : World × Task :=
  match t with
  | .laneLocal l j (.swap false) =>
    match w.fw.obj j with
    | none => (w, t)
    | some job => (w.removeDeviceFiles job.configuration, .laneLocal l j (.swap true))
  | .revertRemove j false =>
    match w.fw.obj j with
    | none => (w, t)
    | some job => (w.removeDeviceFiles job.newFilename, .revertRemove j true)
  | .command (f :: fs) => ((w.frameIO f).1, .command ((w.frameIO f).2 :: fs))
  | _ => (w, t)

/-- An exception (not a cancellation) at a task's await. -/
def raiseTask (exc : String) (w : World) (t : Task) : World × Task :=
  match t with
  -- `begin_run` stands before the `try`
  | .laneBegin l _ => ((w.laneReturn l).queueStops, .ended)
  -- the swap logs its failures and never raises
  | .laneLocal l j (.swap _) => (w.finalizeTerminal j .completed).laneFinish l j false
  | .laneLocal l j _ | .laneRemote l j _ => (w.finalizeUnexpectedError j exc).laneFinish l j false
  | .laneEnd l _ _ => ((w.laneReturn l).queueStops, .ended)
  | .driveBegin _ => (w, .ended)
  | .driveRemote j _ => ((w.finalizeUnexpectedError j exc).driveFinish j, .driveEnd j)
  | .driveEnd _ => (w, .ended)
  | .dispatchPersist => (w.queueStops, .ended)
  | .command (.stagePersist head tail content :: fs) =>
    w.resumeCommand (.stagePersist head tail content :: fs) (some .osError)
  | .command (.stageWrite head tail content written :: fs) =>
    w.resumeCommand (.stageWrite head tail content written :: fs) (some .osError)
  -- a failed unlink is logged
  | .revertRemove _ _ => (w.setRenameLock false, .ended)
  | _ => (w, t)

/-- `CancelledError` at a task's await. -/
def shutdownTask (w : World) (t : Task) : World × Task :=
  match t with
  | .laneIdle _ => (w.queueStops, .ended)
  | .laneGate l _ _ => ((w.laneReturn l).queueStops, .ended)
  | .laneBegin l _ => ((w.laneReturn l).queueStops, .ended)
  | .laneLocal l j _ => (w.finalizeCancelled j).laneFinish l j true
  -- `run_remote_job` finalises and re-raises, then `execute_job` finalises
  | .laneRemote l j _ => ((w.finalizeCancelled j).finalizeCancelled j).laneFinish l j true
  | .laneEnd l _ _ => ((w.laneReturn l).queueStops, .ended)
  | .driveBegin _ => (w, .ended)
  | .driveRemote j _ => ((w.finalizeCancelled j).driveFinish j, .driveEnd j)
  | .driveEnd _ => (w, .ended)
  | .dispatchGrace | .dispatchWait | .dispatchPersist => (w.queueStops, .ended)
  | .revertLock _ | .revertReload _ => (w, .ended)
  | .revertRemove _ _ => (w.setRenameLock false, .ended)
  | .command _ | .announcePairing _ | .ended => (w, t)

/-- A device's reachability changed; an ONLINE event is a wake. -/
def setDeviceState (w : World) (configuration : Configuration) (state : DeviceState) : World :=
  match w.devices configuration with
  | none => w
  | some device =>
    let w := { w with
      devices := Function.update w.devices configuration (some { device with state := state }) }
    if state = .online then w.handleDeviceWake configuration else w

/-- One step. -/
def step (w : World) : Action → World
  | .resume i input => w.runTask i (resumeTask input)
  | .io i => w.runTask i ioTask
  | .raise i exc => w.runTask i (raiseTask exc)
  | .shutdown i => w.runTask i shutdownTask
  | .command c =>
    let (w', r) := w.startFrames c
    startCommand (w', r)
  | .device configuration device =>
    { w with devices := Function.update w.devices configuration device }
  | .deviceState configuration state => w.setDeviceState configuration state
  | .changeOffloader change => w.changeOffloader change
  | .teardownOffloader => { w with offloader := none }
  | .saveBegin => if w.saving.isSome then w else w.saveBegin
  | .save => w.save
  | .tick => { w with clock := w.clock + 1 }
  | .restart rows devices offloader uploadWorkers =>
    if rows.Perm w.disk then w.restart rows devices offloader uploadWorkers else w

/-- The world after some actions. -/
def run (as : List Action) : World := as.foldl step {}

end World

/-- The worlds of runs that start from a fresh dashboard. -/
def Reachable (ok : World → Action → Prop) (w : World) : Prop := Runs.Reaches World.step ok {} w

theorem reachable_run (as : List Action) : Reachable Runs.any (World.run as) := by
  unfold Reachable World.run
  exact Runs.Reaches.foldl as ({} : World)

theorem reachable_run_of {ok : World → Action → Prop} (as : List Action)
    (h : ∀ a ∈ as, ∀ w, ok w a) : Reachable ok (World.run as) := by
  unfold Reachable World.run
  exact Runs.Reaches.foldl_of as h ({} : World)

theorem reachable_checks {ok : World → Action → Prop} {p : World → Action → Bool}
    (hc : ∀ w a, p w a = true → ok w a) (as : List Action)
    (h : Runs.Reaches.checks World.step p as {} = true) : Reachable ok (World.run as) := by
  unfold Reachable World.run
  exact Runs.Reaches.foldl_checks hc as ({} : World) h

end DeviceBuilder
