import DeviceBuilder.Models.Firmware
import DeviceBuilder.Lib.Dict
import DeviceBuilder.RemoteBuild.ReceiverState

/-!
# Frames of the receiver

What a receiver sends its peer-link sessions: the `queue_status` broadcasts and
initial sends of `peer_link_sessions.py`, the job frames of `job_fanout.py`, and
the send lock of `channel.py` each of them waits in. A channel's list of waiting
frames is that lock: the holder first, then the waiters in order. A broadcast
walks the sessions of its snapshot and waits at one of them at a time; the
sessions still ahead of it travel with its frame. Background tasks start eagerly,
so a send reaches its first lock in the step that creates it.

Of the firmware controller, the model keeps the compile lane and the order of
its events.
-/

namespace DeviceBuilder

/-- `QueueStatus`. -/
structure QueueStatus where
  idle : Bool
  running : Bool
  queueDepth : ℕ
  deriving DecidableEq, Repr

/-- A `JOB_*` event of a remote job, with what its frame carries. -/
inductive JobEvent
  /-- `job_state_changed`. -/
  | state (status : JobStatus) (errorMessage : String) (failureReason : JobFailureReason)
  /-- `job_output` on `stdout`. -/
  | output (line : String)
  deriving DecidableEq, Repr

/-- `TERMINAL_JOB_EVENTS`. -/
def JobEvent.isTerminal : JobEvent → Bool
  | .state status _ _ => status.isTerminal
  | .output _ => false

/-- A frame with what the wire does not carry: which compile a status is from and the sessions its
broadcast has still to visit, or the firmware job. -/
inductive WireFrame
  | queueStatus (stamp : ℕ) (status : QueueStatus) (rest : List SessionId)
  | job (job : JobId) (remoteJobId : String) (event : JobEvent)
  | terminate
  /-- Heartbeats, acks and downloads. -/
  | other
  deriving DecidableEq, Repr

/-- A `PeerLinkSession` and its channel. -/
structure SendChannel where
  dashboardId : DashboardId := ""
  /-- `_send_lock`: the holder, then the waiters. -/
  waiting : List WireFrame := []
  /-- Written to the socket. -/
  sent : List WireFrame := []
  closing : Bool := false
  wsClosed : Bool := false

/-- The holder of the lock writes its frame, or fails to on a closed socket, and frees the lock;
after a `terminate` it closes the socket. -/
def SendChannel.serve (c : SendChannel) (m : WireFrame) (ms : List WireFrame) : SendChannel :=
  { c with
    waiting := ms
    sent := if c.wsClosed then c.sent else c.sent ++ [m]
    wsClosed := c.wsClosed || m = .terminate }

/-- `FirmwareJob`, what its events read. -/
structure LaneJob where
  remotePeer : DashboardId
  remoteJobId : String
  status : JobStatus := .queued
  deriving DecidableEq, Repr

structure FrameWorld where
  jobs : Dict JobId LaneJob := ∅
  /-- `compile_lane.queue`. -/
  laneQueue : List JobId := []
  /-- `compile_lane.active`. -/
  active : List JobId := []
  /-- Queued jobs that `firmware.cancel` has marked and whose `JOB_CANCELLED` is to come. -/
  cancelling : List JobId := []
  /-- `_remote_jobs` of the fan-out. -/
  remoteJobs : Dict JobId (DashboardId × String) := ∅
  channels : SessionId → SendChannel := fun _ => {}
  /-- The sessions opened so far. -/
  opened : SessionId := 0
  peerLinkSessions : Dict DashboardId SessionId := ∅
  /-- Sessions that are registered and await the `terminate` of the one they superseded. -/
  registering : List (SessionId × SessionId) := []
  /-- How often the status has been compiled. -/
  compiled : ℕ := 0
  /-- The events of remote jobs, in order. -/
  events : List (JobId × JobEvent) := []

namespace FrameWorld

variable (w : FrameWorld)

/-! ### Sends -/

def setChannel (s : SessionId) (f : SendChannel → SendChannel) : FrameWorld :=
  { w with channels := Function.update w.channels s (f (w.channels s)) }

/-- Queue on the send lock of `s`. -/
def push (s : SessionId) (m : WireFrame) : FrameWorld :=
  w.setChannel s fun c => { c with waiting := c.waiting ++ [m] }

/-- `send_app_frame`. -/
def sendAppFrame (s : SessionId) (m : WireFrame) : FrameWorld :=
  if (w.channels s).closing then w else w.push s m

/-- The loop of `broadcast_queue_status` up to its next await: `send_app_frame` returns at once on
a closing session. -/
def broadcast (stamp : ℕ) (status : QueueStatus) : List SessionId → FrameWorld
  | [] => w
  | s :: rest =>
    if (w.channels s).closing then broadcast stamp status rest
    else w.push s (.queueStatus stamp status rest)

/-! ### The status -/

/-- `lane_status` of the compile lane. -/
def compileQueueStatus : QueueStatus where
  idle := w.active.isEmpty && w.laneQueue.isEmpty
  running := !w.active.isEmpty
  queueDepth := w.laneQueue.length

/-- `on_firmware_queue_transition`. -/
def onFirmwareQueueTransition : FrameWorld :=
  { w with compiled := w.compiled + 1 }.broadcast w.compiled w.compileQueueStatus
    w.peerLinkSessions.values

/-- `_send_initial_queue_status`. -/
def sendInitialQueueStatus (s : SessionId) : FrameWorld :=
  { w with compiled := w.compiled + 1 }.sendAppFrame s
    (.queueStatus w.compiled w.compileQueueStatus [])

/-! ### The fan-out -/

/-- `_dispatch`, to the session of the peer. -/
def dispatch (j : JobId) (peer : DashboardId) (remoteJobId : String) (e : JobEvent) : FrameWorld :=
  match w.peerLinkSessions.get? peer with
  | none => w
  | some s => w.sendAppFrame s (.job j remoteJobId e)

/-- `_on_queued`. -/
def onQueued (j : JobId) (job : LaneJob) : FrameWorld :=
  if job.remotePeer = "" ∨ job.remoteJobId = "" then w
  else { w with remoteJobs := w.remoteJobs.set j (job.remotePeer, job.remoteJobId) }.dispatch j
    job.remotePeer job.remoteJobId (.state .queued "" .none)

/-- `_on_lifecycle` and `_on_output`. -/
def onEvent (j : JobId) (e : JobEvent) : FrameWorld :=
  let entry := w.remoteJobs.get? j
  let w : FrameWorld := if e.isTerminal then { w with remoteJobs := w.remoteJobs.erase j } else w
  match entry with
  | none => w
  | some (peer, remoteJobId) => w.dispatch j peer remoteJobId e

/-- Fire an event of job `j`. -/
def fire (j : JobId) (e : JobEvent) : FrameWorld :=
  { w with events := w.events ++ [(j, e)] }.onEvent j e

/-! ### The firmware controller -/

/-- `_place_and_announce`: a job new to the controller. -/
def placeAndAnnounce (j : JobId) (job : LaneJob) (onLane : Bool) : FrameWorld :=
  if w.jobs.get? j = none then
    ({ w with
        jobs := w.jobs.set j { job with status := .queued }
        laneQueue := if onLane then w.laneQueue ++ [j] else w.laneQueue
        events := w.events ++ [(j, JobEvent.state .queued "" .none)] }.onQueued j
      job).onFirmwareQueueTransition
  else w

/-- `place_on_lane` away from an announcement: a fallback from the remote pool, or a dependent. -/
def placeOnLane (j : JobId) : FrameWorld :=
  if (w.jobs.get? j).isSome then { w with laneQueue := w.laneQueue ++ [j] } else w

def setStatus (j : JobId) (status : JobStatus) : FrameWorld :=
  { w with jobs := w.jobs.adjust j fun job => { job with status := status } }

/-- `begin_run`. -/
def beginRun (j : JobId) : FrameWorld :=
  ((w.setStatus j .running).fire j (.state .running "" .none)).onFirmwareQueueTransition

/-- Is the job cancelled? Only terminal jobs leave the table. -/
def isCancelled (j : JobId) : Bool := (w.jobs.get? j).all (·.status = .cancelled)

/-- `run_lane` of the compile lane: take the next job and run it up to its first await. -/
def runLane : FrameWorld :=
  match w.active, w.laneQueue with
  | [], j :: q =>
    if w.isCancelled j then { w with laneQueue := q }
    else { w with laneQueue := q, active := [j] }.beginRun j
  | _, _ => w

/-- `firmware.cancel` of a queued job, up to its await. -/
def markCancelled (j : JobId) : FrameWorld :=
  if (w.jobs.get? j).any (·.status = .queued) then
    { w.setStatus j .cancelled with cancelling := w.cancelling ++ [j] }
  else w

/-- `finalize_terminal`: the slot is released before the event. -/
def finalizeTerminal (j : JobId) (status : JobStatus) (error : String)
    (failureReason : JobFailureReason) : FrameWorld :=
  if (w.jobs.get? j).isSome ∧ status.isTerminal then
    let e := JobEvent.state status
      (if status = .failed ∨ status = .cancelled then error else "")
      (if status = .failed then failureReason else .none)
    ({ w.setStatus j status with
        active := w.active.filter (· ≠ j)
        cancelling := w.cancelling.filter (· ≠ j) }.fire j e).onFirmwareQueueTransition
  else w

/-! ### Sessions -/

/-- `PeerLinkSession.terminate`, up to its await. -/
def terminate (s : SessionId) : FrameWorld :=
  if (w.channels s).closing then w
  else w.setChannel s fun c => { c with closing := true, waiting := c.waiting ++ [.terminate] }

/-- `register_peer_link_session` of a new session. -/
def registerPeerLinkSession (d : DashboardId) : FrameWorld :=
  let s := w.opened
  let existing := w.peerLinkSessions.get? d
  let w : FrameWorld := { w with
    channels := Function.update w.channels s { dashboardId := d }
    opened := s + 1
    peerLinkSessions := w.peerLinkSessions.set d s }
  match existing with
  | none => w.sendInitialQueueStatus s
  | some x =>
    if (w.channels x).closing then w.sendInitialQueueStatus s
    else { w.terminate x with registering := w.registering ++ [(s, x)] }

/-- The rest of `register_peer_link_session`, once the superseded session's `terminate` is out. -/
def announceSession (s x : SessionId) : FrameWorld :=
  if (s, x) ∈ w.registering ∧ WireFrame.terminate ∉ (w.channels x).waiting then
    { w with registering := w.registering.erase (s, x) }.sendInitialQueueStatus s
  else w

/-- `unregister_peer_link_session`. -/
def unregisterPeerLinkSession (s : SessionId) : FrameWorld :=
  if w.peerLinkSessions.get? (w.channels s).dashboardId = some s then
    { w with peerLinkSessions := w.peerLinkSessions.erase (w.channels s).dashboardId }
  else w

/-- The holder of the send lock of `s` is served and its task goes on. -/
def write (s : SessionId) : FrameWorld :=
  match (w.channels s).waiting with
  | [] => w
  | m :: ms =>
    let w := w.setChannel s (·.serve m ms)
    match m with
    | .queueStatus stamp status rest => w.broadcast stamp status rest
    | _ => w

end FrameWorld

/-! ### Steps -/

inductive FrameAction
  | placeAndAnnounce (j : JobId) (job : LaneJob) (onLane : Bool)
  | placeOnLane (j : JobId)
  | runLane
  /-- `begin_run` on another lane or in the remote pool. -/
  | beginRun (j : JobId)
  | output (j : JobId) (line : String)
  | markCancelled (j : JobId)
  | finalizeTerminal (j : JobId) (status : JobStatus) (error : String)
    (failureReason : JobFailureReason)
  | register (d : DashboardId)
  | announce (s x : SessionId)
  | terminate (s : SessionId)
  /-- An inbound `terminate` frame. -/
  | peerTerminate (s : SessionId)
  /-- The socket of `s` closes. -/
  | wsClose (s : SessionId)
  | unregister (s : SessionId)
  /-- Any other sender on the channel of `s`. -/
  | sendOther (s : SessionId)
  | write (s : SessionId)
  deriving DecidableEq, Repr

namespace FrameWorld

def step (w : FrameWorld) : FrameAction → FrameWorld
  | .placeAndAnnounce j job onLane => w.placeAndAnnounce j job onLane
  | .placeOnLane j => w.placeOnLane j
  | .runLane => w.runLane
  | .beginRun j => if (w.jobs.get? j).isSome then w.beginRun j else w
  | .output j line => if (w.jobs.get? j).isSome then w.fire j (.output line) else w
  | .markCancelled j => w.markCancelled j
  | .finalizeTerminal j status error failureReason =>
    w.finalizeTerminal j status error failureReason
  | .register d => w.registerPeerLinkSession d
  | .announce s x => w.announceSession s x
  | .terminate s => if s < w.opened then w.terminate s else w
  | .peerTerminate s =>
    if s < w.opened then w.setChannel s fun c => { c with closing := true } else w
  | .wsClose s => if s < w.opened then w.setChannel s fun c => { c with wsClosed := true } else w
  | .unregister s => w.unregisterPeerLinkSession s
  | .sendOther s => if s < w.opened then w.sendAppFrame s .other else w
  | .write s => w.write s

end FrameWorld

end DeviceBuilder
