import DeviceBuilder.RemoteBuild.PostAck

/-!
# The receiver as a step function

One action runs the event loop until the next await. `handshake` is a dialling
offloader, `frame` an inbound frame of a session, `resume i r` the end of the
await of task `i`, with result `r`. The admin's commands and the pair flow are
the pairing actions; the `job` actions are the firmware queue's.

* `ReceiverWorld.step`: one action.
* `ReceiverWorld.Reachable`: reached from a start by actions that met a guard.
-/

namespace DeviceBuilder

open Runs

/-- What the firmware queue holds beside the remote jobs: is a local job active, is one a reset? -/
structure LocalJobs where
  active : Bool := false
  reset : Bool := false

inductive ReceiverAction
  | pairing (a : PairAction)
  | handshake (dashboardId : DashboardId) (pub : PublicKey) (identity : SessionIdentity)
  | frame (i : ℕ) (frame : AppFrame) (localJobs : LocalJobs)
  /-- The session's WS iteration is over. -/
  | wsClosed (i : ℕ)
  /-- The heartbeat of the session of task `i` gives it up. -/
  | heartbeatDead (i : ℕ)
  | resume (i : ℕ) (result : AwaitResult)
  /-- The done-callback of extract task `i`. -/
  | dropIndex (i : ℕ)
  /-- `stop` of the extract window. -/
  | stopExtracts
  | jobStart (job : JobId)
  | jobFinish (job : JobId) (status : JobStatus)
  /-- A terminal job leaves the table (`clear`, `prune_history`). -/
  | jobRemove (job : JobId)

namespace ReceiverWorld

variable (cfg : PairingSettings) (w : ReceiverWorld) (i : ℕ) (n : SessionId) (d : DashboardId)

/-! ### Handlers -/

/-- Is some extract or download task live? -/
def tasksLive : Bool := w.tasks.any fun
  | .extract .. | .download _ => true
  | _ => false

def isActiveJob (j : RemotePeerJob) : Bool := !j.status.isTerminal

/-- `handle_download_artifacts`, up to its first await. -/
def handleDownloadArtifacts (localJobs : LocalJobs) : Option String → ReceiverWorld
  | none =>
    match w.terminate n with
    | (true, w) => w.setTask i (.session n (.terminate false))
    | (false, w) => w.setTask i (.session n .receive)
  | some jobId =>
    let refuse := w.setTask i (.session n (.send .loop))
    if (w.downloads.get? d).isSome then refuse
    else
      match w.jobs.items.find? fun e => e.2.remotePeer = d ∧ e.2.remoteJobId = jobId with
      | none => refuse
      | some (_, job) =>
        if job.status ≠ .completed then refuse
        else if localJobs.reset ∨ w.jobs.values.any fun j => isActiveJob j && j.jobType = .resetBuildEnv then
          refuse
        else if w.extractsStopped then refuse
        else ((ReceiverWorld.emit { w with downloads := w.downloads.set d w.tasks.length }
          (.work n)).setTask i (.session n .receive)).spawn (.download d)

/-- `_reset_busy`. -/
def resetBusy (localJobs : LocalJobs) : Bool :=
  localJobs.active || w.jobs.values.any isActiveJob || !w.inflight.isEmpty || w.tasksLive

/-- `handle_reset_build_env`, up to its first await. -/
def handleResetBuildEnv (localJobs : LocalJobs) : Option String → ReceiverWorld
  | none => w.setTask i (.session n (.send .terminate))
  | some jobId =>
    if w.resetBusy localJobs then w.setTask i (.session n (.send .loop))
    else
      let (job, w) := w.enqueueJob (d, jobId) .resetBuildEnv
      (w.emit (.work n)).setTask i (.session n (.enqueueReset job jobId))

/-- The receive loop is left; its `finally` awaits the heartbeat task. -/
def leaveLoop : ReceiverWorld := w.setTask i (.session n .finish)

/-- One inbound frame of the receive loop, up to the next await. -/
def receiveFrame (localJobs : LocalJobs) : AppFrame → ReceiverWorld
  | .malformed =>
    match w.terminate n with
    | (true, w) => w.setTask i (.session n (.terminate true))
    | (false, w) => w.leaveLoop i n
  | .pong | .unknown => w
  | .ping => w.setTask i (.session n (.send .loop))
  | .terminate => (w.setClosing n).leaveLoop i n
  | .submitJob safe f => w.handleSubmitJob cfg.lib i n d safe f
  | .submitJobChunk safe f => w.handleSubmitJobChunk cfg.lib i n d safe f
  | .cancelJob jobId => w.handleCancelJob i n d jobId
  | .downloadArtifacts jobId => w.handleDownloadArtifacts i n d localJobs jobId
  | .resetBuildEnv jobId => w.handleResetBuildEnv i n d localJobs jobId

/-! ### Continuations -/

/-- The coroutine of session `n` runs on from its await. An exception leaves the receive loop, except
before it has started; the `finally` suppresses a cancellation of its own await. -/
def resumeSession : SessionAwait → AwaitResult → ReceiverWorld
  | .register, .ok | .register, .locked => w.announceSession i n
  | .register, _ => w.setTask i .ended
  | .finish, _ => (w.unregisterPeerLinkSession n).setTask i .ended
  | .receive, .ok | .receive, .locked => w
  | .resolve f stem, .ok | .resolve f stem, .locked => w.registerUpload cfg.lib i n d f stem false
  | .resolve f stem, .pathEscape => w.registerUpload cfg.lib i n d f stem true
  | .send .loop, .ok | .send .loop, .locked => w.setTask i (.session n .receive)
  | .send .terminate, .ok | .send .terminate, .locked =>
    match w.terminate n with
    | (true, w) => w.setTask i (.session n (.terminate false))
    | (false, w) => w.setTask i (.session n .receive)
  | .send (.spawnExtract pending), .ok | .send (.spawnExtract pending), .locked =>
    (w.spawnExtract n d pending).setTask i (.session n .receive)
  | .terminate true, .ok | .terminate true, .locked => w.leaveLoop i n
  | .terminate false, .ok | .terminate false, .locked => w.setTask i (.session n .receive)
  | .cancelJob job, .ok | .cancelJob job, .locked =>
    (w.cancelFirmwareDone job).setTask i (.session n .receive)
  | .enqueueReset _ _, .ok | .enqueueReset _ _, .locked => w.setTask i (.session n (.send .loop))
  | .enqueueReset job _, .exception | .enqueueReset job _, .pathEscape =>
    ReceiverWorld.setTask { w with jobs := w.jobs.erase job } i (.session n (.send .loop))
  | _, _ => w.leaveLoop i n

/-- `_run_download` ends: a guarded pop of its slot. -/
def endDownload : ReceiverWorld :=
  (if w.downloads.get? d = some i then { w with downloads := w.downloads.erase d } else w).setTask i .ended

/-- Task `t`, the task at `i`, runs on. -/
def resumeTask (r : AwaitResult) : ReceiverTask → ReceiverWorld
  | .handshake d identity =>
    match r with
    | .ok | .locked => w.registerPeerLinkSession i d identity
    | _ => w.setTask i .ended
  | .session n await =>
    match w.dashboardId n with
    | some d => w.resumeSession cfg i n d await r
    | none => w
  | .extract key n pending await => w.resumeExtract i key n pending await r
  | .download d => w.endDownload i d
  | .ended => w

/-- Apply `f` to a session at the await of its next message. -/
def atReceive (f : SessionId → DashboardId → ReceiverWorld) : ReceiverWorld :=
  match w.tasks[i]? with
  | some (.session n .receive) =>
    match w.dashboardId n with
    | some d => f n d
    | none => w
  | _ => w

def step (w : ReceiverWorld) : ReceiverAction → ReceiverWorld
  | .pairing a => { w with pairing := w.pairing.step cfg a }
  | .handshake d pub identity =>
    let ok := isDashboardId d ∧
      (w.pairing.lookupPeerForSession d (cfg.lib.pinSha256ForPubkey pub)).response = .ok
    let w : ReceiverWorld := { w with pairing := w.pairing.step cfg (.dispatch (.peerLink d pub)) }
    if ok then w.spawn (.handshake d identity) else w
  | .frame i f localJobs => w.atReceive i fun n d => w.receiveFrame cfg i n d localJobs f
  | .wsClosed i => w.atReceive i fun n _ => w.leaveLoop i n
  | .heartbeatDead i =>
    match w.tasks[i]? with
    | some (.session n await) => if await = .register then w else (w.terminate n).2
    | _ => w
  | .resume i r =>
    match w.tasks[i]? with
    | some t => w.resumeTask cfg i r t
    | none => w
  | .dropIndex i =>
    if w.isDone i then { w with extractIndex := w.extractIndex.keep fun _ t => t ≠ i } else w
  | .stopExtracts => { w with extractsStopped := true }
  | .jobStart job => { w with jobs := w.jobs.adjust job fun j =>
      if j.status = .queued then { j with status := .running } else j }
  | .jobFinish job status =>
    match w.jobs.get? job with
    | none => w
    | some j =>
      if isActiveJob j ∧ status.isTerminal ∧ (j.cancelRequested → status = .cancelled) then
        w.finishJob job status
      else w
  | .jobRemove job =>
    match w.jobs.get? job with
    | none => w
    | some j => if isActiveJob j then w else { w with jobs := w.jobs.erase job }

/-- A started receiver. -/
def start (file : PeersFile cfg.lib) : ReceiverWorld := { pairing := PairingState.start cfg file }

/-- `w` is reached from a start by actions that all met `ok`. -/
def Reachable (ok : ReceiverWorld → ReceiverAction → Prop) (w : ReceiverWorld) : Prop :=
  ∃ file, Reaches (step cfg) ok (start cfg file) w

end ReceiverWorld

end DeviceBuilder
