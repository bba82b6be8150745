import DeviceBuilder.RemoteBuild.ReceiverState

/-!
# Session registry

`peer_link_sessions.py` without the queue-status frames: registering a session
supersedes the one in its slot, across that session's `terminate`; unregistering
clears the slot only for the session that still holds it; a `cancel_job` frame
finds its job in the fan-out, or in the extract window.
-/

namespace DeviceBuilder.ReceiverWorld

variable (w : ReceiverWorld)

/-- `PeerLinkSession.terminate`: is there a close left to await, and the session closing. -/
def terminate (n : SessionId) : Bool × ReceiverWorld :=
  if w.isClosing n then (false, w) else (true, w.setClosing n)

/-- The rest of `register_peer_link_session`, past the superseded session's `terminate`; then the
receive loop of the session starts. -/
def announceSession (i : ℕ) (n : SessionId) : ReceiverWorld :=
  match w.sessions[n]? with
  | none => w
  | some s =>
    let w : ReceiverWorld := { w with pairing := w.pairing.refreshPeerDisplayIdentity s.dashboardId s.identity }
    let peer := w.pairing.approvedPeers.get? s.dashboardId
    (w.emit (.opened s.dashboardId ((peer.map (·.friendlyName)).getD "")
      ((peer.map (·.haAddon)).getD false))).setTask i (.session n .receive)

/-- `_run_peer_link_session` up to its first await: task `i` builds the session and registers it. -/
def registerPeerLinkSession (i : ℕ) (d : DashboardId) (identity : SessionIdentity) : ReceiverWorld :=
  let n := w.sessions.length
  let existing := w.peerLinkSessions.get? d
  let w : ReceiverWorld := { w with
    sessions := w.sessions ++ [{ dashboardId := d, identity := identity }]
    peerLinkSessions := w.peerLinkSessions.set d n }
  match existing with
  | none => w.announceSession i n
  | some m =>
    match w.terminate m with
    | (true, w) => w.setTask i (.session n .register)
    | (false, w) => w.announceSession i n

/-- `ArtifactsDownloadSender.discard_session`: free the slot and cancel its task. -/
def discardDownload (d : DashboardId) : ReceiverWorld :=
  match w.downloads.get? d with
  | none => w
  | some i => ReceiverWorld.setTask { w with downloads := w.downloads.erase d } i .ended

/-- `unregister_peer_link_session`. -/
def unregisterPeerLinkSession (n : SessionId) : ReceiverWorld :=
  match w.sessions[n]? with
  | none => w
  | some s =>
    let w : ReceiverWorld := { w with
      sessions := w.sessions.modify n fun s => { s with unregistered := true } }
    if w.peerLinkSessions.get? s.dashboardId = some n then
      ({ w with
        peerLinkSessions := w.peerLinkSessions.erase s.dashboardId
        inflight := w.inflight.erase s.dashboardId }.discardDownload s.dashboardId).emit
          (.closed s.dashboardId)
    else w

/-! ### Remote jobs -/

/-- `_create_job` and the synchronous part of `_enqueue`: the job is in the table and the queue, and
`JOB_QUEUED` has put its correlation into the fan-out. -/
def enqueueJob (key : ExtractKey) (jobType : JobType) : JobId × ReceiverWorld :=
  (w.nextJob, { w with
    jobs := w.jobs.set w.nextJob { remotePeer := key.1, remoteJobId := key.2, jobType := jobType }
    nextJob := w.nextJob + 1
    remoteJobs := if key.1 = "" ∨ key.2 = "" then w.remoteJobs else w.remoteJobs.set w.nextJob key }.emit
      (.jobQueued w.nextJob key))

/-- A job reaches a terminal status and its `JOB_*` event drops the correlation. -/
def finishJob (job : JobId) (status : JobStatus) : ReceiverWorld :=
  { w with jobs := w.jobs.adjust job fun j => { j with status := status }
           remoteJobs := w.remoteJobs.erase job }

/-- What `firmware.cancel` does at its call. -/
inductive CancelOutcome
  /-- `CommandError(NOT_FOUND)`. -/
  | notFound
  /-- `CommandError(INVALID_ARGS)`: already terminal. -/
  | terminal
  /-- Marked CANCELLED or asked to stop; awaiting the store or the process. -/
  | awaiting
  deriving DecidableEq

/-- `firmware.cancel`, up to its await. A queued job's `JOB_CANCELLED` fires past the await. -/
def cancelFirmware (job : JobId) : CancelOutcome × ReceiverWorld :=
  match w.jobs.get? job with
  | none => (.notFound, w)
  | some j =>
    match j.status with
    | .queued => (.awaiting, { w with jobs := w.jobs.adjust job fun j => { j with status := .cancelled } })
    | .running => (.awaiting, { w with jobs := w.jobs.adjust job fun j => { j with cancelRequested := true } })
    | _ => (.terminal, w)

/-- The rest of `firmware.cancel`: `JOB_CANCELLED` of a job that was queued. -/
def cancelFirmwareDone (job : JobId) : ReceiverWorld :=
  match w.jobs.get? job with
  | none => w
  | some j => if j.status = .cancelled then { w with remoteJobs := w.remoteJobs.erase job } else w

/-- `resolve_firmware_job_id`: the first correlation that matches. -/
def resolveFirmwareJobId (d : DashboardId) (jobId : String) : Option JobId :=
  (w.remoteJobs.items.find? fun e => e.2 = (d, jobId)).map (·.1)

/-- Has task `i` ended? -/
def isDone (i : ℕ) : Bool := w.tasks[i]? = some .ended

/-- `ExtractWindow.cancel`, with whether a live extract will honour it. -/
def cancelExtract (key : ExtractKey) : Bool × ReceiverWorld :=
  match w.extractIndex.get? key with
  | none => (false, w)
  | some i =>
    if w.isDone i then (false, w)
    else (true, { w with cancelRequested := if key ∈ w.cancelRequested then w.cancelRequested
      else w.cancelRequested ++ [key] })

/-- `handle_cancel_job` on session `n`, run by task `i`. -/
def handleCancelJob (i : ℕ) (n : SessionId) (d : DashboardId) : Option String → ReceiverWorld
  | none => w.setTask i (.session n .receive)
  | some jobId =>
    match w.resolveFirmwareJobId d jobId with
    | none =>
      match w.cancelExtract (d, jobId) with
      | (true, w) => (w.emit (.work n)).setTask i (.session n .receive)
      | (false, w) => w.setTask i (.session n .receive)
    | some job =>
      match w.cancelFirmware job with
      | (.awaiting, w) => (w.emit (.work n)).setTask i (.session n (.cancelJob job))
      | (_, w) => w.setTask i (.session n .receive)

end DeviceBuilder.ReceiverWorld
