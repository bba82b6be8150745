import DeviceBuilder.Helpers.PeerLinkBundle
import DeviceBuilder.RemoteBuild.PairingStep

/-!
# Receiver sessions

What the receiver holds beside its pairings: the peer-link sessions and their
registry, the `submit_job` receiver (`_inflight` and the extract window), the
download slots, and the remote jobs of the firmware queue with the fan-out's
correlation of them.

A session object is its index in `sessions`, a coroutine its index in `tasks`;
neither list shrinks. Two fields are not in the source and are never read:
`PendingSubmit.openedBy` is the session whose header opened the upload,
`PeerLinkSession.unregistered` records that `unregister_peer_link_session` was
called on the session.

The firmware queue is reduced to its remote jobs and their statuses. What else it
decides (a rename lock, when a job runs and how it ends) is part of an action.
-/

namespace DeviceBuilder

abbrev SessionId := ℕ

structure PeerLinkSession where
  dashboardId : DashboardId
  identity : SessionIdentity
  closing : Bool := false
  unregistered : Bool := false
  deriving DecidableEq

/-! ### Frames -/

/-- A `submit_job` header that passed its schema. -/
structure SubmitJobFrame where
  jobId : String
  configurationFilename : String
  target : String
  totalBundleBytes : ℤ
  numChunks : ℤ
  bundleSha256 : String
  deriving DecidableEq

/-- A `submit_job_chunk` that passed its schema; `data` is `none` where `data_b64` does not decode. -/
structure SubmitJobChunkFrame where
  jobId : String
  chunkIndex : ℤ
  data : Option (List UInt8)
  isLast : Bool
  deriving DecidableEq

/-- An inbound application frame; `none` fails its schema. -/
inductive AppFrame
  | submitJob (safeJobId : String) (frame : Option SubmitJobFrame)
  | submitJobChunk (safeJobId : String) (frame : Option SubmitJobChunkFrame)
  | cancelJob (jobId : Option String)
  | downloadArtifacts (jobId : Option String)
  | resetBuildEnv (jobId : Option String)
  | ping
  | pong
  | terminate
  | unknown
  /-- Fails to decrypt or to parse. -/
  | malformed
  deriving DecidableEq

/-! ### The `submit_job` receiver -/

structure PendingSubmit where
  jobId : String
  configurationFilename : String
  target : String
  deviceStem : String
  assembler : BundleAssembler
  openedBy : SessionId
  deriving DecidableEq

/-- Keys of the extract window: dashboard id and remote job id. -/
abbrev ExtractKey := DashboardId × String

/-- Where a post-ack task waits. -/
inductive ExtractAwait
  /-- Created, not yet started. -/
  | start
  /-- The peer's lock. -/
  | lock
  /-- `async_import_module`. -/
  | importBundle
  /-- The write and the extract, in the executor. -/
  | extract
  /-- `_enqueue`, past `JOB_QUEUED` of this job. -/
  | enqueue (job : JobId)
  /-- `firmware.cancel` of this job. -/
  | cancelQueued (job : JobId)
  /-- The send of a terminal frame. -/
  | report
  deriving DecidableEq

/-- What a handler does once its frame is sent. -/
inductive AfterSend
  | loop
  | terminate
  /-- `_finalise_and_queue` past the accepted ack. -/
  | spawnExtract (pending : PendingSubmit)
  deriving DecidableEq

/-- Where the coroutine of a session waits. -/
inductive SessionAwait
  /-- The superseded session's `terminate`. -/
  | register
  /-- The next message. -/
  | receive
  /-- The executor hop of `_resolve_device_stem`. -/
  | resolve (frame : SubmitJobFrame) (deviceStem : String)
  | send (next : AfterSend)
  /-- Its own `terminate`; then leave the receive loop, or go on with it. -/
  | terminate (leave : Bool)
  /-- `firmware.cancel` of this job. -/
  | cancelJob (job : JobId)
  /-- `_enqueue` of a reset job, past its `JOB_QUEUED`. -/
  | enqueueReset (job : JobId) (jobId : String)
  /-- The `finally` of the session: the heartbeat task. -/
  | finish
  deriving DecidableEq

inductive ReceiverTask
  /-- A handshake whose `peer_link` was answered OK, in `_send_response`. -/
  | handshake (dashboardId : DashboardId) (identity : SessionIdentity)
  | session (n : SessionId) (await : SessionAwait)
  | extract (key : ExtractKey) (n : SessionId) (pending : PendingSubmit) (await : ExtractAwait)
  | download (dashboardId : DashboardId)
  | ended
  deriving DecidableEq

/-! ### Firmware jobs of peers -/

structure RemotePeerJob where
  remotePeer : DashboardId
  remoteJobId : String
  jobType : JobType
  status : JobStatus := .queued
  cancelRequested : Bool := false
  deriving DecidableEq

/-! ### Events -/

inductive ReceiverEvent
  /-- `RECEIVER_PEER_LINK_SESSION_OPENED`. -/
  | opened (dashboardId : DashboardId) (friendlyName : String) (haAddon : Bool)
  /-- `RECEIVER_PEER_LINK_SESSION_CLOSED`. -/
  | closed (dashboardId : DashboardId)
  /-- `submit_job_ack` with `accepted` false. -/
  | rejected (n : SessionId) (jobId reason : String)
  /-- `submit_job_ack` with `accepted` true. -/
  | accepted (n : SessionId) (jobId : String)
  /-- A terminal `job_state_changed` of the post-ack task. -/
  | terminalState (n : SessionId) (jobId : String) (status : JobStatus)
  /-- A firmware job was put in the queue. -/
  | jobQueued (job : JobId) (key : ExtractKey)
  /-- Work started or continued for a frame of session `n`. -/
  | work (n : SessionId)
  deriving DecidableEq

structure ReceiverWorld where
  pairing : PairingState := {}
  sessions : List PeerLinkSession := []
  peerLinkSessions : Dict DashboardId SessionId := ∅
  inflight : Dict DashboardId PendingSubmit := ∅
  extractIndex : Dict ExtractKey ℕ := ∅
  cancelRequested : List ExtractKey := []
  /-- Holder first, then the waiters in order. -/
  extractLocks : Dict DashboardId (List ℕ) := ∅
  extractsStopped : Bool := false
  downloads : Dict DashboardId ℕ := ∅
  jobs : Dict JobId RemotePeerJob := ∅
  nextJob : JobId := 0
  remoteJobs : Dict JobId ExtractKey := ∅
  tasks : List ReceiverTask := []
  log : List ReceiverEvent := []

namespace ReceiverWorld

variable (w : ReceiverWorld)

def emit (e : ReceiverEvent) : ReceiverWorld := { w with log := w.log ++ [e] }

def setTask (i : ℕ) (t : ReceiverTask) : ReceiverWorld := { w with tasks := w.tasks.set i t }

def spawn (t : ReceiverTask) : ReceiverWorld := { w with tasks := w.tasks ++ [t] }

/-- The dashboard id of session `n`. -/
def dashboardId (n : SessionId) : Option DashboardId := (w.sessions[n]?).map (·.dashboardId)

/-- Has `terminate` been called on session `n`? -/
def isClosing (n : SessionId) : Bool := (w.sessions[n]?).any (·.closing)

/-- Has session `n` been unregistered? -/
def isUnregistered (n : SessionId) : Bool := (w.sessions[n]?).any (·.unregistered)

/-- Flip the close decision of session `n`. -/
def setClosing (n : SessionId) : ReceiverWorld :=
  { w with sessions := w.sessions.modify n fun s => { s with closing := true } }

/-- `send_app_frame` on session `n`: the frame goes out unless the session is closing. -/
def sendAppFrame (n : SessionId) (e : ReceiverEvent) : ReceiverWorld :=
  if w.isClosing n then w else w.emit e

end ReceiverWorld

end DeviceBuilder
