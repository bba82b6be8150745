import DeviceBuilder.Lib.Dict
import DeviceBuilder.Lib.Runs
import DeviceBuilder.Properties.BundleAssembler
import DeviceBuilder.RemoteBuild.ReceiverState

/-!
# Downloading build artifacts

The receiver's `ArtifactsDownloadSender` (`artifacts_download.py`, with the
`TaskWindow` of its tasks) streams a packed build over a peer-link session; the
offloader's `download_artifacts` (`peer_link_client/_submit.py`) waits for what
the receive loop of its session puts together (`peer_link_client/_dispatch.py`).

A session is a number, used once. The frames that the receiver has put on a
session are kept as a list, `seen` of them the offloader has read; the requests
of the other direction are a queue. A send awaits: its frame goes out in a step
of its own, or never, and the await then gives what `send_frame` returns.

* `Transfer.step`: one step of either party, or of the world outside.
-/

namespace DeviceBuilder

/-- `FIRMWARE_MAX_TOTAL_BYTES`. -/
def firmwareMaxTotalBytes : ℤ := 256 * 1024 * 1024

/-- `BUNDLE_CHUNK_SIZE_BYTES`. -/
def bundleChunkSizeBytes : ℕ := 32 * 1024

structure PackedArtifacts where
  tarball : List UInt8
  firmwareOffset : String
  deriving DecidableEq

structure DownloadArtifactsResult where
  tarball : List UInt8
  firmwareOffset : String
  deriving DecidableEq

/-- What `download_artifacts` raises, with the reason of a `DownloadArtifactsError`. -/
inductive DownloadArtifactsError
  | invalidStartHeader (code : BundleAssemblerErrorCode)
  | assembler (code : BundleAssemblerErrorCode)
  | missingStart
  | rejected (reason detail : String)
  | sessionLost
  deriving DecidableEq

/-- The frames of a download that passed their schema; `data` is the text of a chunk. -/
inductive ArtifactsFrame (τ : Type*)
  | artifactsStart (jobId : String) (totalBytes numChunks : ℤ) (artifactsSha256 firmwareOffset : String)
  | artifactsChunk (jobId : String) (chunkIndex : ℤ) (data : τ) (isLast : Bool)
  | artifactsEnd (jobId : String) (accepted : Bool) (reason detail : String)

/-- `detail[:_MAX_REJECT_DETAIL]`, on both sides. -/
def capDetail (detail : String) : String := String.ofList (detail.toList.take 256)

/-! ### The offloader's end -/

structure DownloadArtifactsState where
  future : Option (Except DownloadArtifactsError DownloadArtifactsResult) := none
  assembler : Option BundleAssembler := none
  firmwareOffset : String := ""

namespace DownloadArtifactsState

variable {τ : Type*} (digest : Digest) (codec : ChunkCodec τ) (s : DownloadArtifactsState)

/-- `set_exception`, of a future that is not done. -/
def fail (e : DownloadArtifactsError) : DownloadArtifactsState :=
  if s.future.isSome then s else { s with future := some (.error e) }

/-- `dispatch_artifacts_start`. -/
def dispatchArtifactsStart (totalBytes numChunks : ℤ) (artifactsSha256 firmwareOffset : String) :
    DownloadArtifactsState :=
  match BundleAssembler.create totalBytes numChunks (digest.lower artifactsSha256) firmwareMaxTotalBytes with
  | .error code => s.fail (.invalidStartHeader code)
  | .ok a => { s with assembler := some a, firmwareOffset := firmwareOffset }

/-- `dispatch_artifacts_chunk`. -/
def dispatchArtifactsChunk (chunkIndex : ℤ) (data : τ) (isLast : Bool) : DownloadArtifactsState :=
  match s.assembler with
  | none => s
  | some a =>
    match codec.decode data with
    | none => s.fail (.assembler .outOfOrder)
    | some raw =>
      match a.feed chunkIndex raw isLast with
      | (none, a) => { s with assembler := some a }
      | (some code, a) => { s with assembler := some a }.fail (.assembler code)

/-- `dispatch_artifacts_end`. -/
def dispatchArtifactsEnd (accepted : Bool) (reason detail : String) : DownloadArtifactsState :=
  if s.future.isSome then s
  else if !accepted then s.fail (.rejected reason (capDetail detail))
  else
    match s.assembler with
    | none => s.fail .missingStart
    | some a =>
      match a.finalise digest.hex with
      | (.error code, a) => { s with assembler := some a }.fail (.assembler code)
      | (.ok tarball, a) =>
        { s with assembler := some a, future := some (.ok ⟨tarball, s.firmwareOffset⟩) }

end DownloadArtifactsState

namespace ArtifactsFrame

variable {τ : Type*} (digest : Digest) (codec : ChunkCodec τ)

def jobId : ArtifactsFrame τ → String
  | artifactsStart j .. | artifactsChunk j .. | artifactsEnd j .. => j

/-- The receive loop's handler of a frame, on the entry of its job. -/
def dispatch (s : DownloadArtifactsState) : ArtifactsFrame τ → DownloadArtifactsState
  | artifactsStart _ totalBytes numChunks hex offset =>
    s.dispatchArtifactsStart digest totalBytes numChunks hex offset
  | artifactsChunk _ index data isLast => s.dispatchArtifactsChunk codec index data isLast
  | artifactsEnd _ accepted reason detail => s.dispatchArtifactsEnd digest accepted reason detail

end ArtifactsFrame

/-- Where a `download_artifacts` call stands. -/
inductive DownloadCallPoint
  /-- Awaiting the send of its request; has the frame gone out? -/
  | requesting (out : Bool)
  | waiting
  | returned (r : Except DownloadArtifactsError DownloadArtifactsResult)
  /-- Cancelled. -/
  | cancelled

structure DownloadCall where
  jobId : String
  session : SessionId
  point : DownloadCallPoint := .requesting false

/-! ### The receiver's end -/

/-- Where a `_run_download` task stands. -/
inductive DownloadPoint (τ : Type*)
  /-- The task has not run yet. -/
  | created
  | pack
  /-- Awaiting the send of the first of the frames; has it gone out? -/
  | send (frames : List (ArtifactsFrame τ × String)) (out : Bool)
  /-- Awaiting the send of a reject. -/
  | reject (reason detail : String) (out : Bool)
  | ended

def DownloadPoint.isEnded {τ : Type*} : DownloadPoint τ → Bool
  | .ended => true
  | _ => false

structure DownloadTask (τ : Type*) where
  session : SessionId
  jobId : String
  configuration : Configuration
  point : DownloadPoint τ := .created
  /-- `task.cancel()` was called. -/
  cancelled : Bool := false

/-- Where the receive loop of a session stands. -/
inductive SessionLoop
  | receive
  | reject (jobId reason : String) (out : Bool)
  | ended

structure DownloadSession (τ : Type*) where
  dashboardId : DashboardId := ""
  opened : Bool := false
  /-- The offloader of the model is at the other end. -/
  mine : Bool := false
  closing : Bool := false
  loop : SessionLoop := .receive
  /-- The `download_artifacts` requests on their way; `none` fails its schema. -/
  requests : List (Option String) := []
  sent : List (ArtifactsFrame τ) := []
  seen : ℕ := 0
  /-- A send on it gave `False`. -/
  broken : Bool := false

/-- What the firmware controller says of a request's job. -/
inductive JobVerdict
  | unknown
  | notCompleted
  /-- A `RESET_BUILD_ENV` job is active. -/
  | resetting
  | completed (configuration : Configuration)

/-- How `pack_build_artifacts` ends. -/
inductive PackResult
  | packed (packed : PackedArtifacts)
  /-- `FileNotFoundError`. -/
  | missing (detail : String)
  | failed (detail : String)

/-- `_send_stream`: the frames of a download, each with the name its send has in a failure. -/
def streamFrames {τ : Type*} (digest : Digest) (codec : ChunkCodec τ) (jobId : String) (packed : PackedArtifacts) :
    List (ArtifactsFrame τ × String) :=
  let totalBytes := packed.tarball.length
  let numChunks := (totalBytes + bundleChunkSizeBytes - 1) / bundleChunkSizeBytes
  let chunks := chunkBundleIter bundleChunkSizeBytes 0 packed.tarball
  (.artifactsStart jobId totalBytes numChunks (digest.hex packed.tarball) packed.firmwareOffset, "start") ::
    chunks.map (fun c => (.artifactsChunk jobId c.1 (codec.encode c.2.1) c.2.2,
      "chunk " ++ toString (c.1 + 1) ++ "/" ++ toString numChunks)) ++
    [(.artifactsEnd jobId true "" "", "end")]

structure Transfer (τ : Type*) where
  session : SessionId → DownloadSession τ := fun _ => {}
  /-- The receiver's registry of sessions. -/
  registry : Dict DashboardId SessionId := ∅
  tasks : List (DownloadTask τ) := []
  inflight : Dict DashboardId ℕ := ∅
  stopped : Bool := false
  /-- The offloader's live session. -/
  channel : Option SessionId := none
  downloads : Dict String DownloadArtifactsState := ∅
  calls : List DownloadCall := []
  /-- Not in the source: what was packed for which job of which session. -/
  packs : List (SessionId × String × PackedArtifacts) := []

/-- One step. -/
inductive TransferAction
  /-- The offloader's client opens session `n`; another offloader does. -/
  | connect (n : SessionId) (d : DashboardId)
  | connectOther (n : SessionId) (d : DashboardId)
  /-- A peer other than the modelled offloader sends a request. -/
  | requestOther (n : SessionId) (jobId : Option String)
  /-- The receive loop of session `n` takes the next request. -/
  | handle (n : SessionId) (verdict : JobVerdict)
  /-- The frame of its reject goes out, the send's await ends. -/
  | rejectOut (n : SessionId)
  | rejectSent (n : SessionId) (ok : Bool)
  /-- The receiver terminates session `n`; its receive loop ends, and the session unregisters. -/
  | terminate (n : SessionId)
  | endLoop (n : SessionId)
  /-- The frame task `i` sends goes out, the send's await ends; it raises an `Exception`. -/
  | out (i : ℕ)
  | sent (i : ℕ) (ok : Bool)
  | sendRaises (i : ℕ) (detail : String)
  /-- Task `i` runs its first segment; its pack ends. -/
  | begin (i : ℕ)
  | packed (i : ℕ) (result : PackResult)
  /-- `CancelledError` at the await of task `i`. -/
  | cancelled (i : ℕ)
  | stop
  | stopDrained
  /-- `download_artifacts` is called; its request goes out; the send's await ends. -/
  | call (jobId : String)
  | requestOut (c : ℕ)
  | requestSent (c : ℕ) (ok : Bool)
  /-- The offloader's receive loop takes the next frame. -/
  | deliver
  | disconnect
  /-- Call `c` resumes with its future done; it is cancelled. -/
  | finishCall (c : ℕ)
  | cancelCall (c : ℕ)

namespace Transfer

variable {τ : Type*} (digest : Digest) (codec : ChunkCodec τ) (w : Transfer τ)

def modifySession (n : SessionId) (f : DownloadSession τ → DownloadSession τ) : Transfer τ :=
  { w with session := Function.update w.session n (f (w.session n)) }

/-- Frame `f` goes onto the wire of session `n`. -/
def emit (n : SessionId) (f : ArtifactsFrame τ) : Transfer τ :=
  w.modifySession n fun s => { s with sent := s.sent ++ [f] }

def setBroken (n : SessionId) : Transfer τ := w.modifySession n fun s => { s with broken := true }

def setLoop (n : SessionId) (loop : SessionLoop) : Transfer τ := w.modifySession n fun s => { s with loop := loop }

def setPoint (i : ℕ) (point : DownloadPoint τ) : Transfer τ :=
  { w with tasks := w.tasks.modify i fun t => { t with point := point } }

def setCall (c : ℕ) (point : DownloadCallPoint) : Transfer τ :=
  { w with calls := w.calls.modify c fun call => { call with point := point } }

/-! #### Sessions -/

/-- `register_peer_link_session`: the session it supersedes is terminated. -/
def register (n : SessionId) (d : DashboardId) (mine : Bool) : Transfer τ :=
  let existing := w.registry.get? d
  let w := { w with registry := w.registry.set d n }.modifySession n fun s =>
    { s with dashboardId := d, opened := true, mine := mine }
  match existing with
  | none => w
  | some m => w.modifySession m fun s => { s with closing := true }

/-- `discard_session`. -/
def discardSession (d : DashboardId) : Transfer τ :=
  match w.inflight.get? d with
  | none => w
  | some i =>
    { w with inflight := w.inflight.erase d, tasks := w.tasks.modify i fun t => { t with cancelled := true } }

/-- The receive loop of a session ends, and `unregister_peer_link_session`. -/
def endLoop (n : SessionId) : Transfer τ :=
  let d := (w.session n).dashboardId
  let w := w.setLoop n .ended
  if w.registry.get? d = some n then { w with registry := w.registry.erase d }.discardSession d else w

/-! #### The sender -/

/-- `_send_reject` from the receive loop. A closing session sends nothing. -/
def rejectRequest (n : SessionId) (jobId reason : String) : Transfer τ :=
  if (w.session n).closing then w.setLoop n .receive else w.setLoop n (.reject jobId reason false)

/-- `handle_download_artifacts`. -/
def handleDownloadArtifacts (n : SessionId) (request : Option String) (verdict : JobVerdict) : Transfer τ :=
  match request with
  | none => w.modifySession n fun s => { s with closing := true }
  | some jobId =>
    let d := (w.session n).dashboardId
    if (w.inflight.get? d).isSome then w.rejectRequest n jobId "duplicate_download"
    else
      match verdict with
      | .unknown => w.rejectRequest n jobId "unknown_job"
      | .notCompleted => w.rejectRequest n jobId "job_not_completed"
      | .resetting => w.rejectRequest n jobId "busy"
      | .completed configuration =>
        if w.stopped then w.rejectRequest n jobId "shutting_down"
        else { w with
          tasks := w.tasks ++ [{ session := n, jobId := jobId, configuration := configuration }]
          inflight := w.inflight.set d w.tasks.length }

/-- The `finally` of `_run_download`: the slot is freed only where it is the task's own. -/
def finishDownload (i : ℕ) (n : SessionId) : Transfer τ :=
  let d := (w.session n).dashboardId
  let w := w.setPoint i .ended
  if w.inflight.get? d = some i then { w with inflight := w.inflight.erase d } else w

/-- `_send_reject` from task `i` on session `n`. -/
def rejectDownload (i : ℕ) (n : SessionId) (reason detail : String) : Transfer τ :=
  if (w.session n).closing then w.finishDownload i n else w.setPoint i (.reject reason (capDetail detail) false)

/-- `_send_stream` from the first of `frames` on. -/
def sendStream (i : ℕ) (n : SessionId) : List (ArtifactsFrame τ × String) → Transfer τ
  | [] => w.finishDownload i n
  | (f, label) :: frames =>
    if (w.session n).closing then w.rejectDownload i n "stream_failed" ("send failed at " ++ label)
    else w.setPoint i (.send ((f, label) :: frames) false)

/-- Past the send of the first of `frames`. -/
def resumeSend (i : ℕ) (n : SessionId) (frames : List (ArtifactsFrame τ × String)) (ok : Bool) : Transfer τ :=
  match frames with
  | [] => w.finishDownload i n
  | (_, label) :: frames =>
    if ok then w.sendStream i n frames
    else (w.setBroken n).rejectDownload i n "stream_failed" ("send failed at " ++ label)

/-- `_pack_or_reject`, past the executor. -/
def resumePack (i : ℕ) (n : SessionId) (jobId : String) : PackResult → Transfer τ
  | .packed packed =>
    { w with packs := w.packs ++ [(n, jobId, packed)] }.sendStream i n (streamFrames digest codec jobId packed)
  | .missing detail => w.rejectDownload i n "build_dir_missing" detail
  | .failed detail => w.rejectDownload i n "pack_failed" detail

/-- A task's step that is not its cancellation. -/
def resumeDownload (i : ℕ) (t : DownloadTask τ) (a : TransferAction) : Transfer τ :=
  match a, t.point with
  | .begin _, .created => w.setPoint i .pack
  | .packed _ result, .pack => w.resumePack digest codec i t.session t.jobId result
  | .out _, .send ((f, label) :: frames) false => (w.emit t.session f).setPoint i (.send ((f, label) :: frames) true)
  | .out _, .reject reason detail false =>
    (w.emit t.session (.artifactsEnd t.jobId false reason detail)).setPoint i (.reject reason detail true)
  -- a send that gives `True` has sent its frame
  | .sent _ ok, .send frames out => if ok && !out then w else w.resumeSend i t.session frames ok
  | .sent _ ok, .reject _ _ out =>
    if ok && !out then w else (if ok then w else w.setBroken t.session).finishDownload i t.session
  | .sendRaises _ detail, .send _ _ => w.rejectDownload i t.session "stream_failed" detail
  | _, _ => w

/-- `CancelledError`; a task that has not run yet ends without its `finally`. -/
def cancelDownload (i : ℕ) (t : DownloadTask τ) : Transfer τ :=
  match t.point with
  | .created => w.setPoint i .ended
  | .ended => w
  | _ => w.finishDownload i t.session

/-- A step of task `i`. The frame of a send may still go out once the task is cancelled. -/
def stepTask (i : ℕ) (a : TransferAction) : Transfer τ :=
  match w.tasks[i]? with
  | none => w
  | some t =>
    match a with
    | .cancelled _ => if t.cancelled then w.cancelDownload i t else w
    | .out _ => w.resumeDownload digest codec i t a
    | _ => if t.cancelled then w else w.resumeDownload digest codec i t a

/-! #### The offloader -/

/-- `download_artifacts`, up to the send of its request. -/
def downloadArtifacts (jobId : String) : Transfer τ :=
  match w.channel with
  | none => w
  | some n =>
    if (w.downloads.get? jobId).isSome then w
    else { w with
      downloads := w.downloads.set jobId {}
      calls := w.calls ++ [{ jobId := jobId, session := n }] }

/-- The call ends: its `finally` pops the entry. -/
def endCall (c : ℕ) (jobId : String) (point : DownloadCallPoint) : Transfer τ :=
  ({ w with downloads := w.downloads.erase jobId }).setCall c point

/-- A step of call `c`. -/
def stepCall (c : ℕ) (a : TransferAction) : Transfer τ :=
  match w.calls[c]? with
  | none => w
  | some call =>
    match a, call.point with
    | .requestOut _, .requesting false =>
      (w.modifySession call.session fun s => { s with requests := s.requests ++ [some call.jobId] }).setCall c
        (.requesting true)
    | .requestSent _ true, .requesting true => w.setCall c .waiting
    | .requestSent _ false, .requesting _ =>
      (w.setBroken call.session).endCall c call.jobId (.returned (.error .sessionLost))
    | .finishCall _, .waiting =>
      match (w.downloads.get? call.jobId).bind (·.future) with
      | none => w
      | some r => w.endCall c call.jobId (.returned r)
    | .cancelCall _, .requesting _ | .cancelCall _, .waiting => w.endCall c call.jobId .cancelled
    | _, _ => w

/-- The receive loop takes the next frame of its session. -/
def deliver : Transfer τ :=
  match w.channel with
  | none => w
  | some n =>
    match (w.session n).sent[(w.session n).seen]? with
    | none => w
    | some f =>
      { w.modifySession n fun s => { s with seen := s.seen + 1 } with
        downloads := w.downloads.adjust f.jobId fun s => f.dispatch digest codec s }

/-- The session ends: `_drain_pending`. -/
def disconnect : Transfer τ :=
  { w with
    channel := none
    downloads := w.downloads.mapValues fun s => s.fail .sessionLost }

def step (w : Transfer τ) : TransferAction → Transfer τ
  | .connect n d =>
    if w.channel = none ∧ (w.session n).opened = false then { w.register n d true with channel := some n } else w
  | .connectOther n d => if (w.session n).opened then w else w.register n d false
  | .requestOther n jobId =>
    if (w.session n).opened ∧ (w.session n).mine = false then
      w.modifySession n fun s => { s with requests := s.requests ++ [jobId] }
    else w
  | .handle n verdict =>
    match (w.session n).opened, (w.session n).loop, (w.session n).requests with
    | true, .receive, request :: requests =>
      (w.modifySession n fun s => { s with requests := requests }).handleDownloadArtifacts n request verdict
    | _, _, _ => w
  | .rejectOut n =>
    match (w.session n).loop with
    | .reject jobId reason false =>
      (w.emit n (.artifactsEnd jobId false reason "")).setLoop n (.reject jobId reason true)
    | _ => w
  | .rejectSent n ok =>
    match (w.session n).loop with
    | .reject _ _ out => if ok && !out then w else (if ok then w else w.setBroken n).setLoop n .receive
    | _ => w
  | .terminate n => w.modifySession n fun s => { s with closing := true }
  | .endLoop n => if (w.session n).opened then w.endLoop n else w
  | .out i => w.stepTask digest codec i (.out i)
  | .sent i ok => w.stepTask digest codec i (.sent i ok)
  | .sendRaises i detail => w.stepTask digest codec i (.sendRaises i detail)
  | .begin i => w.stepTask digest codec i (.begin i)
  | .packed i result => w.stepTask digest codec i (.packed i result)
  | .cancelled i => w.stepTask digest codec i (.cancelled i)
  | .stop => { w with stopped := true, tasks := w.tasks.map fun t => { t with cancelled := true } }
  | .stopDrained =>
    if w.stopped && w.tasks.all (·.point.isEnded) then { w with inflight := ∅ } else w
  | .call jobId => w.downloadArtifacts jobId
  | .requestOut c => w.stepCall c (.requestOut c)
  | .requestSent c ok => w.stepCall c (.requestSent c ok)
  | .deliver => w.deliver digest codec
  | .disconnect => w.disconnect
  | .finishCall c => w.stepCall c (.finishCall c)
  | .cancelCall c => w.stepCall c (.cancelCall c)

end Transfer

end DeviceBuilder
