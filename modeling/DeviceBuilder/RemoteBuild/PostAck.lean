import DeviceBuilder.RemoteBuild.SubmitJob

/-!
# The post-ack task

`submit_job/_post_ack.py` and the extract window: one task for each accepted
bundle, serialised per peer by a FIFO lock. A `cancel_job` is a flag it looks at
before each stage; once the job is in the firmware queue the flag goes through
`firmware.cancel`, and a task that gives up reports one terminal frame.
-/

namespace DeviceBuilder

/-- How an await ends. -/
inductive AwaitResult
  | ok
  /-- The awaited call succeeds and `check_rename_lock` then rejects the job. -/
  | locked
  /-- `PathEscapeError`. -/
  | pathEscape
  /-- Any other `Exception`. -/
  | exception
  /-- `CancelledError`. -/
  | cancelled
  deriving DecidableEq

namespace ReceiverWorld

theorem lawfulBEq_extractKey : LawfulBEq ExtractKey := inferInstance

attribute [local instance] lawfulBEq_extractKey

variable (w : ReceiverWorld) (i : ℕ) (key : ExtractKey) (n : SessionId) (pending : PendingSubmit)

/-- `ExtractWindow.consume`, after which no flag of `key` is left. -/
def consume : Bool × ReceiverWorld :=
  (key ∈ w.cancelRequested, { w with cancelRequested := w.cancelRequested.filter (· ≠ key) })

/-- `ExtractWindow.handoff`. -/
def handoff : ReceiverWorld := { w with extractIndex := w.extractIndex.erase key }

/-- The lock's queue of a peer. -/
def lockQueue (d : DashboardId) : List ℕ := (w.extractLocks.get? d).getD []

/-- Leave the lock, or its queue. -/
def releaseLock (d : DashboardId) : ReceiverWorld :=
  { w with extractLocks := w.extractLocks.set d ((w.lockQueue d).filter (· ≠ i)) }

/-- The task ends: its `finally` consumes a last flag. -/
def endExtract : ReceiverWorld := (w.consume key).2.setTask i .ended

/-- `send_terminal_state`, up to the send. -/
def reportTerminal (status : JobStatus) : ReceiverWorld :=
  (w.sendAppFrame n (.terminalState n pending.jobId status)).setTask i (.extract key n pending .report)

/-- Leave the lock and report: `report_post_ack_failure` or `send_job_cancelled`. -/
def giveUp (status : JobStatus) : ReceiverWorld := (w.releaseLock i key.1).reportTerminal i key n pending status

/-- `extract_and_queue`, with the lock held, up to the import of `esphome.bundle`. -/
def extractAndQueue : ReceiverWorld :=
  match w.consume key with
  | (true, w) => w.giveUp i key n pending .cancelled
  | (false, w) => w.setTask i (.extract key n pending .importBundle)

/-- `run_post_ack_extract`, up to its first await. -/
def runPostAckExtract : ReceiverWorld :=
  match w.consume key with
  | (true, w) => w.reportTerminal i key n pending .cancelled
  | (false, w) =>
    let queue := w.lockQueue key.1
    let w : ReceiverWorld := { w with extractLocks := w.extractLocks.set key.1 (queue ++ [i]) }
    if queue = [] then w.extractAndQueue i key n pending
    else w.setTask i (.extract key n pending .lock)

/-- The part past the executor hop: create the job and put it in the queue. -/
def queueExtracted (locked : Bool) : ReceiverWorld :=
  match w.consume key with
  | (true, w) => w.giveUp i key n pending .cancelled
  | (false, w) =>
    match targetToJobType pending.target with
    | none => w.giveUp i key n pending .failed
    | some jobType =>
      if locked then w.giveUp i key n pending .failed
      else
        let (job, w) := w.enqueueJob key jobType
        w.setTask i (.extract key n pending (.enqueue job))

/-- The part past `_enqueue`: hand over to the fan-out, and route a flagged cancel to the queue. -/
def handOver (job : JobId) : ReceiverWorld :=
  match ((w.releaseLock i key.1).handoff key).consume key with
  | (false, w) => w.setTask i .ended
  | (true, w) =>
    match w.cancelFirmware job with
    | (.awaiting, w) => w.setTask i (.extract key n pending (.cancelQueued job))
    | (.terminal, w) => w.setTask i .ended
    | (.notFound, w) => w.reportTerminal i key n pending .cancelled

/-- The post-ack task runs on from its await. -/
def resumeExtract : ExtractAwait → AwaitResult → ReceiverWorld
  | .start, .cancelled => w.setTask i .ended
  | .start, _ => w.runPostAckExtract i key n pending
  | .lock, .cancelled => (w.releaseLock i key.1).endExtract i key
  | .lock, _ => if (w.lockQueue key.1).head? = some i then w.extractAndQueue i key n pending else w
  | .importBundle, .cancelled => (w.releaseLock i key.1).endExtract i key
  | .importBundle, .exception => w.giveUp i key n pending .failed
  | .importBundle, _ => w.setTask i (.extract key n pending .extract)
  | .extract, .cancelled => (w.releaseLock i key.1).endExtract i key
  | .extract, .pathEscape | .extract, .exception => w.giveUp i key n pending .failed
  | .extract, r => w.queueExtracted i key n pending (r = .locked)
  | .enqueue _, .cancelled => (w.releaseLock i key.1).endExtract i key
  | .enqueue _, .exception => w.giveUp i key n pending .failed
  | .enqueue job, _ => w.handOver i key n pending job
  | .cancelQueued job, .ok => (w.cancelFirmwareDone job).endExtract i key
  | .cancelQueued _, _ => w.endExtract i key
  | .report, _ => w.endExtract i key

end ReceiverWorld

end DeviceBuilder
