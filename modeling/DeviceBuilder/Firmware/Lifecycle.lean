import DeviceBuilder.Firmware.RenameFlow

/-!
# Finalisation

`controllers/firmware/lifecycle.py` and the terminal-event listeners of the
controller. `finalizeTerminal` stamps a job terminal, releases its slot, fires
the event, then lands or cancels the jobs held on it. A cancelled dependent is
finalised by the same function: `depth` counts the nesting, and the number of
jobs in the table bounds it, since each level takes one queued job away.

* `beginRun`, `endRun`: the prologue and the tail of a run, up to their persists.
* `finalizeTerminal`, `releaseDependents`: finalisation and its cascade.
* `finalizeCancelled`, `finalizeUnexpectedError`, `failLocally`: how runs end.
-/

namespace DeviceBuilder


def remoteBuildErrorPrefix : String := "remote build: "

namespace World

/-- Fire a lifecycle event that carries the job as it is now. -/
def fire (w : World) (ev : FirmwareJob → Ev) (j : JobId) : World :=
  match w.fw.obj j with
  | none => w
  | some job => w.emit (ev job)

/-- `begin_run`, up to its persist. -/
def beginRun (w : World) (j : JobId) : World := (w.modifyJob j (·.markRunning)).fire .jobStarted j

/-- `end_run`, up to its persist. -/
def endRun (w : World) (j : JobId) : World :=
  if ((w.fw.obj j).map (·.isTerminal)).getD false then { w with fw := w.fw.pruneHistory } else w

/-- `_set_queued_update`. -/
def setQueuedUpdate (w : World) (configuration : Configuration) (isQueued : Bool) : World :=
  { w with
    devices := Function.update w.devices configuration
      ((w.devices configuration).map ({ · with queuedUpdate := isQueued })) }

def isOnline (w : World) (configuration : Configuration) : Bool :=
  decide ((w.devices configuration).map (·.state) = some .online)

/-- Start a command as an eager task of its own; what it raises is only logged. -/
def startCommand (r : World × Outcome) : World :=
  match r.2 with
  | .suspended fs => r.1.spawnTask (.command fs)
  | .returned => r.1
  | .raised e => r.1.emit (.commandError e)

/-- `_dispatch_queued_upload`. -/
def dispatchQueuedUpload (w : World) (configuration : Configuration) : World :=
  let j := w.fw.fresh
  let job : FirmwareJob :=
    { jobId := 0, configuration := configuration, jobType := .upload, port := otaPort }
  startCommand (((w.createJob job).emit (.wakeUpload j)).enqueue j)

/-- `_handle_device_wake`, on an ONLINE event. -/
def handleDeviceWake (w : World) (configuration : Configuration) : World :=
  if !((w.devices configuration).map (·.queuedUpdate)).getD false then w
  else if w.fw.activeJobs.any (fun job => job.isNetworkFlash && job.configuration = configuration)
  then w
  else w.dispatchQueuedUpload configuration

/-- `_arm_queued_update_if_flagged`. -/
def armQueuedUpdateIfFlagged (w : World) (job : FirmwareJob) : World :=
  if job.isQueuedUpdateArmed then w.setQueuedUpdate job.configuration true else w

/-- `_handle_deferred_compile_completion`. -/
def handleDeferredCompileCompletion (w : World) (job : FirmwareJob) : World :=
  if job.isDeferredCompileSuccess && w.isOnline job.configuration then
    w.dispatchQueuedUpload job.configuration
  else w

/-- `_handle_ota_upload_completion`. -/
def handleOtaUploadCompletion (w : World) (job : FirmwareJob) : World :=
  if job.isCompletedOtaUpload then w.setQueuedUpdate job.configuration false else w

/-- The controller's listeners of the terminal events. -/
def handleTerminal (w : World) (job : FirmwareJob) : World :=
  match job.status with
  | .completed =>
    ((w.armQueuedUpdateIfFlagged job).handleDeferredCompileCompletion job).handleOtaUploadCompletion
      job
  | .failed => w.armQueuedUpdateIfFlagged job
  | _ => w

/-- Fire the terminal event of a job and run its listeners. -/
def fireTerminal (w : World) (j : JobId) : World :=
  match w.fw.obj j with
  | none => w
  | some job => (w.emit (.jobTerminal job)).handleTerminal job

/-- `_defer_install_if_target_offline`. -/
def deferInstallIfTargetOffline (w : World) (j : JobId) : World :=
  match w.fw.obj j with
  | none => w
  | some job =>
    let converts : Bool :=
      if job.status = .completed && job.jobType = .compile then
        -- a compile converts only when it holds an OTA app upload
        (w.fw.dependents j).any (fun dep => dep.status = .queued && dep.isOtaAppUpload)
      else job.status = .failed && job.isOtaAppUpload
    if !job.isDeferredInstall && converts && w.targetIsOffline job.configuration then
      w.modifyJob j ({ · with isDeferredInstall := true })
    else w

/-- `finalize_terminal` up to the fire: the mark and the slot. -/
def stampTerminal (w : World) (j : JobId) (status : JobStatus) (error : Option String) : World :=
  let w := (w.modifyJob j (·.markTerminal status error)).deferInstallIfTargetOffline j
  { w with fw := w.fw.releaseLaneSlot j }

/-- One held job of `release_dependents`: cancelled with a message, or placed. -/
def releaseDependent (finalize : World → JobId → Option String → World) (prereq : FirmwareJob)
    (w : World) (dep : JobId) : World :=
  match w.fw.obj dep with
  | none => w
  | some job =>
    if job.status ≠ .queued then w
    else if prereq.status ≠ .completed then finalize w dep (some prerequisiteFailedError)
    else if prereq.isDeferredInstall then finalize w dep (some targetOfflineDeferredError)
    else w.placeOnLane dep

/-- `release_dependents`, with the finaliser of a cancelled dependent. -/
def releaseDependentsWith (finalize : World → JobId → Option String → World) (w : World)
    (j : JobId) : World :=
  match w.fw.obj j with
  | none => w
  | some prereq =>
    ((w.fw.dependents j).map (·.jobId)).foldl (releaseDependent finalize prereq) w

/-- `finalize_terminal`, with `depth` levels of cascade. -/
def finalizeWith : ℕ → World → JobId → JobStatus → Option String → World
  | 0, w, j, status, error => (w.stampTerminal j status error).fireTerminal j
  | depth + 1, w, j, status, error =>
    let w := (w.stampTerminal j status error).fireTerminal j
    let w := w.releaseDependentsWith (fun w dep error => finalizeWith depth w dep .cancelled error) j
    (w.onJobTerminal j).setGate

/-- `finalize_terminal`. -/
def finalizeTerminal (w : World) (j : JobId) (status : JobStatus) (error : Option String := none) :
    World :=
  finalizeWith (w.fw.jobs.length + 1) w j status error

/-- `release_dependents`. -/
def releaseDependents (w : World) (j : JobId) : World :=
  w.releaseDependentsWith (fun w dep error => w.finalizeTerminal dep .cancelled error) j

/-- What `release_dependents` returns: whether a dependent was acted on. -/
def actsOnDependents (w : World) (j : JobId) : Bool :=
  (w.fw.dependents j).any (fun dep => dep.status = .queued)

def isCancelRequested (w : World) (j : JobId) : Bool := decide (j ∈ w.fw.cancelRequested)

/-- `finalize_cancelled`. -/
def finalizeCancelled (w : World) (j : JobId) : World :=
  { w with
    fw := { w.fw with cancelRequested := KeyList.drop w.fw.cancelRequested j } }.finalizeTerminal j
      .cancelled

/-- A run that failed with `error`, unless a cancel was requested: the cancel wins
(`cancel_if_requested` before a failure, `finalize_unexpected_error`). -/
def finalizeFailed (w : World) (j : JobId) (error : String) : World :=
  if w.isCancelRequested j then w.finalizeCancelled j
  else w.finalizeTerminal j .failed (some error)

/-- `finalize_unexpected_error`. -/
def finalizeUnexpectedError (w : World) (j : JobId) (exc : String) : World := w.finalizeFailed j exc

/-- `_fail_locally`. -/
def failLocally (w : World) (j : JobId) (reason : String) : World :=
  w.finalizeFailed j (remoteBuildErrorPrefix ++ reason)

end World

end DeviceBuilder
