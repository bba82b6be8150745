import DeviceBuilder.Firmware.Lifecycle

/-!
# Running a job on a paired server

`run_remote_job` of `controllers/firmware/remote_runner.py`, section by section:
the bundle, the submit, the wait for the receiver's terminal frame, the download
of the artifacts and, for a job that flashes, a local upload. Each section is
resumed with an `Input`, what the world outside answered, and ends suspended at
the next await, returned (the job is finalised), or raising one of the two
errors by which the dispatch pool (`retry`) re-routes a job.
-/

namespace DeviceBuilder

/-- The terminal statuses of a receiver's `job_state_changed` frame. -/
inductive WireStatus
  | completed
  | failed
  | cancelled
  deriving DecidableEq, Repr

/-- What an await gives its task. -/
inductive Input
  | ok
  /-- The awaited call failed in a way its caller handles; `reason` is the text it reports. -/
  | fail (reason : String)
  /-- The subprocess ended; its output held an error, the error being a missing `esphome`. -/
  | exit (code : Int) (hasErrorInOutput sawNoEsphomeModule : Bool)
  /-- `provision` raised `EnvProvisionError`. -/
  | envProvisionError (exc : String)
  /-- The receiver's terminal frame. -/
  | frame (status : WireStatus) (failureReason : JobFailureReason) (errorMessage : String)
  /-- The peer-link session of the job closed. -/
  | sessionLost (text : String)
  /-- The cancel event of the job was set. -/
  | cancelEvent
  /-- The resolved address of a device. -/
  | address (address : String)
  deriving DecidableEq, Repr

/-- How a section of `run_remote_job` ended. -/
inductive RemoteOutcome
  | suspended (pt : RemotePoint)
  | returned
  /-- `RemoteServerLostError` -/
  | serverLost (text : String)
  /-- `ProvisionUnavailableError` -/
  | provisionUnavailable (text : String)
  deriving DecidableEq, Repr

def noArtifactJobTypes : List JobType := [.clean, .resetBuildEnv, .analyzeMemory]

/-- The types `run_remote_job` takes. -/
def remoteJobTypes : List JobType :=
  [.compile, .upload, .install, .clean, .resetBuildEnv, .analyzeMemory]

namespace World

def exitCode (w : World) (j : JobId) (code : Int) : World := w.modifyJob j ({ · with exitCode := some code })

/-- `_finalize_success`. -/
def finalizeSuccess (w : World) (j : JobId) : World := w.finalizeTerminal j .completed

/-- `_open_peer_link_client_or_fail`, then the request to the receiver. -/
def openClientAndSend (w : World) (j : JobId) : Input → World × RemoteOutcome
  | .fail reason => (w.failLocally j reason, .returned)
  | _ =>
    match w.offloader with
    | none => (w.failLocally j "controller not initialised", .returned)
    | some _ => (w, .suspended .submit)

/-- `run_remote_job`, up to its first await. -/
def remoteStart (w : World) (j : JobId) (input : Input) : World × RemoteOutcome :=
  match w.fw.obj j with
  | none => (w, .returned)
  | some job =>
    if job.jobType ∉ remoteJobTypes then
      (w.failLocally j ("unsupported job_type 'rename' " ++
        "(COMPILE/UPLOAD/INSTALL/CLEAN/RESET_BUILD_ENV/ANALYZE_MEMORY only)"), .returned)
    else if job.sourcePin = "" then (w.failLocally j "missing source_pin_sha256", .returned)
    -- a full reset carries no YAML, so there is no bundle to build
    else if job.jobType = .resetBuildEnv then w.openClientAndSend j input
    else (w, .suspended .bundle)

/-- `_send_cancel_or_finalise`, up to its await. -/
def sendCancel (w : World) (j : JobId) : World × RemoteOutcome :=
  match w.offloader with
  | none => (w.finalizeCancelled j, .returned)
  | some _ => (w, .suspended .sendCancel)

/-- `_finalise_after_receiver_completed`, up to its first await. -/
def finaliseAfterReceiverCompleted (w : World) (j : JobId) (jobType : JobType) :
    World × RemoteOutcome :=
  if jobType ∈ noArtifactJobTypes then ((w.exitCode j 0).finalizeSuccess j, .returned)
  else (w, .suspended .download)

/-- `_await_terminal` once `terminal` is done, and what `_dispatch_and_drive` does after it. -/
def onTerminalFrame (w : World) (j : JobId) (retry : Bool) (jobType : JobType)
    (status : WireStatus) (failureReason : JobFailureReason) (errorMessage : String) :
    World × RemoteOutcome :=
  -- the user's cancel beats the frame
  if w.isCancelRequested j then (w.finalizeCancelled j, .returned)
  else match status with
    | .cancelled => (w.finalizeCancelled j, .returned)
    | .failed =>
      if failureReason = .provision ∧ retry then
        (w, .provisionUnavailable (if errorMessage = "" then "receiver could not provision esphome"
          else errorMessage))
      else
        (w.failLocally j (if errorMessage = "" then "compile failed" else errorMessage), .returned)
    | .completed => w.finaliseAfterReceiverCompleted j jobType

/-- The `session_lost` branch of `_await_terminal`. -/
def onSessionLost (w : World) (j : JobId) (retry : Bool) (text : String) : World × RemoteOutcome :=
  if retry && !w.isCancelRequested j then (w, .serverLost text)
  else (w.failLocally j ("peer-link session lost (" ++ text ++ ")"), .returned)

/-- The end of the local upload of a remotely built job. -/
def finishLocalUpload (w : World) (j : JobId) (code : Int) : World × RemoteOutcome :=
  if w.isCancelRequested j then (w.finalizeCancelled j, .returned)
  else
    let w := w.exitCode j code
    if code = 0 then (w.finalizeSuccess j, .returned)
    else (w.failLocally j ("local upload failed (exit " ++ toString code ++ ")"), .returned)

/-- `run_remote_job` from the await `pt` to the next. -/
def remoteResume (w : World) (j : JobId) (retry : Bool) (pt : RemotePoint) (input : Input) :
    World × RemoteOutcome :=
  match w.fw.obj j with
  | none => (w, .returned)
  | some job =>
    match pt with
    | .bundle =>
      -- the cancel event is set exactly when the cancel was requested
      if w.isCancelRequested j then (w.finalizeCancelled j, .returned)
      else w.openClientAndSend j input
    | .submit =>
      match input with
      | .fail reason => (w.failLocally j reason, .returned)
      | _ => if w.isCancelRequested j then w.sendCancel j else (w, .suspended (.terminal false))
    | .terminal cancelSent =>
      match input with
      | .frame status failureReason errorMessage =>
        w.onTerminalFrame j retry job.jobType status failureReason errorMessage
      | .sessionLost text => w.onSessionLost j retry text
      | _ =>
        if w.isCancelRequested j && !cancelSent then w.sendCancel j
        else (w, .suspended (.terminal cancelSent))
    | .sendCancel =>
      match input with
      | .fail _ => (w.finalizeCancelled j, .returned)
      | _ => (w, .suspended (.terminal true))
    | .download =>
      match input with
      | .fail reason => (w.failLocally j reason, .returned)
      | _ => (w, .suspended .materialise)
    | .materialise =>
      match input with
      | .fail reason => (w.failLocally j reason, .returned)
      | _ =>
        if w.isCancelRequested j then (w.finalizeCancelled j, .returned)
        else if job.jobType = .compile then ((w.exitCode j 0).finalizeSuccess j, .returned)
        else (w, .suspended .relPath)
    | .relPath => (w, .suspended .spawn)
    | .spawn => (w, .suspended (if w.isCancelRequested j then .terminate else .pump))
    | .terminate => (w, .suspended .pump)
    | .pump =>
      match input with
      | .exit code _ _ => w.finishLocalUpload j code
      | _ => (w, .suspended .pump)

end World

end DeviceBuilder
