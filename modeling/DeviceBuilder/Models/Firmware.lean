import Mathlib.Logic.Function.Basic
import Mathlib.Data.List.Basic

/-!
# Firmware jobs

The job record of `models/firmware.py`: what a firmware job is, which statuses
are terminal, and the status and source transitions the queue performs on it.
A `job_id` is a fresh uuid, here a natural number handed out in order, and an
empty `depends_on` is `none`. Fields that no part of the queue's logic reads
(timings, progress, display strings) are left out.
-/

namespace DeviceBuilder

abbrev JobId := ℕ

/-- A YAML filename, `configuration` of a job; `""` for a build-environment reset. -/
abbrev Configuration := String

/-- A build server's certificate pin (`pin_sha256`). -/
abbrev Pin := String

inductive JobStatus
  | queued
  | running
  | completed
  | failed
  | cancelled
  deriving DecidableEq, Repr

inductive JobType
  | compile
  | upload
  | install
  | clean
  | resetBuildEnv
  | rename
  | analyzeMemory
  deriving DecidableEq, Repr

/-- Where a job's bytes come from; `remotePending` is "remote, server chosen at dispatch". -/
inductive JobSource
  | local
  | remote
  | remotePending
  deriving DecidableEq, Repr

inductive JobFailureReason
  | none
  | provision
  deriving DecidableEq, Repr

/-- `TERMINAL_JOB_STATUSES`. -/
def JobStatus.isTerminal : JobStatus → Bool
  | .queued | .running => false
  | .completed | .failed | .cancelled => true

/-- `COMPILING_JOB_TYPES`. -/
def compilingJobTypes : List JobType := [.compile, .install, .analyzeMemory]

/-- The `source_*` dispatch-origin fields of a job. -/
structure JobBuildSource where
  source : JobSource := .local
  sourcePin : Pin := ""
  sourceLabel : String := ""
  sourceEsphomeVersion : String := ""
  deriving DecidableEq, Repr

/-- `JobBuildSource.for_server`. -/
def JobBuildSource.forServer (pin : Pin) (label esphomeVersion : String) : JobBuildSource :=
  { source := .remote, sourcePin := pin, sourceLabel := label,
    sourceEsphomeVersion := esphomeVersion }

def otaPort : String := "OTA"

def localJobBuildSource : JobBuildSource := {}

def remotePendingJobBuildSource : JobBuildSource := { source := .remotePending }

/-- `FirmwareJob`, the fields the queue reads. -/
structure FirmwareJob where
  jobId : JobId
  configuration : Configuration
  jobType : JobType
  status : JobStatus := .queued
  /-- ISO 8601 in the source; only its order matters. -/
  createdAt : ℕ := 0
  exitCode : Option Int := none
  error : Option String := none
  port : String := ""
  flashBootloader : Bool := false
  skipBootloader : Bool := false
  isDeferredInstall : Bool := false
  newName : String := ""
  dependsOn : Option JobId := none
  dependencyReleased : Bool := false
  remotePeer : String := ""
  source : JobSource := .local
  sourcePin : Pin := ""
  sourceLabel : String := ""
  sourceEsphomeVersion : String := ""
  failureReason : JobFailureReason := .none
  deriving DecidableEq, Repr

namespace FirmwareJob

def isTerminal (job : FirmwareJob) : Bool := job.status.isTerminal

/-- Queued or running. -/
def isActive (job : FirmwareJob) : Bool := !job.status.isTerminal

/-- The flash-and-swap tail of a rename chain; a fused `esphome rename` has no prerequisite. -/
def isRenameTail (job : FirmwareJob) : Bool := job.jobType = .rename && job.dependsOn.isSome

def isNetworkFlash (job : FirmwareJob) : Bool := job.jobType = .upload || job.isRenameTail

/-- A `remote` clean or reset wipes the paired receiver's tree, never this dashboard's. -/
def wipesLocalBuildTree (job : FirmwareJob) : Bool :=
  (job.jobType = .clean || job.jobType = .resetBuildEnv) && job.source ≠ .remote

def newFilename (job : FirmwareJob) : Configuration := job.newName ++ ".yaml"

/-- The YAML whose build artifacts the job flashes. -/
def flashConfiguration (job : FirmwareJob) : Configuration :=
  if job.isRenameTail then job.newFilename else job.configuration

def isCompletedOtaUpload (job : FirmwareJob) : Bool :=
  job.jobType = .upload && job.port = otaPort && job.status = .completed

def isDeferredCompileSuccess (job : FirmwareJob) : Bool :=
  job.jobType = .compile && job.status = .completed && job.isDeferredInstall

def isOtaAppUpload (job : FirmwareJob) : Bool :=
  job.jobType = .upload && job.port = otaPort && !job.flashBootloader

def isQueuedUpdateArmed (job : FirmwareJob) : Bool :=
  job.isDeferredCompileSuccess ||
    (job.isOtaAppUpload && job.status = .failed && job.isDeferredInstall)

def markRunning (job : FirmwareJob) : FirmwareJob := { job with status := .running }

/-- `mark_terminal` on a terminal `status`; an `error` of `none` leaves the stored one. -/
def markTerminal (job : FirmwareJob) (status : JobStatus) (error : Option String := none) :
    FirmwareJob :=
  { job with status := status, error := error.orElse fun _ => job.error }

/-- `clear_run_state`: the per-run fields go, the status stays. -/
def clearRunState (job : FirmwareJob) : FirmwareJob :=
  { job with error := none, failureReason := .none, exitCode := none }

def applyBuildSource (job : FirmwareJob) (src : JobBuildSource) : FirmwareJob :=
  { job with
    source := src.source, sourcePin := src.sourcePin, sourceLabel := src.sourceLabel,
    sourceEsphomeVersion := src.sourceEsphomeVersion }

def revertToPendingRemote (job : FirmwareJob) : FirmwareJob :=
  { job.clearRunState with status := .queued }.applyBuildSource remotePendingJobBuildSource

/-- `reset`, without the restart marker it appends to the output. -/
def reset (job : FirmwareJob) : FirmwareJob := job.clearRunState

def restoreForRequeue (job : FirmwareJob) : FirmwareJob :=
  let job' := if job.status = .running then job.reset else job
  let job' := { job' with status := .queued }
  if job'.jobType = .compile ∧ (job'.source = .remote ∨ job'.source = .remotePending) then
    job'.applyBuildSource remotePendingJobBuildSource
  else job'

section Lemmas

variable (job : FirmwareJob) (status : JobStatus) (error : Option String) (src : JobBuildSource)

@[simp] theorem markRunning_status : job.markRunning.status = .running := rfl
@[simp] theorem markTerminal_status : (job.markTerminal status error).status = status := rfl
@[simp] theorem clearRunState_status : job.clearRunState.status = job.status := rfl
@[simp] theorem applyBuildSource_status : (job.applyBuildSource src).status = job.status := rfl
@[simp] theorem applyBuildSource_source : (job.applyBuildSource src).source = src.source := rfl
@[simp] theorem revertToPendingRemote_status : job.revertToPendingRemote.status = .queued := rfl
@[simp] theorem revertToPendingRemote_source :
    job.revertToPendingRemote.source = .remotePending := rfl

@[simp] theorem restoreForRequeue_status : job.restoreForRequeue.status = .queued := by
  unfold restoreForRequeue; dsimp only; split <;> split <;> rfl

/-- The part of a job that no transition of the queue changes. -/
def identity (job : FirmwareJob) : JobId × Configuration × JobType × String × Option JobId × String × Bool :=
  (job.jobId, job.configuration, job.jobType, job.newName, job.dependsOn, job.port, job.flashBootloader)

@[simp] theorem markRunning_identity : job.markRunning.identity = job.identity := rfl
@[simp] theorem markTerminal_identity : (job.markTerminal status error).identity = job.identity := rfl
@[simp] theorem clearRunState_identity : job.clearRunState.identity = job.identity := rfl
@[simp] theorem applyBuildSource_identity : (job.applyBuildSource src).identity = job.identity := rfl
@[simp] theorem revertToPendingRemote_identity :
    job.revertToPendingRemote.identity = job.identity := rfl

@[simp] theorem restoreForRequeue_identity : job.restoreForRequeue.identity = job.identity := by
  unfold restoreForRequeue reset; dsimp only; split <;> split <;> rfl

theorem isActive_iff : job.isActive = true ↔ job.status = .queued ∨ job.status = .running := by
  unfold isActive JobStatus.isTerminal; cases job.status <;> simp

end Lemmas

end FirmwareJob

end DeviceBuilder
