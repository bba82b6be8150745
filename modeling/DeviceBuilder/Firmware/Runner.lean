import DeviceBuilder.Firmware.RemoteRunner

/-!
# The lane workers

`run_lane` and `execute_job` of `controllers/firmware/runner.py`. A worker waits
for its queue, waits at the build gate if the job flashes a tree that is about
to be wiped, then executes the job. A worker whose queue is not empty goes on at
once in the source; here its next job is another step.

* `laneTake`: a dequeued job, through the gate, to the persist of `begin_run`.
* `localResume`: the local path of `execute_job`, from await to await.
* `laneFinish`, `laneReturn`: the two `finally` blocks.
-/

namespace DeviceBuilder

namespace World

/-- The `finally` of `run_lane`: a freed compile slot re-arms the matcher. -/
def laneReturn (w : World) (l : LaneId) : World :=
  match l with
  | .compile =>
    { w with fw := { w.fw with remoteDispatch := w.fw.remoteDispatch.rearmIfPending } }
  | _ => w

/-- `execute_job`, up to the persist of `begin_run`. -/
def executeJob (w : World) (l : LaneId) (j : JobId) : World × Task :=
  let lane := w.fw.lane l
  let fw := w.fw.setLane l { lane with active := KeyList.add lane.active j }
  ({ w with fw := fw }.beginRun j, .laneBegin l j)

/-- `_await_build_gate` and the rest of `run_lane`, from the check on. -/
def laneGate (w : World) (l : LaneId) (j : JobId) : World × Task :=
  match w.fw.obj j with
  | none => (w.laneReturn l, .laneIdle l)
  | some job =>
    if job.isNetworkFlash then
      let w := { w with fw := { w.fw with buildGate := false } }
      if job.status = .cancelled then (w.laneReturn l, .laneIdle l)
      else if w.fw.uploadBlocked job then (w, .laneGate l j false)
      else w.executeJob l j
    else if job.status = .cancelled then (w.laneReturn l, .laneIdle l)
    else w.executeJob l j

/-- `run_lane` from `queue.get()`. -/
def laneTake (w : World) (l : LaneId) : World × Task :=
  let lane := w.fw.lane l
  match lane.queue with
  | [] => (w, .laneIdle l)
  | j :: rest =>
    let w := { w with fw := w.fw.setLane l { lane with queue := rest } }
    match w.fw.obj j with
    | none => (w.laneReturn l, .laneIdle l)
    | some job =>
      if job.status = .cancelled then (w.laneReturn l, .laneIdle l) else w.laneGate l j

/-- The `finally` of `execute_job`, up to the persist of `end_run`. -/
def laneFinish (w : World) (l : LaneId) (j : JobId) (dying : Bool) : World × Task :=
  let lane := w.fw.lane l
  let fw := w.fw.setLane l { lane with active := KeyList.drop lane.active j }
  ({ w with fw := fw }.endRun j, .laneEnd l j dying)

/-- Does `_verify_chip` look at the port? -/
def verifiesChip (job : FirmwareJob) : Bool :=
  (job.jobType = .upload || job.jobType = .install) && "/dev".toList.isPrefixOf job.port.toList

def noEsphomeModuleError : String :=
  "esphome is not importable from the dashboard's Python environment"

def outputErrorsError : String := "Process exited 0 but output contains errors"

/-- A finished subprocess: cancel intent first, then success; a rename tail swaps and a reset
cleans the venvs before the job completes. -/
def finishLocal (w : World) (l : LaneId) (j : JobId) (job : FirmwareJob) (code : Int)
    (hasErrorInOutput sawNoEsphomeModule : Bool) : World × Task :=
  let w := w.exitCode j code
  if w.isCancelRequested j then (w.finalizeCancelled j).laneFinish l j false
  else if code = 0 && !hasErrorInOutput then
    if job.isRenameTail then (w, .laneLocal l j (.swap false))
    else if job.jobType = .resetBuildEnv then (w, .laneLocal l j .cleanVenvs)
    else (w.finalizeTerminal j .completed).laneFinish l j false
  else
    let w := if hasErrorInOutput && code = 0 then
        w.modifyJob j ({ · with
          error := some (if sawNoEsphomeModule then noEsphomeModuleError else outputErrorsError) })
      else w
    (w.finalizeTerminal j .failed).laneFinish l j false

/-- `execute_job`'s local path from the await `pt` to the next. -/
def localResume (w : World) (l : LaneId) (j : JobId) (pt : LocalPoint) (input : Input) :
    World × Task :=
  match w.fw.obj j with
  | none => w.laneFinish l j false
  | some job =>
    match pt with
    | .chipStorage =>
      match input with
      -- never compiled, or no platform recorded: nothing to verify
      | .fail _ => (w, .laneLocal l j .relPath)
      | _ => (w, .laneLocal l j .chipProbe)
    | .chipProbe =>
      if w.isCancelRequested j then
        (w.finalizeUnexpectedError j "Cancelled during chip verification").laneFinish l j false
      else match input with
        | .fail mismatch => (w.finalizeUnexpectedError j mismatch).laneFinish l j false
        | _ => (w, .laneLocal l j .relPath)
    | .relPath => (w, .laneLocal l j .esphomeCmd)
    | .esphomeCmd =>
      match input with
      | .envProvisionError exc =>
        ((w.modifyJob j ({ · with failureReason := .provision })).finalizeUnexpectedError j
          exc).laneFinish l j false
      | _ => (w, .laneLocal l j .spawn)
    | .spawn => (w, .laneLocal l j (if w.isCancelRequested j then .terminate else .pump))
    | .terminate => (w, .laneLocal l j .pump)
    | .pump =>
      match input with
      | .exit code hasErrorInOutput sawNoEsphomeModule =>
        w.finishLocal l j job code hasErrorInOutput sawNoEsphomeModule
      | _ => (w, .laneLocal l j .pump)
    | .swap _ | .cleanVenvs => (w.finalizeTerminal j .completed).laneFinish l j false

/-- A lane's remote run: the pool's errors are never raised without `retry`. -/
def laneRemote (l : LaneId) (j : JobId) : World × RemoteOutcome → World × Task
  | (w, .suspended pt) => (w, .laneRemote l j pt)
  | (w, _) => w.laneFinish l j false

/-- `execute_job` after `begin_run`. -/
def laneRun (w : World) (l : LaneId) (j : JobId) (input : Input) : World × Task :=
  match w.fw.obj j with
  | none => w.laneFinish l j false
  | some job =>
    if job.source = .remote then laneRemote l j (w.remoteStart j input)
    else if verifiesChip job then (w, .laneLocal l j .chipStorage)
    else (w, .laneLocal l j .relPath)

end World

end DeviceBuilder
