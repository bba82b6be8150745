import DeviceBuilder.Firmware.RemoteRunner

/-!
# The remote build-server pool

`controllers/firmware/remote_dispatch.py`. The dispatch loop waits for its wake
and matches each waiting compile to a free server; a driver task runs a bound
compile and re-routes it when its server is lost or cannot build it.

* `dispatchPass`: one pass of the matcher, up to its persist.
* `dispatchOne`: the decision for one waiting job.
* `driveReturn`: how a driver ends or re-routes its job.
-/

namespace DeviceBuilder

def maxServerLossRetries : ℕ := 3

namespace World

def modifyPool (w : World) (f : RemoteDispatchState → RemoteDispatchState) : World :=
  { w with fw := { w.fw with remoteDispatch := f w.fw.remoteDispatch } }

/-- `job.apply_build_source(LOCAL)` and the router. -/
def fallbackToLocal (w : World) (j : JobId) : World :=
  (w.modifyJob j (·.applyBuildSource localJobBuildSource)).placeOnLane j

/-- `_drive_remote`, eagerly up to the persist of `begin_run`. -/
def driveRemote (w : World) (j : JobId) : World :=
  match w.fw.obj j with
  | none => w
  | some job =>
    if job.isTerminal then w.modifyPool (·.release j)
    else (w.beginRun j).spawnTask (.driveBegin j)

/-- `_dispatch_to_server`. -/
def dispatchToServer (w : World) (offloader : OffloaderState) (j : JobId) (pin : Pin) : World :=
  match offloader.pairings.find? (·.pin = pin) with
  | none => w.modifyPool ({ · with wake := true })
  | some pairing =>
    ((w.modifyJob j (·.applyBuildSource
      (buildSourceForPairing pairing offloader.esphomeVersion))).driveRemote j).modifyPool
        (·.start j pin)

/-- `_fail_no_compatible_peer`. -/
def failNoCompatiblePeer (w : World) (j : JobId) (message : String) : World :=
  (w.modifyPool (·.drop j)).finalizeTerminal j .failed (some message)

/-- The scheduler inputs of `_dispatch_one` for a job of `jobType`. -/
def dispatchInputs (w : World) (offloader : OffloaderState) (jobType : JobType) :
    BuildSchedulerInputs :=
  { inputsForJobType offloader.snapshot jobType with
    busyBuildServerPins := w.fw.remoteDispatch.busyPins
    localCompileBusy := !w.fw.compileQueueIdle }

/-- `_dispatch_one`, with whether it needs a persist. -/
def dispatchOne (offloader : OffloaderState) (s : World × Bool) (j : JobId) : World × Bool :=
  let w := s.1
  match w.fw.obj j with
  | none => s
  | some job =>
    if job.status ≠ .queued then (w.modifyPool (·.drop j), s.2)
    else match pickDispatchTarget (w.dispatchInputs offloader job.jobType) with
      | .remote pin => (w.dispatchToServer offloader j pin, s.2)
      | .local => (w.fallbackToLocal j, true)
      | .noCompatiblePeer message => (w.failNoCompatiblePeer j message, true)
      | .wait => s

/-- `_dispatch_pending`, up to its persist. -/
def dispatchPass (w : World) : World × Task :=
  let pending := w.fw.remoteDispatch.pending
  match w.offloader with
  | none =>
    let w := pending.foldl fallbackToLocal w
    (w, if pending = [] then .dispatchWait else .dispatchPersist)
  | some offloader =>
    let (w, needsPersist) := pending.foldl (dispatchOne offloader) (w, false)
    (w, if needsPersist then .dispatchPersist else .dispatchWait)

/-- `run_dispatch_loop` from `wake.wait()`. -/
def dispatchWake (w : World) : World × Task :=
  if w.fw.remoteDispatch.wake then (w.modifyPool ({ · with wake := false })).dispatchPass
  else (w, .dispatchWait)

/-- `_requeue_after_server_loss`. -/
def requeueAfterServerLoss (w : World) (j : JobId) (reason : String) : World :=
  let w := w.modifyPool (·.recordLoss j)
  let attempt := w.fw.remoteDispatch.retries j
  if maxServerLossRetries < attempt then
    (w.finalizeTerminal j .failed (some ("remote build: server lost mid-build " ++
      toString attempt ++ "x (" ++ reason ++ ")"))).modifyPool (·.forgetLosses j)
  else (w.modifyJob j (·.revertToPendingRemote)).placeOnLane j

/-- `_requeue_after_provision_failure`. -/
def requeueAfterProvisionFailure (w : World) (j : JobId) : World :=
  (w.modifyJob j (·.clearRunState)).fallbackToLocal j

/-- The `finally` of `_drive_remote`, up to the persist of `end_run`. -/
def driveFinish (w : World) (j : JobId) : World :=
  let w := w.modifyPool (·.release j)
  let w := if ((w.fw.obj j).map (·.isTerminal)).getD false then w.modifyPool (·.forgetLosses j)
    else w
  w.endRun j

/-- `_drive_remote` around `run_remote_job`. -/
def driveReturn (j : JobId) : World × RemoteOutcome → World × Task
  | (w, .suspended pt) => (w, .driveRemote j pt)
  | (w, .returned) => (w.driveFinish j, .driveEnd j)
  | (w, .serverLost reason) => ((w.requeueAfterServerLoss j reason).driveFinish j, .driveEnd j)
  | (w, .provisionUnavailable _) => ((w.requeueAfterProvisionFailure j).driveFinish j, .driveEnd j)

end World

end DeviceBuilder
