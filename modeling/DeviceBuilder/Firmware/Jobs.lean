import DeviceBuilder.Firmware.Prune
import DeviceBuilder.Firmware.World

/-!
# Cancel

`controllers/firmware/jobs.py`, and the sweep of `factories.py` that cancels a
set of jobs. A call runs to its first `await` or to its end: `Outcome` says
which, `suspended` with the frames to continue with (innermost first).

* `cancelStart`: `cancel` up to its first `await`.
* `runSweep`: the loop of `_cancel_active_jobs` up to its first `await`.
-/

namespace DeviceBuilder

/-- How far a call got. -/
inductive Outcome
  | suspended (frames : List Frame)
  | returned
  | raised (e : Err)
  deriving DecidableEq, Repr

namespace World

/-- `cancel`, up to its first `await`. -/
def cancelStart (w : World) (j : JobId) (cause : CancelCause) : World × Outcome :=
  let w := w.emit (.cancelCalled j cause)
  match w.fw.find j with
  | none => (w, .raised .notFound)
  | some job =>
    match job.status with
    | .queued =>
      -- a pending remote compile is held in the pool; the mark comes before the fire, so that a
      -- restart in between sees the job cancelled
      let fw := { w.fw with remoteDispatch := w.fw.remoteDispatch.discard j }
      let fw := (fw.modify j (·.markTerminal .cancelled)).pruneHistory
      ({ w with fw := fw }, .suspended [.cancelMarked j])
    | .running =>
      if w.fw.remoteDispatch.isInFlight j then ({ w with fw := w.fw.requestCancel j }, .returned)
      else if !w.fw.jobIsOnALane j then (w, .raised .stateOutOfSync)
      else
        let w' := { w with fw := w.fw.requestCancel j }
        (w', if w.hasSpawn j then .suspended [.cancelTerminate] else .returned)
    | .completed | .failed | .cancelled => (w, .raised .invalidArgs)

/-- The errors the sweep swallows; the global one of `reset_build_env` re-raises the job it could
not terminate. -/
def sweepSwallows (cause : CancelCause) : Err → Bool
  | .notFound | .invalidArgs => true
  | .stateOutOfSync => match cause with
    | .reset _ => false
    | _ => true
  | .noCompatiblePeer _ | .osError => false

/-- The loop of `_cancel_active_jobs`. -/
def runSweep (w : World) (cause : CancelCause) : List JobId → World × Outcome
  | [] => (w, .returned)
  | j :: rest =>
    match w.cancelStart j cause with
    | (w', .suspended fs) => (w', .suspended (fs ++ [.sweep rest cause]))
    | (w', .returned) => w'.runSweep cause rest
    | (w', .raised e) => if sweepSwallows cause e then w'.runSweep cause rest else (w', .raised e)

/-- The jobs a supersede of `configuration` (every configuration for `none`) cancels. -/
def toCancel (w : World) (keep : List JobId) (configuration : Option Configuration) : List JobId :=
  (w.fw.activeJobs.filter (fun job => job.jobId ∉ keep &&
    (configuration = none || configuration = some job.configuration))).map (·.jobId)

/-- `_supersede_active_jobs`. -/
def supersedeActiveJobs (w : World) (configuration : Configuration) (keep : List JobId) :
    World × Outcome :=
  w.runSweep (.supersede keep) (w.toCancel keep (some configuration))

/-- `cancel_all_active_jobs`, called by the reset `j`. -/
def cancelAllActiveJobs (w : World) (j : JobId) : World × Outcome :=
  w.runSweep (.reset j) (w.toCancel [j] none)

/-- `clear`, up to its persist. -/
def clear (w : World) (status : Option JobStatus) : World :=
  let keeps (j : JobId) : Bool := match w.fw.obj j with
    | none => true
    | some job => match status with
      | some s => job.status ≠ s
      | none => job.isActive
  { w with fw := { w.fw with jobs := w.fw.jobs.filter keeps } }

end World

end DeviceBuilder
