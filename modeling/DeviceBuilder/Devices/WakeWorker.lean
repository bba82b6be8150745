import DeviceBuilder.Lib.Runs
import Mathlib.Data.Finset.Basic

/-!
# The background worker of the device scanner

`controllers/_wake_worker.py` with the `_drain` of
`controllers/_device_scanner.py`: requested items wait in `pending`, a wake event
starts a pass, a pass takes the set whole and reloads one item after another.
Everything runs on the event loop, so one action is what runs between two awaits;
an await that does not suspend, of an event already set, is one that may.

* `Worker.request`, `Worker.swapPending`, `Worker.finishCycle`: the methods.
* `Worker.step`: a request, the owner's `start` and `stop`, or the task's next turn.

The owner starts and stops the worker, one call after another. `owed` is what the
laws speak of, the code does not keep it.
-/

namespace DeviceBuilder.Scan

variable {T : Type*} [DecidableEq T]

/-- What the worker's task is suspended on; `released` when the wake event was set since. -/
inductive Phase (T : Type*)
  | created
  /-- In `_on_start`. -/
  | starting
  /-- At `self._wake.wait()`. -/
  | waiting (released : Bool)
  /-- In a pass, in the reload of an item. -/
  | processing (item : T)
  | done
  deriving DecidableEq

structure Worker (T : Type*) where
  pending : Finset T := ∅
  draining : Finset T := ∅
  /-- `_wake` and `_idle`. -/
  wake : Bool := false
  idle : Bool := true
  /-- `_task`. -/
  task : Option (Phase T) := none
  /-- `stop` has cancelled the task and awaits it. -/
  stopping : Bool := false
  /-- The items requested whose processing has not begun since. -/
  owed : Finset T := ∅

namespace Worker

variable (w : Worker T) (item pick : T)

def inPass : Bool :=
  match w.task with
  | some (.processing _) => true
  | _ => false

/-- `self._wake.set()`. -/
def setWake : Worker T :=
  { w with
    wake := true
    task := match w.task with
      | some (.waiting _) => some (.waiting true)
      | task => task }

/-- Push an item and wake the loop; one that the running pass still has is there already. -/
def request : Worker T :=
  if item ∈ w.draining then { w with owed := insert item w.owed }
  else { w with
    pending := insert item w.pending
    idle := false
    owed := insert item w.owed }.setWake

/-- Spawn the task, unless one runs. -/
def start : Worker T :=
  match w.task with
  | none | some .done => { w with idle := false, task := some .created }
  | some _ => w

/-- `swap_pending`. -/
def swapPending : Worker T := { w with draining := w.pending, pending := ∅ }

/-- The head of the loop: `await self._wake.wait()`. -/
def loopHead : Worker T := { w with task := some (.waiting w.wake) }

/-- The `finally` of `_drain_cycle`: what a pass has left waits again; idle, or another wake. -/
def finishCycle : Worker T :=
  let w := { w with pending := w.pending ∪ w.draining, draining := ∅ }
  if w.pending = ∅ then { w with idle := true } else { w with wake := true }

/-- The `while` of `_drain`, up to its next await: `pick` is what `pop` returns. -/
def next : Worker T :=
  if w.draining = ∅ then w.finishCycle.loopHead
  else { w with
    draining := w.draining.erase pick
    task := some (.processing pick)
    owed := w.owed.erase pick }

/-- `pop` can return `pick`. -/
def canPick (draining : Finset T) : Bool := draining = ∅ || pick ∈ draining

end Worker

inductive Action (T : Type*)
  | request (item : T)
  | start
  | stop
  /-- The task's first turn, up to an await of `_on_start`. -/
  | boot
  /-- `_on_start` returns or raises. -/
  | booted
  /-- The wait is over, or a reload has returned or raised; `pick` is popped next. -/
  | turn (pick : T)
  /-- `_drain` raises. -/
  | fail
  /-- The task's turn with the cancellation of `stop`. -/
  | cancelled
  /-- The turn of `stop` after the task. -/
  | stopped

/-- One action; an action that is not possible does nothing. -/
def Worker.step (w : Worker T) : Action T → Worker T
  | .request item => w.request item
  | .start => if w.stopping then w else w.start
  | .stop =>
    if w.stopping then w
    else match w.task with
      | none => w
      | some _ => { w with stopping := true }
  | .boot =>
    if w.stopping then w
    else match w.task with
      | some .created => { w with task := some .starting }
      | _ => w
  | .booted =>
    if w.stopping then w
    else match w.task with
      | some .starting => (if w.pending = ∅ then { w with idle := true } else w).loopHead
      | _ => w
  | .turn pick =>
    if w.stopping then w
    else match w.task with
      | some (.waiting true) =>
        if Worker.canPick pick w.pending then { w with wake := false }.swapPending.next pick else w
      | some (.processing _) => if Worker.canPick pick w.draining then w.next pick else w
      | _ => w
  | .fail =>
    if w.stopping then w
    else match w.task with
      | some (.processing _) => w.finishCycle.loopHead
      | _ => w
  | .cancelled =>
    if w.stopping then
      match w.task with
      | some (.processing _) => { w.finishCycle with task := some .done }
      | some .created | some .starting | some (.waiting _) => { w with task := some .done }
      | _ => w
    else w
  | .stopped =>
    if w.stopping then
      match w.task with
      | some .done => { w with task := none, idle := true, stopping := false }
      | _ => w
    else w

end DeviceBuilder.Scan
