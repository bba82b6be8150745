import Mathlib.Data.Nat.Notation
import DeviceBuilder.Lib.Runs

/-!
# The presence gate and the loop behind it

`helpers/subscriber_presence.py` counts the dashboard clients;
`helpers/presence_gated_loop.py` works while there is one. Both run on the event
loop, so one action is what runs between two awaits. An awaiter of an event is
released when the event is set and runs at a later turn, whatever the event is
by then.

* `Presence.enter`, `Presence.leave`: `subscriber()`.
* `World.wake`, `World.begin`, `World.top`: the loop.
* `World.step`: a subscriber, a `wake()`, or the loop's next turn.

`starts` is what the laws speak of, the code does not keep it.
-/

namespace DeviceBuilder.PresenceLoop

/-- `SubscriberPresence`: its count and its event. -/
structure Presence where
  count : ℕ := 0
  hasSubscriber : Bool := false
  deriving DecidableEq

def Presence.hasSubscribers (p : Presence) : Bool := 0 < p.count

/-- `__enter__` of `subscriber()`. -/
def Presence.enter (p : Presence) : Presence where
  count := p.count + 1
  hasSubscriber := p.hasSubscriber || p.count + 1 = 1

/-- `__exit__` of `subscriber()`. -/
def Presence.leave (p : Presence) : Presence where
  count := p.count - 1
  hasSubscriber := p.hasSubscriber && p.count - 1 ≠ 0

/-- What `run` is suspended on; `released` when the event it awaits has been set since. -/
inductive Phase
  | stopped
  | bootstrap
  | preparing
  | parked (released : Bool)
  | working
  | idling (released : Bool)
  deriving DecidableEq

structure World where
  presence : Presence := {}
  /-- `_wake`. -/
  wakeSet : Bool := false
  phase : Phase := .stopped
  /-- `_continue_on_error`. -/
  continueOnError : Bool := true
  /-- The subscribers registered when each `_work` began. -/
  starts : List ℕ := []
  deriving DecidableEq

namespace World

variable (w : World)

/-- `_running`. -/
def running : Bool := w.phase ≠ .stopped

/-- `self._wake.set()`: the idle wait, if there is one, is released. -/
def wake : World :=
  { w with
    wakeSet := true
    phase := match w.phase with
      | .idling _ => .idling true
      | phase => phase }

/-- The first subscriber sets the presence event and, by the callback, the wake event. -/
def enter : World :=
  if w.presence.count = 0 then
    { w with
      presence := w.presence.enter
      phase := match w.phase with
        | .parked _ => .parked true
        | phase => phase }.wake
  else { w with presence := w.presence.enter }

/-- The last subscriber clears the presence event; an awaiter already released stays so. -/
def leave : World :=
  if w.presence.count = 0 then w else { w with presence := w.presence.leave }

/-- `self._wake.clear()`, then `_work` begins. -/
def begin : World :=
  { w with
    wakeSet := false
    phase := .working
    starts := w.starts ++ [w.presence.count] }

/-- The head of the loop: park while no subscriber is registered. -/
def top : World :=
  if !w.presence.hasSubscribers then
    if w.presence.hasSubscriber then w.begin else { w with phase := .parked false }
  else w.begin

/-- `_idle`, up to the loop's head when the wake event is set already. -/
def idle : World := if w.wakeSet then w.top else { w with phase := .idling false }

/-- `run` ends, by a return, an exception or a cancellation. -/
def stop : World := { w with phase := .stopped }

end World

inductive Action
  | enter
  | leave
  | wake
  /-- `run()` is called. -/
  | start
  | cancel
  /-- The bootstrap sleep is over. -/
  | sleepDone
  | prepared (enabled : Bool)
  /-- The loop's turn after its park was released. -/
  | resume
  | workDone
  | workRaise
  /-- The loop's turn after its idle wait was released. -/
  | wakeUp
  /-- The idle interval elapsed. -/
  | timeout
  deriving DecidableEq

/-- One action; an action that is not possible does nothing. -/
def World.step (w : World) : Action → World
  | .enter => w.enter
  | .leave => w.leave
  | .wake => w.wake
  -- a second `run()` raises and changes nothing
  | .start => if w.running then w else { w with phase := .bootstrap }
  | .cancel => w.stop
  | .sleepDone => if w.phase = .bootstrap then { w with phase := .preparing } else w
  | .prepared enabled =>
    if w.phase = .preparing then if enabled then w.top else w.stop else w
  -- the resumed awaiter does not look at the count again
  | .resume => if w.phase = .parked true then w.begin else w
  | .workDone => if w.phase = .working then w.idle else w
  | .workRaise =>
    if w.phase = .working then if w.continueOnError then w.idle else w.stop else w
  | .wakeUp => if w.phase = .idling true then w.top else w
  | .timeout =>
    match w.phase with
    | .idling _ => w.top
    | _ => w

end DeviceBuilder.PresenceLoop
