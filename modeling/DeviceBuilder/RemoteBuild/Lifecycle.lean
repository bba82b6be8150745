import DeviceBuilder.Lib.Runs
import Mathlib.Algebra.Group.Nat.Defs
import Mathlib.Data.List.Basic

/-!
# The peer-link listener

`_remote_build_lifecycle.py`: the listener that serves peer links is bound when the
receiver role is on, or when approved pairings want connect-back dials. `converge`
brings it to the policy, `reload_identity` rebuilds it, `shutdown` ends it. All three
work under one lock.

* `Listener`: the fields of `RemoteBuildLifecycle`, and what it reads.
* `Listener.entered`, `Listener.resumed`: a coroutine inside the lock, up to its next await.
* `World.step`: one action of the environment, of the event loop or of the timer.

`policy` is what `_compute_policy` returned last. The code does not keep it.
-/

namespace DeviceBuilder.Lifecycle

open Runs

/-- `_ListenerPolicy`. -/
structure Policy where
  wanted : Bool
  bind : Bool
  receiverRole : Bool
  offloaderNeeds : Bool
  forcedByCli : Bool
  deriving DecidableEq

/-- A started `web.AppRunner`: its port, the pin of its identity, `accept_receiver_intents`. -/
structure Runner where
  port : ℕ
  pin : ℕ
  acceptReceiverIntents : Bool
  deriving DecidableEq

/-- What the `DashboardAdvertiser` publishes about the listener. -/
structure Advert where
  pinSha256 : Option ℕ := none
  remoteBuildPort : Option ℕ := none
  deriving DecidableEq

/-- `loop.call_later(delay, self._run_converge_retry)`. -/
structure Timer where
  id : ℕ
  delay : ℕ
  deriving DecidableEq

inductive Kind
  | converge
  | reload
  | shutdown
  deriving DecidableEq

/-- What follows `_teardown_runner`. -/
inductive Next
  /-- The listener is not wanted. -/
  | finish (p : Policy)
  /-- Its role changed. -/
  | rebind (p : Policy)
  /-- `reload_identity`. -/
  | reload
  deriving DecidableEq

/-- `load_effective_remote_build_settings` on the executor. -/
inductive Read
  | pending
  | value (enabled : Bool)
  | raised
  deriving DecidableEq

/-- Where a coroutine stands. -/
inductive Point
  | start
  /-- `async with self._get_lock()`. -/
  | acquire
  /-- `await load_effective_remote_build_settings(settings)`. -/
  | loadSettings (r : Read)
  /-- `await self._cleanup_runner(old_runner)` and `await advertiser.refresh()` of a teardown. -/
  | cleanup (next : Next)
  | refresh (next : Next)
  /-- The awaits of `_build_and_start_runner`. -/
  | bindPort (p : Policy)
  | loadIdentity (p : Policy) (port : ℕ)
  | startSites (p : Policy) (port pin : ℕ)
  | cleanupPartial (p : Policy)
  /-- `await advertiser.refresh()` after a bind. -/
  | publish (p : Policy)
  /-- `await self._cleanup_runner(old_runner)` of `shutdown`. -/
  | shutCleanup
  | returned
  | raised
  deriving DecidableEq

def Point.ended : Point → Bool
  | .returned | .raised => true
  | _ => false

/-- Does the coroutine have the lock? -/
def Point.holds : Point → Bool
  | .start | .acquire | .returned | .raised => false
  | _ => true

/-- How an await ended. -/
inductive Outcome
  | ok (value : ℕ)
  | raises
  deriving DecidableEq

structure Listener where
  /-- `--remote-build-only`, the settings on disk, `has_approved_pairings`. -/
  remoteBuildOnly : Bool := false
  enabled : Bool := true
  approvedPairings : Bool := false
  /-- `remote_build_receiver` is set. -/
  receiverUp : Bool := false
  /-- The pin of the identity in the store. -/
  identity : ℕ := 0
  advertiser : Option Advert := some {}
  runner : Option Runner := none
  boundPort : Option ℕ := none
  receiverRoleActive : Bool := false
  /-- `_unsub_pair_status_changed` is set. -/
  tracking : Bool := false
  convergeRetryHandle : Option ℕ := none
  bindFailureWarned : Bool := false
  convergeRetryStrikes : ℕ := 0
  stopped : Bool := false
  /-- The armed timers of the loop. -/
  timers : List Timer := []
  nextTimer : ℕ := 0
  policy : Option Policy := none
  deriving DecidableEq

structure Task where
  kind : Kind
  point : Point
  deriving DecidableEq

structure World extends Listener where
  holder : Option ℕ := none
  waiters : List ℕ := []
  tasks : List Task := []
  deriving DecidableEq

inductive Action
  /-- `set_settings`: the value lands on disk, then `converge`. -/
  | setSettings (enabled : Bool)
  /-- A pairing's status flips; `OFFLOADER_PAIR_STATUS_CHANGED`. -/
  | pairingTransition (approved : Bool)
  | startReceiver
  | trackPairingTransitions
  /-- `maybe_start`, `converge_listener_for_connect_back`. -/
  | converge
  /-- `_rotate_and_reload`. -/
  | rotateIdentity (pin : ℕ)
  | shutdown
  | timerFires (id : ℕ)
  /-- The executor reads the settings for task `i`; it raises unless `ok`. -/
  | readSettings (i : ℕ) (ok : Bool)
  | resume (i : ℕ) (o : Outcome)
  deriving DecidableEq

def convergeRetryDelaySeconds : ℕ := 30
def convergeRetryMaxDelaySeconds : ℕ := 3600

namespace Listener

variable (l : Listener)

/-- `_compute_policy`, once the settings are read. -/
def computePolicy (enabled : Bool) : Policy :=
  let receiverRole := enabled || l.remoteBuildOnly
  let wanted := receiverRole || l.approvedPairings
  { wanted := wanted
    bind := wanted && l.receiverUp
    receiverRole := receiverRole
    offloaderNeeds := l.approvedPairings
    forcedByCli := l.remoteBuildOnly && !enabled }

/-! ### The retry timer -/

/-- `_schedule_converge_retry`. -/
def scheduleConvergeRetry : Listener :=
  if l.convergeRetryHandle.isSome || l.stopped then l
  else
    { l with
      convergeRetryStrikes := l.convergeRetryStrikes + 1
      convergeRetryHandle := some l.nextTimer
      nextTimer := l.nextTimer + 1
      timers := l.timers ++ [{
        id := l.nextTimer
        delay := min (convergeRetryDelaySeconds * 2 ^ min l.convergeRetryStrikes 32) convergeRetryMaxDelaySeconds }] }

/-- `_converge_retry_handle.cancel()`. -/
def cancelConvergeRetry : Listener :=
  match l.convergeRetryHandle with
  | none => l
  | some id => { l with convergeRetryHandle := none, timers := l.timers.filter (·.id ≠ id) }

/-! ### Inside the lock -/

/-- The setters of `publish_advertise`. -/
def publishAdvertise (pin port : Option ℕ) : Listener :=
  { l with advertiser := l.advertiser.map fun _ => ⟨pin, port⟩ }

/-- The fields of an unbound listener. -/
def unbind : Listener := { l with runner := none, boundPort := none, receiverRoleActive := false }

/-- The end of `_converge_locked`. -/
def finish (p : Policy) : Listener × Point :=
  if p.wanted && l.runner.isNone then
    (scheduleConvergeRetry { l with bindFailureWarned := true }, .returned)
  else ({ l with bindFailureWarned := false, convergeRetryStrikes := 0 }, .returned)

/-- `_teardown_runner` is through. -/
def tornDown : Next → Listener × Point
  | .finish p => l.finish p
  | .rebind p => (l, .bindPort p)
  | .reload => (l, .loadSettings .pending)

/-- `_teardown_runner`, up to its first await. -/
def teardownRunner (next : Next) : Listener × Point :=
  if l.runner.isNone then l.tornDown next else (l.unbind, .cleanup next)

/-- `_teardown_runner`, once the old runner is cleaned up. -/
def cleanedUp (next : Next) : Listener × Point :=
  if l.advertiser.isNone then l.tornDown next else (l.publishAdvertise none none, .refresh next)

/-- `_converge_locked`, once the policy is computed. -/
def convergeTo (p : Policy) : Listener × Point :=
  let l := { l with policy := some p }
  if !p.wanted then l.teardownRunner (.finish p)
  else if p.bind then
    if l.runner.isNone then (l, .bindPort p)
    else if p.receiverRole ≠ l.receiverRoleActive then l.teardownRunner (.rebind p)
    else l.finish p
  -- wanted, but the receiver controller is not up yet: a runner is kept
  else l.finish p

/-- `_compute_policy` raises: `converge` arms the retry, `reload_identity` does not. -/
def policyRaised : Kind → Listener × Point
  | .converge => (l.scheduleConvergeRetry, .raised)
  | _ => (l, .raised)

/-- `_start_listener`, once the runner is started. -/
def started (p : Policy) (port pin : ℕ) : Listener × Point :=
  let l := { l with
    runner := some ⟨port, pin, p.receiverRole⟩
    boundPort := some port
    receiverRoleActive := p.receiverRole }
  -- a listener for connect-back only is not advertised
  if p.receiverRole && l.advertiser.isSome then (l.publishAdvertise (some pin) (some port), .publish p)
  else l.finish p

/-- A coroutine takes the lock. -/
def entered : Kind → Listener × Point
  | .converge => if l.stopped then (l, .returned) else (l, .loadSettings .pending)
  | .reload => if l.runner.isNone then (l, .returned) else l.teardownRunner .reload
  | .shutdown => if l.runner.isNone then (l, .returned) else (l.unbind, .shutCleanup)

/-- A coroutine that has the lock goes on from its await. -/
def resumed (k : Kind) : Point → Outcome → Listener × Point
  | .loadSettings (.value enabled), _ => l.convergeTo (l.computePolicy enabled)
  | .loadSettings .raised, _ => l.policyRaised k
  -- `_cleanup_runner` and `publish_advertise` swallow what is raised
  | .cleanup next, _ => l.cleanedUp next
  | .refresh next, _ => l.tornDown next
  | .bindPort p, .ok port => (l, .loadIdentity p port)
  | .bindPort p, .raises => l.finish p
  | .loadIdentity p port, .ok _ => (l, .startSites p port l.identity)
  -- no runner was made yet
  | .loadIdentity p _, .raises => l.finish p
  | .startSites p port pin, .ok _ => l.started p port pin
  | .startSites p _ _, .raises => (l, .cleanupPartial p)
  | .cleanupPartial p, _ => l.finish p
  | .publish p, _ => l.finish p
  | .shutCleanup, _ => (l, .returned)
  | pt, _ => (l, pt)

end Listener

namespace World

variable (w : World)

def spawn (k : Kind) : World := { w with tasks := w.tasks ++ [⟨k, .start⟩] }

/-- Task `i`, which has the lock, comes to its next await; at its end the lock is released. -/
def put (i : ℕ) (r : Listener × Point) : World :=
  { w with
    toListener := r.1
    holder := if r.2.ended then none else some i
    tasks := w.tasks.modify i fun t => { t with point := r.2 } }

/-- `async with self._get_lock()`. -/
def lock (i : ℕ) (k : Kind) : World :=
  if w.holder = none ∧ w.waiters = [] then w.put i (w.entered k)
  else { w with
    waiters := w.waiters ++ [i]
    tasks := w.tasks.modify i fun t => { t with point := .acquire } }

/-- Task `i` starts. -/
def begin (i : ℕ) : Kind → World
  | .converge =>
    if w.stopped then { w with tasks := w.tasks.modify i fun t => { t with point := .returned } } else w.lock i .converge
  | .reload => w.lock i .reload
  | .shutdown =>
    lock { w with toListener := Listener.cancelConvergeRetry { w.toListener with stopped := true, tracking := false } }
      i .shutdown

/-- Task `i` is next for the lock. -/
def acquired (i : ℕ) (k : Kind) : World :=
  if w.holder = none ∧ w.waiters.head? = some i then put { w with waiters := w.waiters.tail } i (w.entered k) else w

def resume (i : ℕ) (o : Outcome) : World :=
  match w.tasks[i]? with
  | none => w
  | some ⟨k, .start⟩ => w.begin i k
  | some ⟨k, .acquire⟩ => w.acquired i k
  | some ⟨k, pt⟩ => if pt.holds then w.put i (w.resumed k pt o) else w

/-- `_run_converge_retry`. -/
def runConvergeRetry (id : ℕ) : World :=
  if w.timers.any (·.id = id) then
    spawn { w with convergeRetryHandle := none, timers := w.timers.filter (·.id ≠ id) } .converge
  else w

/-- The executor reads the settings for task `i`. -/
def readSettings (i : ℕ) (ok : Bool) : World :=
  { w with tasks := w.tasks.modify i fun t =>
      if t.point = .loadSettings .pending then
        { t with point := .loadSettings (if ok then .value w.enabled else .raised) }
      else t }

/-- One step. -/
def step (w : World) : Action → World
  | .setSettings enabled => spawn { w with enabled := enabled } .converge
  | .pairingTransition approved =>
    let w := { w with approvedPairings := approved }
    if w.tracking then w.spawn .converge else w
  | .startReceiver => { w with receiverUp := true }
  | .trackPairingTransitions => { w with tracking := true }
  | .converge => w.spawn .converge
  | .rotateIdentity pin => spawn { w with identity := pin } .reload
  | .shutdown => w.spawn .shutdown
  | .timerFires id => w.runConvergeRetry id
  | .readSettings i ok => w.readSettings i ok
  | .resume i o => w.resume i o

/-- A dashboard that starts. -/
def init (remoteBuildOnly enabled : Bool) (identity : ℕ) (advertises : Bool) : World :=
  { remoteBuildOnly, enabled, identity, advertiser := if advertises then some {} else none }

end World

end DeviceBuilder.Lifecycle
