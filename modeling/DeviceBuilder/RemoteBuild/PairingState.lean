import DeviceBuilder.Lib.Dict
import DeviceBuilder.Models.RemoteBuild

/-!
# Receiver pairing state

The pairing part of `ReceiverState` (`_receiver_state.py`): the refcounted
pairing window with its timer handle, the bootstrap flag and key, the PENDING
and the APPROVED rows. `tasks` are the coroutines suspended at an await, `log`
is every bus event and every intent response, oldest first.

Time is `time.monotonic()` in clock ticks, `second` of them to a second. A timer
handle may run as soon as its time is less than `clockResolution` away, and any
time later.
-/

namespace DeviceBuilder

/-- `PAIRING_WINDOW_DURATION_SECONDS`. -/
def pairingWindowDurationSeconds : ℕ := 300

/-- `BOOTSTRAP_PAIRING_WINDOW_DURATION_SECONDS`. -/
def bootstrapPairingWindowDurationSeconds : ℕ := 900

/-- What the pair flow is configured with. -/
structure PairingSettings where
  lib : Library
  second : ℕ
  clockResolution : ℕ
  allowPairingSources : List String

/-- The refcount key of a window entry: a WS connection or the bootstrap runner. -/
inductive WindowClient
  | ws (n : ℕ)
  | bootstrap
  deriving DecidableEq

inductive PairStatusChange
  | approved
  | removed
  deriving DecidableEq

inductive PeerLinkIntent
  | pairRequest
  | peerLink
  | pairStatus
  deriving DecidableEq

inductive PairEvent
  | pairStatusChanged (dashboardId : DashboardId) (status : PairStatusChange)
  | pairingWindowChanged (open' : Bool) (expiresIn : Option ℕ)
  | pairRequestReceived (row : StoredPeer)
  | peerRefreshed (row : StoredPeer)
  /-- The response to an intent, sent to the dialling offloader. -/
  | answered (intent : PeerLinkIntent) (dashboardId : DashboardId) (pin : Pin)
      (outcome : IntentOutcome)
  deriving DecidableEq

/-- A coroutine of the pair flow at its await. -/
inductive PairTask
  /-- `_auto_approve_pair_request` in `async_save_now`. -/
  | autoApprove (dashboardId : DashboardId) (pin : Pin)
  /-- `lookup_peer_for_status` in `flip_event.wait`. -/
  | pairStatus (dashboardId : DashboardId) (pin : Pin) (flipEvent : Bool)
  /-- `_bootstrap_first_pair` loading the identity for its banner. -/
  | bootstrapLoad (paired windowClosed : Bool)
  /-- `_bootstrap_first_pair` in `_wait_first`. -/
  | bootstrapWait (paired windowClosed : Bool)
  | ended
  deriving DecidableEq

structure PairingState where
  pairingWindowClients : Dict WindowClient ℕ := ∅
  pairingWindowHandle : Option ℕ := none
  autoApproveFirstPair : Bool := false
  bootstrapPairingKey : Option String := none
  pendingPeers : Dict DashboardId StoredPeer := ∅
  approvedPeers : Dict DashboardId StoredPeer := ∅
  now : ℕ := 0
  tasks : List PairTask := []
  log : List PairEvent := []

/-- A listener hears an event: the long poll's flip, the bootstrap runner's two events. -/
def PairTask.hear (e : PairEvent) : PairTask → PairTask
  | .pairStatus d pin flipEvent =>
    match e with
    | .pairStatusChanged d' _ => .pairStatus d pin (flipEvent || d' = d)
    | _ => .pairStatus d pin flipEvent
  | .bootstrapLoad paired windowClosed =>
    match e with
    | .pairStatusChanged _ .approved => .bootstrapLoad true windowClosed
    | .pairingWindowChanged false _ => .bootstrapLoad paired true
    | _ => .bootstrapLoad paired windowClosed
  | .bootstrapWait paired windowClosed =>
    match e with
    | .pairStatusChanged _ .approved => .bootstrapWait true windowClosed
    | .pairingWindowChanged false _ => .bootstrapWait paired true
    | _ => .bootstrapWait paired windowClosed
  | t => t

namespace PairingState

/-- `bus.fire`: every listener hears the event before it returns. -/
def fire (s : PairingState) (e : PairEvent) : PairingState :=
  { s with tasks := s.tasks.map (·.hear e), log := s.log ++ [e] }

/-- `_fire_pair_status_changed`. -/
def firePairStatusChanged (s : PairingState) (d : DashboardId) (status : PairStatusChange) :
    PairingState :=
  s.fire (.pairStatusChanged d status)

/-- Send the response to an intent. -/
def answer (s : PairingState) (intent : PeerLinkIntent) (d : DashboardId) (pin : Pin)
    (outcome : IntentOutcome) : PairingState :=
  { s with log := s.log ++ [.answered intent d pin outcome] }

def spawn (s : PairingState) (t : PairTask) : PairingState := { s with tasks := s.tasks ++ [t] }

def setTask (s : PairingState) (i : ℕ) (t : PairTask) : PairingState :=
  { s with tasks := s.tasks.set i t }

end PairingState

end DeviceBuilder
