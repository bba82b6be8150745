import DeviceBuilder.Lib.Dict
import DeviceBuilder.Models.RemoteBuild

/-!
# Pairings and clients of an offloader

The offloader holds a row for each receiver it paired with, keyed by the
receiver's pin, and a long-lived peer-link client for each APPROVED row, in a
table of its own. A row is an object: `request_pair` puts a new one under the
pin, an approval and a rebind change the one that is there. Rows, clients and
coroutines are indices into lists that do not shrink.
-/

namespace DeviceBuilder.RemoteBuild

inductive PeerStatus
  | pending
  | approved
  deriving DecidableEq

structure StoredPairing where
  receiverHostname : String
  receiverPort : ℕ
  pinSha256 : Pin
  staticX25519Pub : PublicKey
  label : String
  status : PeerStatus
  enabled : Bool := true
  deriving DecidableEq

abbrev RowId := ℕ

abbrev ClientId := ℕ

/-- A client task. A cancelled one is still tearing its session down. -/
inductive ClientPhase
  | running
  | cancelled
  | done
  deriving DecidableEq

/-- `PeerLinkClient` with its run task: `PeerLinkClientHandle`. -/
structure PeerLinkClient where
  receiverHostname : String
  receiverPort : ℕ
  pinnedStaticX25519Pub : PublicKey
  pinSha256 : Pin
  phase : ClientPhase := .running
  deriving DecidableEq

/-- The awaits of `stop`. -/
inductive StopPhase
  /-- The drain of the tracked tasks. -/
  | tasks
  /-- The drain of the pair-status listeners. -/
  | listeners
  /-- The drain of these clients. -/
  | clients (ks : List ClientId)
  /-- The shutdown callbacks. -/
  | callbacks
  deriving DecidableEq

/-- Where a coroutine of the controller waits. -/
inductive OffloaderTask
  /-- `request_pair`, in its round trip. -/
  | requestPair (hostname : String) (port : ℕ) (pin : Pin) (label : String)
  /-- `converge_and_spawn_peer_link_client`, in the converge. -/
  | converge (r : RowId)
  /-- The pair-status listener of a row, in its long poll or its backoff. -/
  | pairStatus (r : RowId)
  /-- A rebind, in its probe; for a `connect_back`, or not; as a tracked task, or not. -/
  | probe (r : RowId) (hostname : String) (port : ℕ) (connectBack tracked : Bool)
  /-- A rebind, in the teardown of the old client. -/
  | respawn (r : RowId) (k : ClientId) (tracked : Bool)
  | stop (phase : StopPhase)
  | ended
  deriving DecidableEq

structure OffloaderWorld where
  rows : List StoredPairing := []
  pairings : Dict Pin RowId := ∅
  clients : List PeerLinkClient := []
  peerLinkClients : Dict Pin ClientId := ∅
  pairStatusListeners : Dict Pin ℕ := ∅
  openPeerLinks : List Pin := []
  rebindProbeUntil : Dict Pin ℕ := ∅
  remoteBuildsEnabled : Bool := true
  now : ℕ := 0
  tasks : List OffloaderTask := []

namespace OffloaderWorld

variable (w : OffloaderWorld)

def setTask (i : ℕ) (t : OffloaderTask) : OffloaderWorld := { w with tasks := w.tasks.set i t }

def spawn (t : OffloaderTask) : OffloaderWorld := { w with tasks := w.tasks ++ [t] }

/-- The row under a pin. -/
def pairing (pin : Pin) : Option StoredPairing := (w.pairings.get? pin).bind (w.rows[·]?)

/-- `not task.done()` of client `k`. -/
def isAlive (k : ClientId) : Bool := (w.clients[k]?).any (·.phase ≠ .done)

/-- `task.cancel()` of client `k`, unless it is done. -/
def cancelClient (k : ClientId) : OffloaderWorld :=
  { w with clients := w.clients.modify k fun c =>
      { c with phase := if c.phase = .done then .done else .cancelled } }

/-! ### `peer_link_lifecycle.py` -/

/-- `spawn_peer_link_client`, once the identities are loaded. -/
def spawnPeerLinkClient (r : RowId) : OffloaderWorld :=
  match w.rows[r]? with
  | none => w
  | some p =>
    if (w.peerLinkClients.get? p.pinSha256).any w.isAlive then w
    else { w with
      clients := w.clients ++ [{
        receiverHostname := p.receiverHostname, receiverPort := p.receiverPort
        pinnedStaticX25519Pub := p.staticX25519Pub, pinSha256 := p.pinSha256 }]
      peerLinkClients := w.peerLinkClients.set p.pinSha256 w.clients.length }

def cancelPeerLinkClient (pin : Pin) : OffloaderWorld :=
  match w.peerLinkClients.get? pin with
  | none => w
  | some k => ({ w with peerLinkClients := w.peerLinkClients.erase pin } : OffloaderWorld).cancelClient k

/-- `cancel_peer_link_client_and_wait`, with the client left to await. -/
def cancelPeerLinkClientAndWait (pin : Pin) : Option ClientId × OffloaderWorld :=
  match w.peerLinkClients.get? pin with
  | none => (none, w)
  | some k => (if w.isAlive k then some k else none, w.cancelPeerLinkClient pin)

/-! ### The pair-status listener -/

def spawnPairStatusListener (r : RowId) : OffloaderWorld :=
  match w.rows[r]? with
  | none => w
  | some p =>
    if (w.pairStatusListeners.get? p.pinSha256).any fun i => w.tasks[i]? ≠ some .ended then w
    else { w with pairStatusListeners := w.pairStatusListeners.set p.pinSha256 w.tasks.length }.spawn (.pairStatus r)

def cancelPairStatusListener (pin : Pin) : OffloaderWorld :=
  match w.pairStatusListeners.get? pin with
  | none => w
  | some i => ({ w with pairStatusListeners := w.pairStatusListeners.erase pin } : OffloaderWorld).setTask i .ended

/-- Task `i` ends; if it is the listener of `pin`, its slot is cleared. -/
def endListener (i : ℕ) (pin : Pin) : OffloaderWorld :=
  (if w.pairStatusListeners.get? pin = some i then
    { w with pairStatusListeners := w.pairStatusListeners.erase pin } else w).setTask i .ended

/-! ### Rows -/

/-- Drop the row under `pin` with its tasks: `unpair`, and the sweep's loop body. -/
def dropPairing (pin : Pin) : OffloaderWorld :=
  let w := (w.cancelPairStatusListener pin).cancelPeerLinkClient pin
  match w.pairings.get? pin with
  | none => w
  | some _ => { w with
    pairings := w.pairings.erase pin
    openPeerLinks := w.openPeerLinks.filter (· ≠ pin) }

/-- `sweep_stale_pairings_at_endpoint`. -/
def sweepStalePairingsAtEndpoint (hostname : String) (port : ℕ) (keep : Pin) : OffloaderWorld :=
  w.pairings.keys.foldl (fun w pin =>
    match w.pairing pin with
    | none => w
    | some p =>
      if pin ≠ keep ∧ p.receiverHostname = hostname ∧ p.receiverPort = port then w.dropPairing pin else w) w

end OffloaderWorld

end DeviceBuilder.RemoteBuild
