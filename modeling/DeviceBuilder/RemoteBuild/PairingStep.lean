import DeviceBuilder.Lib.Runs
import DeviceBuilder.RemoteBuild.PairFlow

/-!
# The receiver's pairing as a step function

One action runs the event loop until the next await: a handshake's intent, an
admin's command, the timer handle, the continuation of a suspended task or its
exception or cancellation. Time passes only by `tick`.

* `PairingState.step`: one action.
* `PairingState.Reachable cfg ok s`: `s` is reached from a start with some peers
  file, by actions that all met `ok`.
-/

namespace DeviceBuilder

open Runs

inductive PairAction
  | dispatch (inp : PairingState.DispatchInput)
  | approvePeer (raw : String)
  | removePeer (raw : String)
  | setPairingWindow (open' : Bool) (client : ℕ)
  | serve (pairingKey : String)
  | deadline
  | refreshIdentity (dashboardId : DashboardId) (identity : SessionIdentity)
  | resume (i : ℕ)
  /-- An exception or a cancellation at the await of task `i`. -/
  | raise (i : ℕ)
  | tick (dt : ℕ)

namespace PairingState

variable (cfg : PairingSettings) (s : PairingState)

/-- Run task `t`, the task at `i`, from its await on. -/
def resumeTask (i : ℕ) : PairTask → PairingState
  | .autoApprove d pin =>
    ((s.setTask i .ended).firePairStatusChanged d .approved).answer .pairRequest d pin
      { response := .approved }
  | .pairStatus d pin true =>
    (s.setTask i .ended).answer .pairStatus d pin (s.lookupPeerResponse d pin .approved)
  | .pairStatus _ _ false => s
  | .bootstrapLoad paired windowClosed => s.setTask i (.bootstrapWait paired windowClosed)
  | .bootstrapWait true _ =>
    (s.setTask i .ended).disarm.setPairingWindow cfg false .bootstrap pairingWindowDurationSeconds
  | .bootstrapWait false true => (s.setTask i .ended).disarm
  | .bootstrapWait false false => s
  | .ended => s

/-- Task `t`, the task at `i`, fails at its await. -/
def raiseTask (i : ℕ) : PairTask → PairingState
  | .bootstrapLoad _ _ | .bootstrapWait _ _ => (s.setTask i .ended).disarm
  | .autoApprove _ _ | .pairStatus _ _ _ => s.setTask i .ended
  | .ended => s

def step (s : PairingState) : PairAction → PairingState
  | .dispatch inp => s.dispatchIntent cfg inp
  | .approvePeer raw =>
    match s.approvePeer raw with
    | .ok s' => s'
    | .error _ => s
  | .removePeer raw =>
    match s.removePeer raw with
    | .ok s' => s'
    | .error _ => s
  | .setPairingWindow open' client =>
    s.setPairingWindow cfg open' (.ws client) pairingWindowDurationSeconds
  | .serve pairingKey => s.serve cfg pairingKey
  | .deadline =>
    match s.pairingWindowHandle with
    | some t => if t < s.now + cfg.clockResolution ∨ t ≤ s.now then s.onPairingWindowDeadline else s
    | none => s
  | .refreshIdentity d i => s.refreshPeerDisplayIdentity d i
  | .resume i =>
    match s.tasks[i]? with
    | some t => s.resumeTask cfg i t
    | none => s
  | .raise i =>
    match s.tasks[i]? with
    | some t => s.raiseTask i t
    | none => s
  | .tick dt => { s with now := s.now + dt }

end PairingState

/-- `.receiver_peers.json`: APPROVED rows a receiver wrote, each with its key's pin. -/
structure PeersFile (lib : Library) where
  peers : Dict DashboardId StoredPeer
  pinned : ∀ d p, peers.get? d = some p → p.pinSha256 = lib.pinSha256ForPubkey p.staticX25519Pub

/-- The file of a receiver that never paired. -/
def PeersFile.none (lib : Library) : PeersFile lib := ⟨∅, fun _ _ h => by cases h⟩

namespace PairingState

variable (cfg : PairingSettings)

/-- A receiver that has loaded its APPROVED rows. -/
def start (file : PeersFile cfg.lib) : PairingState := { approvedPeers := file.peers }

/-- `s` is reached from a start by actions that all met `ok`. -/
def Reachable (ok : PairingState → PairAction → Prop) (s : PairingState) : Prop :=
  ∃ file, Reaches (step cfg) ok (start cfg file) s

end PairingState

end DeviceBuilder
