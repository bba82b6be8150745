import DeviceBuilder.Lib.Runs
import DeviceBuilder.RemoteBuild.OffloaderState

/-!
# The offloader's pairings as a step function

`request_pair`, the pair-status listener, `unpair`, the rebinds, the two switches
and `stop`, one action for each stretch between two awaits. A `request_pair` and a
rebind start, answer and go on in actions of their own. The rotation of the
identity, the events and the caches derived from them are left out.

* `OffloaderWorld.step`: one action.
* `OffloaderWorld.start`: a started controller with the rows of its file.
-/

namespace DeviceBuilder.RemoteBuild

open Runs

/-- What a `pair_status` query comes back with. -/
inductive StatusAnswer
  | approved (observed : Pin)
  | rejected
  /-- An unexpected response, or a transport error: back off and ask again. -/
  | other
  deriving DecidableEq

inductive OffloaderAction
  | requestPair (hostname : String) (port : ℕ) (pin : Pin) (label : String)
  /-- The receiver's key, with the pin that was asked for, and its response. -/
  | pairAnswer (i : ℕ) (status : PeerStatus) (pub : PublicKey)
  | pairFailed (i : ℕ)
  | statusAnswer (i : ℕ) (answer : StatusAnswer)
  | unpair (pin : Pin)
  | discovered (hostname : String) (port : ℕ) (pin : Pin)
  | editEndpoint (pin : Pin) (hostname : String) (port : ℕ)
  | connectBack (pin : Pin) (peerIp : String) (announcedPort : ℕ)
  /-- The pin observed at the candidate endpoint, or `none`. -/
  | probeAnswer (i : ℕ) (observed : Option Pin)
  /-- A converge, a teardown or a drain is over. -/
  | resume (i : ℕ)
  /-- A client's run ends. -/
  | clientEnds (k : ClientId)
  | peerLinkOpened (pin : Pin)
  | peerLinkClosed (pin : Pin)
  | setPairingEnabled (pin : Pin) (enabled : Bool)
  | setRemoteBuildsEnabled (enabled : Bool)
  | tick (dt : ℕ)
  | stop

/-- Is the coroutine one of the controller's `_tasks`? -/
def OffloaderTask.isTracked : OffloaderTask → Bool
  | .probe _ _ _ _ tracked => tracked
  | .respawn _ _ tracked => tracked
  | _ => false

namespace OffloaderWorld

variable (lib : Library) (w : OffloaderWorld) (i : ℕ)

/-- `normalize_hostname`. -/
def normalizeHostname (hostname : String) : String :=
  lib.lower (String.ofList (hostname.toList.reverse.dropWhile (· = '.')).reverse)

def endpointsEqual (hostA : String) (portA : ℕ) (hostB : String) (portB : ℕ) : Bool :=
  portA = portB ∧ normalizeHostname lib hostA = normalizeHostname lib hostB

/-! ### Pairing -/

/-- `request_pair` past its round trip, up to the converge. -/
def pairAnswered (hostname : String) (port : ℕ) (pin : Pin) (label : String) (status : PeerStatus)
    (pub : PublicKey) : OffloaderWorld :=
  let r := w.rows.length
  let row : StoredPairing := {
    receiverHostname := hostname, receiverPort := port, pinSha256 := pin, staticX25519Pub := pub
    label := label, status := status
    enabled := ((w.pairing pin).map (·.enabled)).getD true }
  let w : OffloaderWorld := { w with rows := w.rows ++ [row] }.sweepStalePairingsAtEndpoint hostname port pin
  let w : OffloaderWorld := { w with pairings := w.pairings.set pin r }.cancelPairStatusListener pin
  match status with
  | .approved => w.setTask i (.converge r)
  | .pending => (w.spawnPairStatusListener r).setTask i .ended

/-- `apply_pair_status_result` of the listener `i` of row `p`, up to the converge. -/
def applyPairStatusResult (p : StoredPairing) : StatusAnswer → OffloaderWorld
  | .approved observed =>
    if observed ≠ p.pinSha256 then
      ({ w with pairings := w.pairings.erase p.pinSha256 } : OffloaderWorld).endListener i p.pinSha256
    else
      match w.pairings.get? p.pinSha256 with
      | none => w.endListener i p.pinSha256
      | some r' => ({ w with rows := w.rows.modify r' fun p => { p with status := .approved } }
          : OffloaderWorld).setTask i (.converge r')
  | .rejected =>
    ({ w with pairings := w.pairings.erase p.pinSha256 } : OffloaderWorld).endListener i p.pinSha256
  | .other => w

/-! ### Rebinding -/

def rebindProbeCooldownSeconds : ℕ := 30

/-- `_try_claim_probe_slot`, then the probe. -/
def claimAndProbe (r : RowId) (pin : Pin) (hostname : String) (port : ℕ) (connectBack tracked : Bool) :
    OffloaderWorld :=
  if (w.rebindProbeUntil.get? pin).any (w.now < ·) then w
  else { w with rebindProbeUntil := w.rebindProbeUntil.set pin (w.now + rebindProbeCooldownSeconds) }.spawn
    (.probe r hostname port connectBack tracked)

/-- Apply `f` to the APPROVED row under `pin`. -/
def withApproved (pin : Pin) (f : RowId → StoredPairing → OffloaderWorld) : OffloaderWorld :=
  match w.pairings.get? pin with
  | none => w
  | some r =>
    match w.rows[r]? with
    | none => w
    | some p => if p.status = .approved then f r p else w

/-- The end of `_respawn_peer_link_at_new_endpoint` and of its caller. -/
def finishRebind (r : RowId) (pin : Pin) : OffloaderWorld :=
  let w := w.spawnPeerLinkClient r
  OffloaderWorld.setTask { w with rebindProbeUntil := w.rebindProbeUntil.erase pin } i .ended

/-- `commit_endpoint_rebind`, up to the old client's teardown. -/
def commitEndpointRebind (r : RowId) (pin : Pin) (hostname : String) (port : ℕ) (tracked : Bool) :
    OffloaderWorld :=
  let w : OffloaderWorld := { w with rows := w.rows.modify r fun p =>
    { p with receiverHostname := hostname, receiverPort := port } }
  match w.cancelPeerLinkClientAndWait pin with
  | (none, w) => w.finishRebind i r pin
  | (some k, w) => w.setTask i (.respawn r k tracked)

/-- `probe_pairing_endpoint` past its round trip, and what its caller does with the outcome. -/
def probed (r : RowId) (p : StoredPairing) (hostname : String) (port : ℕ) (connectBack tracked : Bool) :
    Option Pin → OffloaderWorld
  | none => w.setTask i .ended
  | some observed =>
    if observed ≠ p.pinSha256 ∨ w.pairings.get? p.pinSha256 ≠ some r ∨ p.status ≠ .approved then
      w.setTask i .ended
    else if connectBack ∧ p.pinSha256 ∈ w.openPeerLinks then w.setTask i .ended
    else w.commitEndpointRebind i r p.pinSha256 hostname port tracked

/-! ### Stopping -/

/-- `stop`, up to the drain of the tracked tasks: all are cancelled. -/
def beginStop : OffloaderWorld :=
  { w with tasks := (w.tasks.map fun t => if t.isTracked then .ended else t) ++ [.stop .tasks] }

/-- `stop` runs on from the end of a drain. -/
def resumeStop : StopPhase → OffloaderWorld
  | .tasks =>
    -- the listeners' own `finally` finds its slot or not; `clear` follows the drain
    (w.pairStatusListeners.values.foldl (fun w j => w.setTask j .ended) w).setTask i (.stop .listeners)
  | .listeners =>
    let ks := w.peerLinkClients.values
    let w : OffloaderWorld := { w with pairStatusListeners := ∅ }
    (ks.foldl (fun w k => w.cancelClient k) w).setTask i (.stop (.clients ks))
  | .clients ks =>
    if ks.any w.isAlive then w
    else OffloaderWorld.setTask { w with peerLinkClients := ∅ } i (.stop .callbacks)
  | .callbacks => OffloaderWorld.setTask { w with
      pairings := ∅, openPeerLinks := [], rebindProbeUntil := ∅ } i .ended

/-! ### Steps -/

def resumeTask : OffloaderTask → OffloaderWorld
  | .converge r =>
    match w.rows[r]? with
    | none => w
    | some p => (w.spawnPeerLinkClient r).endListener i p.pinSha256
  | .respawn r k _ =>
    match w.rows[r]? with
    | none => w
    | some p => if w.isAlive k then w else w.finishRebind i r p.pinSha256
  | .stop phase => w.resumeStop i phase
  | _ => w

def step (w : OffloaderWorld) : OffloaderAction → OffloaderWorld
  | .requestPair hostname port pin label => w.spawn (.requestPair hostname port pin label)
  | .pairAnswer i status pub =>
    match w.tasks[i]? with
    | some (.requestPair hostname port pin label) => w.pairAnswered i hostname port pin label status pub
    | _ => w
  | .pairFailed i =>
    match w.tasks[i]? with
    | some (.requestPair ..) => w.setTask i .ended
    | _ => w
  | .statusAnswer i answer =>
    match w.tasks[i]? with
    | some (.pairStatus r) =>
      match w.rows[r]? with
      | none => w
      | some p => w.applyPairStatusResult i p answer
    | _ => w
  | .unpair pin => w.dropPairing pin
  | .discovered hostname port pin =>
    if pin = "" ∨ port = 0 then w
    else w.withApproved pin fun r p =>
      let hostname := normalizeHostname lib hostname
      if endpointsEqual lib p.receiverHostname p.receiverPort hostname port then w
      else w.claimAndProbe r pin hostname port false true
  | .editEndpoint pin hostname port =>
    w.withApproved pin fun r p =>
      if endpointsEqual lib p.receiverHostname p.receiverPort hostname port then w
      else w.spawn (.probe r hostname port false false)
  | .connectBack pin peerIp announcedPort =>
    w.withApproved pin fun r _ =>
      if announcedPort = 0 ∨ lib.ipAddress peerIp = none ∨ pin ∈ w.openPeerLinks then w
      else w.claimAndProbe r pin peerIp announcedPort true false
  | .probeAnswer i observed =>
    match w.tasks[i]? with
    | some (.probe r hostname port connectBack tracked) =>
      match w.rows[r]? with
      | none => w
      | some p => w.probed i r p hostname port connectBack tracked observed
    | _ => w
  | .resume i =>
    match w.tasks[i]? with
    | some t => w.resumeTask i t
    | none => w
  | .clientEnds k => { w with clients := w.clients.modify k fun c => { c with phase := .done } }
  | .peerLinkOpened pin => { w with openPeerLinks := w.openPeerLinks ++ [pin] }
  | .peerLinkClosed pin => { w with openPeerLinks := w.openPeerLinks.filter (· ≠ pin) }
  | .setPairingEnabled pin enabled =>
    match w.pairings.get? pin with
    | none => w
    | some r => { w with rows := w.rows.modify r fun p => { p with enabled := enabled } }
  | .setRemoteBuildsEnabled enabled => { w with remoteBuildsEnabled := enabled }
  | .tick dt => { w with now := w.now + dt }
  | .stop => w.beginStop

end OffloaderWorld

/-- `.offloader_pairings.json`: the rows, one for each pin. -/
structure PairingsFile where
  rows : List StoredPairing
  distinct : (rows.map (·.pinSha256)).Nodup

namespace OffloaderWorld

variable (lib : Library)

/-- The rows of the file, each under its pin. -/
def seed (file : PairingsFile) : OffloaderWorld where
  rows := file.rows
  pairings := file.rows.zipIdx.foldl (fun d e => d.set e.1.pinSha256 e.2) ∅

/-- `start`: seed the rows and spawn a client for each APPROVED one. -/
def start (file : PairingsFile) : OffloaderWorld :=
  (seed file).pairings.values.foldl (fun w r =>
    match w.rows[r]? with
    | none => w
    | some p => if p.status = .approved then w.spawnPeerLinkClient r else w) (seed file)

/-- `w` is reached from a start by actions that all met `ok`. -/
def Reachable (ok : OffloaderWorld → OffloaderAction → Prop) (w : OffloaderWorld) : Prop :=
  ∃ file, Reaches (step lib) ok (start file) w

end OffloaderWorld

end DeviceBuilder.RemoteBuild
