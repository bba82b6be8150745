import DeviceBuilder.Helpers.Storage
import DeviceBuilder.Helpers.VersionCompat
import DeviceBuilder.RemoteBuild.OffloaderStep
import DeviceBuilder.RemoteBuild.PairingStep

/-!
# The stores of the pairings

The offloader saves its APPROVED rows and its settings, the receiver its APPROVED
rows. Both keep the rows in RAM and ask their store for a save after a change; the
store calls `_serialize_pairings`, or `_serialize_peers`, when it writes.

* `PairingsWorld.step`: the offloader with `.offloader_pairings.json`.
* `PeersWorld.step`: the receiver with `.receiver_peers.json`.

In both, `ram` of the store is what the serializer would return now.
-/

namespace DeviceBuilder.Storage

/-- A step of a store that no consumer calls for: its timer, its tasks, its threads. -/
def StoreAction.isOwn {V : Type*} : StoreAction V → Bool
  | .tick | .timerFires | .resume _ | .jobStarts _ | .jobEnds _ _ => true
  | .mutate _ _ | .saveNow | .cancel _ => false

end DeviceBuilder.Storage

namespace DeviceBuilder.RemoteBuild

open Runs Storage

/-! ### The offloader -/

/-- The fields of a `StoredPairing` that only the pair dialog and the sessions set. -/
structure PairingDetails where
  pairedAt : ℕ := 0
  esphomeVersion : String := ""
  autoProvisionSupported : Bool := false
  friendlyName : String := ""
  haAddon : Bool := false
  resetBuildEnvSupported : Bool := false
  analyzeMemorySupported : Bool := false
  receiverLabelAuto : Bool := false
  deriving DecidableEq

structure OffloaderRemoteBuildSettings where
  pairings : List (StoredPairing × PairingDetails) := []
  remoteBuildsEnabled : Bool := true
  versionMatchPolicy : VersionMatchPolicy := .any
  includeLocalInPool : Bool := false
  deriving DecidableEq

/-- What an `intent_response` of ok says of the receiver. -/
structure OffloaderPeerLinkOpenedData where
  pinSha256 : Pin
  esphomeVersion : String
  autoProvisionSupported : Bool
  friendlyName : String
  haAddon : Bool
  resetBuildEnvSupported : Bool
  analyzeMemorySupported : Bool

def pairingVersionMaxLen : ℕ := 64

def pairingFriendlyNameMaxLen : ℕ := 128

def pairingsSaveDelaySeconds : ℕ := 1

/-- The row part of `on_offloader_peer_link_opened`; the row changed iff the result differs. -/
def PairingDetails.opened (d : PairingDetails) (data : OffloaderPeerLinkOpenedData) : PairingDetails :=
  { d with
    esphomeVersion := if data.esphomeVersion ≠ "" ∧ data.esphomeVersion.toList.length ≤ pairingVersionMaxLen
      then data.esphomeVersion else d.esphomeVersion
    autoProvisionSupported := data.autoProvisionSupported
    friendlyName := if data.friendlyName ≠ "" ∧ data.friendlyName.toList.length ≤ pairingFriendlyNameMaxLen
      then data.friendlyName else d.friendlyName
    haAddon := data.haAddon
    resetBuildEnvSupported := data.resetBuildEnvSupported
    analyzeMemorySupported := data.analyzeMemorySupported }

/-- The details of the row that `request_pair` creates: those of the row under its pin, if there is one. -/
def PairingDetails.carried (prior : Option PairingDetails) (pairedAt : ℕ) (receiverLabelAuto : Option Bool) :
    PairingDetails :=
  let d := prior.getD {}
  { d with pairedAt := pairedAt, receiverLabelAuto := receiverLabelAuto.getD d.receiverLabelAuto }

structure PairingsWorld (P : Type*) extends OffloaderWorld where
  /-- What `OffloaderWorld` leaves out of row `r`. -/
  details : RowId → PairingDetails := fun _ => {}
  versionMatchPolicy : VersionMatchPolicy := .any
  includeLocalInPool : Bool := false
  store : Store OffloaderRemoteBuildSettings P := Store.fresh P {}

inductive PairingsAction
  /-- A step of the controller, but for those below. -/
  | base (a : OffloaderAction)
  /-- `request_pair` past its round trip, with the time and the dialog's flag. -/
  | pairAnswer (i : ℕ) (status : PeerStatus) (pub : PublicKey) (pairedAt : ℕ) (receiverLabelAuto : Option Bool)
  | peerLinkOpened (data : OffloaderPeerLinkOpenedData)
  | setOffloaderSettings (remoteBuildsEnabled : Option Bool) (versionMatchPolicy : Option VersionMatchPolicy)
      (includeLocalInPool : Option Bool)
  | store (a : StoreAction OffloaderRemoteBuildSettings)

/-- Is there a row whose endpoint the answer of a probe moves? -/
def OffloaderWorld.commits (w : OffloaderWorld) (i : ℕ) (observed : Option Pin) : Bool :=
  match w.tasks[i]? with
  | some (.probe r _ _ connectBack _) => (w.rows[r]?).any fun p =>
      observed = some p.pinSha256 && w.pairings.get? p.pinSha256 = some r && p.status = .approved &&
        !(connectBack && p.pinSha256 ∈ w.openPeerLinks)
  | _ => false

/-- Where the code of an action calls `_schedule_pairings_save`. -/
def OffloaderWorld.savesPairings (w : OffloaderWorld) : OffloaderAction → Bool
  | .statusAnswer i answer =>
    match w.tasks[i]? with
    | some (.pairStatus r) => (w.rows[r]?).any fun p => answer ≠ .other && (w.pairings.get? p.pinSha256).isSome
    | _ => false
  | .unpair pin => (w.pairings.get? pin).isSome
  | .probeAnswer i observed => w.commits i observed
  | .setPairingEnabled pin _ => (w.pairings.get? pin).isSome
  | _ => false

/-- What stands in an action of its own. -/
def OffloaderAction.isElsewhere : OffloaderAction → Bool
  | .pairAnswer .. | .peerLinkOpened _ | .setRemoteBuildsEnabled _ => true
  | _ => false

namespace PairingsWorld

variable {P : Type*} (w : PairingsWorld P)

/-- `_serialize_pairings`. -/
def serializePairings : OffloaderRemoteBuildSettings where
  pairings := w.pairings.values.filterMap fun r =>
    match w.rows[r]? with
    | none => none
    | some p => if p.status = .approved then some (p, w.details r) else none
  remoteBuildsEnabled := w.remoteBuildsEnabled
  versionMatchPolicy := w.versionMatchPolicy
  includeLocalInPool := w.includeLocalInPool

/-- `_schedule_pairings_save`. -/
def schedulePairingsSave (second : ℕ) : PairingsWorld P :=
  { w with store := Store.asyncDelaySave { w.store with gen := w.store.gen + 1 } (pairingsSaveDelaySeconds * second) }

/-- The rows in RAM are what they are now. -/
def sync : PairingsWorld P := { w with store := { w.store with ram := w.serializePairings } }

def saved (second : ℕ) (save : Bool) : PairingsWorld P := if save then w.schedulePairingsSave second else w

/-- Only an APPROVED row is saved at once. -/
def pairAnswered (second : ℕ) (i : ℕ) (status : PeerStatus) (pub : PublicKey) (pairedAt : ℕ)
    (receiverLabelAuto : Option Bool) : PairingsWorld P :=
  match w.tasks[i]? with
  | some (.requestPair hostname port pin label) =>
    saved { w with
      toOffloaderWorld := w.toOffloaderWorld.pairAnswered i hostname port pin label status pub
      details := Function.update w.details w.rows.length
        (.carried ((w.pairings.get? pin).map w.details) pairedAt receiverLabelAuto) } second (status = .approved)
  | _ => w

/-- `on_offloader_peer_link_opened`. -/
def peerLinkOpened (second : ℕ) (data : OffloaderPeerLinkOpenedData) : PairingsWorld P :=
  let w' : PairingsWorld P := { w with openPeerLinks := w.openPeerLinks ++ [data.pinSha256] }
  match w.pairings.get? data.pinSha256 with
  | none => w'
  | some r => saved { w' with details := Function.update w.details r ((w.details r).opened data) } second
      ((w.details r).opened data ≠ w.details r)

/-- `set_offloader_settings`: a save if something changes. -/
def setOffloaderSettings (second : ℕ) (remoteBuildsEnabled : Option Bool) (versionMatchPolicy : Option VersionMatchPolicy)
    (includeLocalInPool : Option Bool) : PairingsWorld P :=
  let remoteBuildsEnabled := remoteBuildsEnabled.getD w.remoteBuildsEnabled
  let versionMatchPolicy := versionMatchPolicy.getD w.versionMatchPolicy
  let includeLocalInPool := includeLocalInPool.getD w.includeLocalInPool
  saved { w with
    remoteBuildsEnabled := remoteBuildsEnabled
    versionMatchPolicy := versionMatchPolicy
    includeLocalInPool := includeLocalInPool } second
    (remoteBuildsEnabled ≠ w.remoteBuildsEnabled ∨ versionMatchPolicy ≠ w.versionMatchPolicy ∨
      includeLocalInPool ≠ w.includeLocalInPool)

/-- One step. -/
def step (lib : Library) (second : ℕ) (encode : OffloaderRemoteBuildSettings → P) (w : PairingsWorld P) :
    PairingsAction → PairingsWorld P
  | .base a =>
    if a.isElsewhere then w
    else sync (saved { w with toOffloaderWorld := w.toOffloaderWorld.step lib a } second
      (w.toOffloaderWorld.savesPairings a))
  | .pairAnswer i status pub pairedAt receiverLabelAuto =>
    sync (w.pairAnswered second i status pub pairedAt receiverLabelAuto)
  | .peerLinkOpened data => sync (w.peerLinkOpened second data)
  | .setOffloaderSettings remoteBuildsEnabled versionMatchPolicy includeLocalInPool =>
    sync (w.setOffloaderSettings second remoteBuildsEnabled versionMatchPolicy includeLocalInPool)
  | .store a => if a.isOwn then { w with store := w.store.step encode a } else w

/-- A started controller: the rows and the settings are those of the file, if there is one. -/
def start (file : PairingsFile) (details : RowId → PairingDetails) (settings : OffloaderRemoteBuildSettings)
    (saved : Option P) : PairingsWorld P :=
  sync {
    toOffloaderWorld := { OffloaderWorld.start file with remoteBuildsEnabled := settings.remoteBuildsEnabled }
    details := details
    versionMatchPolicy := settings.versionMatchPolicy
    includeLocalInPool := settings.includeLocalInPool
    store := { Store.fresh P {} with file := saved.map fun f => (0, f) } }

end PairingsWorld

end DeviceBuilder.RemoteBuild

namespace DeviceBuilder

open Runs Storage RemoteBuild

/-! ### The receiver -/

def peersSaveDelaySeconds : ℕ := 1

structure PeersWorld (P : Type*) extends PairingState where
  store : Store (List StoredPeer) P := Store.fresh P []
  /-- The auto-approvals in `async_save_now`: the task of the pair flow, and that of the store. -/
  flushes : List (ℕ × ℕ) := []

inductive PeersAction
  | act (a : PairAction)
  | store (a : StoreAction (List StoredPeer))

namespace PairingState

variable (cfg : PairingSettings) (s : PairingState)

/-- Does `record_pair_request` come to `_auto_approve_pair_request`? -/
def autoApproves (q : PairRequest) : Bool :=
  s.approvedPeers.get? q.dashboardId = none && s.isPairingWindowOpen && s.autoApproveFirstPair &&
    s.approvedPeers.isEmpty && s.prune.autoApproveAllowed cfg q

/-- Where the code of an action calls `async_delay_save`, with its delay. -/
def savesPeers : PairAction → Option ℕ
  | .dispatch (.pairRequest q) =>
    let q := q.handshake cfg.lib
    if isDashboardId q.dashboardId then
      match s.approvedPeers.get? q.dashboardId with
      | some peer =>
        if peer.pinSha256 = q.pinSha256 ∧ peer.refreshFromPairRequest q ≠ peer then
          some (peersSaveDelaySeconds * cfg.second)
        else none
      | none => if s.autoApproves cfg q then some 0 else none
    else none
  | .approvePeer raw =>
    match s.approvePeer raw with
    | .ok _ => some (peersSaveDelaySeconds * cfg.second)
    | .error _ => none
  | .removePeer raw =>
    match validateDashboardId raw with
    | none => none
    | some d =>
      -- a PENDING row is dropped without a save
      if (s.pendingPeers.get? d).isNone ∧ (s.approvedPeers.get? d).isSome then
        some (peersSaveDelaySeconds * cfg.second)
      else none
  | .refreshIdentity d i =>
    if (s.approvedPeers.get? d).any fun p => p.refreshDisplayIdentity i ≠ p then
      some (peersSaveDelaySeconds * cfg.second)
    else none
  | _ => none

/-- Does the action go on to `async_save_now`? -/
def flushesPeers : PairAction → Bool
  | .dispatch (.pairRequest q) =>
    isDashboardId q.dashboardId && s.autoApproves cfg (q.handshake cfg.lib)
  | _ => false

end PairingState

namespace PeersWorld

variable {P : Type*} (cfg : PairingSettings) (w : PeersWorld P)

/-- `_serialize_peers`. -/
def serializePeers : List StoredPeer := w.approvedPeers.values

def sync : PeersWorld P := { w with store := { w.store with ram := w.serializePeers } }

/-- The store's task that task `i` of the pair flow awaits. -/
def flushOf (i : ℕ) : Option ℕ := (w.flushes.find? (·.1 = i)).map (·.2)

/-- `async_delay_save`. -/
def saved (save : Option ℕ) : PeersWorld P :=
  match save with
  | none => w
  | some delay => { w with store := Store.asyncDelaySave { w.store with gen := w.store.gen + 1 } delay }

/-- `await async_save_now()` of the pair flow's task `i`. -/
def flushed (i : ℕ) (flush : Bool) : PeersWorld P :=
  if flush then { w with
    store := w.store.asyncSaveNow
    flushes := w.flushes ++ [(i, w.store.tasks.length)] }
  else w

/-- An action of the pair flow. -/
def act (a : PairAction) : PeersWorld P :=
  flushed (sync (saved { w with toPairingState := w.toPairingState.step cfg a } (w.savesPeers cfg a)))
    w.tasks.length (w.flushesPeers cfg a)

/-- One step. -/
def step (encode : List StoredPeer → P) (w : PeersWorld P) : PeersAction → PeersWorld P
  | .act (.resume i) =>
    match w.flushOf i with
    | none => w.act cfg (.resume i)
    -- the flush is over
    | some t => if w.store.isLive t then w else w.act cfg (.resume i)
  | .act (.raise i) =>
    match w.flushOf i with
    | none => w.act cfg (.raise i)
    -- `async_save_now` raises nothing of its own: the handler is cancelled
    | some t => act cfg { w with store := w.store.cancel t } (.raise i)
  | .act a => w.act cfg a
  | .store a => if a.isOwn then { w with store := w.store.step encode a } else w

/-- A receiver that has loaded its APPROVED rows, from the file if there is one. -/
def start (file : PeersFile cfg.lib) (saved : Option P) : PeersWorld P :=
  sync { toPairingState := .start cfg file, store := { Store.fresh P [] with file := saved.map fun f => (0, f) } }

end PeersWorld

end DeviceBuilder
