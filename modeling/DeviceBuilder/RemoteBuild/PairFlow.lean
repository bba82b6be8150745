import DeviceBuilder.RemoteBuild.PairingWindow

/-!
# Pair flow

`pair_flow.py`, `peer_crud.py` and the bootstrap runner of `_remote_build_only.py`:
the receiver intents of a peer-link handshake, the admin's two commands on a row,
and the one-shot first pairing of a headless receiver. A function with an await
stops there and leaves its task behind; `resume` in `PairingStep` runs the rest.
-/

namespace DeviceBuilder.PairingState

variable (cfg : PairingSettings) (s : PairingState)

/-! ### `pair_request` -/

/-- `_pairing_source_allowed`. -/
def pairingSourceAllowed (peerIp : String) : Bool :=
  if cfg.allowPairingSources = [] then true
  else
    match cfg.lib.ipAddress peerIp with
    | none => false
    | some normalized => normalized ∈ cfg.allowPairingSources

/-- `_auto_approve_pair_request`, up to the awaited store flush. -/
def autoApprovePairRequest (q : PairRequest) : PairingState :=
  { s with
    autoApproveFirstPair := false
    bootstrapPairingKey := none
    approvedPeers := s.approvedPeers.set q.dashboardId q.storedPeer }.spawn
      (.autoApprove q.dashboardId q.pinSha256)

/-- The bootstrap gates: a matching key and an allowed source. -/
def autoApproveAllowed (q : PairRequest) : Bool :=
  (match s.bootstrapPairingKey with
    | none => false
    | some expected => pairingKeyMatches cfg.lib expected q.pairingKey) &&
  pairingSourceAllowed cfg q.peerIp

/-- `_auto_approve_or_refuse`. -/
def autoApproveOrRefuse (q : PairRequest) : PairingState :=
  if s.autoApproveAllowed cfg q then s.autoApprovePairRequest q
  else s.answer .pairRequest q.dashboardId q.pinSha256 { response := .noPairingWindow }

/-- The last part of `record_pair_request`: create or refresh a PENDING row. -/
def recordPending (q : PairRequest) : PairingState :=
  let reply (s : PairingState) := s.answer .pairRequest q.dashboardId q.pinSha256
  match s.pendingPeers.get? q.dashboardId with
  | some existing =>
    if existing.staticX25519Pub ≠ q.staticX25519Pub then
      reply s { response := .rejected, reason := some .pinMismatch }
    else
      reply ({ s with pendingPeers := s.pendingPeers.set q.dashboardId q.storedPeer }.fire
        (.pairRequestReceived q.storedPeer)) { response := .pending }
  | none =>
    reply ({ s with pendingPeers := s.pendingPeers.set q.dashboardId q.storedPeer }.fire
      (.pairRequestReceived q.storedPeer)) { response := .pending }

/-- The first part of `record_pair_request`: a request for an APPROVED row. -/
def rePair (q : PairRequest) (peer : StoredPeer) : PairingState :=
  let reply (s : PairingState) := s.answer .pairRequest q.dashboardId q.pinSha256
  if peer.pinSha256 ≠ q.pinSha256 then
    reply s { response := .rejected, reason := some .pinMismatch }
  else
    let row := peer.refreshFromPairRequest q
    let s := { s with approvedPeers := s.approvedPeers.set q.dashboardId row }
    reply (if row ≠ peer then s.fire (.peerRefreshed row) else s) { response := .approved }

/-- `record_pair_request`. -/
def recordPairRequest (q : PairRequest) : PairingState :=
  match s.approvedPeers.get? q.dashboardId with
  | some peer => s.rePair q peer
  | none =>
    if s.isPairingWindowOpen then
      if s.autoApproveFirstPair ∧ s.approvedPeers.isEmpty then s.prune.autoApproveOrRefuse cfg q
      else s.prune.recordPending q
    else s.prune.answer .pairRequest q.dashboardId q.pinSha256 { response := .noPairingWindow }

/-! ### Lookups -/

/-- `_lookup_peer_response`. -/
def lookupPeerResponse (d : DashboardId) (pin : Pin) (approvedResponse : IntentResponse) :
    IntentOutcome :=
  match s.pendingPeers.get? d with
  | some pending =>
    if pending.pinSha256 ≠ pin then { response := .rejected, reason := some .pinMismatch }
    else { response := .pending, reason := some .pendingNotApproved }
  | none =>
    match s.approvedPeers.get? d with
    | none => { response := .rejected, reason := some .noApprovedPeer }
    | some peer =>
      if peer.pinSha256 ≠ pin then { response := .rejected, reason := some .pinMismatch }
      else { response := approvedResponse }

/-- `lookup_peer_for_session`. -/
def lookupPeerForSession (d : DashboardId) (pin : Pin) : IntentOutcome :=
  s.lookupPeerResponse d pin .ok

/-- `lookup_peer_for_status`: answer at once, or wait for the row's status to change. -/
def lookupPeerForStatus (d : DashboardId) (pin : Pin) : PairingState :=
  let snapshot := s.lookupPeerResponse d pin .approved
  if snapshot.response ≠ .pending then s.answer .pairStatus d pin snapshot
  else s.spawn (.pairStatus d pin false)

/-! ### Dispatch -/

/-- A receiver intent with the handshake's data. -/
inductive DispatchInput
  | pairRequest (q : PairRequest)
  | peerLink (dashboardId : DashboardId) (pub : PublicKey)
  | pairStatus (dashboardId : DashboardId) (pub : PublicKey)
  deriving DecidableEq

/-- `_dispatch_intent`. -/
def dispatchIntent (inp : DispatchInput) : PairingState :=
  match inp with
  | .pairRequest q =>
    let q := q.handshake cfg.lib
    if isDashboardId q.dashboardId then s.recordPairRequest cfg q
    else s.answer .pairRequest q.dashboardId q.pinSha256
      { response := .rejected, reason := some .badDashboardId }
  | .peerLink d pub =>
    let pin := cfg.lib.pinSha256ForPubkey pub
    s.answer .peerLink d pin <| if isDashboardId d then s.lookupPeerForSession d pin
      else { response := .rejected, reason := some .badDashboardId }
  | .pairStatus d pub =>
    let pin := cfg.lib.pinSha256ForPubkey pub
    if isDashboardId d then s.lookupPeerForStatus d pin
    else s.answer .pairStatus d pin { response := .rejected, reason := some .badDashboardId }

/-- `_refresh_peer_display_identity`, called when a peer-link session registers. -/
def refreshPeerDisplayIdentity (d : DashboardId) (i : SessionIdentity) : PairingState :=
  { s with approvedPeers := s.approvedPeers.adjust d (·.refreshDisplayIdentity i) }

/-! ### The admin's commands -/

inductive PeerCommandError
  | invalidArgs (msg : String)
  | notFound (msg : String)
  deriving DecidableEq

/-- The message of `validate_dashboard_id`. -/
def badDashboardIdMsg : String := "dashboard_id must be 1-64 base64url chars"

def approvePeer (raw : String) : Except PeerCommandError PairingState :=
  match validateDashboardId raw with
  | none => .error (.invalidArgs badDashboardIdMsg)
  | some d =>
    match s.pendingPeers.get? d with
    | none =>
      if (s.approvedPeers.get? d).isSome then
        .error (.invalidArgs ("peer is already approved: " ++ d))
      else .error (.notFound ("no pending peer with dashboard_id: " ++ d))
    | some pending =>
      .ok <| { s with
        pendingPeers := s.pendingPeers.erase d
        approvedPeers := s.approvedPeers.set d pending }.firePairStatusChanged d .approved

def removePeer (raw : String) : Except PeerCommandError PairingState :=
  match validateDashboardId raw with
  | none => .error (.invalidArgs badDashboardIdMsg)
  | some d =>
    if (s.pendingPeers.get? d).isSome then
      .ok <| { s with pendingPeers := s.pendingPeers.erase d }.firePairStatusChanged d .removed
    else if (s.approvedPeers.get? d).isSome then
      .ok <| { s with approvedPeers := s.approvedPeers.erase d }.firePairStatusChanged d .removed
    else .error (.notFound ("no peer with dashboard_id: " ++ d))

/-! ### The bootstrap runner -/

/-- `_bootstrap_first_pair`, up to the identity load for its banner. -/
def bootstrapFirstPair (pairingKey : String) : PairingState :=
  ({ s with autoApproveFirstPair := true
            bootstrapPairingKey := some pairingKey }.spawn (.bootstrapLoad false false)).setPairingWindow
    cfg true .bootstrap bootstrapPairingWindowDurationSeconds

/-- `_serve` bootstraps only a receiver without an APPROVED peer. -/
def serve (pairingKey : String) : PairingState :=
  if s.approvedPeers.isEmpty then s.bootstrapFirstPair cfg pairingKey else s

/-- The runner's `finally`: disarm the flag and the key together. -/
def disarm : PairingState := { s with autoApproveFirstPair := false, bootstrapPairingKey := none }

end DeviceBuilder.PairingState
