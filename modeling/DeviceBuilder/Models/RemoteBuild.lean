import DeviceBuilder.Models.Firmware

/-!
# Paired offloaders

The receiver's record of an offloader (`models/remote_build/receiver.py`), the
answers of the peer-link intents (`models/remote_build/enums.py`) and the two
validators of wire values, `validate_dashboard_id` and `pairing_key_matches`.

Strings are compared and stripped as lists of code points. What the code takes
from Python's library and does not define is a field of `Library`: the digest
behind a pin, the uppercase mapping of one character and the normal form of an
IP address, and the two case mappings of a string.
-/

namespace DeviceBuilder

abbrev DashboardId := String

/-- The 32 bytes of an X25519 public key. -/
abbrev PublicKey := List UInt8

/-- The library functions the pair flow calls. -/
structure Library where
  /-- `hashlib.sha256(·).hexdigest()`. -/
  sha256Hex : PublicKey → Pin
  /-- `str.upper` of one character. -/
  upper : Char → List Char
  /-- `str(ipaddress.ip_address(·))`, `none` for its `ValueError`. -/
  ipAddress : String → Option String
  lower : String → String
  casefold : String → String

/-- `pin_sha256_for_pubkey`. -/
def Library.pinSha256ForPubkey (lib : Library) (pub : PublicKey) : Pin := lib.sha256Hex pub

structure StoredPeer where
  dashboardId : DashboardId
  pinSha256 : Pin
  staticX25519Pub : PublicKey
  label : String
  pairedAt : ℕ
  peerIp : String := ""
  connectBackPort : ℕ := 0
  friendlyName : String := ""
  haAddon : Bool := false
  labelAuto : Bool := false
  deriving DecidableEq

inductive IntentResponse
  | ok
  | approved
  | pending
  | rejected
  | noPairingWindow
  deriving DecidableEq, Repr

/-- The reject reasons of the receiver intents. -/
inductive RejectReason
  | noApprovedPeer
  | pinMismatch
  | pendingNotApproved
  | badDashboardId
  deriving DecidableEq, Repr

structure IntentOutcome where
  response : IntentResponse
  reason : Option RejectReason := none
  deriving DecidableEq, Repr

/-! ### Validators -/

/-- `str.isspace` of one character. -/
def isSpace (c : Char) : Bool :=
  let n := c.toNat
  (9 ≤ n ∧ n ≤ 13) ∨ (28 ≤ n ∧ n ≤ 32) ∨ n = 133 ∨ n = 160 ∨ n = 5760 ∨ (8192 ≤ n ∧ n ≤ 8202) ∨
    n = 8232 ∨ n = 8233 ∨ n = 8239 ∨ n = 8287 ∨ n = 12288

/-- `str.strip()`. -/
def strip (s : String) : String :=
  String.ofList ((s.toList.dropWhile isSpace).reverse.dropWhile isSpace).reverse

def dashboardIdMaxChars : ℕ := 64

/-- `DASHBOARD_ID_PATTERN`, `[A-Za-z0-9_-]+`, with the length cap. -/
def isDashboardId (s : String) : Bool :=
  let cs := s.toList
  cs ≠ [] ∧ cs.length ≤ dashboardIdMaxChars ∧
    cs.all fun c => ('A' ≤ c ∧ c ≤ 'Z') ∨ ('a' ≤ c ∧ c ≤ 'z') ∨ ('0' ≤ c ∧ c ≤ '9') ∨ c = '_' ∨ c = '-'

/-- `validate_dashboard_id`: `none` for its `INVALID_ARGS`. -/
def validateDashboardId (raw : String) : Option DashboardId :=
  let cleaned := strip raw
  if isDashboardId cleaned then some cleaned else none

/-- `_normalize`: uppercase, then keep `[0-9A-Z]`. -/
def normalizePairingKey (lib : Library) (value : String) : List Char :=
  (value.toList.flatMap lib.upper).filter fun c => ('0' ≤ c ∧ c ≤ '9') ∨ ('A' ≤ c ∧ c ≤ 'Z')

/-- `_MAX_PRESENTED_CHARS`. -/
def maxPresentedChars : ℕ := 256

def pairingKeyMatches (lib : Library) (expected : String) : Option String → Bool
  | none => false
  | some presented =>
    if presented = "" ∨ presented.toList.length > maxPresentedChars then false
    else normalizePairingKey lib expected = normalizePairingKey lib presented

/-! ### Refreshing a row -/

/-- What a `pair_request` introduces, as `record_pair_request` receives it. -/
structure PairRequest where
  dashboardId : DashboardId
  pinSha256 : Pin
  staticX25519Pub : PublicKey
  label : String
  peerIp : String
  pairingKey : Option String := none
  friendlyName : String := ""
  haAddon : Bool := false
  labelAuto : Bool := false
  /-- `time.time()` when the request is handled. -/
  time : ℕ := 0
  deriving DecidableEq

/-- The request as `_drive_peer_link_session` passes it on: the pin is the static key's. -/
def PairRequest.handshake (lib : Library) (q : PairRequest) : PairRequest :=
  { q with pinSha256 := lib.pinSha256ForPubkey q.staticX25519Pub }

/-- The row a `pair_request` creates. -/
def PairRequest.storedPeer (q : PairRequest) : StoredPeer where
  dashboardId := q.dashboardId
  pinSha256 := q.pinSha256
  staticX25519Pub := q.staticX25519Pub
  label := q.label
  pairedAt := q.time
  peerIp := q.peerIp
  friendlyName := q.friendlyName
  haAddon := q.haAddon
  labelAuto := q.labelAuto

/-- `refresh_from_pair_request`; the row changed iff the result differs. -/
def StoredPeer.refreshFromPairRequest (p : StoredPeer) (q : PairRequest) : StoredPeer where
  dashboardId := p.dashboardId
  pinSha256 := q.pinSha256
  staticX25519Pub := q.staticX25519Pub
  label := if q.label ≠ "" then q.label else p.label
  pairedAt := p.pairedAt
  peerIp := if q.peerIp ≠ "" then q.peerIp else p.peerIp
  connectBackPort := p.connectBackPort
  friendlyName := if q.friendlyName ≠ "" then q.friendlyName else p.friendlyName
  haAddon := q.haAddon
  labelAuto := if q.label ≠ "" then q.labelAuto else p.labelAuto

/-- What a peer-link session's msg3 introduces. -/
structure SessionIdentity where
  peerIp : String := ""
  friendlyName : String := ""
  haAddon : Bool := false
  connectBackPort : ℕ := 0
  deriving DecidableEq

/-- The row part of `_refresh_peer_display_identity`. -/
def StoredPeer.refreshDisplayIdentity (p : StoredPeer) (i : SessionIdentity) : StoredPeer :=
  { p with
    friendlyName := if i.friendlyName ≠ "" then i.friendlyName else p.friendlyName
    haAddon := i.haAddon
    peerIp := if i.peerIp ≠ "" then i.peerIp else p.peerIp
    connectBackPort := if i.connectBackPort ≠ 0 then i.connectBackPort else p.connectBackPort }

end DeviceBuilder
