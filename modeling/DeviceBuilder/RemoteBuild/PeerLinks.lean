import DeviceBuilder.RemoteBuild.OffloaderStep

/-!
# The offloader's peer-link sessions

A client dials its receiver over and over. It fires OPENED when a session is up and
CLOSED when a session, or an attempt at one, is over; a cancelled client fires its
last CLOSED when its teardown is through. The handlers of `bus_handlers.py` know the
pin only, and keep `open_peer_links`.

* `LinkWorld`: the controller, the clients with an open session, the identity rotations.
* `LinkWorld.step`: one action, of the controller, of a client or of a rotation.
-/

namespace DeviceBuilder.RemoteBuild

open Runs

/-- `_refresh_identity_and_respawn_clients`. -/
inductive Rotation
  /-- The identities are loaded. -/
  | loading
  /-- The teardown of client `k` is awaited; row `r` gets a new one. -/
  | awaiting (r : RowId) (k : ClientId) (rest : List Pin)
  | ended
  deriving DecidableEq

structure LinkWorld extends OffloaderWorld where
  /-- The clients whose session is open. -/
  linked : List ClientId := []
  rotations : List Rotation := []

inductive LinkAction
  /-- A step of the controller. -/
  | base (a : OffloaderAction)
  /-- Client `k` comes to an `intent_response` of ok. -/
  | opens (k : ClientId)
  /-- `_run_one_session` of client `k` returns; the client goes on. -/
  | closes (k : ClientId)
  /-- The run of client `k` ends: it was cancelled, or it is orphaned. -/
  | ends (k : ClientId)
  /-- `REMOTE_BUILD_IDENTITY_ROTATED`. -/
  | rotated
  | resumeRotation (j : ℕ)

/-- What a client's own events do stands in `opens`, `closes` and `ends`. -/
def OffloaderAction.isClients : OffloaderAction → Bool
  | .clientEnds _ | .peerLinkOpened _ | .peerLinkClosed _ => true
  | _ => false

namespace OffloaderWorld

variable (w : OffloaderWorld)

/-- The loop of a rotation over the pins of the clients it found, up to its next await. -/
def respawnClients (w : OffloaderWorld) : List Pin → OffloaderWorld × Rotation
  | [] => (w, .ended)
  | pin :: rest =>
    match w.pairings.get? pin with
    | none => respawnClients w rest
    | some r =>
      if (w.rows[r]?).any (·.status = .approved) then
        match w.cancelPeerLinkClientAndWait pin with
        | (none, w) => respawnClients (w.spawnPeerLinkClient r) rest
        | (some k, w) => (w, .awaiting r k rest)
      else respawnClients w rest

end OffloaderWorld

namespace LinkWorld

variable (w : LinkWorld)

/-- `on_offloader_peer_link_opened` and `on_offloader_peer_link_closed`. -/
def opened (pin : Pin) : LinkWorld := { w with openPeerLinks := w.openPeerLinks ++ [pin] }

def closed (pin : Pin) : LinkWorld := { w with openPeerLinks := w.openPeerLinks.filter (· ≠ pin) }

/-- `_fire_opened`: only a client that nobody cancelled comes this far. -/
def opens (k : ClientId) : LinkWorld :=
  match w.clients[k]? with
  | none => w
  | some c => if c.phase = .running ∧ k ∉ w.linked then { w.opened c.pinSha256 with linked := k :: w.linked } else w

/-- `_fire_closed`, before the next attempt. -/
def closes (k : ClientId) : LinkWorld :=
  match w.clients[k]? with
  | none => w
  | some c => if c.phase = .running then { w.closed c.pinSha256 with linked := w.linked.filter (· ≠ k) } else w

/-- `_fire_closed` at the end of `run`. -/
def ends (k : ClientId) : LinkWorld :=
  match w.clients[k]? with
  | none => w
  | some c =>
    if c.phase = .done then w
    else { w.closed c.pinSha256 with
      linked := w.linked.filter (· ≠ k)
      clients := w.clients.modify k fun c => { c with phase := .done } }

/-- A rotation goes on with these pins. -/
def respawn (j : ℕ) (pins : List Pin) : LinkWorld :=
  { w with
    toOffloaderWorld := (w.respawnClients pins).1
    rotations := w.rotations.set j (w.respawnClients pins).2 }

def resumeRotation (j : ℕ) : LinkWorld :=
  match w.rotations[j]? with
  | some .loading => w.respawn j w.peerLinkClients.keys
  | some (.awaiting r k rest) =>
    if w.isAlive k then w
    else respawn { w with toOffloaderWorld := w.spawnPeerLinkClient r } j rest
  | _ => w

/-- One step. -/
def step (lib : Library) (w : LinkWorld) : LinkAction → LinkWorld
  | .base a => if a.isClients then w else { w with toOffloaderWorld := w.toOffloaderWorld.step lib a }
  | .opens k => w.opens k
  | .closes k => w.closes k
  | .ends k => w.ends k
  | .rotated => { w with rotations := w.rotations ++ [.loading] }
  | .resumeRotation j => w.resumeRotation j

/-- A started controller: its clients dial. -/
def start (file : PairingsFile) : LinkWorld := { toOffloaderWorld := .start file }

end LinkWorld

end DeviceBuilder.RemoteBuild
