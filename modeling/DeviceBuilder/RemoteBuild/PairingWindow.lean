import DeviceBuilder.RemoteBuild.PairingState

/-!
# Pairing window

`pairing_window.py`: the gate for `pair_request`, open while some client's entry
is not stale. Every read prunes the stale entries; a timer handle, scheduled for
the latest deadline, clears the PENDING rows when it runs.
-/

namespace DeviceBuilder.PairingState

variable (s : PairingState)

/-- `_prune_stale_pairing_window_clients`. -/
def prune : PairingState :=
  { s with pairingWindowClients := s.pairingWindowClients.keep fun _ deadline => s.now ≤ deadline }

/-- `is_pairing_window_open`, after its pruning. -/
def isPairingWindowOpen : Bool := !s.prune.pairingWindowClients.isEmpty

/-- `_pairing_window_remaining`, after its pruning. -/
def pairingWindowRemaining : Option ℕ :=
  if s.prune.pairingWindowClients.isEmpty then none
  else some (s.prune.pairingWindowClients.values.foldl max 0 - s.now)

/-- `_fire_pairing_window_changed`, with the `_pairing_window_state` it reads. -/
def firePairingWindowChanged : PairingState :=
  s.prune.fire (.pairingWindowChanged s.pairingWindowRemaining.isSome s.pairingWindowRemaining)

/-- `_reschedule_pairing_window_close`. -/
def reschedulePairingWindowClose : PairingState :=
  { s.prune with pairingWindowHandle := s.pairingWindowRemaining.map (s.now + ·) }

/-- `clear_pending_peers_on_window_close`: drop every PENDING row, fire `removed` for each. -/
def clearPendingPeersOnWindowClose : PairingState :=
  s.pendingPeers.keys.foldl (fun s d => s.firePairStatusChanged d .removed)
    { s with pendingPeers := ∅ }

/-- `set_pairing_window`, with an `open` that is a bool. -/
def setPairingWindow (cfg : PairingSettings) (open' : Bool) (client : WindowClient)
    (durationSeconds : ℕ) : PairingState :=
  let wasOpen := s.isPairingWindowOpen
  let s := s.prune
  let clients := if open' then
      s.pairingWindowClients.set client (s.now + durationSeconds * cfg.second)
    else s.pairingWindowClients.erase client
  let s := { s with pairingWindowClients := clients }.reschedulePairingWindowClose
  let isOpen := !s.pairingWindowClients.isEmpty
  let s := if wasOpen ≠ isOpen ∨ (open' ∧ isOpen) then s.firePairingWindowChanged else s
  if wasOpen ∧ ¬isOpen then s.clearPendingPeersOnWindowClose else s

/-- `_on_pairing_window_deadline`. -/
def onPairingWindowDeadline : PairingState :=
  { s with pairingWindowHandle := none
           pairingWindowClients := ∅ }.firePairingWindowChanged.clearPendingPeersOnWindowClose

end DeviceBuilder.PairingState
