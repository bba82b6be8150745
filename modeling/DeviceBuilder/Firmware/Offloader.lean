import DeviceBuilder.Firmware.RemoteDispatch

/-!
# Changes of the scheduler's inputs

The setters of the offloader state that `pick_dispatch_target` reads
(`controllers/remote_build`: `bus_handlers.py`, `settings_commands.py`,
`pair_commands.py`, `pair_status.py`, `peer_link_lifecycle.py`), each with the
bus events it fires. `wakes` is `_POOL_WAKE_EVENTS`: the events on which the
dispatch loop re-arms itself.
-/

namespace DeviceBuilder

/-- The offloader events of the setters. -/
inductive OffloaderEvent
  | peerLinkOpened
  | peerLinkClosed
  | queueStatusChanged
  | pairingAdded
  | pairStatusChanged
  | pairingEnabledChanged
  | includeLocalChanged
  | remoteBuildsToggled
  | versionMatchPolicyChanged
  deriving DecidableEq, Repr

/-- `_POOL_WAKE_EVENTS`. -/
def poolWakeEvents : List OffloaderEvent :=
  [.peerLinkOpened, .peerLinkClosed, .queueStatusChanged, .pairingAdded, .pairStatusChanged,
    .pairingEnabledChanged, .includeLocalChanged]

/-- One call of a setter. -/
inductive OffloaderChange
  /-- A session opened; the receiver announced its version and capabilities. -/
  | linkOpened (pin : Pin) (esphomeVersion : String) (autoProvision analyzeMemory : Bool)
  | linkClosed (pin : Pin)
  | queueStatus (pin : Pin) (idle : Bool)
  /-- `set_pairing_enabled`. -/
  | setPairingEnabled (pin : Pin) (enabled : Bool)
  /-- `set_offloader_settings`, each argument `None` when it is left alone. -/
  | setSettings (remoteBuildsEnabled : Option Bool) (policy : Option VersionMatchPolicy)
      (includeLocal : Option Bool)
  /-- `request_pair`: the row, with the stale rows at its endpoint swept away. -/
  | requestPair (row : StoredPairing) (stale : List Pin)
  /-- A pending row was approved, or a row was removed (`unpair`, a rejected or drifted peer). -/
  | pairApproved (pin : Pin)
  | pairRemoved (pin : Pin)
  deriving DecidableEq, Repr

namespace OffloaderState

variable (o : OffloaderState)

def modifyPairing (pin : Pin) (f : StoredPairing → StoredPairing) : OffloaderState :=
  { o with pairings := o.pairings.map (fun p => if p.pin = pin then f p else p) }

/-- Drop a row and its caches. -/
def dropPairing (pin : Pin) : OffloaderState :=
  { o with
    pairings := o.pairings.filter (·.pin ≠ pin)
    openPeerLinks := KeyList.drop o.openPeerLinks pin
    peerQueueStatus := Function.update o.peerQueueStatus pin none }

/-- `request_pair`'s row, with what a re-pair carries over. -/
def pairedRow (row : StoredPairing) : StoredPairing :=
  match o.pairings.find? (·.pin = row.pin) with
  | none => { row with
      enabled := true, esphomeVersion := "", autoProvisionSupported := false,
      analyzeMemorySupported := false }
  | some prior => { row with
      enabled := prior.enabled, esphomeVersion := prior.esphomeVersion,
      autoProvisionSupported := prior.autoProvisionSupported,
      analyzeMemorySupported := prior.analyzeMemorySupported }

/-- `state.pairings[row.pin] = row`. -/
def setPairing (row : StoredPairing) : OffloaderState :=
  if o.pairings.any (·.pin = row.pin) then o.modifyPairing row.pin (fun _ => row)
  else { o with pairings := o.pairings ++ [row] }

def sweepStale (stale : List Pin) (keep : Pin) : OffloaderState :=
  (stale.filter (fun pin => pin ≠ keep && o.pairings.any (·.pin = pin))).foldl dropPairing o

/-- A setter: the new state and the events fired in the same section. -/
def apply : OffloaderChange → OffloaderState × List OffloaderEvent
  | .linkOpened pin version autoProvision analyzeMemory =>
    ({ o with openPeerLinks := KeyList.add o.openPeerLinks pin }.modifyPairing pin fun p =>
      { p with
        esphomeVersion := if version = "" then p.esphomeVersion else version
        autoProvisionSupported := autoProvision
        analyzeMemorySupported := analyzeMemory }, [.peerLinkOpened])
  | .linkClosed pin =>
    ({ o with openPeerLinks := KeyList.drop o.openPeerLinks pin }, [.peerLinkClosed])
  | .queueStatus pin idle =>
    ({ o with peerQueueStatus := Function.update o.peerQueueStatus pin (some idle) },
      [.queueStatusChanged])
  | .setPairingEnabled pin enabled =>
    if o.pairings.any (·.pin = pin) then
      (o.modifyPairing pin ({ · with enabled := enabled }), [.pairingEnabledChanged])
    else (o, [])
  | .setSettings remoteBuildsEnabled policy includeLocal =>
    let enabled := remoteBuildsEnabled.getD o.remoteBuildsEnabled
    let policy := policy.getD o.versionMatchPolicy
    let includeLocal := includeLocal.getD o.includeLocalInPool
    -- an event fires only for a field that changed
    ({ o with
        remoteBuildsEnabled := enabled
        versionMatchPolicy := policy
        includeLocalInPool := includeLocal },
      (if enabled ≠ o.remoteBuildsEnabled then [.remoteBuildsToggled] else []) ++
        (if policy ≠ o.versionMatchPolicy then [.versionMatchPolicyChanged] else []) ++
        (if includeLocal ≠ o.includeLocalInPool then [.includeLocalChanged] else []))
  | .requestPair row stale =>
    let swept := o.sweepStale stale row.pin
    let removed : List OffloaderEvent :=
      if stale.any (fun pin => pin ≠ row.pin && o.pairings.any (·.pin = pin)) then
        [.pairStatusChanged] else []
    -- an approved row is announced after another await
    (swept.setPairing (o.pairedRow row),
      removed ++ if row.status = .approved then [] else [.pairingAdded])
  | .pairApproved pin =>
    if o.pairings.any (·.pin = pin) then
      (o.modifyPairing pin ({ · with status := .approved }), [.pairStatusChanged])
    else (o, [])
  | .pairRemoved pin =>
    if o.pairings.any (·.pin = pin) then (o.dropPairing pin, [.pairStatusChanged]) else (o, [])

end OffloaderState

namespace World

/-- The `_wake` listener of the dispatch loop. -/
def firePoolEvents (w : World) (events : List OffloaderEvent) : World :=
  if events.any (· ∈ poolWakeEvents) then w.modifyPool ({ · with wake := true }) else w

/-- Run a setter. -/
def changeOffloader (w : World) (change : OffloaderChange) : World :=
  match w.offloader with
  | none => w
  | some o =>
    let (o', events) := o.apply change
    let w := { w with offloader := some o' }.firePoolEvents events
    match change with
    | .requestPair row _ =>
      if row.status = .approved then w.spawnTask (.announcePairing row.pin) else w
    | _ => w

end World

end DeviceBuilder
