import DeviceBuilder.Lib.Dict
import Mathlib.Logic.Function.Basic

/-!
# Device rows and what is observed of them

`controllers/devices/state_callbacks.py`: the monitors report what they see under the
device's name, and every row of that name takes it; what outlives a restart goes into
the metadata store under the row's file. The rows are rebuilt by the scanner
(`Devices.Rescan`), which threads the persisted fields and the whole `runtime_state`
of the row it replaces into the new one.

A field that is absent from the store is empty here. What is computed from the fields
(`has_pending_changes`, `update_available`, the interface MACs, `api_encrypted`) is
left out.
-/

namespace DeviceBuilder.Devices

inductive DeviceState
  | unknown
  | online
  | offline
  deriving DecidableEq

inductive ReachabilitySource
  | unknown
  | mdns
  | mqtt
  | ping
  deriving DecidableEq

/-- `DeviceRuntimeState`. -/
structure RuntimeState where
  state : DeviceState := .unknown
  activeSource : ReachabilitySource := .unknown
  ipAddresses : List String := []
  offlineSince : Option ℕ := none
  deployedVersion : String := ""
  deployedConfigHash : String := ""
  network : String := ""
  queuedUpdate : Bool := false
  apiEncryptionActive : Option String := none
  deployedIdentityLive : Bool := false
  otaSigned : Bool := false
  deriving DecidableEq

/-- A row of the scanner's index. -/
structure Device where
  name : String
  loadedIntegrations : Bool := false
  ip : String := ""
  macAddress : String := ""
  deployedName : String := ""
  runtimeState : RuntimeState := {}
  deriving DecidableEq

/-- The entry of a file in `DeviceMetadataStore`. -/
structure StoreEntry where
  ip : String := ""
  offlineSince : Option ℕ := none
  lastSeen : Option ℕ := none
  deployedConfigHash : String := ""
  deployedVersion : String := ""
  deployedName : String := ""
  network : String := ""
  queuedUpdate : Bool := false
  apiEncryptionActive : Option String := none
  deriving DecidableEq

/-- What a monitor reports of the devices of a name. -/
inductive Observation
  | state (state : DeviceState) (now : ℕ)
  | activeSource (source : ReachabilitySource)
  | deployedIdentityLive (live : Bool)
  | otaSigned (signed : Bool)
  | ip (ip : String) (addresses : List String)
  | addressesCleared
  | persistedIpInvalidated (staleIp : String)
  | version (version : String)
  | macAddress (mac : String)
  | apiEncryption (encryption : String)
  | network (network : String)
  | configHash (configHash : String)
  deriving DecidableEq

/-- `_offline_since`. -/
def RuntimeState.offlineSinceAt (r : RuntimeState) (state : DeviceState) (now : ℕ) : Option ℕ :=
  if state = .online then none
  else if r.state = .online then some now
  else r.offlineSince

/-- The row part of a callback: `on_state_change` and its siblings. -/
def Observation.apply (d : Device) : Observation → Device
  | .state st now =>
    let since := d.runtimeState.offlineSinceAt st now
    { d with runtimeState := { d.runtimeState with state := st, offlineSince := since } }
  | .activeSource source => { d with runtimeState := { d.runtimeState with activeSource := source } }
  | .deployedIdentityLive live => { d with runtimeState := { d.runtimeState with deployedIdentityLive := live } }
  | .otaSigned signed => { d with runtimeState := { d.runtimeState with otaSigned := signed } }
  | .ip primary addresses => { d with ip := primary, runtimeState := { d.runtimeState with ipAddresses := addresses } }
  | .addressesCleared => { d with runtimeState := { d.runtimeState with ipAddresses := [] } }
  | .persistedIpInvalidated staleIp => if d.ip = staleIp then { d with ip := "" } else d
  | .version value => { d with runtimeState := { d.runtimeState with deployedVersion := value } }
  | .macAddress mac => { d with macAddress := mac }
  | .apiEncryption value => { d with runtimeState := { d.runtimeState with apiEncryptionActive := some value } }
  | .network value => { d with runtimeState := { d.runtimeState with network := value } }
  | .configHash value => { d with runtimeState := { d.runtimeState with deployedConfigHash := value } }

/-- The store part of a callback, for a row that was `d` before it: a value the row has is not written again. -/
def Observation.persist (d : Device) (e : StoreEntry) : Observation → StoreEntry
  | .state st now => { e with offlineSince := d.runtimeState.offlineSinceAt st now }
  | .ip primary _ => if d.ip = primary then e else { e with ip := primary }
  | .persistedIpInvalidated staleIp => if d.ip = staleIp then { e with ip := "" } else e
  | .version value => if d.runtimeState.deployedVersion = value then e else { e with deployedVersion := value }
  | .apiEncryption value =>
    if d.runtimeState.apiEncryptionActive = some value then e else { e with apiEncryptionActive := some value }
  | .network value => if d.runtimeState.network = value then e else { e with network := value }
  | .configHash value =>
    if d.runtimeState.deployedConfigHash = value then e else { e with deployedConfigHash := value }
  | .activeSource _ | .deployedIdentityLive _ | .otaSigned _ | .addressesCleared | .macAddress _ => e

/-- What `_resolve_device_metadata` reads for a file. -/
structure DeviceFileMetadata where
  ip : String
  macAddress : String
  deployedConfigHash : String
  deployedVersion : String
  network : String
  queuedUpdate : Bool
  apiEncryptionActive : Option String
  deployedName : String
  offlineSince : Option ℕ
  deriving DecidableEq

/-- `_resolve_device_metadata`, of a store entry and the sidecar's MAC address. -/
def resolveDeviceMetadata (isUnusable : String → Bool) (e : StoreEntry) (mac : String) : DeviceFileMetadata where
  ip := if e.ip ≠ "" ∧ isUnusable e.ip then "" else e.ip
  macAddress := mac
  deployedConfigHash := e.deployedConfigHash
  deployedVersion := e.deployedVersion
  network := e.network
  queuedUpdate := e.queuedUpdate
  apiEncryptionActive := e.apiEncryptionActive
  deployedName := e.deployedName
  -- a `last_seen` past the stamp: that outage's clear never reached the disk
  offlineSince := match e.offlineSince, e.lastSeen with
    | some a, some b => some (max a b)
    | some a, none => some a
    | none, b => b

/-- The `runtime_state` of a row without a predecessor. -/
def DeviceFileMetadata.runtimeState (m : DeviceFileMetadata) : RuntimeState where
  offlineSince := m.offlineSince
  deployedVersion := m.deployedVersion
  deployedConfigHash := m.deployedConfigHash
  network := m.network
  queuedUpdate := m.queuedUpdate
  apiEncryptionActive := m.apiEncryptionActive

end DeviceBuilder.Devices
