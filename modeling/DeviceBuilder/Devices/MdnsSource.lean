import DeviceBuilder.Devices.StateMonitor

/-!
# The mDNS source

`controllers/_device_state_monitor/mdns.py` and the active resolves of `shared.py`. The
cache's live PTR records, the answers of the resolves and what `load_from_cache` finds
come from the network and are given with the actions; so is every moment at which a
resolve starts or is answered.

* `MdnsWorld.cacheApplyOrResolve`, `MdnsWorld.resolveStarts`, `MdnsWorld.resolveAnswered`:
  a service is applied off the cache or by a task that `resolve_then` runs.
* `MdnsWorld.onBrowserEvent`: the handlers of the two service types.
* `MdnsWorld.applyResolvedAddresses`: the A-record resolves of refreshes and sweeps.
* `MdnsWorld.step`: one action of the browser, of a task, of the cache, of another
  source or of the scanner.
-/

namespace DeviceBuilder.Devices

/-- The two browsed service types. -/
inductive ServiceType
  | esphomelib
  | http
  deriving DecidableEq

def ServiceType.text : ServiceType → String
  | .esphomelib => "_esphomelib._tcp.local."
  | .http => "_http._tcp.local."

inductive ServiceStateChange
  | added
  | updated
  | removed
  deriving DecidableEq

/-- `f"{device_name}.{service_type}"`. -/
def serviceName (deviceName : String) (t : ServiceType) : String := deviceName ++ "." ++ t.text

/-- `device_name_from_service`. -/
def deviceNameFromService (name : String) : String := String.ofList (name.toList.takeWhile (· ≠ '.'))

/-- What a resolved `AsyncServiceInfo` is read for: addresses and decoded TXT properties. -/
structure ServiceInfo where
  addresses : List String
  properties : List (String × Option String)
  deriving DecidableEq

/-- The text of a TXT key; absent and empty are one here. -/
def ServiceInfo.prop (info : ServiceInfo) (key : String) : String :=
  ((info.properties.find? (·.1 = key)).bind (·.2)).getD ""

/-- `_has_identity_keys`. -/
def ServiceInfo.hasIdentityKeys (info : ServiceInfo) : Bool :=
  info.prop "version" ≠ "" || info.prop "config_hash" ≠ "" || info.prop "mac" ≠ ""

/-- Whom a resolved service is handed to. -/
inductive Applier
  /-- `_apply_service_info`. -/
  | serviceInfo
  /-- `_apply_http_txt`. -/
  | httpTxt
  /-- `_apply_http_txt` for `verify_http_identity`, which waits for the verdict. -/
  | verify
  /-- The importable flow, which keeps a web URL beside the monitor. -/
  | webUrl
  deriving DecidableEq

/-- A task of `resolve_then`; `epoch` is read when it runs. -/
structure Resolve where
  serviceType : ServiceType
  serviceName : String
  deviceName : String
  applier : Applier
  epoch : Option ℕ
  deriving DecidableEq

/-- What `async_request` comes back with. -/
inductive Answer
  | failed
  | miss
  | found (info : ServiceInfo)
  deriving DecidableEq

/-- What the mDNS source calls outside its module. -/
structure MdnsHelpers where
  validMdnsServiceName : String → Bool
  isUnusableAddress : String → Bool
  normalizeMac : String → String

structure MdnsWorld where
  monitor : Monitor := {}
  /-- The live PTR records of the zeroconf cache, by type and alias. -/
  livePtrs : ServiceType → String → Bool := fun _ _ => false
  withdrawalEpochs : String → ℕ := fun _ => 0
  inflightResolves : List String := []
  resolves : List Resolve := []
  /-- The A-record resolves in flight: the device names of a refresh or of a sweep's gather. -/
  hostResolves : List (List String) := []
  icmpAvailable : Option Bool := none

/-- `_pick_ipv4`, of a list that is not empty. -/
def pickIpv4 (addresses : List String) : String :=
  match addresses.find? (fun a => a.toList.contains '.' && !a.toList.contains ':') with
  | some address => address
  | none => addresses.headD ""

namespace Monitor

variable (env : MdnsHelpers) (m : Monitor) (name : String)

/-- `apply_ip_addresses`, of a list that is not empty. -/
def applyIpAddresses (addresses : List String) : Monitor :=
  let usable := addresses.filter (fun a => !env.isUnusableAddress a)
  if usable = [] then m else m.dispatchIp name (pickIpv4 usable) usable

/-- `_apply_identity_txt`. -/
def applyIdentityTxt (info : ServiceInfo) : Monitor :=
  let m₁ := if info.prop "version" = "" then m else m.applyVersion name (info.prop "version")
  let m₂ := if info.prop "config_hash" = "" then m₁ else m₁.applyConfigHash name (info.prop "config_hash")
  if info.prop "mac" = "" then m₂ else m₂.applyMacAddress name env.normalizeMac (info.prop "mac")

/-- `_apply_network_txt`. -/
def applyNetworkTxt (info : ServiceInfo) : Monitor :=
  if info.prop "network" = "" then m else m.applyNetwork name (info.prop "network")

/-- The `api_encryption` part of `_apply_txt_properties`: a TXT with content and without the key says plaintext. -/
def applyApiEncryptionTxt (info : ServiceInfo) : Monitor :=
  if info.properties.any (·.1 = "api_encryption") then m.applyApiEncryption name (info.prop "api_encryption") false
  else if info.properties = [] then m
  else m.applyApiEncryption name "" false

/-- `_apply_txt_properties`. -/
def applyTxtProperties (info : ServiceInfo) : Monitor :=
  let m₁ := ((m.applyIdentityTxt env name info).applyNetworkTxt name info).applyApiEncryptionTxt name info
  if info.properties = [] then m₁ else m₁.applyOtaSigned name (info.prop "ota_signed" = "1")

/-- `_apply_http_identity_props`. -/
def applyHttpIdentityProps (info : ServiceInfo) : Monitor :=
  let m₁ := (m.applyIdentityTxt env name info).applyNetworkTxt name info
  if info.hasIdentityKeys then m₁.applyDeployedIdentityLive name true else m₁

end Monitor

namespace MdnsWorld

variable (env : MdnsHelpers) (w : MdnsWorld)

/-- `_has_live_ptr`. -/
def hasLivePtr (deviceName : String) (t : ServiceType) : Bool := w.livePtrs t (serviceName deviceName t)

/-- `has_live_anchor_ptr`. -/
def hasLiveAnchorPtr (deviceName : String) : Bool :=
  w.hasLivePtr deviceName .esphomelib || w.hasLivePtr deviceName .http

/-- `_apply_service_info`: the claim rides the live PTR of the device-named service. -/
def applyServiceInfo (deviceName : String) (t : ServiceType) (info : ServiceInfo) (now : ℕ) : Monitor :=
  let m₁ := if w.hasLivePtr deviceName t then w.monitor.apply deviceName .online .mdns true now else w.monitor
  let m₂ := if info.addresses = [] then m₁ else m₁.applyIpAddresses env deviceName info.addresses
  m₂.applyTxtProperties env deviceName info

/-- Hand a resolved service to its applier. -/
def applyInfo (r : Resolve) (info : ServiceInfo) (now : ℕ) : Monitor :=
  match r.applier with
  | .serviceInfo => w.applyServiceInfo env r.deviceName r.serviceType info now
  | .httpTxt | .verify => w.monitor.applyHttpIdentityProps env r.deviceName info
  | .webUrl => w.monitor

/-- `cache_apply_or_resolve`, where `cached` is what `load_from_cache` finds: a hit vouches only behind a live PTR. -/
def cacheApplyOrResolve (t : ServiceType) (name deviceName : String) (applier : Applier)
    (cached : Option ServiceInfo) (now : ℕ) : MdnsWorld :=
  let r : Resolve := { serviceType := t, serviceName := name, deviceName, applier, epoch := none }
  match cached with
  | some info => if w.livePtrs t name then { w with monitor := w.applyInfo env r info now } else w
  | none => { w with resolves := w.resolves ++ [r] }

/-- `resolve_then` up to its request: at most one resolve of a service is in flight. -/
def resolveStarts (i : ℕ) : MdnsWorld :=
  match w.resolves[i]? with
  | some r =>
    if r.epoch ≠ none then w
    else if r.serviceName ∈ w.inflightResolves then { w with resolves := w.resolves.eraseIdx i }
    else
      { w with
        resolves := w.resolves.set i { r with epoch := some (w.withdrawalEpochs r.serviceName) }
        inflightResolves := r.serviceName :: w.inflightResolves }
  | none => w

/-- `verify_http_identity` on a verdict: only a confirmed miss, or an answer without the keys, clears the flag. -/
def verified (r : Resolve) (identity : Bool) : MdnsWorld :=
  if r.applier = .verify ∧ identity = false then
    { w with monitor := w.monitor.applyDeployedIdentityLive r.deviceName false }
  else w

/-- `resolve_then` from the answer on. -/
def resolveAnswered (i : ℕ) (answer : Answer) (now : ℕ) : MdnsWorld :=
  match w.resolves[i]? with
  | some r =>
    match r.epoch with
    | none => w
    | some epoch =>
      let w₁ := { w with
        resolves := w.resolves.eraseIdx i
        inflightResolves := w.inflightResolves.erase r.serviceName }
      match answer with
      | .failed => w₁
      | .miss => w₁.verified r false
      | .found info =>
        -- a withdrawal raced the resolve: no verdict
        if w₁.withdrawalEpochs r.serviceName ≠ epoch then w₁
        else { w₁ with monitor := w₁.applyInfo env r info now }.verified r info.hasIdentityKeys
  | none => w

/-- `probe_device`. -/
def probeDevice (deviceName : String) (cached : Option ServiceInfo) (now : ℕ) : MdnsWorld :=
  w.cacheApplyOrResolve env .esphomelib (serviceName deviceName .esphomelib) deviceName .serviceInfo cached now

/-- `_on_service_removed`. -/
def onServiceRemoved (name deviceName : String) (siblingType : ServiceType) (now : ℕ) : MdnsWorld :=
  let w₁ := { w with
    withdrawalEpochs := Function.update w.withdrawalEpochs name (w.withdrawalEpochs name + 1) }
  if w₁.hasLivePtr deviceName siblingType then w₁
  else { w₁ with monitor := w₁.monitor.sourceWithdrawn deviceName .mdns w₁.icmpAvailable now }

/-- `_on_esphomelib_service_state_change`. -/
def onEsphomelibServiceStateChange (name : String) (change : ServiceStateChange) (cached : Option ServiceInfo)
    (now : ℕ) : MdnsWorld :=
  let deviceName := deviceNameFromService name
  if w.monitor.devicesByName deviceName = [] then w
  else if change = .removed then w.onServiceRemoved name deviceName .http now
  else w.cacheApplyOrResolve env .esphomelib name deviceName .serviceInfo cached now

/-- `_on_http_service_state_change`. -/
def onHttpServiceStateChange (name : String) (change : ServiceStateChange) (cached : Option ServiceInfo)
    (now : ℕ) : MdnsWorld :=
  let deviceName := deviceNameFromService name
  let bucket := w.monitor.devicesByName deviceName
  if bucket = [] then w
  else if change = .removed then w.onServiceRemoved name deviceName .esphomelib now
  else if bucket.all (·.apiEnabled) then w
  else w.cacheApplyOrResolve env .http name deviceName .httpTxt cached now

/-- `ImportableDiscovery.on_http_service_state_change`, as far as the mDNS source sees it. -/
def importableHttpServiceStateChange (name : String) (change : ServiceStateChange) (cached : Option ServiceInfo)
    (now : ℕ) : MdnsWorld :=
  if change = .removed then w
  else w.cacheApplyOrResolve env .http name (deviceNameFromService name) .webUrl cached now

/-- `_on_browser_event`. -/
def onBrowserEvent (t : ServiceType) (name : String) (change : ServiceStateChange) (cached : Option ServiceInfo)
    (now : ℕ) : MdnsWorld :=
  if !env.validMdnsServiceName name then w
  else
    match t with
    | .esphomelib => w.onEsphomelibServiceStateChange env name change cached now
    | .http =>
      (w.onHttpServiceStateChange env name change cached now).importableHttpServiceStateChange env name change
        cached now

/-- `apply_resolved_addresses`, where `none` is no answer: the claim rides the live anchor PTR. -/
def applyResolvedAddresses (name : String) (addresses : Option (List String)) (now : ℕ) : MdnsWorld :=
  match addresses with
  | none => w
  | some addresses =>
    let usable := addresses.filter (fun a => !env.isUnusableAddress a)
    if usable = [] then w
    else
      let m₁ := if w.hasLiveAnchorPtr name then w.monitor.apply name .online .mdns true now else w.monitor
      { w with monitor := m₁.applyIpAddresses env name usable }

/-- `is_local_hostname`, of an ASCII name. -/
def isLocalHostname (hostname : String) : Bool :=
  let normalized := (hostname.toList.reverse.dropWhile (· = '.')).map Char.toLower
  "lacol.".toList.isPrefixOf normalized

/-- The candidates of `resolve_non_api_mdns_targets`. -/
def sweepCandidates : List String :=
  (w.monitor.devices.filter (fun d =>
    d.address ≠ "" && isLocalHostname d.address && d.loadedIntegrations && !d.apiLoaded
      && w.monitor.shouldPing d)).map (·.name)

/-- The results of `refresh_mdns` or of a sweep's gather, in order. -/
def hostsResolved (i : ℕ) (answers : List (Option (List String))) (now : ℕ) : MdnsWorld :=
  match w.hostResolves[i]? with
  | some names =>
    (names.zip answers).foldl (fun w r => w.applyResolvedAddresses env r.1 r.2 now)
      { w with hostResolves := w.hostResolves.eraseIdx i }
  | none => w

/-- The scanner enters a row: `on_scan_change` probes it. -/
def scanAdded (d : CatalogDevice) (cached : Option ServiceInfo) (now : ℕ) : MdnsWorld :=
  { w with monitor := w.monitor.added d }.probeDevice env d.name cached now

/-- The scanner drops a file's row. -/
def scanRemoved (configuration : String) : MdnsWorld :=
  match w.monitor.devices.find? (·.configuration = configuration) with
  | some d =>
    let rest := w.monitor.devices.filter (·.configuration ≠ configuration)
    { w with monitor := { w.monitor with devices := rest }.forget d.name }
  | none => w

/-- `_reconcile_rename`: the new name is probed, and the old one forgotten once no row has it. -/
def reconcileRename (oldName newName : String) (cached : Option ServiceInfo) (now : ℕ) : MdnsWorld :=
  if oldName = newName then w
  else
    let w₁ := w.probeDevice env newName cached now
    if w₁.monitor.devicesByName oldName = [] then { w₁ with monitor := w₁.monitor.forget oldName } else w₁

/-- `address_retargeted`, without the wake of the sweep. -/
def addressRetargeted (name : String) : MdnsWorld :=
  if w.monitor.identitySourceOwns name then w
  else { w with monitor := w.monitor.clearResolvedAddresses name }

/-- The scanner replaces a file's row, which keeps the runtime state. -/
def scanReplaced (d : CatalogDevice) (cached : Option ServiceInfo) (now : ℕ) : MdnsWorld :=
  match w.monitor.devices.find? (·.configuration = d.configuration) with
  | some previous =>
    let rows := w.monitor.devices.map (fun e =>
      if e.configuration = d.configuration then { d with runtimeState := e.runtimeState } else e)
    let w₁ := { w with monitor := { w.monitor with devices := rows } }.reconcileRename env previous.name d.name
      cached now
    if previous.address ≠ d.address then w₁.addressRetargeted d.name else w₁
  | none => w

end MdnsWorld

/-- What moves the mDNS source. -/
inductive MdnsAction
  | browser (t : ServiceType) (name : String) (change : ServiceStateChange) (cached : Option ServiceInfo) (now : ℕ)
  | resolveStarts (i : ℕ)
  | resolveAnswered (i : ℕ) (answer : Answer) (now : ℕ)
  /-- A PTR record enters the cache or is gone from it. -/
  | ptr (t : ServiceType) (name : String) (live : Bool)
  | refresh (name : String)
  | sweep
  | hostsResolved (i : ℕ) (answers : List (Option (List String))) (now : ℕ)
  | verify (deviceName : String)
  | ping (name : String) (answered : Bool) (now : ℕ)
  | mqtt (name : String) (state : DeviceState) (now : ℕ)
  | icmp (available : Option Bool)
  | scanAdded (d : CatalogDevice) (cached : Option ServiceInfo) (now : ℕ)
  | scanReplaced (d : CatalogDevice) (cached : Option ServiceInfo) (now : ℕ)
  | scanRemoved (configuration : String)
  deriving DecidableEq

/-- One action. -/
def MdnsWorld.step (env : MdnsHelpers) (w : MdnsWorld) : MdnsAction → MdnsWorld
  | .browser t name change cached now => w.onBrowserEvent env t name change cached now
  | .resolveStarts i => w.resolveStarts i
  | .resolveAnswered i answer now => w.resolveAnswered env i answer now
  | .ptr t name live =>
    { w with livePtrs := Function.update w.livePtrs t (Function.update (w.livePtrs t) name live) }
  | .refresh name => { w with hostResolves := w.hostResolves ++ [[name]] }
  | .sweep =>
    if w.sweepCandidates = [] then w else { w with hostResolves := w.hostResolves ++ [w.sweepCandidates] }
  | .hostsResolved i answers now => w.hostsResolved env i answers now
  | .verify deviceName =>
    let r : Resolve :=
      { serviceType := .http, serviceName := serviceName deviceName .http, deviceName, applier := .verify, epoch := none }
    { w with resolves := w.resolves ++ [r] }
  | .ping name answered now => { w with monitor := w.monitor.applyPingResult name answered now }
  | .mqtt name state now => { w with monitor := w.monitor.apply name state .mqtt false now }
  | .icmp available => { w with icmpAvailable := available }
  | .scanAdded d cached now => w.scanAdded env d cached now
  | .scanReplaced d cached now => w.scanReplaced env d cached now
  | .scanRemoved configuration => w.scanRemoved configuration

end DeviceBuilder.Devices
