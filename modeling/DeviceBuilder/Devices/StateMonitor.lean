import DeviceBuilder.Devices.Observations

/-!
# The state monitor and its source ledger

`controllers/_device_state_monitor/controller.py`: every source reports under a device's
name, and the ledger `state_source` records which of them speaks for the name. The
callbacks the monitor is wired to (`controllers/devices/state_callbacks.py`) write all
rows of the name; those that fire `DEVICE_UPDATED` leave the row as the event shows it
in `frames`.

* `Monitor.apply`, `Monitor.sourceWithdrawn`, `Monitor.forget`: what moves the ledger.
* `Monitor.Quiet`: the callbacks of a name leave the ledger, the other names' rows and
  what identifies a row.
* `Monitor.apply_cases`, `Monitor.quiet_sourceWithdrawn`, `Monitor.quiet_forget`: what is
  left of each, up to the callbacks.

The reachability history of a name is left out; no branch of these functions reads it.
-/

namespace DeviceBuilder.Devices

/-- `_SOURCE_PRIORITY`. -/
def ReachabilitySource.priority : ReachabilitySource → ℕ
  | .unknown => 0
  | .ping => 1
  | .mqtt => 2
  | .mdns => 3

/-- A row as the monitors see it. -/
structure CatalogDevice extends Device where
  configuration : String
  apiEnabled : Bool := false
  address : String := ""
  /-- `"api" in loaded_integrations`, the last compile's verdict. -/
  apiLoaded : Bool := false
  deriving DecidableEq

/-- The row after a callback. -/
def CatalogDevice.observe (d : CatalogDevice) (o : Observation) : CatalogDevice :=
  { d with toDevice := o.apply d.toDevice }

/-- The rows, `MonitorState.state_source`, and the `DEVICE_UPDATED` frames fired so far. -/
structure Monitor where
  devices : List CatalogDevice := []
  stateSource : String → Option ReachabilitySource := fun _ => none
  frames : List CatalogDevice := []

namespace Monitor

variable (m : Monitor) (name : String)

/-- `_get_devices_by_name`. -/
def devicesByName : List CatalogDevice := m.devices.filter (·.name = name)

/-- `priority_for`. -/
def priorityFor : ReachabilitySource := (m.stateSource name).getD .unknown

/-- `_any_matching_device_differs`, of the attribute `f`. -/
def anyMatchingDeviceDiffers {β : Type} [DecidableEq β] (f : CatalogDevice → β) (value : β) : Bool :=
  (m.devicesByName name).any (fun d => f d ≠ value)

/-- Write the rows of `name`. -/
def write (f : CatalogDevice → CatalogDevice) : Monitor :=
  { m with devices := m.devices.map (fun d => if d.name = name then f d else d) }

/-- A callback that writes the rows of `name` and fires `DEVICE_UPDATED` for each one it changes. -/
def notify (o : Observation) : Monitor :=
  { m.write name (·.observe o) with
    frames := m.frames ++ ((m.devicesByName name).filter (fun d => d.observe o ≠ d)).map (·.observe o) }

/-- `on_state_change`: what it fires is `DEVICE_STATE_CHANGED`. -/
def onStateChange (state : DeviceState) (now : ℕ) : Monitor :=
  m.write name (·.observe (.state state now))

/-- `on_source_change`: only an announce that maps to one config proves that the firmware carries the name. -/
def onSourceChange (source : ReachabilitySource) : Monitor :=
  let m₁ := if source = .mdns ∧ (m.devicesByName name).length = 1 then
      m.write name (fun d => { d with deployedName := "" })
    else m
  m₁.notify name (.activeSource source)

/-- `_mdns_owns_api_identity`. -/
def mdnsOwnsApiIdentity : Bool :=
  m.priorityFor name = .mdns && (m.devicesByName name).any (·.apiEnabled)

/-- `_has_known_api_identity`. -/
def hasKnownApiIdentity : Bool :=
  (m.devicesByName name).any
    (fun d => d.apiEnabled && (d.runtimeState.deployedVersion ≠ "" || d.macAddress ≠ ""))

/-- `apply_deployed_identity_live`. -/
def applyDeployedIdentityLive (live : Bool) : Monitor :=
  if live ∧ m.mdnsOwnsApiIdentity name then m
  else if m.anyMatchingDeviceDiffers name (·.runtimeState.deployedIdentityLive) live then
    m.notify name (.deployedIdentityLive live)
  else m

/-- `_emit_source_change`: the identity flag is cleared after the source notification. -/
def emitSourceChange (old new : ReachabilitySource) : Monitor :=
  if old = new then m
  else
    let m₁ := m.onSourceChange name new
    if m₁.mdnsOwnsApiIdentity name then m₁.applyDeployedIdentityLive name false else m₁

/-- An assignment to the ledger. -/
def setSource (source : ReachabilitySource) : Monitor :=
  { m with stateSource := Function.update m.stateSource name (some source) }

/-- `_pop_source`, without the entry it returns. -/
def popSource : Monitor := { m with stateSource := Function.update m.stateSource name none }

/-- `forget`. -/
def forget : Monitor :=
  match m.stateSource name with
  | some old => (m.popSource name).emitSourceChange name old .unknown
  | none => m.popSource name

/-- `apply`: a source below the owner is ignored, except that a positive ONLINE always revives a device. -/
def apply (state : DeviceState) (source : ReachabilitySource) (claim : Bool) (now : ℕ) : Monitor :=
  if m.devicesByName name = [] then m
  else
    let current := m.priorityFor name
    -- every device of the name: siblings share the broadcast
    let allMatch := (m.devicesByName name).all (fun d => d.runtimeState.state = state)
    let onlineTakeover := state = .online && !allMatch
    if !onlineTakeover && source.priority < current.priority then m
    else if allMatch then
      if claim then (m.setSource name source).emitSourceChange name current source else m
    else
      ((m.setSource name source).emitSourceChange name current source).onStateChange name state now

/-- `clear_resolved_addresses`. -/
def clearResolvedAddresses : Monitor :=
  if m.anyMatchingDeviceDiffers name (·.runtimeState.ipAddresses) [] then
    m.notify name .addressesCleared
  else m

/-- The state part of `source_withdrawn`: an OFFLINE bucket keeps its state. -/
def demote (state : DeviceState) (now : ℕ) : Monitor :=
  let alreadyOffline := !m.anyMatchingDeviceDiffers name (·.runtimeState.state) .offline
  if !alreadyOffline && m.anyMatchingDeviceDiffers name (·.runtimeState.state) state then
    m.onStateChange name state now
  else m

/-- The identity hand-back of `source_withdrawn`. -/
def handBack : Monitor :=
  if m.hasKnownApiIdentity name then m.applyDeployedIdentityLive name true else m

/-- `source_withdrawn`, where `icmpAvailable` is the probe's verdict so far. -/
def sourceWithdrawn (source : ReachabilitySource) (icmpAvailable : Option Bool) (now : ℕ) : Monitor :=
  if m.priorityFor name ≠ source then m
  else
    -- UNKNOWN only under a confirmed arbiter
    let state : DeviceState := if icmpAvailable = some true then .unknown else .offline
    let m₁ := (m.demote name state now).clearResolvedAddresses name
    -- the hand-back stamps between the ledger pop and its notification
    let m₂ := (m₁.popSource name).handBack name
    match m₁.stateSource name with
    | some old => m₂.emitSourceChange name old .unknown
    | none => m₂

/-- `_dispatch_ip`. -/
def dispatchIp (primary : String) (addresses : List String) : Monitor :=
  if m.devicesByName name = [] then m
  else if (m.devicesByName name).all
      (fun d => d.ip = primary && d.runtimeState.ipAddresses = addresses) then m
  else m.notify name (.ip primary addresses)

/-- `_apply_observation`, of the attribute `f`. -/
def applyObservation {β : Type} [DecidableEq β] (f : CatalogDevice → β) (value : β) (o : Observation) :
    Monitor :=
  if m.anyMatchingDeviceDiffers name f value then m.notify name o else m

/-- `apply_version`. -/
def applyVersion (version : String) : Monitor :=
  if version = "" then m
  else m.applyObservation name (·.runtimeState.deployedVersion) version (.version version)

/-- `apply_config_hash`. -/
def applyConfigHash (configHash : String) : Monitor :=
  if configHash = "" then m
  else m.applyObservation name (·.runtimeState.deployedConfigHash) configHash (.configHash configHash)

/-- `apply_mac_address`, where `normalizeMac` returns the empty text for what is no MAC. -/
def applyMacAddress (normalizeMac : String → String) (mac : String) : Monitor :=
  if normalizeMac mac = "" then m
  else m.applyObservation name (·.macAddress) (normalizeMac mac) (.macAddress (normalizeMac mac))

/-- `_apply_network`. -/
def applyNetwork (network : String) : Monitor :=
  m.applyObservation name (·.runtimeState.network) network (.network network)

/-- `apply_api_encryption`. -/
def applyApiEncryption (encryption : String) (apiSession : Bool) : Monitor :=
  if apiSession ∧ m.mdnsOwnsApiIdentity name then m
  else m.applyObservation name (·.runtimeState.apiEncryptionActive) (some encryption) (.apiEncryption encryption)

/-- `_apply_ota_signed`. -/
def applyOtaSigned (signed : Bool) : Monitor :=
  m.applyObservation name (·.runtimeState.otaSigned) signed (.otaSigned signed)

/-- `identity_source_owns` (`shared.py`). -/
def identitySourceOwns : Bool := ReachabilitySource.ping.priority < (m.priorityFor name).priority

/-- `should_ping` (`shared.py`). -/
def shouldPing (d : CatalogDevice) : Bool :=
  d.runtimeState.state ≠ .online || !m.identitySourceOwns d.name

/-- `apply_ping_result` (`shared.py`): an answer is a round-trip time. -/
def applyPingResult (answered : Bool) (now : ℕ) : Monitor :=
  m.apply name (if answered then .online else .offline) .ping false now

/-! ## The scanner's changes of the rows -/

/-- A new row takes of its runtime state what the metadata store has; the rest is at the defaults. -/
def added (d : CatalogDevice) : Monitor :=
  if d.configuration ∈ m.devices.map (·.configuration) then m
  else
    let runtime := { d.runtimeState with
      state := .unknown, activeSource := .unknown, ipAddresses := [], deployedIdentityLive := false, otaSigned := false }
    { m with devices := m.devices ++ [{ d with runtimeState := runtime }] }

/-! ## What no callback of a name touches -/

end Monitor

/-- What no callback writes of a row. -/
def CatalogDevice.ident (d : CatalogDevice) : String × String × Bool := (d.name, d.configuration, d.apiEnabled)

@[simp] theorem CatalogDevice.observe_ident (d : CatalogDevice) (o : Observation) :
    (d.observe o).ident = d.ident := by
  cases o <;> first | rfl | skip
  simp only [CatalogDevice.observe, Observation.apply, CatalogDevice.ident]
  split <;> rfl

namespace Monitor

/-- The callbacks of `n` leave the ledger, what identifies a row, and the rows of the other names. -/
structure Quiet (n : String) (m m' : Monitor) : Prop where
  ledger : m'.stateSource = m.stateSource
  rows : m'.devices.map (·.ident) = m.devices.map (·.ident)
  others : ∀ k, k ≠ n → m'.devicesByName k = m.devicesByName k

variable {m m' m'' : Monitor} {n k : String}

theorem Quiet.refl (n : String) (m : Monitor) : Quiet n m m := ⟨by rfl, by rfl, fun _ _ => by rfl⟩

theorem Quiet.trans (h : Quiet n m m') (h' : Quiet n m' m'') : Quiet n m m'' where
  ledger := h'.ledger.trans h.ledger
  rows := h'.rows.trans h.rows
  others := fun k hk => (h'.others k hk).trans (h.others k hk)

theorem map_ident_devicesByName (m : Monitor) (k : String) :
    (m.devicesByName k).map (·.ident) = (m.devices.map (·.ident)).filter (·.1 = k) := by
  rw [List.filter_map]
  rfl

theorem Quiet.idents (h : Quiet n m m') (k : String) :
    (m'.devicesByName k).map (·.ident) = (m.devicesByName k).map (·.ident) := by
  rw [map_ident_devicesByName, map_ident_devicesByName, h.rows]

/-- The rows of a name after the rows of `n` are written. -/
theorem devicesByName_write {f : CatalogDevice → CatalogDevice} (hf : ∀ d, (f d).ident = d.ident) (k : String) :
    (m.write n f).devicesByName k =
      if k = n then (m.devicesByName n).map f else m.devicesByName k := by
  have hn : ∀ d, (f d).name = d.name := fun d => congrArg Prod.fst (hf d)
  have hp : ((fun d : CatalogDevice => decide (d.name = k)) ∘ fun d => if d.name = n then f d else d)
      = fun d => decide (d.name = k) := by
    funext d
    simp only [Function.comp]
    split
    · rw [hn]
    · rfl
  unfold devicesByName write
  rw [List.filter_map, hp]
  split
  · rename_i hk
    subst hk
    apply List.map_congr_left
    intro d hd
    rw [if_pos (of_decide_eq_true (List.mem_filter.mp hd).2)]
  · rename_i hk
    conv_rhs => rw [← List.map_id (List.filter _ _)]
    apply List.map_congr_left
    intro d hd
    have hdk : d.name = k := of_decide_eq_true (List.mem_filter.mp hd).2
    rw [if_neg (fun h => hk (hdk.symm.trans h))]
    rfl

theorem quiet_write {f : CatalogDevice → CatalogDevice} (hf : ∀ d, (f d).ident = d.ident) :
    Quiet n m (m.write n f) := by
  refine ⟨by rfl, ?_, fun k hk => ?_⟩
  · unfold write
    rw [List.map_map]
    apply List.map_congr_left
    intro d _
    simp only [Function.comp]
    split
    · exact hf d
    · rfl
  · rw [devicesByName_write hf, if_neg hk]

theorem quiet_notify (o : Observation) : Quiet n m (m.notify n o) := by
  have h : Quiet n m (m.write n (·.observe o)) := quiet_write (fun d => d.observe_ident o)
  exact ⟨by rfl, h.rows, h.others⟩

theorem quiet_onStateChange (state : DeviceState) (now : ℕ) : Quiet n m (m.onStateChange n state now) :=
  quiet_write (fun d => d.observe_ident _)

theorem quiet_onSourceChange (source : ReachabilitySource) : Quiet n m (m.onSourceChange n source) := by
  unfold onSourceChange
  dsimp only
  split
  · exact (quiet_write (by intro d; rfl)).trans (quiet_notify _)
  · exact quiet_notify _

theorem quiet_applyDeployedIdentityLive (live : Bool) : Quiet n m (m.applyDeployedIdentityLive n live) := by
  unfold applyDeployedIdentityLive
  split
  · exact Quiet.refl _ _
  · split
    · exact quiet_notify _
    · exact Quiet.refl _ _

theorem quiet_emitSourceChange (old new : ReachabilitySource) : Quiet n m (m.emitSourceChange n old new) := by
  unfold emitSourceChange
  split
  · exact Quiet.refl _ _
  · dsimp only
    split
    · exact (quiet_onSourceChange new).trans (quiet_applyDeployedIdentityLive false)
    · exact quiet_onSourceChange new

theorem quiet_clearResolvedAddresses : Quiet n m (m.clearResolvedAddresses n) := by
  unfold clearResolvedAddresses
  split
  · exact quiet_notify _
  · exact Quiet.refl _ _

theorem quiet_demote (state : DeviceState) (now : ℕ) : Quiet n m (m.demote n state now) := by
  unfold demote
  dsimp only
  split
  · exact quiet_onStateChange _ _
  · exact Quiet.refl _ _

theorem quiet_handBack : Quiet n m (m.handBack n) := by
  unfold handBack
  split
  · exact quiet_applyDeployedIdentityLive _
  · exact Quiet.refl _ _

theorem quiet_dispatchIp (primary : String) (addresses : List String) :
    Quiet n m (m.dispatchIp n primary addresses) := by
  unfold dispatchIp
  split
  · exact Quiet.refl _ _
  · split
    · exact Quiet.refl _ _
    · exact quiet_notify _

theorem quiet_applyObservation {β : Type} [DecidableEq β] (f : CatalogDevice → β) (value : β)
    (o : Observation) : Quiet n m (m.applyObservation n f value o) := by
  unfold applyObservation
  split
  · exact quiet_notify _
  · exact Quiet.refl _ _

theorem quiet_applyVersion (version : String) : Quiet n m (m.applyVersion n version) := by
  unfold applyVersion
  split
  · exact Quiet.refl _ _
  · exact quiet_applyObservation _ _ _

theorem quiet_applyConfigHash (configHash : String) : Quiet n m (m.applyConfigHash n configHash) := by
  unfold applyConfigHash
  split
  · exact Quiet.refl _ _
  · exact quiet_applyObservation _ _ _

theorem quiet_applyMacAddress (normalizeMac : String → String) (mac : String) :
    Quiet n m (m.applyMacAddress n normalizeMac mac) := by
  unfold applyMacAddress
  split
  · exact Quiet.refl _ _
  · exact quiet_applyObservation _ _ _

theorem quiet_applyApiEncryption (encryption : String) (apiSession : Bool) :
    Quiet n m (m.applyApiEncryption n encryption apiSession) := by
  unfold applyApiEncryption
  split
  · exact Quiet.refl _ _
  · exact quiet_applyObservation _ _ _

/-! ## What moves the ledger -/

/-- Some row has the name. -/
def Configured (m : Monitor) (n : String) : Prop := m.devicesByName n ≠ []

theorem Quiet.priorityFor (h : Quiet n m m') : m'.priorityFor k = m.priorityFor k := by
  unfold Monitor.priorityFor
  rw [h.ledger]

/-- `apply` leaves the monitor, or enters its source for a configured name and then tells the rows. -/
theorem apply_cases (m : Monitor) (n : String) (state : DeviceState) (source : ReachabilitySource)
    (claim : Bool) (now : ℕ) :
    m.apply n state source claim now = m ∨
      m.Configured n ∧
      ((m.priorityFor n).priority ≤ source.priority ∨
        state = .online ∧ ∃ d ∈ m.devicesByName n, d.runtimeState.state ≠ .online) ∧
      (m.apply n state source claim now = (m.setSource n source).emitSourceChange n (m.priorityFor n) source ∨
        m.apply n state source claim now =
          ((m.setSource n source).emitSourceChange n (m.priorityFor n) source).onStateChange n state now) := by
  unfold apply
  by_cases hd : m.devicesByName n = []
  · rw [if_pos hd]
    exact .inl (by rfl)
  · rw [if_neg hd]
    dsimp only
    split
    · exact .inl (by rfl)
    · rename_i hg
      have hgate : (m.priorityFor n).priority ≤ source.priority ∨
          state = .online ∧ ∃ d ∈ m.devicesByName n, d.runtimeState.state ≠ .online := by
        by_cases hs : source.priority < (m.priorityFor n).priority
        · right
          by_cases ho : state = .online
          · subst ho
            simpa [hs] using hg
          · simp [hs, ho] at hg
        · exact .inl (Nat.le_of_not_lt hs)
      split
      · split
        · exact .inr ⟨hd, hgate, .inl (by rfl)⟩
        · exact .inl (by rfl)
      · exact .inr ⟨hd, hgate, .inr (by rfl)⟩

theorem configuration_of_rows (h : m'.devices.map (·.ident) = m.devices.map (·.ident)) :
    m'.devices.map (·.configuration) = m.devices.map (·.configuration) := by
  have h₁ := congrArg (List.map (fun i : String × String × Bool => i.2.1)) h
  rw [List.map_map, List.map_map] at h₁
  exact h₁

/-- The ledger entry set to `v`, before and after callbacks. -/
theorem Quiet.popSource (h : Quiet n m m') : Quiet n (m.popSource n) (m'.popSource n) := by
  refine ⟨?_, h.rows, h.others⟩
  simp only [Monitor.popSource, h.ledger]

/-- A withdrawal of the owner pops the entry. -/
theorem quiet_sourceWithdrawn {source : ReachabilitySource} (hp : m.priorityFor n = source)
    (icmpAvailable : Option Bool) (now : ℕ) :
    Quiet n (m.popSource n) (m.sourceWithdrawn n source icmpAvailable now) := by
  unfold sourceWithdrawn
  rw [if_neg (not_not.mpr hp)]
  dsimp only
  generalize (if icmpAvailable = some true then DeviceState.unknown else .offline) = state
  have h₁ : Quiet n m ((m.demote n state now).clearResolvedAddresses n) :=
    (quiet_demote state now).trans quiet_clearResolvedAddresses
  generalize (m.demote n state now).clearResolvedAddresses n = m₁ at h₁ ⊢
  have h₂ : Quiet n (m.popSource n) ((m₁.popSource n).handBack n) := h₁.popSource.trans quiet_handBack
  cases m₁.stateSource n with
  | none => exact h₂
  | some old => exact h₂.trans (quiet_emitSourceChange old .unknown)

theorem sourceWithdrawn_of_ne {source : ReachabilitySource} (hp : m.priorityFor n ≠ source)
    (icmpAvailable : Option Bool) (now : ℕ) : m.sourceWithdrawn n source icmpAvailable now = m := by
  unfold sourceWithdrawn
  rw [if_pos hp]

theorem quiet_forget : Quiet n (m.popSource n) (m.forget n) := by
  unfold forget
  cases m.stateSource n with
  | none => exact Quiet.refl n _
  | some old => exact quiet_emitSourceChange old .unknown

@[simp] theorem stateSource_popSource (m : Monitor) (n k : String) :
    (m.popSource n).stateSource k = if k = n then none else m.stateSource k :=
  Function.update_apply ..

@[simp] theorem stateSource_setSource (m : Monitor) (n k : String) (source : ReachabilitySource) :
    (m.setSource n source).stateSource k = if k = n then some source else m.stateSource k :=
  Function.update_apply ..

@[simp] theorem priorityFor_popSource (m : Monitor) (n k : String) :
    (m.popSource n).priorityFor k = if k = n then .unknown else m.priorityFor k := by
  unfold Monitor.priorityFor
  rw [stateSource_popSource]
  split <;> rfl

@[simp] theorem priorityFor_setSource (m : Monitor) (n k : String) (source : ReachabilitySource) :
    (m.setSource n source).priorityFor k = if k = n then source else m.priorityFor k := by
  unfold Monitor.priorityFor
  rw [stateSource_setSource]
  split <;> rfl

end Monitor
end DeviceBuilder.Devices
