import DeviceBuilder.Devices.StateMonitor
import DeviceBuilder.Lib.Runs

/-!
# The deployed-identity gate

The frontend trusts a row's deployed identity while mDNS speaks for the device or
`deployed_identity_live` is up. The monitor lowers the flag when mDNS takes an api
device's name and raises it again when mDNS is withdrawn.

* `Monitor.GateAt`, `gateAt_step`: the flag is down while mDNS owns the name.
* `Monitor.Holds`, `holds_notify`: a callback that keeps one side of the gate up keeps it
  in every frame.
* `identity_gate`: on runs in which no other source takes a name over from mDNS
  (`Monitor.HandsBack`), a name that leaves mDNS has the flag up.
* `takeover_drops_gate`: a ping answer for a sibling takes the name over and drops the gate.
-/

namespace DeviceBuilder.Devices

open Runs

/-- What reaches the monitor. -/
inductive MonitorAction
  | apply (name : String) (state : DeviceState) (source : ReachabilitySource) (claim : Bool) (now : ℕ)
  | withdrawn (name : String) (source : ReachabilitySource) (icmpAvailable : Option Bool) (now : ℕ)
  /-- A stamp of the identity, or its confirmed miss. -/
  | identityLive (name : String) (live : Bool)
  | version (name : String) (version : String)
  | macAddress (name : String) (mac : String)
  | addresses (name : String) (primary : String) (addresses : List String)
  | forget (name : String)
  /-- The scanner enters the row of a new file. -/
  | added (device : CatalogDevice)
  deriving DecidableEq

namespace Monitor

/-- One call, with the frames of this call alone. -/
def step (normalizeMac : String → String) (m : Monitor) (a : MonitorAction) : Monitor :=
  let m := { m with frames := [] }
  match a with
  | .apply name state source claim now => m.apply name state source claim now
  | .withdrawn name source icmpAvailable now => m.sourceWithdrawn name source icmpAvailable now
  | .identityLive name live => m.applyDeployedIdentityLive name live
  | .version name version => m.applyVersion name version
  | .macAddress name mac => m.applyMacAddress name normalizeMac mac
  | .addresses name primary addresses => m.dispatchIp name primary addresses
  | .forget name => m.forget name
  | .added device => m.added device

variable {m m' : Monitor} {n k : String} {normalizeMac : String → String}

/-- Some device of the name has a Native API. -/
def HasApi (m : Monitor) (n : String) : Prop := ∃ d ∈ m.devicesByName n, d.apiEnabled = true

/-- The version or the MAC address of some device of the name is known. -/
def IdentityKnown (m : Monitor) (n : String) : Prop :=
  ∃ d ∈ m.devicesByName n, d.runtimeState.deployedVersion ≠ "" ∨ d.macAddress ≠ ""

/-- The flag of every device of the name has the value `live`. -/
def Live (m : Monitor) (n : String) (live : Bool) : Prop :=
  ∀ d ∈ m.devicesByName n, d.runtimeState.deployedIdentityLive = live

/-- What the frontend gates on: mDNS speaks for the row, or the flag is up. -/
def gate (d : CatalogDevice) : Prop :=
  d.runtimeState.activeSource = .mdns ∨ d.runtimeState.deployedIdentityLive = true

/-- No frame shows the gate down for a row that had it up. -/
def FramesHold (m m' : Monitor) : Prop :=
  ∀ f ∈ m'.frames, ∀ d ∈ m.devices, d.configuration = f.configuration → gate d → gate f

/-- The calls for names with a Native API: a row that gives a name its first one comes to a name without rows. -/
def ForApi (m : Monitor) : MonitorAction → Prop
  | .added d => d.apiEnabled = true → m.devicesByName d.name = [] ∨ m.HasApi d.name
  | _ => True

/-- No other source takes over a name from mDNS by an ONLINE that a sibling lacks, and mDNS is withdrawn
from no name whose known identity is only that of siblings without the API. -/
def HandsBack (m : Monitor) : MonitorAction → Prop
  | .apply name state source _ _ =>
    m.priorityFor name = .mdns → source ≠ .mdns → state = .online →
      ∀ d ∈ m.devicesByName name, d.runtimeState.state = .online
  | .withdrawn name source _ _ =>
    m.priorityFor name = .mdns → source = .mdns → m.IdentityKnown name → m.hasKnownApiIdentity name = true
  | _ => True

/-- The flag is down while mDNS owns a name with an api device. -/
def GateAt (m : Monitor) (n : String) : Prop := m.priorityFor n = .mdns → m.HasApi n → m.Live n false

instance (d : CatalogDevice) : Decidable (gate d) :=
  inferInstanceAs (Decidable (_ = _ ∨ _ = _))

instance (m : Monitor) (n : String) : Decidable (m.HasApi n) :=
  inferInstanceAs (Decidable (∃ d ∈ m.devicesByName n, d.apiEnabled = true))

instance (m : Monitor) (n : String) : Decidable (m.IdentityKnown n) :=
  inferInstanceAs (Decidable (∃ d ∈ m.devicesByName n, d.runtimeState.deployedVersion ≠ "" ∨ d.macAddress ≠ ""))

instance (m : Monitor) (n : String) (live : Bool) : Decidable (m.Live n live) :=
  inferInstanceAs (Decidable (∀ d ∈ m.devicesByName n, d.runtimeState.deployedIdentityLive = live))

instance (m m' : Monitor) : Decidable (FramesHold m m') :=
  inferInstanceAs (Decidable (∀ f ∈ m'.frames, ∀ d ∈ m.devices, d.configuration = f.configuration → gate d → gate f))

instance (m : Monitor) : (a : MonitorAction) → Decidable (m.ForApi a)
  | .added d => inferInstanceAs (Decidable (d.apiEnabled = true → m.devicesByName d.name = [] ∨ m.HasApi d.name))
  | .apply .. | .withdrawn .. | .identityLive .. | .version .. | .macAddress .. | .addresses .. | .forget .. =>
    isTrue trivial

/-! ## The flag is down while mDNS owns the name -/

theorem hasApi_iff : m.HasApi n ↔ true ∈ ((m.devicesByName n).map (·.ident)).map (·.2.2) := by
  rw [List.map_map, List.mem_map]
  exact Iff.rfl

theorem Quiet.hasApi (h : Quiet n m m') : m'.HasApi k ↔ m.HasApi k := by
  rw [hasApi_iff, hasApi_iff, h.idents]

theorem mdnsOwnsApiIdentity_iff :
    m.mdnsOwnsApiIdentity n = true ↔ m.priorityFor n = .mdns ∧ m.HasApi n := by
  simp [mdnsOwnsApiIdentity, HasApi]

theorem devicesByName_notify (o : Observation) :
    (m.notify n o).devicesByName n = (m.devicesByName n).map (·.observe o) := by
  have h := devicesByName_write (m := m) (n := n) (fun d => d.observe_ident o) n
  rw [if_pos rfl] at h
  exact h

/-- Rows that keep their flag. -/
theorem Live.map {f : CatalogDevice → CatalogDevice} {live : Bool} (h : m.Live n live)
    (hm : m'.devicesByName n = (m.devicesByName n).map f)
    (hf : ∀ d, (f d).runtimeState.deployedIdentityLive = d.runtimeState.deployedIdentityLive) : m'.Live n live := by
  intro d hd
  rw [hm] at hd
  obtain ⟨d₀, hd₀, rfl⟩ := List.mem_map.mp hd
  rw [hf]
  exact h d₀ hd₀

/-- A callback that does not write the flag. -/
theorem Live.notify {o : Observation} {live : Bool} (h : m.Live n live)
    (ho : ∀ d : CatalogDevice, (d.observe o).runtimeState.deployedIdentityLive = d.runtimeState.deployedIdentityLive) :
    (m.notify n o).Live n live :=
  h.map (devicesByName_notify o) ho

theorem Live.onStateChange {live : Bool} (h : m.Live n live) (state : DeviceState) (now : ℕ) :
    (m.onStateChange n state now).Live n live := by
  have hm := devicesByName_write (m := m) (n := n) (fun d => d.observe_ident (.state state now)) n
  rw [if_pos rfl] at hm
  exact h.map hm (fun d => rfl)

theorem Live.onSourceChange {live : Bool} (h : m.Live n live) (source : ReachabilitySource) :
    (m.onSourceChange n source).Live n live := by
  unfold Monitor.onSourceChange
  dsimp only
  split
  · have hm := devicesByName_write (m := m) (n := n)
      (f := fun d => { d with deployedName := "" }) (fun d => rfl) n
    rw [if_pos rfl] at hm
    exact (h.map hm (fun d => rfl)).notify (fun d => rfl)
  · exact h.notify (fun d => rfl)

theorem Live.applyObservation {β : Type} [DecidableEq β] {live : Bool} (h : m.Live n live)
    (f : CatalogDevice → β) (value : β) {o : Observation}
    (ho : ∀ d : CatalogDevice, (d.observe o).runtimeState.deployedIdentityLive = d.runtimeState.deployedIdentityLive) :
    (m.applyObservation n f value o).Live n live := by
  unfold Monitor.applyObservation
  split
  · exact h.notify ho
  · exact h

/-- Unless it is refused, the stamp has its effect. -/
theorem live_applyDeployedIdentityLive {live : Bool} (h : live = true → m.mdnsOwnsApiIdentity n = false) :
    (m.applyDeployedIdentityLive n live).Live n live := by
  unfold applyDeployedIdentityLive
  rw [if_neg (fun hl => by simp [h hl.1] at hl)]
  by_cases hd : m.anyMatchingDeviceDiffers n (·.runtimeState.deployedIdentityLive) live = true
  · rw [if_pos hd]
    intro d hd
    rw [devicesByName_notify] at hd
    obtain ⟨d₀, -, rfl⟩ := List.mem_map.mp hd
    rfl
  · rw [if_neg hd]
    intro d hm
    by_contra hne
    exact hd (List.any_eq_true.mpr ⟨d, hm, decide_eq_true hne⟩)

/-- The gate of a name that the callbacks are not of. -/
theorem GateAt.others (h : m.GateAt k) (hq : Quiet n m m') (hk : k ≠ n) : m'.GateAt k := by
  intro hp ha
  have hm := h (hq.priorityFor.symm.trans hp) (hq.hasApi.mp ha)
  unfold Live
  rw [hq.others k hk]
  exact hm

/-- Callbacks that leave the flags down. -/
theorem GateAt.quiet (h : m.GateAt k) (hq : Quiet n m m') (hl : m.Live n false → m'.Live n false) :
    m'.GateAt k := by
  by_cases hk : k = n
  · subst hk
    intro hp ha
    exact hl (h (hq.priorityFor.symm.trans hp) (hq.hasApi.mp ha))
  · exact h.others hq hk

/-- On its way into the ownership of mDNS the flag of an api device is lowered. -/
theorem gateAt_emitSourceChange {old new : ReachabilitySource} (hold : old = new → m.GateAt n) :
    (m.emitSourceChange n old new).GateAt n := by
  unfold emitSourceChange
  by_cases h : old = new
  · rw [if_pos h]
    exact hold h
  · rw [if_neg h]
    dsimp only
    split
    · intro _ _
      exact live_applyDeployedIdentityLive nofun
    · rename_i ho
      intro hp ha
      exact absurd (mdnsOwnsApiIdentity_iff.mpr ⟨hp, ha⟩) ho

theorem gateAt_apply (h : ∀ k, m.GateAt k) (n : String) (state : DeviceState) (source : ReachabilitySource)
    (claim : Bool) (now : ℕ) (k : String) : (m.apply n state source claim now).GateAt k := by
  have hemit : ((m.setSource n source).emitSourceChange n (m.priorityFor n) source).GateAt k := by
    by_cases hk : k = n
    · subst hk
      apply gateAt_emitSourceChange
      intro hold hp ha
      rw [priorityFor_setSource, if_pos rfl] at hp
      exact h k (hold.trans hp) ha
    · have hset : (m.setSource n source).GateAt k := by
        intro hp ha
        rw [priorityFor_setSource, if_neg hk] at hp
        exact h k hp ha
      exact hset.others (quiet_emitSourceChange _ _) hk
  obtain he | ⟨-, -, he | he⟩ := apply_cases m n state source claim now
  · rw [he]
    exact h k
  · rw [he]
    exact hemit
  · rw [he]
    exact hemit.quiet (quiet_onStateChange _ _) (fun hl => hl.onStateChange _ _)

/-- Once the entry is popped, nothing is left to show for the name. -/
theorem gateAt_popped (h : ∀ k, m.GateAt k) (hq : Quiet n (m.popSource n) m') (k : String) : m'.GateAt k := by
  intro hp ha
  rw [hq.priorityFor, priorityFor_popSource] at hp
  by_cases hk : k = n
  · rw [if_pos hk] at hp
    cases hp
  · rw [if_neg hk] at hp
    have hm : (m.popSource n).GateAt k := fun _ ha => h k hp ha
    exact hm.others hq hk (by rw [hq.priorityFor, priorityFor_popSource, if_neg hk]; exact hp) ha

theorem gateAt_applyDeployedIdentityLive (h : m.GateAt k) (n : String) (live : Bool) :
    (m.applyDeployedIdentityLive n live).GateAt k := by
  cases live with
  | false => exact h.quiet (quiet_applyDeployedIdentityLive false) (fun _ => live_applyDeployedIdentityLive nofun)
  | true =>
    by_cases ho : m.mdnsOwnsApiIdentity n = true
    · rw [applyDeployedIdentityLive, if_pos ⟨rfl, ho⟩]
      exact h
    · have hq : Quiet n m (m.applyDeployedIdentityLive n true) := quiet_applyDeployedIdentityLive true
      by_cases hk : k = n
      · subst hk
        intro hp ha
        exact absurd (mdnsOwnsApiIdentity_iff.mpr ⟨hq.priorityFor.symm.trans hp, hq.hasApi.mp ha⟩) ho
      · exact h.others hq hk

theorem GateAt.applyObservation (h : m.GateAt k) {β : Type} [DecidableEq β] (f : CatalogDevice → β) (value : β)
    {o : Observation}
    (ho : ∀ d : CatalogDevice, (d.observe o).runtimeState.deployedIdentityLive = d.runtimeState.deployedIdentityLive) :
    (m.applyObservation n f value o).GateAt k :=
  h.quiet (quiet_applyObservation f value o) (fun hl => hl.applyObservation f value ho)

theorem gateAt_dispatchIp (h : m.GateAt k) (n : String) (primary : String) (addresses : List String) :
    (m.dispatchIp n primary addresses).GateAt k := by
  refine h.quiet (quiet_dispatchIp primary addresses) (fun hl => ?_)
  unfold dispatchIp
  split
  · exact hl
  · split
    · exact hl
    · exact hl.notify (fun d => rfl)

theorem gateAt_added (h : ∀ k, m.GateAt k) {d : CatalogDevice} (hd : m.ForApi (.added d)) (k : String) :
    (m.added d).GateAt k := by
  unfold Monitor.added
  split
  · exact h k
  · dsimp only
    intro hp ha e he
    unfold devicesByName at he
    rw [List.filter_append, List.mem_append] at he
    rcases he with he | he
    · refine h k hp ?_ e he
      obtain ⟨a, ham, hapi⟩ := ha
      unfold devicesByName at ham
      rw [List.filter_append, List.mem_append] at ham
      rcases ham with ham | ham
      · exact ⟨a, ham, hapi⟩
      · obtain ⟨ham, hak⟩ := List.mem_filter.mp ham
        rw [List.mem_singleton] at ham
        subst ham
        have hdk : d.name = k := of_decide_eq_true hak
        rcases hd hapi with hnil | hapi'
        · rw [hdk] at hnil
          have : e ∈ m.devicesByName k := he
          rw [hnil] at this
          cases this
        · exact hdk ▸ hapi'
    · obtain ⟨he, -⟩ := List.mem_filter.mp he
      rw [List.mem_singleton] at he
      rw [he]

/-- One call keeps the flags down where mDNS owns. -/
theorem gateAt_step (h : ∀ k, m.GateAt k) {a : MonitorAction} (ha : m.ForApi a) (k : String) :
    (m.step normalizeMac a).GateAt k := by
  have h₀ : ∀ k, ({ m with frames := [] } : Monitor).GateAt k := h
  unfold step
  cases a with
  | apply name state source claim now => exact gateAt_apply h₀ name state source claim now k
  | withdrawn name source icmpAvailable now =>
    dsimp only
    by_cases hp : m.priorityFor name = source
    · exact gateAt_popped h₀ (quiet_sourceWithdrawn (m := { m with frames := [] }) hp icmpAvailable now) k
    · rw [sourceWithdrawn_of_ne (m := { m with frames := [] }) hp]
      exact h k
  | identityLive name live => exact gateAt_applyDeployedIdentityLive (h₀ k) name live
  | version name version =>
    simp only [applyVersion]
    split
    · exact h₀ k
    · exact (h₀ k).applyObservation _ _ (fun d => rfl)
  | macAddress name mac =>
    simp only [applyMacAddress]
    split
    · exact h₀ k
    · exact (h₀ k).applyObservation _ _ (fun d => rfl)
  | addresses name primary addresses => exact gateAt_dispatchIp (h₀ k) name primary addresses
  | forget name => exact gateAt_popped h₀ quiet_forget k
  | added device => exact gateAt_added h₀ ha k

/-! ## The frames -/

/-- Every frame, and every row as it is now, holds the gate of the row `m₀` had. -/
structure Holds (m₀ m : Monitor) : Prop where
  frames : FramesHold m₀ m
  rows : ∀ e ∈ m.devices, ∀ d ∈ m₀.devices, d.configuration = e.configuration → gate d → gate e

variable {m₀ : Monitor}

/-- A file has one row. -/
def OneRow (m : Monitor) : Prop := (m.devices.map (·.configuration)).Nodup

theorem configuration_of_ident {d e : CatalogDevice} (h : d.ident = e.ident) :
    d.configuration = e.configuration :=
  congrArg (fun i : String × String × Bool => i.2.1) h

theorem holds_start (h : m.OneRow) : Holds m { m with frames := [] } := by
  refine ⟨fun f hf => absurd hf List.not_mem_nil, fun e he d hd hc hg => ?_⟩
  have hde : d = e := List.inj_on_of_nodup_map h hd he hc
  exact hde ▸ hg

theorem Holds.write (h : Holds m₀ m) {f : CatalogDevice → CatalogDevice} (hf : ∀ d, (f d).ident = d.ident)
    (hg : ∀ d ∈ m.devicesByName n, gate d → gate (f d)) : Holds m₀ (m.write n f) := by
  refine ⟨h.frames, fun e he d hd hc hgd => ?_⟩
  obtain ⟨e₀, he₀, rfl⟩ := List.mem_map.mp he
  have hconf : (if e₀.name = n then f e₀ else e₀).configuration = e₀.configuration := by
    split
    · exact configuration_of_ident (hf e₀)
    · rfl
  have hge : gate e₀ := h.rows e₀ he₀ d hd (hc.trans hconf) hgd
  split
  · exact hg e₀ (List.mem_filter.mpr ⟨he₀, decide_eq_true ‹_›⟩) hge
  · exact hge

/-- A callback that keeps one side of the gate up. -/
theorem Holds.notify (h : Holds m₀ m) {o : Observation}
    (hg : ∀ d ∈ m.devicesByName n, gate d → gate (d.observe o)) : Holds m₀ (m.notify n o) := by
  have hw : Holds m₀ (m.write n (·.observe o)) := h.write (fun d => d.observe_ident o) hg
  refine ⟨fun f hf d hd hc hgd => ?_, hw.rows⟩
  rcases List.mem_append.mp hf with hf | hf
  · exact h.frames f hf d hd hc hgd
  · obtain ⟨e, he, rfl⟩ := List.mem_map.mp hf
    have hm : e ∈ m.devicesByName n := (List.mem_filter.mp he).1
    have hconf : (e.observe o).configuration = e.configuration := configuration_of_ident (e.observe_ident o)
    exact hg e hm (h.rows e (List.mem_filter.mp hm).1 d hd (hc.trans hconf) hgd)

theorem Holds.onStateChange (h : Holds m₀ m) (state : DeviceState) (now : ℕ) :
    Holds m₀ (m.onStateChange n state now) :=
  h.write (fun d => d.observe_ident _) (fun _ _ hg => hg)

theorem Holds.demote (h : Holds m₀ m) (state : DeviceState) (now : ℕ) : Holds m₀ (m.demote n state now) := by
  unfold Monitor.demote
  dsimp only
  split
  · exact h.onStateChange state now
  · exact h

theorem Holds.clearResolvedAddresses (h : Holds m₀ m) : Holds m₀ (m.clearResolvedAddresses n) := by
  unfold Monitor.clearResolvedAddresses
  split
  · exact h.notify (fun d _ hg => hg)
  · exact h

theorem Holds.stamp (h : Holds m₀ m) : Holds m₀ (m.applyDeployedIdentityLive n true) := by
  unfold Monitor.applyDeployedIdentityLive
  split
  · exact h
  · split
    · exact h.notify (fun d _ _ => .inr rfl)
    · exact h

/-- The loss of the source is told when the flags are up. -/
theorem Holds.emitSourceChange (h : Holds m₀ m) (old : ReachabilitySource) (hl : m.Live n true)
    (hp : m.priorityFor n = .unknown) : Holds m₀ (m.emitSourceChange n old .unknown) := by
  have hs : Holds m₀ (m.onSourceChange n .unknown) := h.notify (fun d hd _ => .inr (hl d hd))
  unfold Monitor.emitSourceChange
  split
  · exact h
  · dsimp only
    rw [if_neg]
    · exact hs
    · intro ho
      have hq : Quiet n m (m.onSourceChange n .unknown) := quiet_onSourceChange _
      have hmd := (mdnsOwnsApiIdentity_iff.mp ho).1
      rw [hq.priorityFor, hp] at hmd
      cases hmd

theorem live_emitSourceChange {old : ReachabilitySource} (hl : m.Live n true)
    (hp : m.priorityFor n = .unknown) : (m.emitSourceChange n old .unknown).Live n true := by
  unfold emitSourceChange
  split
  · exact hl
  · dsimp only
    rw [if_neg]
    · exact hl.onSourceChange _
    · intro ho
      have hq : Quiet n m (m.onSourceChange n .unknown) := quiet_onSourceChange _
      have hmd := (mdnsOwnsApiIdentity_iff.mp ho).1
      rw [hq.priorityFor, hp] at hmd
      cases hmd

/-! ## What leaves mDNS -/

/-- A file keeps its one row. -/
theorem oneRow_step (h : m.OneRow) (a : MonitorAction) : (m.step normalizeMac a).OneRow := by
  have hrows : ∀ {m' : Monitor}, m'.devices.map (·.ident) = m.devices.map (·.ident) → m'.OneRow := by
    intro m' hr
    unfold OneRow
    rw [configuration_of_rows hr]
    exact h
  unfold step
  cases a with
  | apply name state source claim now =>
    have he := fun old => quiet_emitSourceChange (m := ({ m with frames := [] } : Monitor).setSource name source)
      (n := name) old source
    obtain hs | ⟨-, -, hs | hs⟩ := apply_cases { m with frames := [] } name state source claim now
    · exact hrows (by dsimp only; rw [hs])
    · exact hrows (by dsimp only; rw [hs]; exact (he _).rows)
    · exact hrows (by dsimp only; rw [hs]; exact ((he _).trans (quiet_onStateChange state now)).rows)
  | withdrawn name source icmpAvailable now =>
    dsimp only
    by_cases hp : m.priorityFor name = source
    · exact hrows (quiet_sourceWithdrawn (m := { m with frames := [] }) hp icmpAvailable now).rows
    · rw [sourceWithdrawn_of_ne (m := { m with frames := [] }) hp]
      exact h
  | identityLive name live => exact hrows (quiet_applyDeployedIdentityLive (n := name) live).rows
  | version name version => exact hrows (quiet_applyVersion (n := name) version).rows
  | macAddress name mac => exact hrows (quiet_applyMacAddress (n := name) normalizeMac mac).rows
  | addresses name primary addresses => exact hrows (quiet_dispatchIp (n := name) primary addresses).rows
  | forget name => exact hrows (quiet_forget (n := name)).rows
  | added device =>
    dsimp only [Monitor.added]
    split
    · exact h
    · rename_i hc
      unfold OneRow
      rw [List.map_append]
      exact List.Nodup.append h (List.nodup_singleton _) (by simpa [List.disjoint_singleton] using hc)

/-- Rows that keep what the identity is read from. -/
theorem hasKnownApiIdentity_of_map {f : CatalogDevice → CatalogDevice}
    (hm : m'.devicesByName n = (m.devicesByName n).map f)
    (hf : ∀ d, (f d).apiEnabled = d.apiEnabled ∧ (f d).macAddress = d.macAddress ∧
      (f d).runtimeState.deployedVersion = d.runtimeState.deployedVersion) :
    m'.hasKnownApiIdentity n = m.hasKnownApiIdentity n := by
  unfold hasKnownApiIdentity
  rw [hm, List.any_map]
  congr 1
  funext d
  obtain ⟨ha, hmac, hv⟩ := hf d
  simp only [Function.comp, ha, hmac, hv]

theorem hasKnownApiIdentity_demote (state : DeviceState) (now : ℕ) :
    (m.demote n state now).hasKnownApiIdentity n = m.hasKnownApiIdentity n := by
  unfold demote
  dsimp only
  split
  · have hm := devicesByName_write (m := m) (n := n) (fun d => d.observe_ident (.state state now)) n
    rw [if_pos rfl] at hm
    exact hasKnownApiIdentity_of_map hm (fun d => ⟨rfl, rfl, rfl⟩)
  · rfl

theorem hasKnownApiIdentity_clearResolvedAddresses :
    (m.clearResolvedAddresses n).hasKnownApiIdentity n = m.hasKnownApiIdentity n := by
  unfold clearResolvedAddresses
  split
  · exact hasKnownApiIdentity_of_map (devicesByName_notify _) (fun d => ⟨rfl, rfl, rfl⟩)
  · rfl

/-- A withdrawal of mDNS from a name whose identity is known: the flag goes up before the source is told. -/
theorem withdrawn_hands_back (h : Holds m₀ m) (hp : m.priorityFor n = .mdns)
    (hk : m.hasKnownApiIdentity n = true) (icmpAvailable : Option Bool) (now : ℕ) :
    (m.sourceWithdrawn n .mdns icmpAvailable now).Live n true ∧
      Holds m₀ (m.sourceWithdrawn n .mdns icmpAvailable now) := by
  unfold sourceWithdrawn
  rw [if_neg (not_not.mpr hp)]
  dsimp only
  generalize (if icmpAvailable = some true then DeviceState.unknown else .offline) = state
  have hq : Quiet n m ((m.demote n state now).clearResolvedAddresses n) :=
    (quiet_demote state now).trans quiet_clearResolvedAddresses
  have h₁ : Holds m₀ ((m.demote n state now).clearResolvedAddresses n) :=
    (h.demote state now).clearResolvedAddresses
  have hk₁ : (((m.demote n state now).clearResolvedAddresses n).popSource n).hasKnownApiIdentity n = true := by
    have hkc : ((m.demote n state now).clearResolvedAddresses n).hasKnownApiIdentity n = true := by
      rw [hasKnownApiIdentity_clearResolvedAddresses, hasKnownApiIdentity_demote, hk]
    exact hkc
  generalize (m.demote n state now).clearResolvedAddresses n = m₁ at hq h₁ hk₁ ⊢
  have h₂ : Holds m₀ (m₁.popSource n) := ⟨h₁.frames, h₁.rows⟩
  have hp₂ : (m₁.popSource n).priorityFor n = .unknown := by
    rw [priorityFor_popSource, if_pos rfl]
  have hstamp : (m₁.popSource n).handBack n = (m₁.popSource n).applyDeployedIdentityLive n true := by
    rw [handBack, if_pos hk₁]
  have hl : ((m₁.popSource n).handBack n).Live n true := by
    rw [hstamp]
    refine live_applyDeployedIdentityLive (fun _ => ?_)
    rw [Bool.eq_false_iff]
    intro ho
    have hmd := (mdnsOwnsApiIdentity_iff.mp ho).1
    rw [hp₂] at hmd
    cases hmd
  have h₃ : Holds m₀ ((m₁.popSource n).handBack n) := hstamp ▸ h₂.stamp
  have hp₃ : ((m₁.popSource n).handBack n).priorityFor n = .unknown :=
    (Quiet.priorityFor quiet_handBack).trans hp₂
  cases m₁.stateSource n with
  | none => exact ⟨hl, h₃⟩
  | some old => exact ⟨live_emitSourceChange hl hp₃, h₃.emitSourceChange old hl hp₃⟩

/-- The owner of a name other than the one a call is about. -/
theorem priorityFor_setSource_quiet {name : String} {source : ReachabilitySource}
    (hq : Quiet name (m.setSource name source) m') (n : String) :
    m'.priorityFor n = if n = name then source else m.priorityFor n := by
  rw [hq.priorityFor, priorityFor_setSource]

/-- **What a call that ends mDNS's ownership does.** Within the condition it is a withdrawal. -/
theorem handed_back (h₁ : m.OneRow) {a : MonitorAction} (hb : m.HandsBack a) (hf : ∀ k, a ≠ .forget k)
    (hk : m.IdentityKnown n) (hp : m.priorityFor n = .mdns) (hp' : (m.step normalizeMac a).priorityFor n ≠ .mdns) :
    (m.step normalizeMac a).Live n true ∧ FramesHold m (m.step normalizeMac a) := by
  have hsame : ∀ {name : String} {m' : Monitor}, Quiet name { m with frames := [] } m' → m'.priorityFor n = .mdns :=
    fun hq => hq.priorityFor.trans hp
  unfold step at hp' ⊢
  cases a with
  | apply name state source claim now =>
    exfalso
    apply hp'
    have he := quiet_emitSourceChange (m := ({ m with frames := [] } : Monitor).setSource name source)
      (n := name) (m.priorityFor name) source
    have howner : ∀ {m' : Monitor}, Quiet name (({ m with frames := [] } : Monitor).setSource name source) m' →
        ((m.priorityFor name).priority ≤ source.priority ∨
          state = .online ∧ ∃ d ∈ m.devicesByName name, d.runtimeState.state ≠ .online) →
        m'.priorityFor n = .mdns := by
      intro m' hq hgate
      rw [priorityFor_setSource_quiet hq]
      by_cases hn : n = name
      · rw [if_pos hn]
        subst hn
        by_contra hs
        rcases hgate with hle | ⟨ho, d, hd, hne⟩
        · rw [hp] at hle
          cases source <;> simp_all [ReachabilitySource.priority]
        · exact hne (hb hp hs ho d hd)
      · rw [if_neg hn]
        exact hp
    obtain hs | ⟨-, hgate, hs | hs⟩ := apply_cases { m with frames := [] } name state source claim now
    · dsimp only
      rw [hs]
      exact hp
    · dsimp only
      rw [hs]
      exact howner he hgate
    · dsimp only
      rw [hs]
      exact howner (he.trans (quiet_onStateChange state now)) hgate
  | withdrawn name source icmpAvailable now =>
    by_cases hs : m.priorityFor name = source
    · by_cases hn : name = n
      · subst hn
        have hmd : source = .mdns := hs.symm.trans hp
        subst hmd
        have h := withdrawn_hands_back (holds_start h₁) hp (hb hp rfl hk) icmpAvailable now
        exact ⟨h.1, h.2.frames⟩
      · refine absurd ?_ hp'
        have hq := quiet_sourceWithdrawn (m := { m with frames := [] }) hs icmpAvailable now
        dsimp only
        rw [hq.priorityFor, priorityFor_popSource, if_neg (Ne.symm hn)]
        exact hp
    · refine absurd ?_ hp'
      dsimp only
      rw [sourceWithdrawn_of_ne (m := { m with frames := [] }) hs]
      exact hp
  | identityLive name live => exact absurd (hsame (quiet_applyDeployedIdentityLive live)) hp'
  | version name version => exact absurd (hsame (quiet_applyVersion version)) hp'
  | macAddress name mac => exact absurd (hsame (quiet_applyMacAddress normalizeMac mac)) hp'
  | addresses name primary addresses => exact absurd (hsame (quiet_dispatchIp primary addresses)) hp'
  | forget name => exact absurd rfl (hf name)
  | added device =>
    refine absurd ?_ hp'
    dsimp only [Monitor.added]
    split <;> exact hp

/-- **The deployed-identity gate.** On every run of calls for names with a Native API in which mDNS is left
only by a withdrawal, the flag is down while mDNS owns a name; and a call other than `forget` that ends the
ownership of a name with a known identity ends with the flag up, and shows the gate down in no frame. -/
theorem identity_gate (h : Reaches (step normalizeMac) (fun m a => m.ForApi a ∧ m.HandsBack a) {} m) :
    (∀ n, m.priorityFor n = .mdns → m.HasApi n → m.Live n false) ∧
    ∀ a, m.ForApi a → m.HandsBack a → (∀ k, a ≠ .forget k) → ∀ n, m.HasApi n → m.IdentityKnown n →
      m.priorityFor n = .mdns → (m.step normalizeMac a).priorityFor n ≠ .mdns →
      (m.step normalizeMac a).Live n true ∧ FramesHold m (m.step normalizeMac a) := by
  have hI : m.OneRow ∧ ∀ k, m.GateAt k := by
    refine h.invariant (I := fun m => m.OneRow ∧ ∀ k, m.GateAt k) ⟨List.nodup_nil, fun k hp => nomatch hp⟩ ?_
    intro s a hok hs
    exact ⟨oneRow_step hs.1 a, fun k => gateAt_step hs.2 hok.1 k⟩
  exact ⟨hI.2, fun a _ hb hf n _ hk hp hp' => handed_back hI.1 hb hf hk hp hp'⟩

/-! ## A ping answer takes the name over -/

/-- A compiled device, and a copy of its file under the same name. -/
def kitchen : CatalogDevice :=
  { name := "kitchen", configuration := "kitchen.yaml", apiEnabled := true,
    runtimeState := { deployedVersion := "2026.9.0" } }

def kitchenCopy : CatalogDevice := { kitchen with configuration := "kitchen (1).yaml" }

/-- The device announces itself, then the copy appears. -/
def kitchenShared : Monitor :=
  [.added kitchen, .apply "kitchen" .online .mdns true 0, .added kitchenCopy].foldl (step id) {}

theorem identity_gate_kitchen :
    (step id (step id (step id {} (.added kitchen)) (.apply "kitchen" .online .mdns true 0))
      (.withdrawn "kitchen" .mdns none 1)).Live "kitchen" true := by
  have h₀ : Reaches (step id) (fun m a => m.ForApi a ∧ m.HandsBack a) {} {} := Reaches.refl ({} : Monitor)
  have h₁ := Reaches.next h₀ (a := .added kitchen) ⟨by decide +kernel, trivial⟩
  have h₂ := Reaches.next h₁ (a := .apply "kitchen" .online .mdns true 0) ⟨trivial, fun _ hs => absurd rfl hs⟩
  exact ((identity_gate h₂).2 (.withdrawn "kitchen" .mdns none 1) trivial (fun _ _ _ => by decide +kernel) nofun
    "kitchen" (by decide +kernel) (by decide +kernel) (by decide +kernel) (by decide +kernel)).1

/-- **The gate drops when a ping answer takes the name over.** The copy has no state yet, so the answer takes
the name from mDNS; the flag stays down, and the device's frame shows the gate down. -/
theorem takeover_drops_gate :
    Reaches (step id) (fun m a => m.ForApi a) {} kitchenShared ∧
    kitchenShared.HasApi "kitchen" ∧ kitchenShared.IdentityKnown "kitchen" ∧
    kitchenShared.priorityFor "kitchen" = .mdns ∧
    (kitchenShared.step id (.apply "kitchen" .online .ping false 1)).priorityFor "kitchen" = .ping ∧
    ¬ (kitchenShared.step id (.apply "kitchen" .online .ping false 1)).Live "kitchen" true ∧
    ¬ FramesHold kitchenShared (kitchenShared.step id (.apply "kitchen" .online .ping false 1)) := by
  refine ⟨Reaches.foldl_checks (fun _ _ => of_decide_eq_true) _ _ ?_, ?_⟩ <;> decide +kernel

end Monitor
end DeviceBuilder.Devices
