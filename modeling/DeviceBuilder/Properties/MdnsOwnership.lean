import DeviceBuilder.Devices.MdnsSource
import DeviceBuilder.Lib.Runs

/-!
# The ownership of mDNS is anchored and is released

* `Monitor.Moves`: what the calls of one action may do to the ledger.
* `moves_step`: an action enters mDNS only where a device-named PTR is live.
* `MdnsWorld.Sound`, `sound_step`: the ledger has entries of configured names only, so
  that a withdrawal always meets the name it is for.
* `anchored`: on every run, mDNS in the ledger is anchored.
* `overtaken_applies_nothing`: the answer to a service resolve that its own service's
  withdrawal overtook is dropped.
* `ping_keeps_online`: a ping result takes no row of a name of mDNS or MQTT out of ONLINE.
* `mdns_anchored`: the three together.
-/

namespace DeviceBuilder.Devices

open Runs

namespace Monitor

variable {m m' m'' : Monitor} {n k : String} {L : String → Prop}

/-- The rows are the same ones; an entry is of a configured name; mDNS enters where `L` holds. -/
structure Moves (L : String → Prop) (m m' : Monitor) : Prop where
  rows : m'.devices.map (·.ident) = m.devices.map (·.ident)
  entries : ∀ n, m'.stateSource n ≠ none → m.stateSource n ≠ none ∨ m.Configured n
  claims : ∀ n, m'.priorityFor n = .mdns → m.priorityFor n = .mdns ∨ L n

theorem configured_of_rows (h : m'.devices.map (·.ident) = m.devices.map (·.ident)) :
    m'.Configured n ↔ m.Configured n := by
  have hc : ∀ m : Monitor, m.Configured n ↔ (m.devices.map (·.ident)).filter (·.1 = n) ≠ [] := by
    intro m
    rw [← map_ident_devicesByName, Configured, ne_eq, ne_eq, List.map_eq_nil_iff]
  rw [hc, hc, h]

theorem Moves.refl (L : String → Prop) (m : Monitor) : Moves L m m :=
  ⟨by rfl, fun _ h => .inl h, fun _ h => .inl h⟩

theorem Moves.trans (h : Moves L m m') (h' : Moves L m' m'') : Moves L m m'' where
  rows := h'.rows.trans h.rows
  entries := by
    intro n hn
    rcases h'.entries n hn with hn | hn
    · exact h.entries n hn
    · exact .inr ((configured_of_rows h.rows).mp hn)
  claims := by
    intro n hn
    rcases h'.claims n hn with hn | hn
    · exact h.claims n hn
    · exact .inr hn

theorem Quiet.moves (h : Quiet n m m') : Moves L m m' where
  rows := h.rows
  entries := fun _ hk => .inl (h.ledger ▸ hk)
  claims := fun _ hk => .inl (h.priorityFor.symm.trans hk)

/-- An entry that is popped. -/
theorem moves_popped (h : Quiet n (m.popSource n) m') : Moves L m m' where
  rows := h.rows
  entries := by
    intro k hk
    rw [h.ledger, stateSource_popSource] at hk
    split at hk
    · exact absurd rfl hk
    · exact .inl hk
  claims := by
    intro k hk
    rw [h.priorityFor, priorityFor_popSource] at hk
    split at hk
    · cases hk
    · exact .inl hk

/-- An entry that is set, for a configured name. -/
theorem moves_set {source : ReachabilitySource} (hc : m.Configured n) (hl : source = .mdns → L n)
    (h : Quiet n (m.setSource n source) m') : Moves L m m' where
  rows := h.rows
  entries := by
    intro k hk
    rw [h.ledger, stateSource_setSource] at hk
    split at hk
    · rename_i hkn
      exact .inr (hkn ▸ hc)
    · exact .inl hk
  claims := by
    intro k hk
    rw [h.priorityFor, priorityFor_setSource] at hk
    split at hk
    · rename_i hkn
      exact .inr (hkn ▸ hl hk)
    · exact .inl hk

theorem moves_apply {source : ReachabilitySource} (hl : source = .mdns → L n) (state : DeviceState) (claim : Bool)
    (now : ℕ) : Moves L m (m.apply n state source claim now) := by
  have he := quiet_emitSourceChange (m := m.setSource n source) (n := n) (m.priorityFor n) source
  obtain hs | ⟨hc, -, hs | hs⟩ := apply_cases m n state source claim now
  · rw [hs]
    exact Moves.refl L m
  · rw [hs]
    exact moves_set hc hl he
  · rw [hs]
    exact moves_set hc hl (he.trans (quiet_onStateChange state now))

theorem moves_sourceWithdrawn (source : ReachabilitySource) (icmpAvailable : Option Bool) (now : ℕ) :
    Moves L m (m.sourceWithdrawn n source icmpAvailable now) := by
  by_cases hp : m.priorityFor n = source
  · exact moves_popped (quiet_sourceWithdrawn hp icmpAvailable now)
  · rw [sourceWithdrawn_of_ne hp]
    exact Moves.refl L m

variable (env : MdnsHelpers)

theorem quiet_applyIpAddresses (addresses : List String) : Quiet n m (m.applyIpAddresses env n addresses) := by
  unfold applyIpAddresses
  dsimp only
  split
  · exact Quiet.refl n m
  · exact quiet_dispatchIp _ _

theorem quiet_applyIdentityTxt (info : ServiceInfo) : Quiet n m (m.applyIdentityTxt env n info) := by
  have hite : ∀ {m m' : Monitor} {p : Prop} [Decidable p], Quiet n m m' → Quiet n m (if p then m else m') := by
    intro m m' p _ h
    split
    · exact Quiet.refl n m
    · exact h
  unfold applyIdentityTxt
  dsimp only
  exact (hite (quiet_applyVersion _)).trans ((hite (quiet_applyConfigHash _)).trans (hite (quiet_applyMacAddress _ _)))

theorem quiet_applyNetworkTxt (info : ServiceInfo) : Quiet n m (m.applyNetworkTxt n info) := by
  unfold applyNetworkTxt
  split
  · exact Quiet.refl n m
  · exact quiet_applyObservation _ _ _

theorem quiet_applyApiEncryptionTxt (info : ServiceInfo) : Quiet n m (m.applyApiEncryptionTxt n info) := by
  unfold applyApiEncryptionTxt
  split
  · exact quiet_applyApiEncryption _ _
  · split
    · exact Quiet.refl n m
    · exact quiet_applyApiEncryption _ _

theorem quiet_applyTxtProperties (info : ServiceInfo) : Quiet n m (m.applyTxtProperties env n info) := by
  have h := ((quiet_applyIdentityTxt (m := m) (n := n) env info).trans (quiet_applyNetworkTxt info)).trans
    (quiet_applyApiEncryptionTxt info)
  unfold applyTxtProperties
  dsimp only
  split
  · exact h
  · exact h.trans (quiet_applyObservation _ _ _)

theorem quiet_applyHttpIdentityProps (info : ServiceInfo) : Quiet n m (m.applyHttpIdentityProps env n info) := by
  have h := (quiet_applyIdentityTxt (m := m) (n := n) env info).trans (quiet_applyNetworkTxt info)
  unfold applyHttpIdentityProps
  dsimp only
  split
  · exact h.trans (quiet_applyDeployedIdentityLive true)
  · exact h

/-- Row `i` of `m` that is ONLINE is still there, and ONLINE, in `m'`. -/
def KeepsOnline (m m' : Monitor) (i : ℕ) : Prop :=
  ∀ d, m.devices[i]? = some d → d.runtimeState.state = .online →
    ∃ d', m'.devices[i]? = some d' ∧ d'.configuration = d.configuration ∧ d'.runtimeState.state = .online

variable {i : ℕ}

theorem KeepsOnline.refl (m : Monitor) : KeepsOnline m m i := fun d hd ho => ⟨d, hd, rfl, ho⟩

theorem KeepsOnline.trans (h : KeepsOnline m m' i) (h' : KeepsOnline m' m'' i) : KeepsOnline m m'' i := by
  intro d hd ho
  obtain ⟨d', hd', hc', ho'⟩ := h d hd ho
  obtain ⟨d'', hd'', hc'', ho''⟩ := h' d' hd' ho'
  exact ⟨d'', hd'', hc''.trans hc', ho''⟩

theorem keepsOnline_write {f : CatalogDevice → CatalogDevice}
    (hf : ∀ d, (f d).configuration = d.configuration ∧
      (d.runtimeState.state = .online → (f d).runtimeState.state = .online)) : KeepsOnline m (m.write n f) i := by
  intro d hd ho
  refine ⟨if d.name = n then f d else d, ?_, ?_, ?_⟩
  · unfold write
    rw [List.getElem?_map, hd]
    rfl
  · split
    · exact (hf d).1
    · rfl
  · split
    · exact (hf d).2 ho
    · exact ho

theorem keepsOnline_onSourceChange (source : ReachabilitySource) :
    KeepsOnline m (m.onSourceChange n source) i := by
  have hn : ∀ m : Monitor, KeepsOnline m (m.notify n (.activeSource source)) i :=
    fun m => keepsOnline_write (m := m) (fun d => ⟨rfl, id⟩)
  unfold onSourceChange
  dsimp only
  split
  · have hw : KeepsOnline m (m.write n (fun d => { d with deployedName := "" })) i :=
      keepsOnline_write (fun d => ⟨rfl, id⟩)
    exact hw.trans (hn _)
  · exact hn m

theorem keepsOnline_emitSourceChange (old new : ReachabilitySource) :
    KeepsOnline m (m.emitSourceChange n old new) i := by
  have hl : ∀ m : Monitor, KeepsOnline m (m.applyDeployedIdentityLive n false) i := by
    intro m
    unfold applyDeployedIdentityLive
    split
    · exact KeepsOnline.refl m
    · split
      · exact keepsOnline_write (m := m) (fun d => ⟨rfl, id⟩)
      · exact KeepsOnline.refl m
  unfold emitSourceChange
  split
  · exact KeepsOnline.refl m
  · dsimp only
    split
    · exact (keepsOnline_onSourceChange new).trans (hl _)
    · exact keepsOnline_onSourceChange new

/-- A ping result of a name that mDNS or MQTT owns takes no row out of ONLINE. -/
theorem ping_keeps_online (hp : m.priorityFor n = .mdns ∨ m.priorityFor n = .mqtt) (answered : Bool) (now : ℕ) :
    KeepsOnline m (m.applyPingResult n answered now) i := by
  have he := keepsOnline_emitSourceChange (m := m.setSource n .ping) (n := n) (i := i) (m.priorityFor n) .ping
  have hset : KeepsOnline m (m.setSource n .ping) i := KeepsOnline.refl m
  unfold applyPingResult
  obtain hs | ⟨-, hgate, hs | hs⟩ := apply_cases m n (if answered then .online else .offline) .ping false now
  · rw [hs]
    exact KeepsOnline.refl m
  · rw [hs]
    exact hset.trans he
  · rw [hs]
    refine (hset.trans he).trans ?_
    -- below the owner, only a positive answer gets here
    have hon : (if answered then DeviceState.online else .offline) = .online := by
      rcases hgate with hle | ⟨ho, -⟩
      · rcases hp with hp | hp <;> rw [hp] at hle <;> exact absurd hle (by decide)
      · exact ho
    rw [hon]
    exact keepsOnline_write (fun d => ⟨rfl, fun _ => rfl⟩)

end Monitor

namespace MdnsWorld

variable {w w' : MdnsWorld} {n : String} (env : MdnsHelpers)

/-- The anchors of the cache as a predicate on names. -/
def Anchored (w : MdnsWorld) (n : String) : Prop := w.hasLiveAnchorPtr n = true

theorem anchored_of_hasLivePtr {t : ServiceType} (h : w.hasLivePtr n t = true) : w.Anchored n := by
  cases t with
  | esphomelib => simp [Anchored, hasLiveAnchorPtr, h]
  | http => simp [Anchored, hasLiveAnchorPtr, h]

open Monitor

theorem moves_applyServiceInfo (t : ServiceType) (info : ServiceInfo) (now : ℕ) :
    Moves w.Anchored w.monitor (w.applyServiceInfo env n t info now) := by
  unfold applyServiceInfo
  dsimp only
  have h₁ : Moves w.Anchored w.monitor
      (if w.hasLivePtr n t then w.monitor.apply n .online .mdns true now else w.monitor) := by
    split
    · exact moves_apply (fun _ => anchored_of_hasLivePtr ‹_›) .online true now
    · exact Moves.refl _ _
  generalize (if w.hasLivePtr n t then w.monitor.apply n .online .mdns true now else w.monitor) = m₁ at h₁ ⊢
  refine h₁.trans ?_
  split
  · exact (quiet_applyTxtProperties env info).moves
  · exact ((quiet_applyIpAddresses env _).trans (quiet_applyTxtProperties env info)).moves

theorem moves_applyInfo (r : Resolve) (info : ServiceInfo) (now : ℕ) :
    Moves w.Anchored w.monitor (w.applyInfo env r info now) := by
  unfold applyInfo
  cases r.applier with
  | serviceInfo => exact moves_applyServiceInfo env _ info now
  | httpTxt => exact (quiet_applyHttpIdentityProps env info).moves
  | verify => exact (quiet_applyHttpIdentityProps env info).moves
  | webUrl => exact Moves.refl _ _

/-- What an action that is no change of the rows does: the cache stays, the monitor moves as `Moves` says, no
withdrawal is uncounted, and a new epoch is one that has been reached. -/
structure Settles (w w' : MdnsWorld) : Prop where
  livePtrs : w'.livePtrs = w.livePtrs
  moves : Moves w.Anchored w.monitor w'.monitor
  epochs : ∀ name, w.withdrawalEpochs name ≤ w'.withdrawalEpochs name
  resolves : ∀ r ∈ w'.resolves, r ∈ w.resolves ∨ ∀ e, r.epoch = some e → e ≤ w'.withdrawalEpochs r.serviceName

/-- The monitor replaced after callbacks. -/
theorem settles_monitor {m : Monitor} (h : Moves w.Anchored w.monitor m) : Settles w { w with monitor := m } :=
  ⟨by rfl, h, fun _ => Nat.le_refl _, fun _ hr => .inl hr⟩

theorem Settles.refl (w : MdnsWorld) : Settles w w := settles_monitor (Moves.refl _ _)

/-- The tasks replaced. -/
theorem settles_resolves {rs : List Resolve} {inflight : List String}
    (h : ∀ r ∈ rs, r ∈ w.resolves ∨ ∀ e, r.epoch = some e → e ≤ w.withdrawalEpochs r.serviceName) :
    Settles w { w with resolves := rs, inflightResolves := inflight } :=
  ⟨by rfl, Moves.refl _ _, fun _ => Nat.le_refl _, h⟩

theorem Anchored.of_livePtrs (h : w'.livePtrs = w.livePtrs) : w'.Anchored = w.Anchored := by
  funext n
  unfold Anchored hasLiveAnchorPtr hasLivePtr
  rw [h]

theorem Settles.trans {w'' : MdnsWorld} (h : Settles w w') (h' : Settles w' w'') : Settles w w'' where
  livePtrs := h'.livePtrs.trans h.livePtrs
  moves := h.moves.trans (Anchored.of_livePtrs h.livePtrs ▸ h'.moves)
  epochs := fun name => Nat.le_trans (h.epochs name) (h'.epochs name)
  resolves := by
    intro r hr
    rcases h'.resolves r hr with hr | he
    · rcases h.resolves r hr with hr | he
      · exact .inl hr
      · exact .inr (fun e hre => Nat.le_trans (he e hre) (h'.epochs r.serviceName))
    · exact .inr he

theorem settles_cacheApplyOrResolve (t : ServiceType) (name deviceName : String) (applier : Applier)
    (cached : Option ServiceInfo) (now : ℕ) :
    Settles w (w.cacheApplyOrResolve env t name deviceName applier cached now) := by
  unfold cacheApplyOrResolve
  dsimp only
  cases cached with
  | none =>
    refine settles_resolves (fun r hr => ?_)
    rcases List.mem_append.mp hr with hr | hr
    · exact .inl hr
    · rw [List.mem_singleton.mp hr]
      exact .inr nofun
  | some info =>
    dsimp only
    split
    · exact settles_monitor (moves_applyInfo env _ info now)
    · exact Settles.refl w

theorem settles_resolveStarts (i : ℕ) : Settles w (w.resolveStarts i) := by
  unfold resolveStarts
  split
  · split
    · exact Settles.refl w
    · split
      · exact settles_resolves (fun r hr => .inl (List.mem_of_mem_eraseIdx hr))
      · refine settles_resolves (fun r hr => ?_)
        rcases List.mem_or_eq_of_mem_set hr with hr | rfl
        · exact .inl hr
        · refine .inr (fun e he => ?_)
          cases he
          exact Nat.le_refl _
  · exact Settles.refl w

theorem settles_verified (r : Resolve) (identity : Bool) : Settles w (w.verified r identity) := by
  unfold verified
  split
  · exact settles_monitor (quiet_applyDeployedIdentityLive false).moves
  · exact Settles.refl w

theorem settles_resolveAnswered (i : ℕ) (answer : Answer) (now : ℕ) :
    Settles w (w.resolveAnswered env i answer now) := by
  unfold resolveAnswered
  split
  · rename_i r _
    split
    · exact Settles.refl w
    · generalize hw₁ : ({ w with
        resolves := w.resolves.eraseIdx i
        inflightResolves := w.inflightResolves.erase r.serviceName } : MdnsWorld) = w₁
      have h₁ : Settles w w₁ := by
        rw [← hw₁]
        exact settles_resolves (fun r hr => .inl (List.mem_of_mem_eraseIdx hr))
      dsimp only
      cases answer with
      | failed => exact h₁
      | miss => exact h₁.trans (settles_verified r false)
      | found info =>
        dsimp only
        split
        · exact h₁
        · exact h₁.trans ((settles_monitor (moves_applyInfo env r info now)).trans (settles_verified r _))
  · exact Settles.refl w

theorem settles_onServiceRemoved (name deviceName : String) (t : ServiceType) (now : ℕ) :
    Settles w (w.onServiceRemoved name deviceName t now) := by
  unfold onServiceRemoved
  dsimp only
  have hle : ∀ s, w.withdrawalEpochs s ≤
      Function.update w.withdrawalEpochs name (w.withdrawalEpochs name + 1) s := by
    intro s
    rw [Function.update_apply]
    split
    · rename_i hs
      rw [hs]
      omega
    · exact Nat.le_refl _
  split
  · exact ⟨by rfl, Moves.refl _ _, hle, fun _ hr => .inl hr⟩
  · exact ⟨by rfl, moves_sourceWithdrawn _ _ now, hle, fun _ hr => .inl hr⟩

theorem settles_importableHttpServiceStateChange (name : String) (change : ServiceStateChange)
    (cached : Option ServiceInfo) (now : ℕ) :
    Settles w (w.importableHttpServiceStateChange env name change cached now) := by
  unfold importableHttpServiceStateChange
  split
  · exact Settles.refl w
  · exact settles_cacheApplyOrResolve env _ name _ _ cached now

theorem settles_onBrowserEvent (t : ServiceType) (name : String) (change : ServiceStateChange)
    (cached : Option ServiceInfo) (now : ℕ) : Settles w (w.onBrowserEvent env t name change cached now) := by
  unfold onBrowserEvent
  split
  · exact Settles.refl w
  · cases t with
    | esphomelib =>
      dsimp only [onEsphomelibServiceStateChange]
      split
      · exact Settles.refl w
      · split
        · exact settles_onServiceRemoved name _ .http now
        · exact settles_cacheApplyOrResolve env _ name _ _ cached now
    | http =>
      have h₁ : Settles w (w.onHttpServiceStateChange env name change cached now) := by
        dsimp only [onHttpServiceStateChange]
        split
        · exact Settles.refl w
        · split
          · exact settles_onServiceRemoved name _ .esphomelib now
          · split
            · exact Settles.refl w
            · exact settles_cacheApplyOrResolve env _ name _ _ cached now
      exact h₁.trans (settles_importableHttpServiceStateChange env name change cached now)

theorem settles_applyResolvedAddresses (name : String) (addresses : Option (List String)) (now : ℕ) :
    Settles w (w.applyResolvedAddresses env name addresses now) := by
  unfold applyResolvedAddresses
  split
  · exact Settles.refl w
  · dsimp only
    split
    · exact Settles.refl w
    · split
      · exact settles_monitor ((moves_apply (fun _ => ‹_›) .online true now).trans
          (quiet_applyIpAddresses env _).moves)
      · exact settles_monitor (quiet_applyIpAddresses env _).moves

theorem settles_hostsResolved (i : ℕ) (answers : List (Option (List String))) (now : ℕ) :
    Settles w (w.hostsResolved env i answers now) := by
  unfold hostsResolved
  split
  · rename_i names _
    have hfold : ∀ (rs : List (String × Option (List String))) (w : MdnsWorld),
        Settles w (rs.foldl (fun w r => w.applyResolvedAddresses env r.1 r.2 now) w) := by
      intro rs
      induction rs with
      | nil => exact Settles.refl
      | cons r rs ih => exact fun w => (settles_applyResolvedAddresses env r.1 r.2 now).trans (ih _)
    have h₁ : Settles w { w with hostResolves := w.hostResolves.eraseIdx i } :=
      ⟨by rfl, Moves.refl _ _, fun _ => Nat.le_refl _, fun _ hr => .inl hr⟩
    exact h₁.trans (hfold _ _)
  · exact Settles.refl w

/-! ## The scanner -/

/-- A file has one row, and the entries of the ledger are of configured names. -/
structure Sound (w : MdnsWorld) : Prop where
  oneRow : (w.monitor.devices.map (·.configuration)).Nodup
  entered : ∀ n, w.monitor.stateSource n ≠ none → w.monitor.Configured n

theorem Sound.moves {L : String → Prop} {m : Monitor} (h : Sound w) (hm : Moves L w.monitor m) :
    Sound { w with monitor := m } where
  oneRow := configuration_of_rows hm.rows ▸ h.oneRow
  entered := by
    intro n hn
    apply (configured_of_rows hm.rows).mpr
    rcases hm.entries n hn with hn | hn
    · exact h.entered n hn
    · exact hn

theorem Sound.settles (h : Sound w) (hs : Settles w w') : Sound w' :=
  ⟨(h.moves hs.moves).oneRow, (h.moves hs.moves).entered⟩

theorem configured_iff {m : Monitor} : m.Configured n ↔ ∃ d ∈ m.devices, d.name = n := by
  unfold Configured devicesByName
  rw [← List.length_pos_iff, List.length_filter_pos_iff]
  simp only [decide_eq_true_eq]

theorem sound_added (h : Sound w) (d : CatalogDevice) : Sound { w with monitor := w.monitor.added d } := by
  by_cases hc : d.configuration ∈ w.monitor.devices.map (·.configuration)
  · simp only [Monitor.added, if_pos hc]
    exact h
  · simp only [Monitor.added, if_neg hc]
    refine ⟨?_, fun n hn => ?_⟩
    · rw [List.map_append]
      exact List.Nodup.append h.oneRow (List.nodup_singleton _) (by simpa [List.disjoint_singleton] using hc)
    · obtain ⟨e, he, hen⟩ := configured_iff.mp (h.entered n hn)
      exact configured_iff.mpr ⟨e, List.mem_append_left _ he, hen⟩

theorem sound_scanRemoved (h : Sound w) (configuration : String) : Sound (w.scanRemoved configuration) := by
  unfold scanRemoved
  split
  · rename_i d hd
    have hdc : d.configuration = configuration := by simpa using List.find?_some hd
    dsimp only
    generalize hm : ({ w.monitor with
      devices := w.monitor.devices.filter (·.configuration ≠ configuration) } : Monitor) = m
    have hq : Quiet d.name (m.popSource d.name) (m.forget d.name) := quiet_forget
    have hone : (m.devices.map (·.configuration)).Nodup := by
      rw [← hm]
      exact h.oneRow.sublist (List.filter_sublist.map _)
    have hcfg : ∀ n, (m.popSource d.name).stateSource n ≠ none → m.Configured n := by
      intro n hn
      rw [stateSource_popSource] at hn
      split at hn
      · exact absurd rfl hn
      · rename_i hnd
        have hw : w.monitor.stateSource n ≠ none := by
          rw [← hm] at hn
          exact hn
        obtain ⟨e, he, hen⟩ := configured_iff.mp (h.entered n hw)
        refine configured_iff.mpr ⟨e, ?_, hen⟩
        rw [← hm]
        refine List.mem_filter.mpr ⟨he, decide_eq_true ?_⟩
        intro hec
        have hed : e = d := List.inj_on_of_nodup_map h.oneRow he (List.mem_of_find?_eq_some hd) (hec.trans hdc.symm)
        exact hnd (hen.symm.trans (congrArg (·.name) hed))
    exact ⟨configuration_of_rows hq.rows ▸ hone,
      fun n hn => (configured_of_rows hq.rows).mpr (hcfg n (hq.ledger ▸ hn))⟩
  · exact h

/-- After a rename the old name has rows, or its entry is gone. -/
theorem sound_reconcileRename {oldName newName : String}
    (hone : (w.monitor.devices.map (·.configuration)).Nodup)
    (h : ∀ n, w.monitor.stateSource n ≠ none → w.monitor.Configured n ∨ n = oldName ∧ oldName ≠ newName)
    (cached : Option ServiceInfo) (now : ℕ) : Sound (w.reconcileRename env oldName newName cached now) := by
  unfold reconcileRename
  by_cases hne : oldName = newName
  · rw [if_pos hne]
    refine ⟨hone, fun n hn => ?_⟩
    rcases h n hn with hc | ⟨-, hno⟩
    · exact hc
    · exact absurd hne hno
  · rw [if_neg hne]
    dsimp only
    have hs : Settles w (w.probeDevice env newName cached now) := settles_cacheApplyOrResolve env _ _ _ _ cached now
    generalize w.probeDevice env newName cached now = w₁ at hs ⊢
    have hone₁ : (w₁.monitor.devices.map (·.configuration)).Nodup :=
      configuration_of_rows hs.moves.rows ▸ hone
    have h₁ : ∀ n, w₁.monitor.stateSource n ≠ none → w₁.monitor.Configured n ∨ n = oldName := by
      intro n hn
      rcases hs.moves.entries n hn with hn | hn
      · rcases h n hn with hc | ⟨rfl, -⟩
        · exact .inl ((configured_of_rows hs.moves.rows).mpr hc)
        · exact .inr rfl
      · exact .inl ((configured_of_rows hs.moves.rows).mpr hn)
    split
    · have hq : Quiet oldName (w₁.monitor.popSource oldName) (w₁.monitor.forget oldName) := quiet_forget
      refine ⟨configuration_of_rows hq.rows ▸ hone₁, fun n hn => (configured_of_rows hq.rows).mpr ?_⟩
      · have hn' : (w₁.monitor.popSource oldName).stateSource n ≠ none := hq.ledger ▸ hn
        rw [stateSource_popSource] at hn'
        split at hn'
        · exact absurd rfl hn'
        · rename_i hno
          exact (h₁ n hn').resolve_right hno
    · rename_i hc
      refine ⟨hone₁, fun n hn => ?_⟩
      rcases h₁ n hn with hc' | rfl
      · exact hc'
      · exact hc

theorem sound_scanReplaced (h : Sound w) (d : CatalogDevice) (cached : Option ServiceInfo) (now : ℕ) :
    Sound (w.scanReplaced env d cached now) := by
  unfold scanReplaced
  split
  · rename_i previous hp
    have hpc : previous.configuration = d.configuration := by simpa using List.find?_some hp
    have hpm : previous ∈ w.monitor.devices := List.mem_of_find?_eq_some hp
    dsimp only
    generalize hrows : w.monitor.devices.map (fun e =>
      if e.configuration = d.configuration then { d with runtimeState := e.runtimeState } else e) = rows
    have hconf : rows.map (·.configuration) = w.monitor.devices.map (·.configuration) := by
      rw [← hrows, List.map_map]
      apply List.map_congr_left
      intro e _
      simp only [Function.comp]
      split
      · rename_i he
        exact he.symm
      · rfl
    have h₁ : Sound (reconcileRename env { w with monitor := { w.monitor with devices := rows } } previous.name d.name
        cached now) := by
      refine sound_reconcileRename env (hconf ▸ h.oneRow) (fun n hn => ?_) cached now
      obtain ⟨e, he, hen⟩ := configured_iff.mp (h.entered n hn)
      by_cases hec : e.configuration = d.configuration
      · -- the row that is replaced
        have hep : e = previous := List.inj_on_of_nodup_map h.oneRow he hpm (hec.trans hpc.symm)
        subst hep
        by_cases hne : e.name = d.name
        · refine .inl (configured_iff.mpr ⟨{ d with runtimeState := e.runtimeState }, ?_, hne.symm.trans hen⟩)
          rw [← hrows]
          exact List.mem_map.mpr ⟨e, he, if_pos hec⟩
        · exact .inr ⟨hen.symm, hne⟩
      · refine .inl (configured_iff.mpr ⟨e, ?_, hen⟩)
        rw [← hrows]
        exact List.mem_map.mpr ⟨e, he, if_neg hec⟩
    split
    · unfold addressRetargeted
      split
      · exact h₁
      · exact h₁.moves (L := fun _ => False) quiet_clearResolvedAddresses.moves
    · exact h₁
  · exact h

theorem sound_step (h : Sound w) (a : MdnsAction) : Sound (w.step env a) := by
  cases a with
  | browser t name change cached now => exact h.settles (settles_onBrowserEvent env t name change cached now)
  | resolveStarts i => exact h.settles (settles_resolveStarts i)
  | resolveAnswered i answer now => exact h.settles (settles_resolveAnswered env i answer now)
  | ptr t name live => exact ⟨h.oneRow, h.entered⟩
  | refresh name => exact ⟨h.oneRow, h.entered⟩
  | sweep =>
    simp only [step]
    split
    · exact h
    · exact ⟨h.oneRow, h.entered⟩
  | hostsResolved i answers now => exact h.settles (settles_hostsResolved env i answers now)
  | verify deviceName => exact ⟨h.oneRow, h.entered⟩
  | ping name answered now => exact h.moves (L := fun _ => False) (moves_apply nofun _ false now)
  | mqtt name state now => exact h.moves (L := fun _ => False) (moves_apply nofun state false now)
  | icmp available => exact ⟨h.oneRow, h.entered⟩
  | scanAdded d cached now =>
    exact (sound_added h d).settles (settles_cacheApplyOrResolve env _ _ _ _ cached now)
  | scanReplaced d cached now => exact sound_scanReplaced env h d cached now
  | scanRemoved configuration => exact sound_scanRemoved h configuration

/-! ## Claims and epochs over one action -/

/-- The rows replaced, then what an action does. -/
structure Scans (w w' : MdnsWorld) : Prop where
  claims : ∀ n, w'.monitor.priorityFor n = .mdns → w.monitor.priorityFor n = .mdns ∨ w.Anchored n
  epochs : ∀ name, w.withdrawalEpochs name ≤ w'.withdrawalEpochs name
  resolves : ∀ r ∈ w'.resolves, r ∈ w.resolves ∨ ∀ e, r.epoch = some e → e ≤ w'.withdrawalEpochs r.serviceName

theorem Settles.scans (h : Settles w w') : Scans w w' := ⟨h.moves.claims, h.epochs, h.resolves⟩

/-- Other rows under the same ledger. -/
theorem Settles.scans_of_rows {rows : List CatalogDevice}
    (h : Settles { w with monitor := { w.monitor with devices := rows } } w') : Scans w w' :=
  ⟨h.moves.claims, h.epochs, h.resolves⟩

theorem settles_forget (name : String) : Settles w { w with monitor := w.monitor.forget name } :=
  settles_monitor (moves_popped quiet_forget)

theorem settles_reconcileRename (oldName newName : String) (cached : Option ServiceInfo) (now : ℕ) :
    Settles w (w.reconcileRename env oldName newName cached now) := by
  unfold reconcileRename
  split
  · exact Settles.refl w
  · have h₁ : Settles w (w.probeDevice env newName cached now) := settles_cacheApplyOrResolve env _ _ _ _ cached now
    dsimp only
    split
    · exact h₁.trans (settles_forget oldName)
    · exact h₁

theorem settles_addressRetargeted (name : String) : Settles w (w.addressRetargeted name) := by
  unfold addressRetargeted
  split
  · exact Settles.refl w
  · exact settles_monitor quiet_clearResolvedAddresses.moves

theorem scans_step (a : MdnsAction) : Scans w (w.step env a) := by
  cases a with
  | browser t name change cached now => exact (settles_onBrowserEvent env t name change cached now).scans
  | resolveStarts i => exact (settles_resolveStarts i).scans
  | resolveAnswered i answer now => exact (settles_resolveAnswered env i answer now).scans
  | ptr t name live => exact ⟨fun _ h => .inl h, fun _ => Nat.le_refl _, fun _ hr => .inl hr⟩
  | refresh name => exact ⟨fun _ h => .inl h, fun _ => Nat.le_refl _, fun _ hr => .inl hr⟩
  | sweep =>
    simp only [step]
    split
    · exact (Settles.refl w).scans
    · exact ⟨fun _ h => .inl h, fun _ => Nat.le_refl _, fun _ hr => .inl hr⟩
  | hostsResolved i answers now => exact (settles_hostsResolved env i answers now).scans
  | verify deviceName =>
    refine ⟨fun _ h => .inl h, fun _ => Nat.le_refl _, fun r hr => ?_⟩
    rcases List.mem_append.mp hr with hr | hr
    · exact .inl hr
    · rw [List.mem_singleton.mp hr]
      exact .inr nofun
  | ping name answered now => exact (settles_monitor (moves_apply nofun _ false now)).scans
  | mqtt name state now => exact (settles_monitor (moves_apply nofun state false now)).scans
  | icmp available => exact ⟨fun _ h => .inl h, fun _ => Nat.le_refl _, fun _ hr => .inl hr⟩
  | scanAdded d cached now =>
    have h := settles_cacheApplyOrResolve env (w := { w with monitor := w.monitor.added d }) .esphomelib
      (serviceName d.name .esphomelib) d.name .serviceInfo cached now
    refine ⟨fun n hn => ?_, h.epochs, h.resolves⟩
    rcases h.moves.claims n hn with hn | hn
    · refine .inl ?_
      unfold Monitor.added at hn
      dsimp only at hn
      split at hn <;> exact hn
    · exact .inr hn
  | scanReplaced d cached now =>
    simp only [step]
    unfold scanReplaced
    split
    · dsimp only
      split
      · exact Settles.scans_of_rows ((settles_reconcileRename env _ _ cached now).trans
          (settles_addressRetargeted d.name))
      · exact Settles.scans_of_rows (settles_reconcileRename env _ _ cached now)
    · exact (Settles.refl w).scans
  | scanRemoved configuration =>
    simp only [step]
    unfold scanRemoved
    split
    · dsimp only
      exact Settles.scans_of_rows (settles_forget _)
    · exact (Settles.refl w).scans

/-! ## Anchored and released -/

/-- The action delivers a `Removed` of a service named after `n`, and no PTR of that name is live. -/
def leaves (w : MdnsWorld) (n : String) : MdnsAction → Bool
  | .browser t name .removed _ _ => name = serviceName n t && !w.hasLiveAnchorPtr n
  | _ => false

/-- The history of a name: whether the claim that the ledger holds was made under a live device-named PTR, with no
`Removed` since that left the name without one. -/
def watch (w : MdnsWorld) (anchored : String → Bool) (a : MdnsAction) (n : String) : Bool :=
  if w.leaves n a then false
  else if w.monitor.priorityFor n ≠ .mdns ∧ (w.step env a).monitor.priorityFor n = .mdns then w.hasLiveAnchorPtr n
  else anchored n

/-- A step together with the history of the names. -/
def watchedStep (s : MdnsWorld × (String → Bool)) (a : MdnsAction) : MdnsWorld × (String → Bool) :=
  (s.1.step env a, s.1.watch env s.2 a)

/-- A name whose services map back to it: no dot, and no invalid service name. -/
def Browsable (n : String) : Prop :=
  '.' ∉ n.toList ∧ ∀ t, env.validMdnsServiceName (serviceName n t) = true

theorem deviceNameFromService_serviceName {n : String} (h : '.' ∉ n.toList) (t : ServiceType) :
    deviceNameFromService (serviceName n t) = n := by
  have hl : (serviceName n t).toList = n.toList ++ '.' :: t.text.toList := by
    simp [serviceName, String.toList_append]
  have hn : ∀ c ∈ n.toList, decide (c ≠ '.') = true :=
    fun c hc => decide_eq_true (fun hd => h (hd ▸ hc))
  unfold deviceNameFromService
  rw [hl, List.takeWhile_append_of_pos hn]
  simp

/-- A withdrawal of mDNS ends its ownership. -/
theorem priorityFor_sourceWithdrawn (m : Monitor) (n : String) (icmpAvailable : Option Bool) (now : ℕ) :
    (m.sourceWithdrawn n .mdns icmpAvailable now).priorityFor n ≠ .mdns := by
  by_cases hp : m.priorityFor n = .mdns
  · rw [(quiet_sourceWithdrawn hp icmpAvailable now).priorityFor, priorityFor_popSource, if_pos rfl]
    nofun
  · rw [sourceWithdrawn_of_ne hp]
    exact hp

theorem onServiceRemoved_releases {name : String} {t : ServiceType} (hl : ¬ w.Anchored n) (now : ℕ) :
    (w.onServiceRemoved name n t now).monitor.priorityFor n ≠ .mdns := by
  have hs : w.hasLivePtr n t = false := by
    rw [Bool.eq_false_iff]
    exact fun h => hl (anchored_of_hasLivePtr h)
  unfold onServiceRemoved
  dsimp only
  rw [if_neg (by unfold hasLivePtr at hs ⊢; simp [hs])]
  exact priorityFor_sourceWithdrawn _ _ _ _

/-- The `Removed` that leaves a name without an anchor ends the ownership of mDNS. -/
theorem leaves_releases (h : Sound w) (hn : Browsable env n) {a : MdnsAction} (hl : w.leaves n a = true) :
    (w.step env a).monitor.priorityFor n ≠ .mdns := by
  have hbrowser : ∀ {t : ServiceType} {name : String} {change : ServiceStateChange} {cached : Option ServiceInfo}
      {now : ℕ}, change = .removed → name = serviceName n t → ¬ w.Anchored n →
      (w.onBrowserEvent env t name change cached now).monitor.priorityFor n ≠ .mdns := by
    intro t name change cached now hc hname hla
    subst hc hname
    have hdev := deviceNameFromService_serviceName hn.1 t
    -- an unconfigured name has no entry
    have hun : w.monitor.devicesByName n = [] → w.monitor.priorityFor n ≠ .mdns := by
      intro hb hp
      refine h.entered n ?_ hb
      intro hnone
      rw [Monitor.priorityFor, hnone] at hp
      cases hp
    unfold onBrowserEvent
    rw [hn.2 t, if_neg (by decide)]
    cases t with
    | esphomelib =>
      dsimp only [onEsphomelibServiceStateChange]
      rw [hdev]
      split
      · rename_i hb
        exact hun hb
      · exact onServiceRemoved_releases hla now
    | http =>
      dsimp only [onHttpServiceStateChange, importableHttpServiceStateChange]
      rw [hdev, if_pos rfl]
      split
      · rename_i hb
        exact hun hb
      · exact onServiceRemoved_releases hla now
  cases a with
  | browser t name change cached now =>
    cases change with
    | removed =>
      simp only [leaves, Bool.and_eq_true, decide_eq_true_eq, Bool.not_eq_true'] at hl
      exact hbrowser rfl hl.1 (fun ha => by rw [Anchored, hl.2] at ha; cases ha)
    | added => cases hl
    | updated => cases hl
  | _ => cases hl

/-- **The ownership of mDNS is anchored.** -/
theorem anchored {s : MdnsWorld × (String → Bool)} (h : Reaches (watchedStep env) any ({}, fun _ => false) s) :
    Sound s.1 ∧ ∀ n, Browsable env n → s.1.monitor.priorityFor n = .mdns → s.2 n = true := by
  refine h.invariant (I := fun s => Sound s.1 ∧ ∀ n, Browsable env n →
    s.1.monitor.priorityFor n = .mdns → s.2 n = true) ?_ ?_
  · exact ⟨⟨List.nodup_nil, fun n hn => absurd rfl hn⟩, fun n _ hp => nomatch hp⟩
  · intro s a _ hs
    refine ⟨sound_step env hs.1 a, fun n hn hp => ?_⟩
    dsimp only [watchedStep] at hp ⊢
    unfold watch
    by_cases hl : s.1.leaves n a = true
    · exact absurd hp (leaves_releases env hs.1 hn hl)
    · rw [if_neg hl]
      by_cases hm : s.1.monitor.priorityFor n = .mdns
      · rw [if_neg (fun hc => hc.1 hm)]
        exact hs.2 n hn hm
      · rw [if_pos ⟨hm, hp⟩]
        exact ((scans_step env a).claims n hp).resolve_left hm

/-- The tasks' epochs have been reached. -/
def EpochsReached (w : MdnsWorld) : Prop :=
  ∀ r ∈ w.resolves, ∀ e, r.epoch = some e → e ≤ w.withdrawalEpochs r.serviceName

theorem epochsReached_step (h : EpochsReached w) (a : MdnsAction) : EpochsReached (w.step env a) := by
  intro r hr e he
  rcases (scans_step env a).resolves r hr with hr | hle
  · exact Nat.le_trans (h r hr e he) ((scans_step env a).epochs r.serviceName)
  · exact hle e he

/-- A delivered `Removed` of a configured name is counted. -/
theorem removed_counts {t : ServiceType} {name : String} (hv : env.validMdnsServiceName name = true)
    (hc : w.monitor.Configured (deviceNameFromService name)) (cached : Option ServiceInfo) (now : ℕ) :
    w.withdrawalEpochs name < (w.step env (.browser t name .removed cached now)).withdrawalEpochs name := by
  have hcount : ∀ (deviceName : String) (t : ServiceType),
      (w.onServiceRemoved name deviceName t now).withdrawalEpochs name = w.withdrawalEpochs name + 1 := by
    intro deviceName t
    unfold onServiceRemoved
    dsimp only
    split
    · exact Function.update_self ..
    · exact Function.update_self ..
  dsimp only [step, onBrowserEvent]
  rw [hv, if_neg (by decide)]
  cases t with
  | esphomelib =>
    dsimp only [onEsphomelibServiceStateChange]
    rw [if_neg hc, if_pos rfl, hcount]
    omega
  | http =>
    dsimp only [onHttpServiceStateChange, importableHttpServiceStateChange]
    rw [if_neg hc, if_pos rfl, if_pos rfl, hcount]
    omega

/-- A resolve whose service was withdrawn since it started applies nothing. -/
theorem overtaken_applies_nothing {r : Resolve} {e i : ℕ} (hr : w.resolves[i]? = some r) (he : r.epoch = some e)
    (hlt : e < w.withdrawalEpochs r.serviceName) (info : ServiceInfo) (now : ℕ) :
    (w.step env (.resolveAnswered i (.found info) now)).monitor = w.monitor := by
  have hne : w.withdrawalEpochs r.serviceName ≠ e := by omega
  dsimp only [step, resolveAnswered]
  rw [hr]
  dsimp only
  rw [he]
  dsimp only
  rw [if_pos hne]

/-- **The ownership of mDNS is anchored and is released.** On every run: of a name whose services map back to it,
the ledger says mDNS only under an anchored claim; mDNS enters the ledger only where a device-named PTR is live; a
service resolve that a `Removed` of its service overtook applies nothing; and no ping result takes a row of a name
that mDNS or MQTT owns out of ONLINE. -/
theorem mdns_anchored {s : MdnsWorld × (String → Bool)}
    (h : Reaches (watchedStep env) any ({}, fun _ => false) s) :
    (∀ n, Browsable env n → s.1.monitor.priorityFor n = .mdns → s.2 n = true) ∧
    (∀ a n, s.1.monitor.priorityFor n ≠ .mdns → (s.1.step env a).monitor.priorityFor n = .mdns →
      s.1.hasLiveAnchorPtr n = true) ∧
    (∀ r ∈ s.1.resolves, r.epoch ≠ none → env.validMdnsServiceName r.serviceName = true →
      s.1.monitor.Configured (deviceNameFromService r.serviceName) →
      ∀ t cached now w, Reaches (step env) any (s.1.step env (.browser t r.serviceName .removed cached now)) w →
        ∀ i info now', w.resolves[i]? = some r →
          (w.step env (.resolveAnswered i (.found info) now')).monitor = w.monitor) ∧
    (∀ n i answered now, s.1.monitor.priorityFor n = .mdns ∨ s.1.monitor.priorityFor n = .mqtt →
      KeepsOnline s.1.monitor (s.1.step env (.ping n answered now)).monitor i) := by
  refine ⟨(anchored env h).2, ?_, ?_, ?_⟩
  · intro a n hne hp
    exact ((scans_step env a).claims n hp).resolve_left hne
  · intro r hr he hv hc t cached now w hw i info now' hi
    obtain ⟨e, he⟩ := Option.ne_none_iff_exists'.mp he
    have hreach : EpochsReached s.1 := by
      refine h.invariant (I := fun s => EpochsReached s.1) (fun r hr => nomatch hr) ?_
      intro s a _ hs
      exact epochsReached_step env hs a
    have hmono : (s.1.step env (.browser t r.serviceName .removed cached now)).withdrawalEpochs r.serviceName ≤
        w.withdrawalEpochs r.serviceName := by
      refine hw.invariant (I := fun w => (s.1.step env (.browser t r.serviceName .removed cached now)).withdrawalEpochs
        r.serviceName ≤ w.withdrawalEpochs r.serviceName) (Nat.le_refl _) ?_
      intro w a _ hle
      exact Nat.le_trans hle ((scans_step env a).epochs r.serviceName)
    have hcount := removed_counts env (t := t) hv hc cached now
    exact overtaken_applies_nothing env hi he (by have := hreach r hr e he; omega) info now'
  · intro n i answered now hp
    exact ping_keeps_online hp answered now

/-! ## Two runs -/

/-- Helpers that find every service name valid and every address usable. -/
def openHelpers : MdnsHelpers :=
  { validMdnsServiceName := fun _ => true, isUnusableAddress := fun _ => false, normalizeMac := id }

def lamp (name : String) : CatalogDevice := { name, configuration := "lamp.yaml", apiEnabled := true }

def lampInfo : ServiceInfo := { addresses := ["192.168.1.5"], properties := [("version", some "2026.9.0")] }

/-- The PTR of the device's API service enters the cache or leaves it. -/
def lampPtr (name : String) (live : Bool) : MdnsAction := .ptr .esphomelib (serviceName name .esphomelib) live

def lampEvent (name : String) (change : ServiceStateChange) : MdnsAction :=
  .browser .esphomelib (serviceName name .esphomelib) change (some lampInfo) 0

/-- A device announces itself and is claimed off the cache. -/
def announced (name : String) : List MdnsAction :=
  [.scanAdded (lamp name) none 0, lampPtr name true, lampEvent name .added]

theorem mdns_anchored_lamp :
    ((announced "lamp").foldl (watchedStep openHelpers) ({}, fun _ => false)).2 "lamp" = true :=
  (mdns_anchored openHelpers (Reaches.foldl (announced "lamp") _)).1 "lamp"
    ⟨by decide +kernel, fun _ => rfl⟩ (by decide +kernel)

/-- A refresh starts, the device says goodbye, the device announces itself again. -/
def refreshed : List MdnsAction :=
  announced "lamp" ++ [.refresh "lamp", lampPtr "lamp" false, lampEvent "lamp" .removed, lampPtr "lamp" true]

/-- **A refresh that a withdrawal overtook claims again**, once the PTR is live anew; and the goodbye of a device
whose name has a dot is taken for another device's. -/
theorem refresh_reclaims :
    (refreshed.foldl (step openHelpers) {}).hostResolves = [["lamp"]] ∧
    (refreshed.foldl (step openHelpers) {}).monitor.priorityFor "lamp" = .unknown ∧
    ((refreshed.foldl (step openHelpers) {}).step openHelpers
      (.hostsResolved 0 [some ["192.168.1.5"]] 1)).monitor.priorityFor "lamp" = .mdns ∧
    (([lampPtr "hall.lamp" true, .scanAdded (lamp "hall.lamp") (some lampInfo) 0, lampPtr "hall.lamp" false,
        lampEvent "hall.lamp" .removed].foldl (watchedStep openHelpers) ({}, fun _ => false)).2 "hall.lamp" = false ∧
      ([lampPtr "hall.lamp" true, .scanAdded (lamp "hall.lamp") (some lampInfo) 0, lampPtr "hall.lamp" false,
        lampEvent "hall.lamp" .removed].foldl (watchedStep openHelpers)
          ({}, fun _ => false)).1.monitor.priorityFor "hall.lamp" = .mdns) := by
  decide +kernel

end MdnsWorld
end DeviceBuilder.Devices
