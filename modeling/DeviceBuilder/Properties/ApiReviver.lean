import DeviceBuilder.Devices.ApiReviver

/-!
# Revivals are verified

What the reviver turns ONLINE, clears and dials, in any interleaving of its sweeps with
changes of the rows.

* `Monitor.Touches`: what a call under a name can change of the rows.
* `ReviverWorld.Sound`: the invariant of the reviver.
* `revivals_verified`: every revival has its echo and its verdict, and nothing else of the
  reviver changes the state, the addresses or the persisted address of a row.
-/

namespace DeviceBuilder.Devices

namespace Monitor

variable {m m' m'' : Monitor} {n : String} {env : MdnsHelpers}

/-- The rows of `n` may have changed, but not to an empty persisted address. -/
def Touches (n : String) (m m' : Monitor) : Prop :=
  ∃ f : CatalogDevice → CatalogDevice, m'.devices = m.devices.map f ∧
    ∀ d, (f d).ident = d.ident ∧ (d.name ≠ n → f d = d) ∧ (d.ip ≠ "" → (f d).ip ≠ "")

theorem Touches.of_devices (h : m'.devices = m.devices) : Touches n m m' :=
  ⟨id, h.trans (List.map_id _).symm, fun _ => ⟨rfl, fun _ => rfl, id⟩⟩

theorem Touches.refl (n : String) (m : Monitor) : Touches n m m := .of_devices rfl

theorem name_of_ident {d e : CatalogDevice} (h : e.ident = d.ident) : e.name = d.name :=
  congrArg Prod.fst h

theorem Touches.trans (h : Touches n m m') (h' : Touches n m' m'') : Touches n m m'' := by
  obtain ⟨f, hf, hfd⟩ := h
  obtain ⟨g, hg, hgd⟩ := h'
  refine ⟨g ∘ f, by rw [hg, hf, List.map_map], fun d => ?_⟩
  obtain ⟨h1, h2, h3⟩ := hfd d
  obtain ⟨h4, h5, h6⟩ := hgd (f d)
  refine ⟨h4.trans h1, fun hn => ?_, fun hip => h6 (h3 hip)⟩
  have hn' : (f d).name ≠ n := by rw [name_of_ident h1]; exact hn
  exact (h5 hn').trans (h2 hn)

theorem touches_write {f : CatalogDevice → CatalogDevice} (hf : ∀ d, (f d).ident = d.ident)
    (hip : ∀ d, d.ip ≠ "" → (f d).ip ≠ "") : Touches n m (m.write n f) := by
  refine ⟨fun d => if d.name = n then f d else d, rfl, fun d => ?_⟩
  dsimp only
  split
  · rename_i hn
    exact ⟨hf d, fun h => absurd hn h, hip d⟩
  · exact ⟨rfl, fun _ => rfl, id⟩

theorem touches_notify {o : Observation}
    (ho : ∀ d : CatalogDevice, d.ip ≠ "" → (d.observe o).ip ≠ "") :
    Touches n m (m.notify n o) := by
  have h : Touches n m (m.write n (·.observe o)) := touches_write (fun d => d.observe_ident o) ho
  exact h

theorem touches_onStateChange (state : DeviceState) (now : ℕ) :
    Touches n m (m.onStateChange n state now) :=
  touches_write (fun d => d.observe_ident _) fun _ h => h

theorem touches_onSourceChange (source : ReachabilitySource) :
    Touches n m (m.onSourceChange n source) := by
  have hnotify : ∀ u : Monitor, Touches n u (u.notify n (.activeSource source)) := fun u =>
    touches_notify fun _ h => h
  unfold onSourceChange
  dsimp only
  split
  · have hwrite : Touches n m (m.write n (fun d => { d with deployedName := "" })) :=
      touches_write (fun d => rfl) fun _ h => h
    exact hwrite.trans (hnotify _)
  · exact hnotify _

theorem touches_applyDeployedIdentityLive (live : Bool) :
    Touches n m (m.applyDeployedIdentityLive n live) := by
  unfold applyDeployedIdentityLive
  split
  · exact .refl n m
  · split
    · exact touches_notify fun _ h => h
    · exact .refl n m

theorem touches_emitSourceChange (old new : ReachabilitySource) :
    Touches n m (m.emitSourceChange n old new) := by
  unfold emitSourceChange
  split
  · exact .refl n m
  · dsimp only
    split
    · exact (touches_onSourceChange new).trans (touches_applyDeployedIdentityLive false)
    · exact touches_onSourceChange new

theorem touches_apply (state : DeviceState) (source : ReachabilitySource) (claim : Bool) (now : ℕ) :
    Touches n m (m.apply n state source claim now) := by
  have hset : Touches n m (m.setSource n source) := .of_devices rfl
  have hemit : Touches n m ((m.setSource n source).emitSourceChange n (m.priorityFor n) source) :=
    hset.trans (touches_emitSourceChange _ _)
  rcases apply_cases m n state source claim now with h | ⟨-, -, h | h⟩
  · rw [h]; exact .refl n m
  · rw [h]; exact hemit
  · rw [h]; exact hemit.trans (touches_onStateChange state now)

theorem touches_applyObservation {β : Type} [DecidableEq β] (f : CatalogDevice → β) (value : β)
    {o : Observation} (ho : ∀ d : CatalogDevice, d.ip ≠ "" → (d.observe o).ip ≠ "") :
    Touches n m (m.applyObservation n f value o) := by
  unfold applyObservation
  split
  · exact touches_notify ho
  · exact .refl n m

theorem touches_applyWorkerInfo (info : WorkerInfo) :
    Touches n m (m.applyWorkerInfo env n info) := by
  have hmac : ∀ u : Monitor,
      Touches n u (u.applyMacAddress n env.normalizeMac info.macAddress) := by
    intro u
    unfold applyMacAddress
    split
    · exact .refl n u
    · exact touches_applyObservation _ _ fun _ h => h
  have hversion : ∀ u : Monitor, Touches n u (u.applyVersion n info.esphomeVersion) := by
    intro u
    unfold applyVersion
    split
    · exact .refl n u
    · exact touches_applyObservation _ _ fun _ h => h
  have hcipher : ∀ u : Monitor, Touches n u (u.applyApiEncryption n noiseCipher true) := by
    intro u
    unfold applyApiEncryption
    split
    · exact .refl n u
    · exact touches_applyObservation _ _ fun _ h => h
  unfold applyWorkerInfo
  dsimp only
  have hboth := (hmac m).trans (hversion _)
  have hlive : Touches n m (if info.macAddress ≠ "" ∨ info.esphomeVersion ≠ "" then
      ((m.applyMacAddress n env.normalizeMac info.macAddress).applyVersion n
        info.esphomeVersion).applyDeployedIdentityLive n true
      else (m.applyMacAddress n env.normalizeMac info.macAddress).applyVersion n
        info.esphomeVersion) := by
    split
    · exact hboth.trans (touches_applyDeployedIdentityLive true)
    · exact hboth
  split
  · exact hlive.trans (hcipher _)
  · exact hlive

theorem pickIpv4_singleton (ip : String) : pickIpv4 [ip] = ip := by
  unfold pickIpv4
  rw [List.find?_singleton]
  split <;> rename_i h
  · split at h
    · exact (Option.some.inj h).symm
    · cases h
  · rfl

theorem touches_applyIpAddresses {ip : String} (hip : ip ≠ "") :
    Touches n m (m.applyIpAddresses env n [ip]) := by
  unfold applyIpAddresses
  dsimp only
  split
  · exact .refl n m
  · rename_i hne
    have husable : [ip].filter (fun a => !env.isUnusableAddress a) = [ip] := by
      rw [List.filter_singleton] at hne ⊢
      cases hu : env.isUnusableAddress ip with
      | true => rw [hu] at hne; exact absurd rfl hne
      | false => rfl
    rw [husable, pickIpv4_singleton]
    unfold dispatchIp
    split
    · exact .refl n m
    · split
      · exact .refl n m
      · exact touches_notify fun _ _ => hip

end Monitor

/-- **The dial proved the identity**: it reported the name, or the recorded former one which no row
bears, and a MAC address that does not contradict the object's. -/
def Verdict.Identifies (env : MdnsHelpers) (v : Verdict) : Prop :=
  v.info.name ≠ "" ∧
    (v.info.name = v.name ∨ v.info.name = v.device.deployedName ∧ v.owned = false) ∧
    (env.normalizeMac v.info.macAddress = "" ∨ env.normalizeMac v.device.macAddress = "" ∨
      env.normalizeMac v.info.macAddress = env.normalizeMac v.device.macAddress)

/-- The dial reported another name. -/
def Verdict.Disowns (v : Verdict) : Prop :=
  v.info.name ≠ "" ∧ v.info.name ≠ v.name ∧
    (v.owned = true ∨ v.info.name ≠ v.device.deployedName)

/-- What a revival is about. -/
def CatalogDevice.seen (d : CatalogDevice) : DeviceState × List String :=
  (d.runtimeState.state, d.runtimeState.ipAddresses)

namespace ReviverWorld

open Runs

variable {env : MdnsHelpers} {w w' : ReviverWorld} {pair : SweepPair} {filtered dials : ℕ}
  {rest : List (SweepPair × Bool)} {a : ReviverAction}

/-- **A revival has its evidence**: an echo of the pair in the same sweep, and a verdict on it that
had not run out at the end of the sweep's pre-filter. -/
def Evidence (env : MdnsHelpers) (w : ReviverWorld) (r : Revival) : Prop :=
  (r.sweep, r.name, r.ip) ∈ w.echoes ∧ ∃ v ∈ w.verdicts, v.name = r.name ∧ v.ip = r.ip ∧
    v.Identifies env ∧ r.filtered ≤ v.time + verifiedTtl

/-- What the history of the reviver says, whatever its sweep is at. -/
structure Grounded (env : MdnsHelpers) (w : ReviverWorld) : Prop where
  verified : ∀ n ip time, w.verified n = some (ip, time) →
    ∃ v ∈ w.verdicts, v.name = n ∧ v.ip = ip ∧ v.time = time ∧ v.Identifies env
  revived : ∀ r ∈ w.revivals, w.Evidence env r
  asked : ∀ v ∈ w.verdicts, ∃ d ∈ w.dials, d.name = v.name ∧ d.ip = v.ip
  cooled : ∀ d ∈ w.dials, d.cooled = false
  count : ∀ k, (w.dials.filter (·.sweep = k)).length ≤ maxDialsPerSweep
  past : ∀ d ∈ w.dials, d.sweep ≤ w.sweeps

/-- The pairs that are still to come: one for each key, and those that answered are off cooldown
and have their echo. -/
def RestOk (w : ReviverWorld) (rest : List (SweepPair × Bool)) : Prop :=
  (rest.map (·.1.key)).Nodup ∧ ∀ e ∈ rest, e.1.ip ≠ "" ∧
    (e.2 = true → w.cooldown.deadline e.1.key ≤ w.now ∧ (w.sweeps, e.1.key) ∈ w.echoes)

/-- What the sweep is at. -/
def PhaseOk (w : ReviverWorld) : Prop :=
  match w.phase with
  | .idle => True
  | .filtering pairs =>
    (pairs.map (·.1.key)).Nodup ∧ (∀ d ∈ w.dials, d.sweep ≠ w.sweeps) ∧ ∀ e ∈ pairs, e.1.ip ≠ "" ∧
      (e.2 ≠ some false → w.cooldown.deadline e.1.key ≤ w.now) ∧
      (e.2 = some true → (w.sweeps, e.1.key) ∈ w.echoes)
  | .dialing pair rest filtered dials =>
    w.RestOk rest ∧ pair.key ∉ rest.map (·.1.key) ∧ pair.ip ≠ "" ∧
      (w.sweeps, pair.key) ∈ w.echoes ∧ (∃ d ∈ w.dials, d.name = pair.name ∧ d.ip = pair.ip) ∧
      filtered ≤ w.now ∧ (w.dials.filter (·.sweep = w.sweeps)).length = dials ∧
      dials ≤ maxDialsPerSweep

/-- **The invariant of the reviver.** -/
structure Sound (env : MdnsHelpers) (w : ReviverWorld) : Prop where
  grounded : w.Grounded env
  phaseOk : w.PhaseOk

theorem Evidence.mono {r : Revival} (h : w.Evidence env r) (he : ∀ e ∈ w.echoes, e ∈ w'.echoes)
    (hv : ∀ v ∈ w.verdicts, v ∈ w'.verdicts) : w'.Evidence env r := by
  obtain ⟨h1, v, hvm, h2⟩ := h
  exact ⟨he _ h1, v, hv v hvm, h2⟩

/-- Steps that leave the history alone. -/
theorem Grounded.keep (h : w.Grounded env) (h1 : w'.verified = w.verified)
    (h2 : w'.verdicts = w.verdicts) (h3 : w'.revivals = w.revivals)
    (h4 : ∀ e ∈ w.echoes, e ∈ w'.echoes) (h5 : w'.dials = w.dials) (h6 : w'.sweeps = w.sweeps) :
    w'.Grounded env where
  verified n ip time hn := by
    rw [h1] at hn
    rw [h2]
    exact h.verified n ip time hn
  revived r hr := by
    rw [h3] at hr
    exact (h.revived r hr).mono h4 fun v hv => h2 ▸ hv
  asked v hv := by
    rw [h2] at hv
    rw [h5]
    exact h.asked v hv
  cooled := by rw [h5]; exact h.cooled
  count := by rw [h5]; exact h.count
  past := by rw [h5, h6]; exact h.past

/-- A revival on evidence. -/
theorem grounded_revive (h : w.Grounded env) (info : Option WorkerInfo)
    (he : (w.sweeps, pair.key) ∈ w.echoes)
    (hv : ∃ v ∈ w.verdicts, v.name = pair.name ∧ v.ip = pair.ip ∧ v.Identifies env ∧
      filtered ≤ v.time + verifiedTtl) : (w.revive env pair info filtered).Grounded env where
  verified := h.verified
  revived r hr := by
    rcases List.mem_append.1 hr with hr | hr
    · exact h.revived r hr
    · rw [List.mem_singleton.1 hr]
      exact ⟨he, hv⟩
  asked := h.asked
  cooled := h.cooled
  count := h.count
  past := h.past

theorem vouched_verdict (h : w.Grounded env) (hv : w.vouched pair filtered = true) :
    ∃ v ∈ w.verdicts, v.name = pair.name ∧ v.ip = pair.ip ∧ v.Identifies env ∧
      filtered ≤ v.time + verifiedTtl := by
  unfold vouched at hv
  split at hv
  · rename_i ip time hver
    obtain ⟨v, hvm, hn, hip, ht, hid⟩ := h.verified _ _ _ hver
    simp only [Bool.and_eq_true, decide_eq_true_eq] at hv
    exact ⟨v, hvm, hn, hip.trans hv.1, hid, ht ▸ hv.2⟩
  · cases hv

/-- The loop over the answers keeps the invariant. -/
theorem sound_proceed (h : w.Grounded env) (hrest : w.RestOk rest) (hf : filtered ≤ w.now)
    (hd : (w.dials.filter (·.sweep = w.sweeps)).length = dials) :
    (w.proceed env filtered dials rest).Sound env := by
  induction rest generalizing w with
  | nil => exact ⟨h.keep rfl rfl rfl (fun _ => id) rfl rfl, trivial⟩
  | cons e rest ih =>
    obtain ⟨pair, answered⟩ := e
    obtain ⟨hnodup, hall⟩ := hrest
    rw [List.map_cons, List.nodup_cons] at hnodup
    have htail : w.RestOk rest := ⟨hnodup.2, fun e he => hall e (List.mem_cons_of_mem _ he)⟩
    obtain ⟨hip, hans⟩ := hall _ (List.mem_cons_self ..)
    unfold proceed
    split
    · exact ih h htail hf hd
    · rename_i hyes
      have hyes : answered = true := by simpa using hyes
      obtain ⟨hcool, hecho⟩ := hans hyes
      split
      · exact ih h htail hf hd
      · split
        · rename_i hv
          exact ih (grounded_revive h none hecho (vouched_verdict h hv)) htail hf hd
        · split
          · exact ih h htail hf hd
          · rename_i hlt
            have hready : w.cooldown.ready pair.key w.now = true := by
              rw [CooldownLedger.ready, decide_eq_true_eq]
              exact hcool
            -- the dial begins off cooldown, and is counted
            have hlen : ∀ d : Dial, d.sweep = w.sweeps →
                ((w.dials ++ [d]).filter (·.sweep = w.sweeps)).length = dials + 1 := by
              intro d hds
              rw [List.filter_append, List.length_append, hd]
              simp [hds]
            refine ⟨⟨h.verified, h.revived, fun v hv => ?_, fun d hdm => ?_, fun k => ?_,
              fun d hdm => ?_⟩, htail, hnodup.1, hip, hecho,
              ⟨_, List.mem_append_right _ (List.mem_singleton_self _), rfl, rfl⟩, hf, hlen _ rfl,
              ?_⟩
            · obtain ⟨d, hdm, hdv⟩ := h.asked v hv
              exact ⟨d, List.mem_append_left _ hdm, hdv⟩
            · rcases List.mem_append.1 hdm with hdm | hdm
              · exact h.cooled d hdm
              · rw [List.mem_singleton.1 hdm, hready]
                rfl
            · by_cases hk : k = w.sweeps
              · subst hk
                rw [hlen _ rfl]
                omega
              · rw [List.filter_append, List.length_append]
                have hno : ∀ d : Dial, d.sweep = w.sweeps → [d].filter (·.sweep = k) = [] := by
                  intro d hds
                  simp [hds, Ne.symm hk]
                rw [hno _ rfl]
                exact h.count k
            · rcases List.mem_append.1 hdm with hdm | hdm
              · exact h.past d hdm
              · obtain rfl := List.mem_singleton.1 hdm
                exact Nat.le_refl _
            · omega

/-- A failure of the dial moves nothing but the cooldown of its own pair. -/
theorem RestOk.cool (h : w.RestOk rest) (hp : pair.key ∉ rest.map (·.1.key)) (hn : w'.now = w.now)
    (hs : w'.sweeps = w.sweeps) (he : w'.echoes = w.echoes)
    (hc : ∀ key, key ≠ pair.key → w'.cooldown.deadline key = w.cooldown.deadline key) :
    w'.RestOk rest := by
  refine ⟨h.1, fun e hm => ⟨(h.2 e hm).1, fun hyes => ?_⟩⟩
  obtain ⟨hcool, hecho⟩ := (h.2 e hm).2 hyes
  have hne : e.1.key ≠ pair.key := fun hk => hp (hk ▸ List.mem_map_of_mem (f := (·.1.key)) hm)
  rw [hc _ hne, hn, hs, he]
  exact ⟨hcool, hecho⟩

theorem deadline_set (c : CooldownLedger (String × String)) (seconds now : ℕ)
    {key other : String × String} (h : other ≠ key) :
    (c.set key seconds now).deadline other = c.deadline other :=
  Function.update_of_ne h ..

theorem deadline_escalate (c : CooldownLedger (String × String)) (base cap now : ℕ)
    {key other : String × String} (h : other ≠ key) :
    (c.escalate key base cap now).deadline other = c.deadline other :=
  Function.update_of_ne h ..

/-- What a reply leaves of the sweep. -/
structure Judged (env : MdnsHelpers) (w w' : ReviverWorld) (rest : List (SweepPair × Bool)) :
    Prop where
  grounded : w'.Grounded env
  restOk : w'.RestOk rest
  now : w'.now = w.now
  sweeps : w'.sweeps = w.sweeps
  dials : w'.dials = w.dials

theorem judged_verify (h : w.Grounded env) (hrest : w.RestOk rest)
    (hp : pair.key ∉ rest.map (·.1.key)) (he : (w.sweeps, pair.key) ∈ w.echoes)
    (hdial : ∃ d ∈ w.dials, d.name = pair.name ∧ d.ip = pair.ip) (hf : filtered ≤ w.now)
    (r : DialReply) : Judged env w (w.verify env pair filtered r) rest := by
  -- a failure on top of what is known
  have hfail : ∀ u : ReviverWorld, u.Grounded env → u.cooldown = w.cooldown → u.now = w.now →
      u.sweeps = w.sweeps → u.echoes = w.echoes → u.dials = w.dials →
      Judged env w (u.recordDialFailure pair.key) rest := by
    intro u hu hc hn hs hec hd
    refine ⟨hu.keep rfl rfl rfl (fun _ => id) rfl rfl, ?_, hn, hs, hd⟩
    refine hrest.cool hp hn hs hec fun key hk => ?_
    rw [← hc]
    exact deadline_escalate _ _ _ _ hk
  cases r with
  | missed transient =>
    refine ⟨h.keep rfl rfl rfl (fun _ => id) rfl rfl, ?_, rfl, rfl, rfl⟩
    exact hrest.cool hp rfl rfl rfl fun key hk => deadline_set _ _ _ hk
  | refused => exact hfail w h rfl rfl rfl rfl rfl
  | answered info =>
    unfold verify
    dsimp only
    split
    · exact hfail w h rfl rfl rfl rfl rfl
    · rename_i hname
      generalize hdev : pair.device.current w.monitor = device
      generalize (device.deployedName ≠ "" &&
        w.monitor.devicesByName device.deployedName ≠ [] : Bool) = owned
      generalize hrecorded : (if owned = true then "" else device.deployedName) = recorded
      -- the verdict enters the history
      have hjudged : ({ w with verdicts := w.verdicts ++
          [(⟨pair.name, pair.ip, w.now, info, device, owned⟩ : Verdict)] } : ReviverWorld).Grounded
            env := by
        refine ⟨fun n ip time hn => ?_, fun r hr => ?_, fun v hv => ?_, h.cooled, h.count, h.past⟩
        · obtain ⟨v, hv, hrest⟩ := h.verified n ip time hn
          exact ⟨v, List.mem_append_left _ hv, hrest⟩
        · exact (h.revived r hr).mono (fun _ => id) fun v hv => List.mem_append_left _ hv
        · rcases List.mem_append.1 hv with hv | hv
          · exact h.asked v hv
          · rw [List.mem_singleton.1 hv]
            exact hdial
      split
      · have hf := hfail _ hjudged rfl rfl rfl rfl rfl
        exact ⟨hf.grounded.keep rfl rfl rfl (fun _ => id) rfl rfl, hf.restOk, hf.now, hf.sweeps,
          hf.dials⟩
      · rename_i hsame
        split
        · exact hfail _ hjudged rfl rfl rfl rfl rfl
        · rename_i hmac
          have hid : Verdict.Identifies env ⟨pair.name, pair.ip, w.now, info, device, owned⟩ := by
            refine ⟨hname, ?_, ?_⟩
            · by_cases hn : info.name = pair.name
              · exact .inl hn
              · right
                have hrec : info.name = recorded := by
                  by_contra hne
                  exact hsame ⟨hn, hne⟩
                rw [← hrecorded] at hrec
                cases owned with
                | true => exact absurd hrec hname
                | false => exact ⟨hrec, rfl⟩
            · by_cases h1 : env.normalizeMac info.macAddress = ""
              · exact .inl h1
              · by_cases h2 : env.normalizeMac device.macAddress = ""
                · exact .inr (.inl h2)
                · right; right
                  by_contra hne
                  exact hmac ⟨h1, h2, hne⟩
          refine ⟨grounded_revive ?_ _ he ?_, hrest, rfl, rfl, rfl⟩
          · refine ⟨fun n ip time hn => ?_, hjudged.revived, hjudged.asked, hjudged.cooled,
              hjudged.count, hjudged.past⟩
            have hn' : Function.update w.verified pair.name (some (pair.ip, w.now)) n =
                some (ip, time) := hn
            rw [Function.update_apply] at hn'
            split at hn'
            · rename_i hnn
              cases hn'
              exact ⟨_, List.mem_append_right _ (List.mem_singleton_self _), hnn.symm, rfl, rfl,
                hid⟩
            · exact hjudged.verified n ip time hn'
          · refine ⟨_, List.mem_append_right _ (List.mem_singleton_self _), rfl, rfl, hid, ?_⟩
            show filtered ≤ w.now + verifiedTtl
            omega

theorem mem_bindPairs {p : SweepPair} {ds : List CatalogDevice} (h : p ∈ bindPairs ds) :
    ∃ d ∈ ds, p = ⟨⟨d, true⟩, d.ip⟩ := by
  induction ds with
  | nil => cases h
  | cons d ds ih =>
    rcases List.mem_cons.1 h with h | h
    · exact ⟨d, List.mem_cons_self .., h⟩
    · obtain ⟨e, he, hp⟩ := ih (List.mem_filter.1 h).1
      exact ⟨e, List.mem_cons_of_mem _ he, hp⟩

theorem nodup_bindPairs (ds : List CatalogDevice) : ((bindPairs ds).map (·.key)).Nodup := by
  induction ds with
  | nil => exact List.nodup_nil
  | cons d ds ih =>
    show ((d.name, d.ip) :: ((bindPairs ds).filter _).map (·.key)).Nodup
    rw [List.nodup_cons]
    refine ⟨fun hmem => ?_, ih.sublist (List.filter_sublist.map _)⟩
    obtain ⟨p, hp, hk⟩ := List.mem_map.1 hmem
    have hne := of_decide_eq_true (List.mem_filter.1 hp).2
    exact hne hk

theorem sound_beginSweep (h : w.Sound env) (noTarget : CatalogDevice → Bool) :
    (w.beginSweep noTarget).Sound env := by
  have hprune : w.prune.Grounded env := by
    refine ⟨fun n ip time hn => ?_, h.grounded.revived, h.grounded.asked, h.grounded.cooled,
      h.grounded.count, h.grounded.past⟩
    have hn' : (if w.monitor.devicesByName n = [] then none else w.verified n) =
        some (ip, time) := hn
    split at hn'
    · cases hn'
    · exact h.grounded.verified n ip time hn'
  unfold beginSweep
  split
  · rename_i hidle
    cases hpairs : bindPairs (w.prune.selectCandidates noTarget) with
    | nil =>
      refine ⟨hprune, ?_⟩
      have hp : w.prune.phase = .idle := hidle
      unfold PhaseOk
      rw [hp]
      trivial
    | cons pair pairs =>
      dsimp only
      rw [← hpairs]
      refine ⟨⟨hprune.verified, hprune.revived, hprune.asked, hprune.cooled, hprune.count,
        fun d hd => Nat.le_succ_of_le (hprune.past d hd)⟩, ?_, fun d hd => ?_, fun e he => ?_⟩
      · rw [List.map_map]
        exact nodup_bindPairs _
      · have hle : d.sweep ≤ w.sweeps := hprune.past d hd
        show d.sweep ≠ w.sweeps + 1
        omega
      · obtain ⟨p, hp, rfl⟩ := List.mem_map.1 he
        obtain ⟨d, hd, rfl⟩ := mem_bindPairs hp
        have hcand := (List.mem_filter.1 hd).2
        simp only [Bool.and_eq_true, decide_eq_true_eq, CooldownLedger.ready] at hcand
        exact ⟨hcand.1.1.1.2, fun _ => hcand.1.2, nofun⟩
  · exact h

theorem sound_echoed (h : w.Sound env) (i : ℕ) (answered : Bool) :
    (w.echoed i answered).Sound env := by
  unfold echoed
  split
  · rename_i pairs hphase
    have hok := h.phaseOk
    unfold PhaseOk at hok
    rw [hphase] at hok
    obtain ⟨hnodup, hfresh, hall⟩ := hok
    split
    · rename_i pair hi
      obtain ⟨hip, hcool, -⟩ := hall _ (List.mem_of_getElem? hi)
      have hlt := (List.getElem?_eq_some_iff.1 hi).1
      have hget := (List.getElem?_eq_some_iff.1 hi).2
      have hkeys : (pairs.set i (pair, some answered)).map (·.1.key) = pairs.map (·.1.key) := by
        have hlt' : i < (pairs.map (·.1.key)).length := by simpa using hlt
        have hself := List.set_getElem_self hlt'
        rw [List.getElem_map, hget] at hself
        rw [List.map_set]
        exact hself
      -- an element of the new list is the pair, or one of another key
      have hmem : ∀ e ∈ pairs.set i (pair, some answered),
          e = (pair, some answered) ∨ e ∈ pairs ∧ e.1.key ≠ pair.key := by
        intro e he
        obtain ⟨j, hj⟩ := List.getElem?_of_mem he
        rw [List.getElem?_set] at hj
        split at hj
        · exact .inl (Option.some.inj hj).symm
        · rename_i hij
          refine .inr ⟨List.mem_of_getElem? hj, fun hk => hij ?_⟩
          obtain ⟨hjlt, hjget⟩ := List.getElem?_eq_some_iff.1 hj
          have hinj := (List.nodup_iff_injective_getElem.1 hnodup)
          have heq : (⟨i, by simpa using hlt⟩ : Fin (pairs.map (·.1.key)).length) =
              ⟨j, by simpa using hjlt⟩ := by
            apply hinj
            simp only [List.getElem_map, hget, hjget]
            exact hk.symm
          exact congrArg Fin.val heq
      cases answered with
      | true =>
        refine ⟨h.grounded.keep rfl rfl rfl (fun e he => List.mem_append_left _ he) rfl rfl, ?_⟩
        refine ⟨hkeys ▸ hnodup, hfresh, fun e he => ?_⟩
        rcases hmem e he with rfl | ⟨he, -⟩
        · exact ⟨hip, fun _ => hcool nofun,
            fun _ => List.mem_append_right _ (List.mem_singleton_self _)⟩
        · obtain ⟨h1, h2, h3⟩ := hall e he
          exact ⟨h1, h2, fun hy => List.mem_append_left _ (h3 hy)⟩
      | false =>
        refine ⟨h.grounded.keep rfl rfl rfl (fun _ => id) rfl rfl, ?_⟩
        refine ⟨hkeys ▸ hnodup, hfresh, fun e he => ?_⟩
        rcases hmem e he with rfl | ⟨he, hne⟩
        · exact ⟨hip, fun hf => absurd rfl hf, nofun⟩
        · obtain ⟨h1, h2, h3⟩ := hall e he
          refine ⟨h1, fun hf => ?_, h3⟩
          exact Nat.le_trans (Nat.le_of_eq (deadline_set _ _ _ hne)) (h2 hf)
    · exact h
  · exact h

theorem sound_afterFilter (h : w.Sound env) : (w.afterFilter env).Sound env := by
  unfold afterFilter
  split
  · rename_i pairs hphase
    have hok := h.phaseOk
    unfold PhaseOk at hok
    rw [hphase] at hok
    obtain ⟨hnodup, hfresh, hall⟩ := hok
    split
    · refine sound_proceed h.grounded ⟨?_, fun e he => ?_⟩ (Nat.le_refl _) ?_
      · rw [List.map_map]
        exact hnodup
      · obtain ⟨e', he', rfl⟩ := List.mem_map.1 he
        obtain ⟨h1, h2, h3⟩ := hall e' he'
        refine ⟨h1, fun hy => ?_⟩
        have hsome : e'.2 = some true := by
          cases ho : e'.2 with
          | none => rw [ho] at hy; cases hy
          | some b => rw [ho] at hy; exact congrArg some hy
        exact ⟨h2 (by rw [hsome]; nofun), h3 hsome⟩
      · rw [List.length_eq_zero_iff, List.filter_eq_nil_iff]
        intro d hd
        simpa using hfresh d hd
    · exact h
  · exact h

theorem sound_replied (h : w.Sound env) (r : DialReply) : (w.replied env r).Sound env := by
  unfold replied
  split
  · rename_i pair rest filtered dials hphase
    have hok := h.phaseOk
    unfold PhaseOk at hok
    rw [hphase] at hok
    obtain ⟨hrest, hp, -, hecho, hdial, hf, hcount, -⟩ := hok
    have hj := judged_verify h.grounded hrest hp hecho hdial hf r
    refine sound_proceed hj.grounded hj.restOk ?_ ?_
    · rw [hj.now]; exact hf
    · rw [hj.dials, hj.sweeps]; exact hcount
  · exact h

theorem key_after (m m' : Monitor) (kept : String → Bool) (p : SweepPair) :
    ({ p with device := p.device.after m m' kept } : SweepPair).key = p.key := by
  unfold SweepPair.key SweepPair.name HeldDevice.after
  dsimp only
  split <;> rfl

theorem sound_world (h : w.Sound env) (m : Monitor) (kept : String → Bool) (elapsed : ℕ) :
    (w.step env (.world m kept elapsed)).Sound env := by
  refine ⟨h.grounded.keep rfl rfl rfl (fun _ => id) rfl rfl, ?_⟩
  have hok := h.phaseOk
  unfold PhaseOk at hok ⊢
  have hlater : ∀ {k : ℕ}, k ≤ w.now → k ≤ w.now + elapsed := fun hk => Nat.le_add_right_of_le hk
  cases hphase : w.phase with
  | idle =>
    have hp : (w.step env (.world m kept elapsed)).phase = .idle := by
      show SweepPhase.after w.monitor m kept w.phase = _
      rw [hphase]; rfl
    rw [hp]
    trivial
  | filtering pairs =>
    rw [hphase] at hok
    obtain ⟨hnodup, hfresh, hall⟩ := hok
    have hp : (w.step env (.world m kept elapsed)).phase = .filtering (pairs.map fun e =>
        ({ e.1 with device := e.1.device.after w.monitor m kept }, e.2)) := by
      show SweepPhase.after w.monitor m kept w.phase = _
      rw [hphase]; rfl
    rw [hp]
    refine ⟨?_, hfresh, fun e he => ?_⟩
    · rw [List.map_map]
      simpa only [Function.comp_def, key_after] using hnodup
    · obtain ⟨e', he', rfl⟩ := List.mem_map.1 he
      obtain ⟨h1, h2, h3⟩ := hall e' he'
      rw [key_after]
      exact ⟨h1, fun hy => hlater (h2 hy), h3⟩
  | dialing pair rest filtered dials =>
    rw [hphase] at hok
    obtain ⟨⟨hnodup, hall⟩, hp, hip, hecho, hdial, hf, hcount, hle⟩ := hok
    have hphase' : (w.step env (.world m kept elapsed)).phase = .dialing
        { pair with device := pair.device.after w.monitor m kept }
        (rest.map fun e => ({ e.1 with device := e.1.device.after w.monitor m kept }, e.2))
        filtered dials := by
      show SweepPhase.after w.monitor m kept w.phase = _
      rw [hphase]; rfl
    have hkeys : (rest.map fun e =>
        (({ e.1 with device := e.1.device.after w.monitor m kept } : SweepPair), e.2)).map
          (·.1.key) = rest.map (·.1.key) := by
      rw [List.map_map]
      simp only [Function.comp_def, key_after]
    have hname : ({ pair with device := pair.device.after w.monitor m kept } : SweepPair).name =
        pair.name := congrArg Prod.fst (key_after w.monitor m kept pair)
    rw [hphase']
    refine ⟨⟨hkeys ▸ hnodup, fun e he => ?_⟩, ?_, hip, ?_, ?_, hlater hf, hcount, hle⟩
    · obtain ⟨e', he', rfl⟩ := List.mem_map.1 he
      obtain ⟨h1, h2⟩ := hall e' he'
      rw [key_after]
      exact ⟨h1, fun hy => ⟨hlater (h2 hy).1, (h2 hy).2⟩⟩
    · rw [hkeys, key_after]; exact hp
    · rw [key_after]; exact hecho
    · rw [hname]; exact hdial

theorem sound_step (h : w.Sound env) (a : ReviverAction) : (w.step env a).Sound env := by
  cases a with
  | sweep noTarget => exact sound_beginSweep h noTarget
  | echo i answered => exact sound_echoed h i answered
  | gathered => exact sound_afterFilter h
  | reply r => exact sound_replied h r
  | world m kept elapsed => exact sound_world h m kept elapsed

/-- **What a step of the reviver does to the rows**: only those of a revived name change their
state or their addresses, and a persisted address is cleared only where a dial of it reported
another name. -/
def Changes (revivals : List Revival) (verdicts : List Verdict) (m m' : Monitor) : Prop :=
  ∃ f : CatalogDevice → CatalogDevice, m'.devices = m.devices.map f ∧ ∀ d,
    (f d).ident = d.ident ∧
      ((∀ r ∈ revivals, r.name ≠ d.name) → (f d).seen = d.seen) ∧
      (d.ip ≠ "" → (f d).ip = "" → ∃ v ∈ verdicts, v.name = d.name ∧ v.ip = d.ip ∧ v.Disowns)

/-- What a step of the reviver adds to its history, and does to the rows. -/
def Acts (w u : ReviverWorld) : Prop :=
  ∃ new vs, u.revivals = w.revivals ++ new ∧ u.verdicts = w.verdicts ++ vs ∧
    Changes new vs w.monitor u.monitor

variable {m m' m'' : Monitor} {new new' : List Revival} {vs : List Verdict} {v : Verdict}

theorem Changes.refl (m : Monitor) : Changes [] [] m m :=
  ⟨id, (List.map_id _).symm, fun _ => ⟨rfl, fun _ => rfl, fun h h' => absurd h' h⟩⟩

/-- A step that clears addresses comes first: what follows only revives. -/
theorem Changes.trans (h : Changes new vs m m') (h' : Changes new' [] m' m'') :
    Changes (new ++ new') vs m m'' := by
  obtain ⟨f, hf, hfd⟩ := h
  obtain ⟨g, hg, hgd⟩ := h'
  refine ⟨g ∘ f, by rw [hg, hf, List.map_map], fun d => ?_⟩
  obtain ⟨h1, h2, h3⟩ := hfd d
  obtain ⟨h4, h5, h6⟩ := hgd (f d)
  refine ⟨h4.trans h1, fun hn => ?_, fun hip hnil => ?_⟩
  · have hname := Monitor.name_of_ident h1
    have hg : (g (f d)).seen = (f d).seen :=
      h5 fun r hr => by rw [hname]; exact hn r (List.mem_append_right _ hr)
    exact hg.trans (h2 fun r hr => hn r (List.mem_append_left _ hr))
  · by_cases hmid : (f d).ip = ""
    · exact h3 hip hmid
    · obtain ⟨v, hv, -⟩ := h6 hmid hnil
      cases hv

theorem changes_revive (env : MdnsHelpers) (w : ReviverWorld) (filtered : ℕ)
    (info : Option WorkerInfo) (hip : pair.ip ≠ "") :
    Changes [⟨w.sweeps, pair.name, pair.ip, filtered⟩] [] w.monitor
      (w.revive env pair info filtered).monitor := by
  have htouch : w.monitor.Touches pair.name (w.revive env pair info filtered).monitor := by
    have h₁ : w.monitor.Touches pair.name
        (if (pair.device.current w.monitor).runtimeState.ipAddresses = [] then
          w.monitor.applyIpAddresses env pair.name [pair.ip] else w.monitor) := by
      split
      · exact Monitor.touches_applyIpAddresses hip
      · exact .refl _ _
    cases info with
    | none => exact h₁.trans (Monitor.touches_apply _ _ _ _)
    | some info =>
      exact (h₁.trans (Monitor.touches_applyWorkerInfo info)).trans (Monitor.touches_apply _ _ _ _)
  obtain ⟨f, hf, hfd⟩ := htouch
  refine ⟨f, hf, fun d => ⟨(hfd d).1, fun hn => ?_, fun h h' => absurd h' ((hfd d).2.2 h)⟩⟩
  rw [(hfd d).2.1 fun hd => hn _ (List.mem_singleton_self _) hd.symm]

theorem changes_invalidate (m : Monitor) (hv : v.Disowns) :
    Changes [] [v] m (m.invalidatePersistedIp v.name v.ip) := by
  refine ⟨fun d => if d.name = v.name then d.observe (.persistedIpInvalidated v.ip) else d, rfl,
    fun d => ?_⟩
  dsimp only
  split
  · rename_i hn
    refine ⟨d.observe_ident _, fun _ => ?_, fun hip hnil => ⟨v, List.mem_singleton_self _, hn.symm,
      ?_, hv⟩⟩
    · unfold CatalogDevice.observe Observation.apply
      dsimp only
      split <;> rfl
    · by_contra hne
      have hkeep : (d.observe (.persistedIpInvalidated v.ip)).ip = d.ip := by
        unfold CatalogDevice.observe Observation.apply
        dsimp only
        rw [if_neg fun h => hne h.symm]
      rw [hkeep] at hnil
      exact hip hnil
  · exact ⟨rfl, fun _ => rfl, fun h h' => absurd h' h⟩

theorem changes_proceed (env : MdnsHelpers) (w : ReviverWorld) (filtered dials : ℕ)
    (hrest : ∀ e ∈ rest, e.1.ip ≠ "") :
    ∃ new, (w.proceed env filtered dials rest).revivals = w.revivals ++ new ∧
      (w.proceed env filtered dials rest).verdicts = w.verdicts ∧
      Changes new [] w.monitor (w.proceed env filtered dials rest).monitor := by
  induction rest generalizing w with
  | nil => exact ⟨[], (List.append_nil _).symm, rfl, .refl _⟩
  | cons e rest ih =>
    obtain ⟨pair, answered⟩ := e
    have hip := hrest _ (List.mem_cons_self ..)
    have htail : ∀ e ∈ rest, e.1.ip ≠ "" := fun e he => hrest e (List.mem_cons_of_mem _ he)
    unfold proceed
    split
    · exact ih w htail
    · split
      · exact ih w htail
      · split
        · obtain ⟨new, h1, h2, h3⟩ := ih (w.revive env pair none filtered) htail
          refine ⟨⟨w.sweeps, pair.name, pair.ip, filtered⟩ :: new, ?_, h2,
            (changes_revive env w filtered none hip).trans h3⟩
          rw [h1]
          show (w.revivals ++ _) ++ new = _
          rw [List.append_assoc, List.singleton_append]
        · split
          · exact ih w htail
          · exact ⟨[], (List.append_nil _).symm, rfl, .refl _⟩

theorem Acts.still (h1 : w'.revivals = w.revivals) (h2 : w'.verdicts = w.verdicts)
    (h3 : w'.monitor = w.monitor) : w.Acts w' := by
  refine ⟨[], [], h1.trans (List.append_nil _).symm, h2.trans (List.append_nil _).symm, ?_⟩
  rw [h3]
  exact .refl _

theorem changes_verify (env : MdnsHelpers) (w : ReviverWorld) (filtered : ℕ) (hip : pair.ip ≠ "")
    (r : DialReply) :
    w.Acts (w.verify env pair filtered r) := by
  -- a verdict alone changes no row
  have hverdict : ∀ (v : Verdict) (u : ReviverWorld), u.revivals = w.revivals →
      u.verdicts = w.verdicts ++ [v] → u.monitor = w.monitor → w.Acts u := by
    intro v u h1 h2 h3
    refine ⟨[], [v], h1.trans (List.append_nil _).symm, h2, ?_⟩
    rw [h3]
    exact ⟨id, (List.map_id _).symm, fun _ => ⟨rfl, fun _ => rfl, fun h h' => absurd h' h⟩⟩
  cases r with
  | missed transient => exact .still rfl rfl rfl
  | refused => exact .still rfl rfl rfl
  | answered info =>
    unfold verify
    dsimp only
    split
    · exact .still rfl rfl rfl
    · rename_i hname
      generalize pair.device.current w.monitor = device
      generalize (device.deployedName ≠ "" && w.monitor.devicesByName device.deployedName ≠ [] :
        Bool) = owned
      generalize hrecorded : (if owned = true then "" else device.deployedName) = recorded
      split
      · rename_i hother
        refine ⟨[], _, (List.append_nil _).symm, rfl,
          changes_invalidate w.monitor (v := ⟨pair.name, pair.ip, w.now, info, device, owned⟩) ?_⟩
        refine ⟨hname, hother.1, ?_⟩
        cases owned with
        | true => exact .inl rfl
        | false => exact .inr fun he => hother.2 (he.trans hrecorded)
      · split
        · exact hverdict _ _ rfl rfl rfl
        · refine ⟨_, [_], rfl, rfl, ?_⟩
          obtain ⟨f, hf, hfd⟩ := changes_revive env w filtered (some info) hip
          refine ⟨f, hf, fun d => ⟨(hfd d).1, (hfd d).2.1, fun h h' => ?_⟩⟩
          obtain ⟨v, hv, -⟩ := (hfd d).2.2 h h'
          cases hv

/-- A step of the reviver itself. -/
theorem changes_step (h : w.Sound env) (ha : ∀ m kept elapsed, a ≠ .world m kept elapsed) :
    w.Acts (w.step env a) := by
  have hok := h.phaseOk
  unfold PhaseOk at hok
  cases a with
  | sweep noTarget =>
    show w.Acts (w.beginSweep noTarget)
    unfold beginSweep
    split
    · split <;> exact .still rfl rfl rfl
    · exact .still rfl rfl rfl
  | echo i answered =>
    show w.Acts (w.echoed i answered)
    unfold echoed
    split
    · split
      · dsimp only
        split <;> exact .still rfl rfl rfl
      · exact .still rfl rfl rfl
    · exact .still rfl rfl rfl
  | gathered =>
    show w.Acts (w.afterFilter env)
    unfold afterFilter
    split
    · rename_i pairs hphase
      rw [hphase] at hok
      split
      · have hall : ∀ e ∈ pairs.map (fun e => (e.1, e.2.getD false)), e.1.ip ≠ "" := by
          intro e he
          obtain ⟨e', he', rfl⟩ := List.mem_map.1 he
          exact (hok.2.2 e' he').1
        obtain ⟨new, h1, h2, h3⟩ := changes_proceed env w w.now 0 hall
        exact ⟨new, [], h1, h2.trans (List.append_nil _).symm, h3⟩
      · exact .still rfl rfl rfl
    · exact .still rfl rfl rfl
  | reply r =>
    show w.Acts (w.replied env r)
    unfold replied
    split
    · rename_i pair rest filtered dials hphase
      rw [hphase] at hok
      obtain ⟨⟨-, hall⟩, -, hip, -⟩ := hok
      obtain ⟨new, vs, h1, h2, h3⟩ := changes_verify env w filtered hip r
      obtain ⟨new', h4, h5, h6⟩ := changes_proceed env (w.verify env pair filtered r) filtered dials
        fun e he => (hall e he).1
      refine ⟨new ++ new', vs, ?_, h5.trans h2, h3.trans h6⟩
      rw [h4, h1, List.append_assoc]
    · exact .still rfl rfl rfl
  | world m kept elapsed => exact absurd rfl (ha m kept elapsed)


theorem sound_init (env : MdnsHelpers) (m : Monitor) :
    ({ monitor := m } : ReviverWorld).Sound env := by
  refine ⟨⟨fun n ip time hn => ?_, fun r hr => ?_, fun v hv => ?_, fun d hd => ?_,
    fun _ => Nat.zero_le _, fun d hd => ?_⟩, ?_⟩
  · cases hn
  · cases hr
  · cases hv
  · cases hd
  · cases hd
  · unfold PhaseOk
    trivial

/-- **Revivals are verified.** In every interleaving of sweeps with changes of the rows: a revival
has an echo of its pair in the same sweep and a verdict of that address for its name that had not
run out at the end of the pre-filter; a verdict is that of a dial; a dial begins off cooldown, and
no sweep begins more than three; and a step of the reviver changes the state and the addresses of
revived names only, and clears a persisted address only where a dial of it reported another name. -/
theorem revivals_verified {m : Monitor} (h : Reaches (step env) any { monitor := m } w) :
    (∀ r ∈ w.revivals, w.Evidence env r) ∧
      (∀ v ∈ w.verdicts, ∃ d ∈ w.dials, d.name = v.name ∧ d.ip = v.ip) ∧
      ((∀ d ∈ w.dials, d.cooled = false) ∧
        ∀ k, (w.dials.filter (·.sweep = k)).length ≤ maxDialsPerSweep) ∧
      ∀ a, (∀ m kept elapsed, a ≠ .world m kept elapsed) → w.Acts (w.step env a) := by
  have hs : w.Sound env :=
    h.invariant (I := fun w => w.Sound env) (sound_init env m) fun _ a _ hi => sound_step hi a
  exact ⟨hs.grounded.revived, hs.grounded.asked, ⟨hs.grounded.cooled, hs.grounded.count⟩,
    fun a ha => changes_step hs ha⟩

/-- The revival of a row through a dial of its persisted address. -/
theorem revivals_verified_dial :
    let env : MdnsHelpers := ⟨fun _ => true, fun _ => false, id⟩
    let d : CatalogDevice :=
      { name := "lamp", ip := "10.0.0.7", configuration := "lamp.yaml", apiEnabled := true }
    let w := [ReviverAction.sweep fun _ => true, .echo 0 true, .gathered,
      .reply (.answered { name := "lamp" })].foldl (step env) { monitor := { devices := [d] } }
    w.revivals = [⟨1, "lamp", "10.0.0.7", 0⟩] ∧ ∀ r ∈ w.revivals, w.Evidence env r := by
  intro env d w
  exact ⟨by decide +kernel, (revivals_verified (Reaches.foldl _ _)).1⟩

/-- Two configurations of one name with different MAC addresses: a dial that reports the MAC of the
first one brings both ONLINE, at the address it dialed. -/
theorem sibling_revived :
    let env : MdnsHelpers := ⟨fun _ => true, fun _ => false, id⟩
    let d : CatalogDevice :=
      { name := "lamp", ip := "10.0.0.7", macAddress := "A0:B1:C2:D3:E4:01",
        configuration := "lamp.yaml", apiEnabled := true }
    let e : CatalogDevice :=
      { name := "lamp", ip := "10.0.0.8", macAddress := "A0:B1:C2:D3:E4:02",
        configuration := "lamp-spare.yaml", apiEnabled := true }
    let w := [ReviverAction.sweep fun _ => true, .echo 0 true, .echo 1 false, .gathered].foldl
      (step env) { monitor := { devices := [d, e] } }
    let w' := w.step env (.reply (.answered
      { name := "lamp", macAddress := "A0:B1:C2:D3:E4:01" }))
    w.monitor.devices = [d, e] ∧
      w'.monitor.devices.map (fun d => (d.configuration, d.seen)) =
        [("lamp.yaml", .online, ["10.0.0.7"]), ("lamp-spare.yaml", .online, ["10.0.0.7"])] := by
  decide +kernel

end ReviverWorld

end DeviceBuilder.Devices
