import DeviceBuilder.Devices.Rescan
import Mathlib.Data.List.Dedup

/-!
# Rescans and observations

What the thread has read of a row stays true until the swap, if no event changes it
in between (`Undisturbed`). Then the new row carries what the old one carried.

* `RescanWorld.Sound`: rows, stores and history agree, and so does what is loaded.
* `observations_kept`: no rescan loses an observation, in runs of undisturbed steps.
* `copied_then_swapped`: an observation between the copy and the swap is lost.
-/

namespace DeviceBuilder.Devices

open Runs

variable {isUnusable : String → Bool} {d : Device} {e : StoreEntry} {s : Seen} {o : Observation}

/-- Row `d` has what the metadata store has, with the readings of the resolver: a stored address may be unusable, and
an outage starts at `last_seen` where that is later. -/
structure Agrees (isUnusable : String → Bool) (e : StoreEntry) (d : Device) : Prop where
  ip : (resolveDeviceMetadata isUnusable e "").ip = d.ip
  deployedConfigHash : e.deployedConfigHash = d.runtimeState.deployedConfigHash
  deployedVersion : e.deployedVersion = d.runtimeState.deployedVersion
  network : e.network = d.runtimeState.network
  queuedUpdate : e.queuedUpdate = d.runtimeState.queuedUpdate
  apiEncryptionActive : e.apiEncryptionActive = d.runtimeState.apiEncryptionActive
  deployedName : e.deployedName = d.deployedName
  offlineSince : e.offlineSince = d.runtimeState.offlineSince ∨
    (resolveDeviceMetadata isUnusable e "").offlineSince = d.runtimeState.offlineSince

/-- Row `d` has the value of the last event that set each field. -/
structure Carries (s : Seen) (d : Device) : Prop where
  state : ∀ v, s.state = some v → d.runtimeState.state = v
  activeSource : ∀ v, s.activeSource = some v → d.runtimeState.activeSource = v
  ip : ∀ v, s.ip = some v → d.ip = v
  ipAddresses : ∀ v, s.ipAddresses = some v → d.runtimeState.ipAddresses = v
  deployedVersion : ∀ v, s.deployedVersion = some v → d.runtimeState.deployedVersion = v
  deployedConfigHash : ∀ v, s.deployedConfigHash = some v → d.runtimeState.deployedConfigHash = v
  network : ∀ v, s.network = some v → d.runtimeState.network = v
  apiEncryptionActive : ∀ v, s.apiEncryptionActive = some v → d.runtimeState.apiEncryptionActive = some v
  deployedIdentityLive : ∀ v, s.deployedIdentityLive = some v → d.runtimeState.deployedIdentityLive = v
  otaSigned : ∀ v, s.otaSigned = some v → d.runtimeState.otaSigned = v
  macAddress : ∀ v, s.macAddress = some v → d.macAddress = v
  queuedUpdate : ∀ v, s.queuedUpdate = some v → d.runtimeState.queuedUpdate = v
  deployedName : ∀ v, s.deployedName = some v → d.deployedName = v

theorem Carries.unseen (d : Device) : Carries {} d := by
  constructor <;> exact nofun

/-- What is observed of a row is all that `Agrees` and `Carries` look at. -/
structure SameObserved (d d' : Device) : Prop where
  runtimeState : d'.runtimeState = d.runtimeState
  ip : d'.ip = d.ip
  macAddress : d'.macAddress = d.macAddress
  deployedName : d'.deployedName = d.deployedName

theorem Agrees.of_same {d' : Device} (h : Agrees isUnusable e d) (hs : SameObserved d d') : Agrees isUnusable e d' := by
  obtain ⟨hr, hi, -, hn⟩ := hs
  exact ⟨hi ▸ h.ip, hr ▸ h.deployedConfigHash, hr ▸ h.deployedVersion, hr ▸ h.network, hr ▸ h.queuedUpdate,
    hr ▸ h.apiEncryptionActive, hn ▸ h.deployedName, hr ▸ h.offlineSince⟩

theorem Carries.of_same {d' : Device} (h : Carries s d) (hs : SameObserved d d') : Carries s d' := by
  obtain ⟨hr, hi, hm, hn⟩ := hs
  exact ⟨hr ▸ h.state, hr ▸ h.activeSource, hi ▸ h.ip, hr ▸ h.ipAddresses, hr ▸ h.deployedVersion,
    hr ▸ h.deployedConfigHash, hr ▸ h.network, hr ▸ h.apiEncryptionActive, hr ▸ h.deployedIdentityLive,
    hr ▸ h.otaSigned, hm ▸ h.macAddress, hr ▸ h.queuedUpdate, hn ▸ h.deployedName⟩

/-! ### One observation -/

/-- The address of an observation is one the resolver takes: the monitor drops the others. -/
def Observation.Usable (isUnusable : String → Bool) (o : Observation) : Prop :=
  ∀ primary addresses, o = .ip primary addresses → isUnusable primary = false

theorem observed_agrees (h : Agrees isUnusable e d) (hu : o.Usable isUnusable) :
    Agrees isUnusable (o.persist d e) (o.apply d) := by
  cases o with
  | state => exact { h with ip := h.ip, offlineSince := .inl rfl }
  | ip primary addresses =>
    have hp := hu primary addresses rfl
    have hip : (resolveDeviceMetadata isUnusable ((Observation.ip primary addresses).persist d e) "").ip = primary := by
      simp only [Observation.persist]
      split
      · rename_i heq
        exact h.ip.trans heq
      · simp [resolveDeviceMetadata, hp]
    have hrest : ∀ f : StoreEntry → String, (∀ a, f { e with ip := a } = f e) →
        f ((Observation.ip primary addresses).persist d e) = f e := by
      intro f hf
      simp only [Observation.persist]
      split
      · rfl
      · exact hf _
    refine ⟨hip, ?_, ?_, ?_, ?_, ?_, ?_, ?_⟩
    · exact (hrest (·.deployedConfigHash) fun _ => rfl).trans h.deployedConfigHash
    · exact (hrest (·.deployedVersion) fun _ => rfl).trans h.deployedVersion
    · exact (hrest (·.network) fun _ => rfl).trans h.network
    · simp only [Observation.persist]
      split <;> exact h.queuedUpdate
    · simp only [Observation.persist]
      split <;> exact h.apiEncryptionActive
    · exact (hrest (·.deployedName) fun _ => rfl).trans h.deployedName
    · simp only [Observation.persist]
      split <;> exact h.offlineSince
  | persistedIpInvalidated staleIp =>
    simp only [Observation.persist, Observation.apply]
    split
    · exact { h with ip := by simp [resolveDeviceMetadata] }
    · exact h
  | version value =>
    simp only [Observation.persist, Observation.apply]
    split
    · rename_i heq
      exact { h with deployedVersion := h.deployedVersion.trans heq }
    · exact { h with ip := h.ip, deployedVersion := rfl }
  | apiEncryption value =>
    simp only [Observation.persist, Observation.apply]
    split
    · rename_i heq
      exact { h with apiEncryptionActive := h.apiEncryptionActive.trans heq }
    · exact { h with ip := h.ip, apiEncryptionActive := rfl }
  | network value =>
    simp only [Observation.persist, Observation.apply]
    split
    · rename_i heq
      exact { h with network := h.network.trans heq }
    · exact { h with ip := h.ip, network := rfl }
  | configHash value =>
    simp only [Observation.persist, Observation.apply]
    split
    · rename_i heq
      exact { h with deployedConfigHash := h.deployedConfigHash.trans heq }
    · exact { h with ip := h.ip, deployedConfigHash := rfl }
  | _ => exact { h with ip := h.ip }

theorem observed_carries (h : Carries s d) : Carries (s.note d o) (o.apply d) := by
  have new : ∀ {α : Type} {a v : α}, some a = some v → a = v := fun heq => Option.some.inj heq
  cases o with
  | persistedIpInvalidated staleIp =>
    simp only [Seen.note, Observation.apply]
    split
    · exact { h with ip := fun _ => new }
    · exact h
  | state => exact { h with state := fun _ => new }
  | activeSource => exact { h with activeSource := fun _ => new }
  | deployedIdentityLive => exact { h with deployedIdentityLive := fun _ => new }
  | otaSigned => exact { h with otaSigned := fun _ => new }
  | ip => exact { h with ip := fun _ => new, ipAddresses := fun _ => new }
  | addressesCleared => exact { h with ipAddresses := fun _ => new }
  | version => exact { h with deployedVersion := fun _ => new }
  | macAddress => exact { h with macAddress := fun _ => new }
  | apiEncryption => exact { h with apiEncryptionActive := fun _ heq => congrArg some (new heq) }
  | network => exact { h with network := fun _ => new }
  | configHash => exact { h with deployedConfigHash := fun _ => new }

/-- Where the observed value goes: to the sidecar, to a field the resolver reads, or into `runtime_state` only. -/
inductive Observation.Reach
  | sidecar
  | store
  | runtime
  deriving DecidableEq

def Observation.reach : Observation → Observation.Reach
  | .macAddress _ => .sidecar
  | .ip _ _ | .persistedIpInvalidated _ => .store
  -- it may clear the row's `deployed_name`
  | .activeSource .mdns => .store
  | _ => .runtime

namespace RescanWorld

variable {w : RescanWorld} {a : RescanAction} {path name : String} {l : Load} {t : LoadItem}

/-! ### The invariant -/

/-- What the thread has read for an item is what it would read now. -/
structure Fresh (isUnusable : String → Bool) (w : RescanWorld) (l : Load) (t : LoadItem) : Prop where
  shared : ∀ sh d, l.shared = some sh → w.index.get? t.path = some d → sh t.path = d.macAddress
  taken : ∀ m, t.metadata = some m → l.shared ≠ none
  ip : ∀ m, t.metadata = some m → m.ip = (resolveDeviceMetadata isUnusable (w.store t.path) "").ip
  deployedName : ∀ m, t.metadata = some m → m.deployedName = (w.store t.path).deployedName
  macAddress : ∀ m d, t.metadata = some m → w.index.get? t.path = some d → m.macAddress = d.macAddress
  added : ∀ m, t.metadata = some m → w.index.get? t.path = none →
    m.runtimeState = (resolveDeviceMetadata isUnusable (w.store t.path) "").runtimeState
  copied : ∀ c, t.loaded = some c → ∃ m, t.metadata = some m ∧
    c.1 = ((w.index.get? t.path).map (·.runtimeState)).getD m.runtimeState

/-- **Rows, stores, history and loads agree.** -/
structure Sound (isUnusable : String → Bool) (w : RescanWorld) : Prop where
  agrees : ∀ path d, w.index.get? path = some d → Agrees isUnusable (w.store path) d
  carries : ∀ path d, w.index.get? path = some d → Carries (w.seen path) d
  unseen : ∀ path, w.index.get? path = none → w.seen path = {}
  fresh : ∀ l, w.load = some l → ∀ t ∈ l.items, Fresh isUnusable w l t

/-- The thread has not read yet what the observation changes of the row. -/
def Unread (w : RescanWorld) (path : String) (r : Observation.Reach) : Prop :=
  ∀ l, w.load = some l → ∀ t ∈ l.items, t.path = path →
    match r with
    | .sidecar => l.shared = none
    | .store => t.metadata = none
    | .runtime => t.loaded = none

/-- No event comes between the thread's read of what it changes and the swap; the sidecar has the MAC addresses of the
rows when the thread takes its snapshot. -/
def Undisturbed (isUnusable : String → Bool) (w : RescanWorld) : RescanAction → Prop
  | .observe name o => o.Usable isUnusable ∧
    ∀ path d, w.index.get? path = some d → d.name = name → w.Unread path o.reach
  | .setQueuedUpdate path _ => w.Unread path .runtime
  | .setDeployedName path _ => w.Unread path .store
  | .snapshotSidecar => ∀ l, w.load = some l → ∀ t ∈ l.items, ∀ d, w.index.get? t.path = some d →
    w.sidecar t.path = d.macAddress
  | _ => True

/-! ### Events -/

/-- An item whose file's row and entry stay as they are. -/
theorem Fresh.of_eq {w' : RescanWorld} (h : Fresh isUnusable w l t) (hi : w'.index.get? t.path = w.index.get? t.path)
    (hs : w'.store t.path = w.store t.path) : Fresh isUnusable w' l t := by
  obtain ⟨h₁, h₂, h₃, h₄, h₅, h₆, h₇⟩ := h
  refine ⟨?_, h₂, ?_, ?_, ?_, ?_, ?_⟩
  · rw [hi]; exact h₁
  · rw [hs]; exact h₃
  · rw [hs]; exact h₄
  · rw [hi]; exact h₅
  · rw [hi, hs]; exact h₆
  · rw [hi]; exact h₇

/-- An item the thread has not read for. -/
theorem Fresh.blank (hs : l.shared = none) (hm : t.metadata = none) (hl : t.loaded = none) : Fresh isUnusable w l t := by
  refine ⟨fun sh _ h => ?_, fun m h => ?_, fun m h => ?_, fun m h => ?_, fun m _ h => ?_, fun m h => ?_, fun c h => ?_⟩
  · rw [hs] at h; cases h
  · rw [hm] at h; cases h
  · rw [hm] at h; cases h
  · rw [hm] at h; cases h
  · rw [hm] at h; cases h
  · rw [hm] at h; cases h
  · rw [hl] at h; cases h

/-- Of the batch only its snapshot matters. -/
theorem Fresh.batch {l' : Load} (h : Fresh isUnusable w l t) (hs : l'.shared = l.shared) : Fresh isUnusable w l' t := by
  obtain ⟨h₁, h₂, h₃, h₄, h₅, h₆, h₇⟩ := h
  refine ⟨?_, ?_, h₃, h₄, h₅, h₆, h₇⟩
  · rw [hs]; exact h₁
  · rw [hs]; exact h₂

/-- An item whose row changes where the thread has not read. -/
theorem Fresh.event {w' : RescanWorld} (h : Fresh isUnusable w l t) {d d' : Device} (r : Observation.Reach)
    (hd : w.index.get? t.path = some d) (hd' : w'.index.get? t.path = some d')
    (hu : match r with
      | .sidecar => l.shared = none
      | .store => t.metadata = none
      | .runtime => t.loaded = none)
    (hm : r ≠ .sidecar → d'.macAddress = d.macAddress)
    (hst : r ≠ .store → (w'.store t.path).ip = (w.store t.path).ip ∧
      (w'.store t.path).deployedName = (w.store t.path).deployedName) : Fresh isUnusable w' l t := by
  have hmeta : r = .sidecar ∨ r = .store → t.metadata = none := by
    rintro (rfl | rfl)
    · cases hmt : t.metadata with
      | none => rfl
      | some m => exact absurd hu (h.taken m hmt)
    · exact hu
  have hload : t.loaded = none := by
    cases hl : t.loaded with
    | none => rfl
    | some c =>
      exfalso
      obtain ⟨m, hmt, -⟩ := h.copied c hl
      cases r with
      | sidecar => rw [hmeta (.inl rfl)] at hmt; cases hmt
      | store => rw [hmeta (.inr rfl)] at hmt; cases hmt
      | runtime => rw [hu] at hl; cases hl
  have hrun : ∀ m, t.metadata = some m → r = .runtime := by
    intro m hmt
    cases r with
    | sidecar => rw [hmeta (.inl rfl)] at hmt; cases hmt
    | store => rw [hmeta (.inr rfl)] at hmt; cases hmt
    | runtime => rfl
  refine ⟨fun sh d'' hsh hd'' => ?_, h.taken, fun m hmt => ?_, fun m hmt => ?_, fun m d'' hmt hd'' => ?_,
    fun m _ hn => ?_, fun c hc => ?_⟩
  · rw [hd'] at hd''
    cases hd''
    have hr : r ≠ .sidecar := by
      rintro rfl
      rw [hu] at hsh
      cases hsh
    rw [hm hr]
    exact h.shared sh d hsh hd
  · have hr := hrun m hmt
    have hip := (hst (by rw [hr]; exact nofun)).1
    rw [h.ip m hmt]
    unfold resolveDeviceMetadata
    rw [hip]
  · have hr := hrun m hmt
    rw [(hst (by rw [hr]; exact nofun)).2]
    exact h.deployedName m hmt
  · rw [hd'] at hd''
    cases hd''
    have hr := hrun m hmt
    rw [hm (by rw [hr]; exact nofun)]
    exact h.macAddress m d hmt hd
  · rw [hd'] at hn
    cases hn
  · rw [hload] at hc
    cases hc

theorem apply_mac (o : Observation) (d : Device) (h : o.reach ≠ .sidecar) : (o.apply d).macAddress = d.macAddress := by
  cases o with
  | macAddress => exact absurd rfl h
  | persistedIpInvalidated =>
    simp only [Observation.apply]
    split <;> rfl
  | _ => rfl

theorem persist_resolved (o : Observation) (d : Device) (e : StoreEntry) (h : o.reach ≠ .store) :
    (o.persist d e).ip = e.ip ∧ (o.persist d e).deployedName = e.deployedName := by
  cases o with
  | ip => exact absurd rfl h
  | persistedIpInvalidated => exact absurd rfl h
  | version | apiEncryption | network | configHash =>
    simp only [Observation.persist]
    split <;> exact ⟨rfl, rfl⟩
  | _ => exact ⟨rfl, rfl⟩

theorem applyObservation_index (w : RescanWorld) (name : String) (o : Observation) (path : String) :
    (w.applyObservation name o).index.get? path =
      (w.index.get? path).map fun d => if d.name = name then o.apply d else d := Dict.get?_mapValues

/-- **The rows of a name take an observation.** -/
theorem sound_apply (h : Sound isUnusable w) (name : String) (o : Observation) (hu : o.Usable isUnusable)
    (hr : ∀ path d, w.index.get? path = some d → d.name = name → w.Unread path o.reach) :
    Sound isUnusable (w.applyObservation name o) := by
  have hindex := applyObservation_index w name o
  -- the row, the entry and the history of a path, before and after
  have row : ∀ path d', (w.applyObservation name o).index.get? path = some d' → ∃ d, w.index.get? path = some d ∧
      d' = (if d.name = name then o.apply d else d) := by
    intro path d' hd'
    rw [hindex] at hd'
    obtain ⟨d, hd, rfl⟩ := Option.map_eq_some_iff.1 hd'
    exact ⟨d, hd, rfl⟩
  have entry : ∀ path d, w.index.get? path = some d → (w.applyObservation name o).store path =
      if d.name = name then o.persist d (w.store path) else w.store path := by
    intro path d hd
    simp only [applyObservation, hd]
  have history : ∀ path d, w.index.get? path = some d → (w.applyObservation name o).seen path =
      if d.name = name then (w.seen path).note d o else w.seen path := by
    intro path d hd
    simp only [applyObservation, hd]
  refine ⟨fun path d' hd' => ?_, fun path d' hd' => ?_, fun path hn => ?_, fun l hl t ht => ?_⟩
  · obtain ⟨d, hd, rfl⟩ := row path d' hd'
    rw [entry path d hd]
    split
    · exact observed_agrees (h.agrees path d hd) hu
    · exact h.agrees path d hd
  · obtain ⟨d, hd, rfl⟩ := row path d' hd'
    rw [history path d hd]
    split
    · exact observed_carries (h.carries path d hd)
    · exact h.carries path d hd
  · have hn' : w.index.get? path = none := by
      rw [hindex] at hn
      exact Option.map_eq_none_iff.1 hn
    simp only [applyObservation, hn']
    exact h.unseen path hn'
  · have hf := h.fresh l hl t ht
    cases hd : w.index.get? t.path with
    | none =>
      refine hf.of_eq ?_ ?_
      · rw [hindex, hd]
        rfl
      · simp only [applyObservation, hd]
    | some d =>
      by_cases hname : d.name = name
      · refine hf.event o.reach hd ?_ (hr t.path d hd hname l hl t ht rfl) (apply_mac o d) fun hreach => ?_
        · rw [hindex, hd, Option.map_some, if_pos hname]
        · rw [entry t.path d hd, if_pos hname]
          exact persist_resolved o d (w.store t.path) hreach
      · refine hf.of_eq ?_ ?_
        · rw [hindex, hd, Option.map_some, if_neg hname]
        · rw [entry t.path d hd, if_neg hname]

theorem setDeployedName_index (w : RescanWorld) (path deployed p : String) :
    (w.setDeployedName path deployed).index.get? p =
      if p = path then (w.index.get? p).map fun d => { d with deployedName := deployed } else w.index.get? p :=
  Dict.get?_adjust

/-- The `deployed_name` of a file is set, in the row and in the store. -/
theorem sound_setDeployedName (h : Sound isUnusable w) (path deployed : String) (hr : w.Unread path .store) :
    Sound isUnusable (w.setDeployedName path deployed) := by
  have hindex := setDeployedName_index w path deployed
  have entry : ∀ p, (w.setDeployedName path deployed).store p =
      if p = path then { w.store path with deployedName := deployed } else w.store p := fun p => by
    simp only [setDeployedName, Function.update_apply]
  refine ⟨fun p d' hd' => ?_, fun p d' hd' => ?_, fun p hn => ?_, fun l hl t ht => ?_⟩
  · rw [hindex] at hd'
    rw [entry]
    split
    · rename_i hp
      subst hp
      rw [if_pos rfl] at hd'
      obtain ⟨d, hd, rfl⟩ := Option.map_eq_some_iff.1 hd'
      exact { h.agrees p d hd with ip := (h.agrees p d hd).ip, deployedName := rfl }
    · rename_i hp
      rw [if_neg hp] at hd'
      exact h.agrees p d' hd'
  · rw [hindex] at hd'
    by_cases hp : p = path
    · subst hp
      rw [if_pos rfl] at hd'
      obtain ⟨d, hd, rfl⟩ := Option.map_eq_some_iff.1 hd'
      simp only [setDeployedName, hd, Option.isSome_some, if_true, Function.update_self]
      exact { h.carries p d hd with deployedName := fun _ he => Option.some.inj he }
    · rw [if_neg hp] at hd'
      have hseen : (w.setDeployedName path deployed).seen p = w.seen p := by
        simp only [setDeployedName]
        split
        · rw [Function.update_of_ne hp]
        · rfl
      rw [hseen]
      exact h.carries p d' hd'
  · have hn' : w.index.get? p = none := by
      rw [hindex] at hn
      split at hn
      · exact Option.map_eq_none_iff.1 hn
      · exact hn
    have hseen : (w.setDeployedName path deployed).seen p = w.seen p := by
      simp only [setDeployedName]
      split
      · rename_i hsome
        rw [Function.update_of_ne]
        rintro rfl
        rw [hn'] at hsome
        cases hsome
      · rfl
    rw [hseen]
    exact h.unseen p hn'
  · have hf := h.fresh l hl t ht
    by_cases hp : t.path = path
    · have hmeta : t.metadata = none := hr l hl t ht hp
      cases hd : w.index.get? t.path with
      | some d =>
        have hd' : (w.setDeployedName path deployed).index.get? t.path = some { d with deployedName := deployed } := by
          rw [hindex, if_pos hp, hd]
          rfl
        exact hf.event .store hd hd' hmeta (fun _ => rfl) fun hne => absurd rfl hne
      | none =>
        -- the row is not there: only its entry changes, which the thread has not read
        have hload : t.loaded = none := by
          cases hc : t.loaded with
          | none => rfl
          | some c =>
            obtain ⟨m, hm, -⟩ := hf.copied c hc
            rw [hmeta] at hm
            cases hm
        have hnone : (w.setDeployedName path deployed).index.get? t.path = none := by
          rw [hindex, if_pos hp, hd]
          rfl
        refine ⟨fun sh d _ hd' => ?_, hf.taken, fun m hm => ?_, fun m hm => ?_, fun m d hm => ?_, fun m hm => ?_,
          fun c hc => ?_⟩
        · rw [hnone] at hd'; cases hd'
        · rw [hmeta] at hm; cases hm
        · rw [hmeta] at hm; cases hm
        · rw [hmeta] at hm; cases hm
        · rw [hmeta] at hm; cases hm
        · rw [hload] at hc; cases hc
    · refine hf.of_eq ?_ ?_
      · rw [hindex, if_neg hp]
      · rw [entry, if_neg hp]

theorem sound_clearDeployedName (h : Sound isUnusable w) (path : String) (hr : w.Unread path .store) :
    Sound isUnusable (w.clearDeployedName path) := by
  unfold clearDeployedName
  split
  · exact sound_setDeployedName h path "" hr
  · exact h

theorem setQueued_index {d : Device} (w : RescanWorld) (path p : String) (isQueued : Bool) (hd : w.index.get? path = some d)
    (hne : d.runtimeState.queuedUpdate ≠ isQueued) : (w.setQueuedUpdate path isQueued).index.get? p =
      if p = path then some { d with runtimeState := { d.runtimeState with queuedUpdate := isQueued } }
      else w.index.get? p := by
  simp only [setQueuedUpdate, hd, if_neg hne]
  rw [Dict.get?_adjust]
  split
  · rename_i hp
    rw [hp, hd]
    rfl
  · rfl

/-- `set_queued_update` and `clear_queued_update`. -/
theorem sound_setQueued (h : Sound isUnusable w) (path : String) (isQueued : Bool) (hr : w.Unread path .runtime) :
    Sound isUnusable (w.setQueuedUpdate path isQueued) := by
  cases hd : w.index.get? path with
  | none =>
    simp only [setQueuedUpdate, hd]
    exact h
  | some d =>
    by_cases hq : d.runtimeState.queuedUpdate = isQueued
    · simp only [setQueuedUpdate, hd, if_pos hq]
      exact h
    · have hindex := fun p => setQueued_index w path p isQueued hd hq
      have hw : (w.setQueuedUpdate path isQueued).store =
          Function.update w.store path { w.store path with queuedUpdate := isQueued } ∧
          (w.setQueuedUpdate path isQueued).seen =
            Function.update w.seen path { w.seen path with queuedUpdate := some isQueued } ∧
          (w.setQueuedUpdate path isQueued).load = w.load := by
        simp only [setQueuedUpdate, hd, if_neg hq]
        exact ⟨trivial, trivial, trivial⟩
      obtain ⟨hstore, hseen, hload⟩ := hw
      refine ⟨fun p d' hd' => ?_, fun p d' hd' => ?_, fun p hn => ?_, fun l hl t ht => ?_⟩
      · rw [hindex] at hd'
        rw [hstore]
        split at hd'
        · rename_i hp
          subst hp
          cases hd'
          rw [Function.update_self]
          exact { h.agrees p d hd with ip := (h.agrees p d hd).ip, queuedUpdate := rfl }
        · rename_i hp
          rw [Function.update_of_ne hp]
          exact h.agrees p d' hd'
      · rw [hindex] at hd'
        rw [hseen]
        split at hd'
        · rename_i hp
          subst hp
          cases hd'
          rw [Function.update_self]
          exact { h.carries p d hd with queuedUpdate := fun _ he => Option.some.inj he }
        · rename_i hp
          rw [Function.update_of_ne hp]
          exact h.carries p d' hd'
      · rw [hindex] at hn
        split at hn
        · cases hn
        · rename_i hp
          rw [hseen, Function.update_of_ne hp]
          exact h.unseen p hn
      · rw [hload] at hl
        have hf := h.fresh l hl t ht
        by_cases hp : t.path = path
        · have hd' := hindex t.path
          rw [if_pos hp] at hd'
          have hdt : w.index.get? t.path = some d := by rw [hp]; exact hd
          refine hf.event .runtime hdt hd' (hr l hl t ht hp) (fun _ => rfl) fun _ => ?_
          rw [hstore, hp, Function.update_self]
          exact ⟨rfl, rfl⟩
        · refine hf.of_eq ?_ ?_
          · rw [hindex, if_neg hp]
          · rw [hstore, Function.update_of_ne hp]

/-! ### The load -/

/-- The batch moves on, and nothing else. -/
theorem Sound.load (h : Sound isUnusable w) {next : Option Load}
    (hf : ∀ l, next = some l → ∀ t ∈ l.items, Fresh isUnusable w l t) : Sound isUnusable { w with load := next } :=
  ⟨h.agrees, h.carries, h.unseen, fun l hl t ht => (hf l hl t ht).of_eq rfl rfl⟩

/-- An item the thread works on. -/
theorem sound_setItem (h : Sound isUnusable w) (path : String) (f : LoadItem → LoadItem)
    (hf : ∀ l, w.load = some l → ∀ t ∈ l.items, t.path = path → Fresh isUnusable w l t → Fresh isUnusable w l (f t)) :
    Sound isUnusable (w.setItem path f) := by
  refine h.load fun l hl t ht => ?_
  obtain ⟨l₀, hl₀, rfl⟩ := Option.map_eq_some_iff.1 hl
  obtain ⟨t₀, ht₀, rfl⟩ := List.mem_map.1 ht
  have h₀ := h.fresh l₀ hl₀ t₀ ht₀
  by_cases hp : t₀.path = path
  · rw [if_pos hp]
    exact (hf l₀ hl₀ t₀ ht₀ hp h₀).batch rfl
  · rw [if_neg hp]
    exact h₀.batch rfl

theorem sound_beginLoad (h : Sound isUnusable w) (paths : List String) :
    Sound isUnusable (w.step isUnusable (.beginLoad paths)) := by
  simp only [step]
  split
  · refine h.load fun l hl t ht => ?_
    cases hl
    obtain ⟨path, -, rfl⟩ := List.mem_map.1 ht
    exact .blank rfl rfl rfl
  · exact h

/-- The snapshot has the MAC addresses of the rows. -/
theorem sound_snapshot (h : Sound isUnusable w) (hr : ∀ l, w.load = some l → ∀ t ∈ l.items, ∀ d,
    w.index.get? t.path = some d → w.sidecar t.path = d.macAddress) : Sound isUnusable w.snapshotSidecar := by
  refine h.load fun l hl t ht => ?_
  obtain ⟨l₀, hl₀, rfl⟩ := Option.map_eq_some_iff.1 hl
  have hf := h.fresh l₀ hl₀ t ht
  refine ⟨fun sh d hsh hd => ?_, fun _ _ => nofun, hf.ip, hf.deployedName, hf.macAddress, hf.added, hf.copied⟩
  have hsh' : l₀.shared.getD w.sidecar = sh := Option.some.inj hsh
  cases hs : l₀.shared with
  | none =>
    rw [← hsh', hs]
    exact hr l₀ hl₀ t ht d hd
  | some taken =>
    rw [← hsh', hs]
    exact hf.shared taken d hs hd

theorem sound_resolve (h : Sound isUnusable w) (path : String) : Sound isUnusable (w.resolve isUnusable path) := by
  unfold resolve
  cases hs : w.load.bind (·.shared) with
  | none => exact h
  | some shared =>
    refine sound_setItem h path _ fun l hl t ht hp hf => ?_
    have hsh : l.shared = some shared := by
      rw [hl] at hs
      exact hs
    cases hm : t.metadata with
    | some m =>
      rw [Option.getD_some, ← hm]
      exact hf
    | none =>
      have hload : t.loaded = none := by
        cases hc : t.loaded with
        | none => rfl
        | some c =>
          obtain ⟨m, hm', -⟩ := hf.copied c hc
          rw [hm] at hm'
          cases hm'
      have hnew : ∀ m, some ((none : Option DeviceFileMetadata).getD
          (resolveDeviceMetadata isUnusable (w.store path) (shared path))) = some m →
          m = resolveDeviceMetadata isUnusable (w.store t.path) (shared t.path) := fun m he => by
        rw [hp]
        exact (Option.some.inj he).symm
      refine ⟨hf.shared, fun m _ => by rw [hsh]; exact nofun, fun m he => ?_, fun m he => ?_, fun m d he hd => ?_,
        fun m he _ => ?_, fun c hc => ?_⟩
      · rw [hnew m he]
        rfl
      · rw [hnew m he]
        rfl
      · rw [hnew m he]
        exact hf.shared shared d hsh hd
      · rw [hnew m he]
        rfl
      · rw [show ({ t with metadata := _ } : LoadItem).loaded = t.loaded from rfl, hload] at hc
        cases hc

theorem sound_copy (h : Sound isUnusable w) (path name : String) (loadedIntegrations : Bool) :
    Sound isUnusable (w.copy path name loadedIntegrations) := by
  refine sound_setItem h path _ fun l hl t ht hp hf => ?_
  simp only
  split
  · rename_i m hm hc
    refine ⟨hf.shared, hf.taken, hf.ip, hf.deployedName, hf.macAddress, hf.added, fun c he => ⟨m, hm, ?_⟩⟩
    rw [← Option.some.inj he, hp]
  · exact hf

theorem sound_fails (h : Sound isUnusable w) (path : String) : Sound isUnusable (w.fails path) := by
  refine h.load fun l hl t ht => ?_
  obtain ⟨l₀, hl₀, rfl⟩ := Option.map_eq_some_iff.1 hl
  have hf := h.fresh l₀ hl₀ t (List.mem_filter.1 ht).1
  exact hf.batch rfl

/-! ### The swap -/

/-- What a batch, once it is complete, brings for a file. -/
structure Brings (isUnusable : String → Bool) (w : RescanWorld) (t : LoadItem) : Prop where
  same : ∀ d d', w.index.get? t.path = some d → t.device = some d' → SameObserved d d'
  agrees : ∀ d', t.device = some d' → Agrees isUnusable (w.store t.path) d'

theorem Fresh.brings (hf : Fresh isUnusable w l t) (hA : ∀ d, w.index.get? t.path = some d → Agrees isUnusable (w.store t.path) d) :
    Brings isUnusable w t := by
  have device : ∀ d', t.device = some d' → ∃ m c, t.metadata = some m ∧ t.loaded = some c ∧ d'.runtimeState = c.1 ∧
      d'.ip = m.ip ∧ d'.macAddress = m.macAddress ∧ d'.deployedName = m.deployedName := by
    intro d' hd'
    unfold LoadItem.device at hd'
    split at hd'
    · rename_i m runtime name li hm hc
      cases hd'
      exact ⟨m, _, hm, hc, rfl, rfl, rfl, rfl⟩
    · cases hd'
  have same : ∀ d d', w.index.get? t.path = some d → t.device = some d' → SameObserved d d' := by
    intro d d' hd hd'
    obtain ⟨m, c, hm, hc, hr, hi, hmac, hn⟩ := device d' hd'
    obtain ⟨m', hm', hcopy⟩ := hf.copied c hc
    rw [hd] at hcopy
    refine ⟨hr.trans hcopy, ?_, hmac.trans (hf.macAddress m d hm hd), ?_⟩
    · exact hi.trans ((hf.ip m hm).trans (hA d hd).ip)
    · exact hn.trans ((hf.deployedName m hm).trans (hA d hd).deployedName)
  refine ⟨same, fun d' hd' => ?_⟩
  cases hd : w.index.get? t.path with
  | some d => exact (hA d hd).of_same (same d d' hd hd')
  | none =>
    obtain ⟨m, c, hm, hc, hr, hi, -, hn⟩ := device d' hd'
    obtain ⟨m', hm', hcopy⟩ := hf.copied c hc
    rw [hm] at hm'
    cases hm'
    rw [hd] at hcopy
    have hadd := hf.added m hm hd
    have hrt : d'.runtimeState = (resolveDeviceMetadata isUnusable (w.store t.path) "").runtimeState :=
      hr.trans (hcopy.trans hadd)
    refine ⟨((hf.ip m hm).symm.trans hi.symm), ?_, ?_, ?_, ?_, ?_, (hf.deployedName m hm).symm.trans hn.symm, .inr ?_⟩ <;>
      rw [hrt] <;> rfl

/-- What a swap works on: sound, with no load under way. -/
structure Settled (isUnusable : String → Bool) (w : RescanWorld) : Prop where
  sound : Sound isUnusable w
  load : w.load = none

theorem Settled.unread (h : Settled isUnusable w) (path : String) (r : Observation.Reach) : w.Unread path r := by
  intro l hl
  rw [h.load] at hl
  cases hl

/-- A row is swapped in. -/
theorem settled_set (h : Settled isUnusable w) {d' : Device} (hb : Brings isUnusable w t) (hd' : t.device = some d') :
    Settled isUnusable { w with index := w.index.set t.path d' } := by
  refine ⟨⟨fun p d hd => ?_, fun p d hd => ?_, fun p hn => ?_, fun l hl => ?_⟩, h.load⟩
  · change (w.index.set t.path d').get? p = some d at hd
    rw [Dict.get?_set] at hd
    split at hd
    · rename_i hp
      cases hd
      subst hp
      exact hb.agrees d' hd'
    · exact h.sound.agrees p d hd
  · change (w.index.set t.path d').get? p = some d at hd
    rw [Dict.get?_set] at hd
    split at hd
    · rename_i hp
      cases hd
      subst hp
      change Carries (w.seen t.path) d'
      cases hold : w.index.get? t.path with
      | some old => exact (h.sound.carries t.path old hold).of_same (hb.same old d' hold hd')
      | none =>
        rw [h.sound.unseen t.path hold]
        exact .unseen d'
    · exact h.sound.carries p d hd
  · change (w.index.set t.path d').get? p = none at hn
    rw [Dict.get?_set] at hn
    split at hn
    · cases hn
    · exact h.sound.unseen p hn
  · rw [show ({ w with index := w.index.set t.path d' } : RescanWorld).load = w.load from rfl, h.load] at hl
    cases hl

theorem settled_setDeployedName (h : Settled isUnusable w) (path deployed : String) :
    Settled isUnusable (w.setDeployedName path deployed) :=
  ⟨sound_setDeployedName h.sound path deployed (h.unread path .store), h.load⟩

theorem settled_swapItem (h : Settled isUnusable w) (hb : Brings isUnusable w t) : Settled isUnusable (w.swapItem t) := by
  unfold swapItem
  split
  · exact h
  · rename_i d' hd'
    have hset := settled_set h hb hd'
    simp only
    split
    · exact hset
    · split
      · exact settled_setDeployedName hset _ _
      · exact hset

/-- Another file's row and entry. -/
theorem swapItem_other (w : RescanWorld) (t : LoadItem) {p : String} (hp : p ≠ t.path) :
    (w.swapItem t).index.get? p = w.index.get? p ∧ (w.swapItem t).store p = w.store p := by
  have named : ∀ (v : RescanWorld) (deployed : String), (v.setDeployedName t.path deployed).index.get? p = v.index.get? p ∧
      (v.setDeployedName t.path deployed).store p = v.store p := by
    intro v deployed
    rw [setDeployedName_index, if_neg hp]
    exact ⟨rfl, Function.update_of_ne hp _ _⟩
  unfold swapItem
  split
  · exact ⟨rfl, rfl⟩
  · rename_i d' _
    have hset : (w.index.set t.path d').get? p = w.index.get? p := Dict.get?_set_ne hp
    simp only
    split
    · exact ⟨hset, rfl⟩
    · split
      · obtain ⟨hi, hs⟩ := named { w with index := w.index.set t.path d' } _
        exact ⟨hi.trans hset, hs⟩
      · exact ⟨hset, rfl⟩

theorem settled_swapItems (items : List LoadItem) (h : Settled isUnusable w) (hn : (items.map (·.path)).Nodup)
    (hb : ∀ t ∈ items, Brings isUnusable w t) : Settled isUnusable (items.foldl swapItem w) := by
  induction items generalizing w with
  | nil => exact h
  | cons t items ih =>
    rw [List.map_cons, List.nodup_cons] at hn
    refine ih (settled_swapItem h (hb t (List.mem_cons_self ..))) hn.2 fun t' ht' => ?_
    have hne : t'.path ≠ t.path := fun he => hn.1 (List.mem_map.2 ⟨t', ht', he⟩)
    obtain ⟨hi, hs⟩ := swapItem_other w t hne
    have hb' := hb t' (List.mem_cons_of_mem t ht')
    exact ⟨fun d d' hd => hb'.same d d' (hi ▸ hd), fun d' hd' => hs ▸ hb'.agrees d' hd'⟩

/-- A row is dropped with its entry and its history. -/
theorem settled_dropRow (h : Settled isUnusable w) (path : String) : Settled isUnusable (w.dropRow path) := by
  unfold dropRow
  split
  · exact h
  · refine ⟨⟨fun p d hd => ?_, fun p d hd => ?_, fun p hn => ?_, fun l hl => ?_⟩, h.load⟩
    · obtain ⟨hp, hd⟩ := Dict.of_get?_erase hd
      have hstore : Function.update w.store path {} p = w.store p := Function.update_of_ne hp _ _
      change Agrees isUnusable (Function.update w.store path {} p) d
      rw [hstore]
      exact h.sound.agrees p d hd
    · obtain ⟨hp, hd⟩ := Dict.of_get?_erase hd
      have hseen : Function.update w.seen path {} p = w.seen p := Function.update_of_ne hp _ _
      change Carries (Function.update w.seen path {} p) d
      rw [hseen]
      exact h.sound.carries p d hd
    · by_cases hp : p = path
      · subst hp
        exact Function.update_self ..
      · have hseen : Function.update w.seen path {} p = w.seen p := Function.update_of_ne hp _ _
        exact hseen.trans (h.sound.unseen p ((Dict.get?_erase_ne hp).symm.trans hn))
    · change w.load = some l at hl
      rw [h.load] at hl
      cases hl

theorem settled_dropRows (removed : List String) (h : Settled isUnusable w) :
    Settled isUnusable (removed.foldl dropRow w) := by
  induction removed generalizing w with
  | nil => exact h
  | cons path removed ih => exact ih (settled_dropRow h path)

/-- A batch has a file once. -/
def Distinct (w : RescanWorld) : Prop := ∀ l, w.load = some l → (l.items.map (·.path)).Nodup

theorem Distinct.of_load {w' : RescanWorld} (h : Distinct w) (hl : w'.load = w.load) : Distinct w' := by
  unfold Distinct
  rw [hl]
  exact h

theorem sound_swap (h : Sound isUnusable w) (hn : Distinct w) (removed : List String) : Sound isUnusable (w.swap removed) := by
  unfold swap
  split
  · exact h
  · rename_i l hl
    split
    · have hs : Settled isUnusable { w with load := none } := ⟨h.load (by intro l hl; cases hl), rfl⟩
      have hb : ∀ t ∈ l.items, Brings isUnusable { w with load := none } t := by
        intro t ht
        have hf : Fresh isUnusable { w with load := none } l t := (h.fresh l hl t ht).of_eq rfl rfl
        exact hf.brings fun d hd => h.agrees t.path d hd
      exact (settled_dropRows removed (settled_swapItems l.items hs (hn l hl) hb)).sound
    · exact h

/-! ### Steps and runs -/

theorem clearDeployedName_load (w : RescanWorld) (path : String) : (w.clearDeployedName path).load = w.load := by
  unfold clearDeployedName
  split <;> rfl

/-- A cleared `deployed_name` leaves the rows under their names. -/
theorem clearDeployedName_name {d : Device} (p : String) (hd : (w.clearDeployedName p).index.get? path = some d) :
    ∃ d₀, w.index.get? path = some d₀ ∧ d₀.name = d.name := by
  unfold clearDeployedName at hd
  split at hd
  · rw [setDeployedName_index] at hd
    split at hd
    · rename_i hp
      subst hp
      obtain ⟨d₀, hd₀, rfl⟩ := Option.map_eq_some_iff.1 hd
      exact ⟨d₀, hd₀, rfl⟩
    · exact ⟨d, hd, rfl⟩
  · exact ⟨d, hd, rfl⟩

theorem sound_observe (h : Sound isUnusable w) (name : String) (o : Observation) (hu : o.Usable isUnusable)
    (hr : ∀ path d, w.index.get? path = some d → d.name = name → w.Unread path o.reach) :
    Sound isUnusable (w.observe name o) := by
  unfold observe
  simp only
  split
  · rename_i e he
    have hmem : e ∈ w.index.items.filter fun e => e.2.name = name := by
      rw [he]
      exact List.mem_singleton_self e
    obtain ⟨hitems, hname⟩ := List.mem_filter.1 hmem
    have hd : w.index.get? e.1 = some e.2 := Dict.get?_eq_some.2 hitems
    have hclear := sound_clearDeployedName h e.1 (hr e.1 e.2 hd (of_decide_eq_true hname))
    refine sound_apply hclear name (.activeSource .mdns) hu fun path d hd' hn => ?_
    obtain ⟨d₀, hd₀, hn₀⟩ := clearDeployedName_name e.1 hd'
    have hun := hr path d₀ hd₀ (hn₀.trans hn)
    intro l hl
    rw [clearDeployedName_load] at hl
    exact hun l hl
  · exact sound_apply h name _ hu hr

theorem sound_step {a : RescanAction} (h : Sound isUnusable w) (hn : Distinct w) (ha : Undisturbed isUnusable w a) :
    Sound isUnusable (w.step isUnusable a) := by
  cases a with
  | observe name o => exact sound_observe h name o ha.1 ha.2
  | setQueuedUpdate path isQueued => exact sound_setQueued h path isQueued ha
  | setDeployedName path deployed => exact sound_setDeployedName h path deployed ha
  | macWritten i =>
    simp only [step, macWritten]
    split
    · exact h
    · exact ⟨h.agrees, h.carries, h.unseen, fun l hl t ht => (h.fresh l hl t ht).of_eq rfl rfl⟩
  | beginLoad paths => exact sound_beginLoad h paths
  | snapshotSidecar => exact sound_snapshot h ha
  | resolve path => exact sound_resolve h path
  | copy path name loadedIntegrations => exact sound_copy h path name loadedIntegrations
  | fails path => exact sound_fails h path
  | swap removed => exact sound_swap h hn removed

theorem distinct_setItem (h : Distinct w) (path : String) {f : LoadItem → LoadItem} (hf : ∀ t, (f t).path = t.path) :
    Distinct (w.setItem path f) := by
  intro l hl
  obtain ⟨l₀, hl₀, rfl⟩ := Option.map_eq_some_iff.1 hl
  have hpaths : (l₀.items.map fun t => if t.path = path then f t else t).map (·.path) = l₀.items.map (·.path) := by
    rw [List.map_map]
    refine List.map_congr_left fun t _ => ?_
    simp only [Function.comp]
    split
    · exact hf t
    · rfl
  change ((l₀.items.map fun t => if t.path = path then f t else t).map (·.path)).Nodup
  rw [hpaths]
  exact h l₀ hl₀

theorem swap_load (w : RescanWorld) (removed : List String) :
    (w.swap removed).load = none ∨ w.swap removed = w := by
  have item : ∀ (w : RescanWorld) t, (w.swapItem t).load = w.load := by
    intro w t
    unfold swapItem
    split
    · rfl
    · simp only
      split
      · rfl
      · split <;> rfl
  have row : ∀ (w : RescanWorld) path, (w.dropRow path).load = w.load := by
    intro w path
    unfold dropRow
    split <;> rfl
  have items : ∀ (ts : List LoadItem) (w : RescanWorld), (ts.foldl swapItem w).load = w.load := by
    intro ts
    induction ts with
    | nil => intro w; rfl
    | cons t ts ih => intro w; exact (ih _).trans (item w t)
  have rows : ∀ (ps : List String) (w : RescanWorld), (ps.foldl dropRow w).load = w.load := by
    intro ps
    induction ps with
    | nil => intro w; rfl
    | cons p ps ih => intro w; exact (ih _).trans (row w p)
  unfold swap
  split
  · exact .inr rfl
  · split
    · exact .inl ((rows removed _).trans (items _ _))
    · exact .inr rfl

theorem distinct_step (h : Distinct w) (a : RescanAction) : Distinct (w.step isUnusable a) := by
  cases a with
  | observe name o =>
    refine h.of_load ?_
    simp only [step, observe]
    split
    · exact clearDeployedName_load ..
    · rfl
  | setQueuedUpdate path isQueued =>
    refine h.of_load ?_
    simp only [step, setQueuedUpdate]
    split
    · rfl
    · split <;> rfl
  | setDeployedName path deployed => exact h.of_load rfl
  | macWritten i =>
    refine h.of_load ?_
    simp only [step, macWritten]
    split <;> rfl
  | beginLoad paths =>
    simp only [step]
    split
    · intro l hl
      cases hl
      rw [List.map_map, show (fun t : LoadItem => t.path) ∘ (fun path => ({ path := path } : LoadItem)) = id from rfl,
        List.map_id]
      exact List.nodup_dedup paths
    · exact h
  | snapshotSidecar =>
    intro l hl
    obtain ⟨l₀, hl₀, rfl⟩ := Option.map_eq_some_iff.1 hl
    exact h l₀ hl₀
  | resolve path =>
    simp only [step, resolve]
    split
    · exact h
    · exact distinct_setItem h path fun _ => rfl
  | copy path name loadedIntegrations =>
    refine distinct_setItem h path fun t => ?_
    simp only
    split <;> rfl
  | fails path =>
    intro l hl
    obtain ⟨l₀, hl₀, rfl⟩ := Option.map_eq_some_iff.1 hl
    exact (h l₀ hl₀).sublist (List.filter_sublist.map _)
  | swap removed =>
    rcases swap_load w removed with hl | hw
    · intro l hl'
      rw [step, hl] at hl'
      cases hl'
    · rw [step, hw]
      exact h

/-- Before the first scan: no rows, and what the last run has left on the disk. -/
def start (store : String → StoreEntry) (sidecar : String → String) : RescanWorld :=
  { store := store, sidecar := sidecar }

theorem start_sound (store : String → StoreEntry) (sidecar : String → String) : Sound isUnusable (start store sidecar) := by
  refine ⟨fun path d hd => ?_, fun path d hd => ?_, fun _ _ => rfl, fun l hl => ?_⟩
  · cases hd
  · cases hd
  · cases hl

/-- **No rescan loses an observation**, in runs where no event comes between the thread's read of it and the swap. -/
theorem observations_kept (isUnusable : String → Bool) (store : String → StoreEntry) (sidecar : String → String)
    {w : RescanWorld} (h : Reaches (step isUnusable) (Undisturbed isUnusable) (start store sidecar) w) :
    ∀ path d, w.index.get? path = some d → Carries (w.seen path) d ∧ Agrees isUnusable (w.store path) d := by
  have hI : Sound isUnusable w ∧ Distinct w := by
    have hstart : Sound isUnusable (start store sidecar) ∧ Distinct (start store sidecar) := by
      refine ⟨start_sound store sidecar, ?_⟩
      intro l hl
      cases hl
    exact h.invariant (I := fun w => Sound isUnusable w ∧ Distinct w) hstart fun s a ha hs =>
      ⟨sound_step hs.1 hs.2 ha, distinct_step hs.2 a⟩
  intro path d hd
  exact ⟨hI.1.carries path d hd, hI.1.agrees path d hd⟩

/-! ### One reload -/

/-- The thread's part of a load of the one file. -/
def reads : List RescanAction :=
  [.beginLoad ["attic.yaml"], .snapshotSidecar, .resolve "attic.yaml", .copy "attic.yaml" "attic" true]

def seesVersion : RescanAction := .observe "attic" (.version "2026.5.0")

/-- The row is added, its version is seen, and it is loaded again. -/
def seenBetween : List RescanAction := reads ++ [.swap [], seesVersion] ++ reads ++ [.swap []]

/-- The version is seen while the second load has copied, and not swapped. -/
def seenLate : List RescanAction := reads ++ [.swap []] ++ reads ++ [seesVersion, .swap []]

/-- `Undisturbed`, as a test, for the actions of these runs. -/
def undisturbed (w : RescanWorld) : RescanAction → Bool
  | .observe _ (.version _) => w.load.isNone
  | .snapshotSidecar => w.load.all fun l => l.items.all fun t => (w.index.get? t.path).all (·.macAddress = w.sidecar t.path)
  | .beginLoad _ | .resolve _ | .copy .. | .swap _ => true
  | _ => false

theorem undisturbed_of_test (w : RescanWorld) (a : RescanAction) (h : undisturbed w a = true) :
    Undisturbed isUnusable w a := by
  cases a with
  | observe name o =>
    cases o with
    | version value =>
      refine ⟨fun _ _ => nofun, fun path d _ _ l hl => ?_⟩
      rw [undisturbed, hl] at h
      cases h
    | _ => cases h
  | snapshotSidecar =>
    intro l hl t ht d hd
    simp only [undisturbed, hl, Option.all_some, List.all_eq_true] at h
    have := h t ht
    rw [hd, Option.all_some, decide_eq_true_eq] at this
    exact this.symm
  | setQueuedUpdate => cases h
  | setDeployedName => cases h
  | macWritten => cases h
  | fails => cases h
  | _ => trivial

theorem observations_kept_reloaded :
    let w := seenBetween.foldl (step fun _ => false) (start (fun _ => {}) fun _ => "")
    ∃ d, w.index.get? "attic.yaml" = some d ∧ d.runtimeState.deployedVersion = "2026.5.0" ∧
      Carries (w.seen "attic.yaml") d ∧ Agrees (fun _ => false) (w.store "attic.yaml") d :=
  ⟨⟨"attic", true, "", "", "", { deployedVersion := "2026.5.0" }⟩, by decide, rfl,
    observations_kept (fun _ => false) (fun _ => {}) (fun _ => "")
      (Reaches.foldl_checks undisturbed_of_test seenBetween _ (by decide)) "attic.yaml" _ (by decide)⟩

/-- **The version is in the store, and gone from the row.** -/
theorem copied_then_swapped : ¬∀ (isUnusable : String → Bool) (store : String → StoreEntry) (sidecar : String → String)
    (w : RescanWorld), Reaches (step isUnusable) any (start store sidecar) w → w.load = none →
      ∀ path d, w.index.get? path = some d → Carries (w.seen path) d ∧ Agrees isUnusable (w.store path) d := by
  intro h
  have hlost := (h (fun _ => false) (fun _ => {}) (fun _ => "") _ (Reaches.foldl seenLate _) (by decide) "attic.yaml"
    ⟨"attic", true, "", "", "", {}⟩ (by decide)).1.deployedVersion "2026.5.0" (by decide)
  revert hlost
  decide

end RescanWorld

end DeviceBuilder.Devices
