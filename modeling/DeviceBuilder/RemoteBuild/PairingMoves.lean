import DeviceBuilder.RemoteBuild.PairingStep

/-!
# What a step does to the rows

Every claim about who is trusted reads the two row dictionaries, the long polls
that have been woken and the answers sent. `step_moves` says once what one step
can do to them; nothing later unfolds the step function.

* `RowMove`: the ways the rows change, each with the event it fires for a row.
* `PairingState.step_moves`: every step is one of them.
-/

namespace DeviceBuilder

namespace PairingState

variable {cfg : PairingSettings} {s : PairingState} {d : DashboardId} {pin : Pin}
  {e : PairEvent} {t : PairTask} {i : ℕ} {o : IntentOutcome}

/-- A long poll of `(d, pin)` has been woken and has not resumed. -/
def Woken (s : PairingState) (d : DashboardId) (pin : Pin) : Prop := .pairStatus d pin true ∈ s.tasks

/-- A `pair_status` query of `(d, pin)` was answered `o`. -/
def Answered (s : PairingState) (d : DashboardId) (pin : Pin) (o : IntentOutcome) : Prop :=
  .answered .pairStatus d pin o ∈ s.log

instance : Decidable (s.Woken d pin) := inferInstanceAs (Decidable (_ ∈ _))

/-! ### Frames -/

@[simp] theorem fire_pending : (s.fire e).pendingPeers = s.pendingPeers := rfl
@[simp] theorem fire_approved : (s.fire e).approvedPeers = s.approvedPeers := rfl
@[simp] theorem answer_pending {n} : (s.answer n d pin o).pendingPeers = s.pendingPeers := rfl
@[simp] theorem answer_approved {n} : (s.answer n d pin o).approvedPeers = s.approvedPeers := rfl
@[simp] theorem answer_tasks {n} : (s.answer n d pin o).tasks = s.tasks := rfl
@[simp] theorem spawn_pending : (s.spawn t).pendingPeers = s.pendingPeers := rfl
@[simp] theorem spawn_approved : (s.spawn t).approvedPeers = s.approvedPeers := rfl
@[simp] theorem spawn_log : (s.spawn t).log = s.log := rfl
@[simp] theorem setTask_pending : (s.setTask i t).pendingPeers = s.pendingPeers := rfl
@[simp] theorem setTask_approved : (s.setTask i t).approvedPeers = s.approvedPeers := rfl
@[simp] theorem setTask_log : (s.setTask i t).log = s.log := rfl
@[simp] theorem disarm_pending : s.disarm.pendingPeers = s.pendingPeers := rfl
@[simp] theorem disarm_approved : s.disarm.approvedPeers = s.approvedPeers := rfl
@[simp] theorem disarm_tasks : s.disarm.tasks = s.tasks := rfl
@[simp] theorem disarm_log : s.disarm.log = s.log := rfl
@[simp] theorem prune_pending : s.prune.pendingPeers = s.pendingPeers := rfl
@[simp] theorem prune_approved : s.prune.approvedPeers = s.approvedPeers := rfl
@[simp] theorem prune_tasks : s.prune.tasks = s.tasks := rfl
@[simp] theorem prune_log : s.prune.log = s.log := rfl

/-- An event wakes the polls of its row only. -/
theorem Woken.of_fire (h : (s.fire e).Woken d pin) :
    s.Woken d pin ∨ ∃ st, e = .pairStatusChanged d st := by
  obtain ⟨t, ht, hear⟩ := List.mem_map.1 h
  cases t with
  | pairStatus d' pin' f =>
    cases e with
    | pairStatusChanged d'' st =>
      simp only [PairTask.hear, PairTask.pairStatus.injEq, Bool.or_eq_true, decide_eq_true_eq] at hear
      obtain ⟨rfl, rfl, rfl | rfl⟩ := hear
      · exact .inl ht
      · exact .inr ⟨st, rfl⟩
    | _ => simp only [PairTask.hear] at hear; rw [hear] at ht; exact .inl ht
  | bootstrapLoad p c => simp only [PairTask.hear] at hear; split at hear <;> cases hear
  | bootstrapWait p c => simp only [PairTask.hear] at hear; split at hear <;> cases hear
  | _ => cases hear

theorem Woken.of_setTask (h : (s.setTask i .ended).Woken d pin) : s.Woken d pin := by
  rcases List.mem_or_eq_of_mem_set h with h | h
  · exact h
  · cases h

theorem Woken.of_spawn (h : (s.spawn t).Woken d pin) (ht : t ≠ .pairStatus d pin true) :
    s.Woken d pin := by
  rcases List.mem_append.1 h with h | h
  · exact h
  · exact absurd (List.mem_singleton.1 h).symm ht

theorem Answered.of_fire (h : (s.fire e).Answered d pin o) :
    s.Answered d pin o ∨ e = .answered .pairStatus d pin o := by
  rcases List.mem_append.1 h with h | h
  · exact .inl h
  · exact .inr (List.mem_singleton.1 h).symm

/-- Every poll woken from `s` to `s'` waits on a row of `W`. -/
def Wakes (s s' : PairingState) (W : DashboardId → Prop) : Prop :=
  ∀ d pin, s'.Woken d pin → s.Woken d pin ∨ W d

/-- Every status answer given from `s` to `s'` is one of `A`. -/
def Answers (s s' : PairingState) (A : DashboardId → Pin → IntentOutcome → Prop) : Prop :=
  ∀ d pin o, s'.Answered d pin o → s.Answered d pin o ∨ A d pin o

variable {W : DashboardId → Prop}

theorem Wakes.none {s s' : PairingState} (h : s'.tasks = s.tasks) : Wakes s s' W := by
  intro d pin hw
  unfold Woken at hw ⊢
  rw [h] at hw
  exact .inl hw

/-! ### The pairing window -/

/-- Everything a window change leaves alone. -/
structure WindowFrame (s s' : PairingState) (gone : Prop) : Prop where
  approved : s'.approvedPeers = s.approvedPeers
  pending : s'.pendingPeers = s.pendingPeers ∧ Wakes s s' (fun _ => False) ∨
    gone ∧ s'.pendingPeers = ∅ ∧ Wakes s s' (· ∈ s.pendingPeers.keys)
  answers : Answers s s' fun _ _ _ => False

theorem fire_frame (he : ∀ d st, e ≠ .pairStatusChanged d st)
    (ha : ∀ n d pin o, e ≠ .answered n d pin o) : WindowFrame s (s.fire e) False where
  approved := rfl
  pending := by
    refine .inl ⟨rfl, fun d pin hw => ?_⟩
    rcases hw.of_fire with hw | ⟨st, h⟩
    · exact .inl hw
    · exact absurd h (he d st)
  answers := fun d pin o h => by
    rcases h.of_fire with h | h
    · exact .inl h
    · exact absurd h (ha _ _ _ _)

theorem foldl_removed (ks : List DashboardId) (s : PairingState) :
    (ks.foldl (fun s d => s.firePairStatusChanged d .removed) s) =
      { s with
        tasks := (ks.foldl (fun s d => s.firePairStatusChanged d .removed) s).tasks
        log := s.log ++ ks.map (.pairStatusChanged · .removed) } := by
  induction ks generalizing s with
  | nil => simp
  | cons k ks ih =>
    rw [List.foldl_cons, ih]
    simp [firePairStatusChanged, fire]

theorem foldl_removed_wakes (ks : List DashboardId) (s : PairingState) :
    Wakes s (ks.foldl (fun s d => s.firePairStatusChanged d .removed) s) (· ∈ ks) := by
  induction ks generalizing s with
  | nil => exact .none rfl
  | cons k ks ih =>
    intro d pin h
    rcases ih _ d pin h with h | h
    · rcases h.of_fire with h | ⟨st, h⟩
      · exact .inl h
      · simp only [PairEvent.pairStatusChanged.injEq] at h
        exact .inr (h.1 ▸ List.mem_cons_self ..)
    · exact .inr (List.mem_cons_of_mem k h)

theorem clear_pending : s.clearPendingPeersOnWindowClose.pendingPeers = ∅ := by
  unfold clearPendingPeersOnWindowClose
  rw [foldl_removed]

theorem clear_log : s.clearPendingPeersOnWindowClose.log =
    s.log ++ s.pendingPeers.keys.map (.pairStatusChanged · .removed) := by
  unfold clearPendingPeersOnWindowClose
  rw [foldl_removed]

theorem clear_frame : WindowFrame s s.clearPendingPeersOnWindowClose True where
  approved := by unfold clearPendingPeersOnWindowClose; rw [foldl_removed]
  pending := .inr ⟨trivial, clear_pending,
    foldl_removed_wakes s.pendingPeers.keys { s with pendingPeers := ∅ }⟩
  answers := by
    intro d pin o h
    unfold Answered at h ⊢
    rw [clear_log, List.mem_append] at h
    simpa using h

theorem WindowFrame.trans {s s' s'' : PairingState} {g : Prop} (h : WindowFrame s s' False)
    (h' : WindowFrame s' s'' g) : WindowFrame s s'' g where
  approved := h'.approved.trans h.approved
  pending := by
    obtain ⟨hp, hw⟩ := h.pending.resolve_right (fun h => h.1)
    have old : ∀ {d pin}, s'.Woken d pin → s.Woken d pin := fun h => (hw _ _ h).resolve_right id
    rcases h'.pending with ⟨hp', hw'⟩ | ⟨hg, hp', hw'⟩
    · exact .inl ⟨hp'.trans hp, fun d pin h => (hw' d pin h).imp_left old⟩
    · refine .inr ⟨hg, hp', fun d pin h => ?_⟩
      rw [← hp]
      exact (hw' d pin h).imp_left old
  answers := fun d pin o ho => (h'.answers d pin o ho).imp_left fun ho =>
    (h.answers d pin o ho).resolve_right id

/-- A change of the window's own fields. -/
theorem WindowFrame.fields {s s' : PairingState} (hp : s'.pendingPeers = s.pendingPeers)
    (ha : s'.approvedPeers = s.approvedPeers) (ht : s'.tasks = s.tasks) (hl : s'.log = s.log) :
    WindowFrame s s' False where
  approved := ha
  pending := .inl ⟨hp, .none ht⟩
  answers := fun d pin o h => by unfold Answered at h ⊢; rw [hl] at h; exact .inl h

theorem firePairingWindowChanged_frame : WindowFrame s s.firePairingWindowChanged False := by
  have hp : WindowFrame s s.prune False := .fields rfl rfl rfl rfl
  unfold firePairingWindowChanged
  exact hp.trans (fire_frame (fun _ _ h => nomatch h) fun _ _ _ _ h => nomatch h)

theorem WindowFrame.weaken {s s' : PairingState} {g : Prop} (h : WindowFrame s s' False) :
    WindowFrame s s' g :=
  { h with pending := .inl (h.pending.resolve_right fun h => h.1) }

theorem setPairingWindow_frame {b : Bool} {c : WindowClient} {n : ℕ} :
    WindowFrame s (s.setPairingWindow cfg b c n) True := by
  unfold setPairingWindow
  extract_lets wasOpen s₁ clients s₂ isOpen s₃
  have h₂ : WindowFrame s s₂ False := .fields rfl rfl rfl rfl
  have h₃ : WindowFrame s s₃ False := by
    simp only [s₃]
    split
    · exact h₂.trans firePairingWindowChanged_frame
    · exact h₂
  split
  · exact h₃.trans clear_frame
  · exact h₃.weaken

theorem onPairingWindowDeadline_frame : WindowFrame s s.onPairingWindowDeadline True := by
  have hc : WindowFrame s { s with pairingWindowHandle := none, pairingWindowClients := ∅ } False :=
    .fields rfl rfl rfl rfl
  unfold onPairingWindowDeadline
  exact (hc.trans firePairingWindowChanged_frame).trans clear_frame

/-! ### Moves -/

/-- A `pair_request` takes the bootstrap's way into the APPROVED rows. -/
structure AutoApproves (cfg : PairingSettings) (s : PairingState) (q : PairRequest) : Prop where
  id : isDashboardId q.dashboardId = true
  windowOpen : s.isPairingWindowOpen = true
  armed : s.autoApproveFirstPair = true
  first : s.approvedPeers.isEmpty = true
  allowed : s.autoApproveAllowed cfg q = true

/-- A `pair_request` creates or refreshes a PENDING row. -/
structure RecordsPending (s : PairingState) (q : PairRequest) : Prop where
  id : isDashboardId q.dashboardId = true
  unapproved : s.approvedPeers.get? q.dashboardId = none
  windowOpen : s.isPairingWindowOpen = true
  disarmed : ¬(s.autoApproveFirstPair = true ∧ s.approvedPeers.isEmpty = true)
  sameKey : ∀ p, s.pendingPeers.get? q.dashboardId = some p → p.staticX25519Pub = q.staticX25519Pub

/-- The PENDING rows, the APPROVED rows and the rows whose polls are woken, after a step. -/
inductive RowMove (cfg : PairingSettings) (s : PairingState) : PairAction →
    Dict DashboardId StoredPeer → Dict DashboardId StoredPeer → (DashboardId → Prop) → Prop
  | keep {a} : RowMove cfg s a s.pendingPeers s.approvedPeers fun _ => False
  | rePair {q peer} (hp : s.approvedPeers.get? q.dashboardId = some peer)
      (hpin : peer.pinSha256 = cfg.lib.pinSha256ForPubkey q.staticX25519Pub) :
      RowMove cfg s (.dispatch (.pairRequest q)) s.pendingPeers (s.approvedPeers.set q.dashboardId
        (peer.refreshFromPairRequest (q.handshake cfg.lib))) fun _ => False
  | autoApprove {q} (h : s.AutoApproves cfg (q.handshake cfg.lib)) :
      RowMove cfg s (.dispatch (.pairRequest q)) s.pendingPeers
        (s.approvedPeers.set q.dashboardId (q.handshake cfg.lib).storedPeer) fun _ => False
  | record {q} (h : s.RecordsPending (q.handshake cfg.lib)) :
      RowMove cfg s (.dispatch (.pairRequest q))
        (s.pendingPeers.set q.dashboardId (q.handshake cfg.lib).storedPeer) s.approvedPeers
        fun _ => False
  | approve {raw d p} (hd : validateDashboardId raw = some d)
      (hp : s.pendingPeers.get? d = some p) :
      RowMove cfg s (.approvePeer raw) (s.pendingPeers.erase d) (s.approvedPeers.set d p) (· = d)
  | reject {raw d p} (hd : validateDashboardId raw = some d)
      (hp : s.pendingPeers.get? d = some p) :
      RowMove cfg s (.removePeer raw) (s.pendingPeers.erase d) s.approvedPeers (· = d)
  | revoke {raw d p} (hd : validateDashboardId raw = some d)
      (hn : s.pendingPeers.get? d = none) (hp : s.approvedPeers.get? d = some p) :
      RowMove cfg s (.removePeer raw) s.pendingPeers (s.approvedPeers.erase d) (· = d)
  | refresh {d : DashboardId} {identity : SessionIdentity} :
      RowMove cfg s (.refreshIdentity d identity) s.pendingPeers
        (s.approvedPeers.adjust d (·.refreshDisplayIdentity identity)) fun _ => False
  | close {a} : RowMove cfg s a ∅ s.approvedPeers (· ∈ s.pendingPeers.keys)
  /-- The auto-approve's flush is done and `approved` fires. -/
  | flushed {i : ℕ} {d : DashboardId} {pin : Pin} (h : s.tasks[i]? = some (.autoApprove d pin)) :
      RowMove cfg s (.resume i) s.pendingPeers s.approvedPeers (· = d)

/-- A step from `s` to `s'` by action `a` moves the rows. -/
def Moved (cfg : PairingSettings) (s : PairingState) (a : PairAction) (s' : PairingState) : Prop :=
  ∃ W, RowMove cfg s a s'.pendingPeers s'.approvedPeers W ∧ Wakes s s' W

variable {a : PairAction} {s' : PairingState} {q : PairRequest}

theorem Moved.keep (hp : s'.pendingPeers = s.pendingPeers) (ha : s'.approvedPeers = s.approvedPeers)
    (hw : Wakes s s' fun _ => False) : Moved cfg s a s' :=
  ⟨_, by rw [hp, ha]; exact .keep, hw⟩

theorem WindowFrame.moved {g : Prop} (h : WindowFrame s s' g) : Moved cfg s a s' := by
  rcases h.pending with ⟨hp, hw⟩ | ⟨_, hp, hw⟩
  · exact .keep hp h.approved hw
  · exact ⟨_, by rw [hp, h.approved]; exact .close, hw⟩

theorem fire_wakes_none {r : PairingState} (hs : r.tasks = s.tasks)
    (he : ∀ d st, e ≠ .pairStatusChanged d st) : Wakes s (r.fire e) W := by
  intro d pin h
  rcases h.of_fire with h | ⟨st, rfl⟩
  · exact Wakes.none hs d pin h
  · exact absurd rfl (he d st)

theorem fire_wakes {st : PairStatusChange} : Wakes s (s.firePairStatusChanged d st) (· = d) := by
  intro d' pin h
  rcases h.of_fire with h | ⟨st, h⟩
  · exact .inl h
  · simp only [PairEvent.pairStatusChanged.injEq] at h
    exact .inr h.1.symm

theorem recordPending_moved (hq : s.RecordsPending (q.handshake cfg.lib) ∨
      ∃ p, s.pendingPeers.get? q.dashboardId = some p ∧ p.staticX25519Pub ≠ q.staticX25519Pub) :
    Moved cfg s (.dispatch (.pairRequest q)) (s.prune.recordPending (q.handshake cfg.lib)) := by
  have rec' : ∀ h : s.RecordsPending (q.handshake cfg.lib),
      Moved cfg s (.dispatch (.pairRequest q)) (({ s.prune with
        pendingPeers := s.pendingPeers.set q.dashboardId (q.handshake cfg.lib).storedPeer }.fire
          (.pairRequestReceived (q.handshake cfg.lib).storedPeer)).answer .pairRequest q.dashboardId
            (q.handshake cfg.lib).pinSha256 { response := .pending }) := by
    intro h
    exact ⟨_, .record h, fire_wakes_none (r := { s.prune with
      pendingPeers := s.pendingPeers.set q.dashboardId (q.handshake cfg.lib).storedPeer })
      (e := .pairRequestReceived _) rfl (by simp)⟩
  unfold recordPending
  simp only [prune_pending]
  rw [show (q.handshake cfg.lib).dashboardId = q.dashboardId from rfl]
  cases hp : s.pendingPeers.get? q.dashboardId with
  | none =>
    refine rec' (hq.resolve_right ?_)
    rintro ⟨p, h, -⟩
    rw [hp] at h
    cases h
  | some p =>
    dsimp only
    split
    · exact .keep rfl rfl (.none rfl)
    · rename_i hk
      refine rec' (hq.resolve_right ?_)
      rintro ⟨p', h, hne⟩
      refine hk ?_
      rw [hp, Option.some.injEq] at h
      subst h
      exact hne

theorem rePair_moved {peer : StoredPeer} (hp : s.approvedPeers.get? q.dashboardId = some peer) :
    Moved cfg s (.dispatch (.pairRequest q)) (s.rePair (q.handshake cfg.lib) peer) := by
  unfold rePair
  dsimp only
  split
  · exact .keep rfl rfl (.none rfl)
  · rename_i hpin
    have hm := RowMove.rePair hp (not_not.1 hpin)
    split
    · exact ⟨_, hm, fire_wakes_none (r := { s with approvedPeers := _ }) (e := .peerRefreshed _)
        rfl nofun⟩
    · exact ⟨_, hm, .none rfl⟩

theorem autoApproveOrRefuse_moved (hid : isDashboardId q.dashboardId = true)
    (hopen : s.isPairingWindowOpen = true)
    (harm : s.autoApproveFirstPair = true ∧ s.approvedPeers.isEmpty = true) :
    Moved cfg s (.dispatch (.pairRequest q))
      (s.prune.autoApproveOrRefuse cfg (q.handshake cfg.lib)) := by
  unfold autoApproveOrRefuse
  split
  · rename_i hal
    refine ⟨_, .autoApprove ⟨hid, hopen, harm.1, harm.2, hal⟩, fun d pin hw => .inl ?_⟩
    exact hw.of_spawn (by simp)
  · exact .keep rfl rfl (.none rfl)

theorem pairRequest_moved : Moved cfg s (.dispatch (.pairRequest q))
    (s.dispatchIntent cfg (.pairRequest q)) := by
  unfold dispatchIntent
  dsimp only
  split
  on_goal 2 => exact .keep rfl rfl (.none rfl)
  rename_i hid
  unfold recordPairRequest
  rw [show (q.handshake cfg.lib).dashboardId = q.dashboardId from rfl]
  cases hap : s.approvedPeers.get? q.dashboardId with
  | some peer => exact rePair_moved hap
  | none =>
    dsimp only
    by_cases hopen : s.isPairingWindowOpen = true
    · rw [if_pos hopen]
      split
      · rename_i harm
        exact autoApproveOrRefuse_moved hid hopen harm
      · rename_i harm
        apply recordPending_moved
        by_cases hk : ∃ p, s.pendingPeers.get? q.dashboardId = some p ∧
            p.staticX25519Pub ≠ q.staticX25519Pub
        · exact .inr hk
        · push Not at hk
          exact .inl ⟨hid, hap, hopen, harm, hk⟩
    · rw [if_neg hopen]
      exact .keep rfl rfl (.none rfl)

theorem approvePeer_moved {raw : String} {s' : PairingState} (h : s.approvePeer raw = .ok s') :
    Moved cfg s (.approvePeer raw) s' := by
  unfold approvePeer at h
  split at h
  · cases h
  rename_i d hd
  split at h
  · split at h <;> cases h
  · rename_i p hp
    cases h
    exact ⟨_, .approve hd hp, fire_wakes⟩

theorem removePeer_moved {raw : String} {s' : PairingState} (h : s.removePeer raw = .ok s') :
    Moved cfg s (.removePeer raw) s' := by
  unfold removePeer at h
  split at h
  · cases h
  rename_i d hd
  split at h
  · rename_i hp
    obtain ⟨p, hp⟩ := Option.isSome_iff_exists.1 hp
    cases h
    exact ⟨_, .reject hd hp, fire_wakes⟩
  · rename_i hn
    split at h
    · rename_i hp
      obtain ⟨p, hp⟩ := Option.isSome_iff_exists.1 hp
      cases h
      exact ⟨_, .revoke hd (by simpa using hn) hp, fire_wakes⟩
    · cases h

theorem serve_frame {key : String} :
    (s.serve cfg key).approvedPeers = s.approvedPeers ∧ Moved cfg s (.serve key) (s.serve cfg key) := by
  unfold serve
  split
  · unfold bootstrapFirstPair
    set s₁ := { s with autoApproveFirstPair := true
                       bootstrapPairingKey := some key }.spawn (.bootstrapLoad false false) with hs₁
    have h₁ : WindowFrame s s₁ False := {
      approved := rfl
      pending := .inl ⟨rfl, fun d pin hw => .inl (hw.of_spawn (by simp))⟩
      answers := fun d pin o h => .inl h }
    have h := h₁.trans (@setPairingWindow_frame cfg s₁ true .bootstrap
      bootstrapPairingWindowDurationSeconds)
    exact ⟨h.approved, h.moved⟩
  · exact ⟨rfl, .keep rfl rfl (.none rfl)⟩

theorem resumeTask_moved (ht : s.tasks[i]? = some t) :
    Moved cfg s (.resume i) (s.resumeTask cfg i t) := by
  have hend : Wakes s (s.setTask i .ended) fun _ => False := fun _ _ h => .inl h.of_setTask
  unfold resumeTask
  split
  · refine ⟨_, .flushed ht, fun d pin h => ?_⟩
    rcases h.of_fire with h | ⟨st, h⟩
    · exact .inl h.of_setTask
    · cases h
      exact .inr rfl
  · exact .keep rfl rfl hend
  · exact .keep rfl rfl (.none rfl)
  · refine .keep rfl rfl fun d pin h => .inl ?_
    rcases List.mem_or_eq_of_mem_set h with h | h
    · exact h
    · cases h
  · have h₁ : WindowFrame s (s.setTask i .ended).disarm False := {
      approved := rfl
      pending := .inl ⟨rfl, hend⟩
      answers := fun d pin o h => .inl h }
    exact (h₁.trans setPairingWindow_frame).moved
  · exact .keep rfl rfl hend
  · exact .keep rfl rfl (.none rfl)
  · exact .keep rfl rfl (.none rfl)

theorem raiseTask_moved : Moved cfg s a (s.raiseTask i t) := by
  have hend : Wakes s (s.setTask i .ended) fun _ => False := fun _ _ h => .inl h.of_setTask
  unfold raiseTask
  split <;> first | exact .keep rfl rfl hend | exact .keep rfl rfl (.none rfl)

/-- **Every step moves the rows in one of the ten ways.** -/
theorem step_moves (cfg : PairingSettings) (s : PairingState) (a : PairAction) :
    Moved cfg s a (s.step cfg a) := by
  cases a with
  | dispatch inp =>
    cases inp with
    | pairRequest q => exact pairRequest_moved
    | peerLink d pub => exact .keep rfl rfl (.none rfl)
    | pairStatus d pub =>
      simp only [step, dispatchIntent]
      split
      · unfold lookupPeerForStatus
        dsimp only
        split
        · exact .keep rfl rfl (.none rfl)
        · exact .keep rfl rfl fun d pin h => .inl (h.of_spawn (by simp))
      · exact .keep rfl rfl (.none rfl)
  | approvePeer raw =>
    simp only [step]
    split
    · exact approvePeer_moved ‹_›
    · exact .keep rfl rfl (.none rfl)
  | removePeer raw =>
    simp only [step]
    split
    · exact removePeer_moved ‹_›
    · exact .keep rfl rfl (.none rfl)
  | setPairingWindow b c => exact setPairingWindow_frame.moved
  | serve key => exact serve_frame.2
  | deadline =>
    simp only [step]
    split
    · split
      · exact onPairingWindowDeadline_frame.moved
      · exact .keep rfl rfl (.none rfl)
    · exact .keep rfl rfl (.none rfl)
  | refreshIdentity d i => exact ⟨_, .refresh, .none rfl⟩
  | resume i =>
    simp only [step]
    split
    · exact resumeTask_moved ‹_›
    · exact .keep rfl rfl (.none rfl)
  | raise i =>
    simp only [step]
    split
    · exact raiseTask_moved
    · exact .keep rfl rfl (.none rfl)
  | tick dt => exact .keep rfl rfl (.none rfl)

/-! ### Answers to `pair_status` -/

theorem Answers.none {A : DashboardId → Pin → IntentOutcome → Prop} {r : PairingState}
    (h : ∀ d pin o, .answered .pairStatus d pin o ∈ r.log → .answered .pairStatus d pin o ∈ s.log) :
    Answers s r A := fun d pin o ho => .inl (h d pin o ho)

end PairingState

end DeviceBuilder
