import DeviceBuilder.Properties.Uploads

/-!
# What a removed peer can still do

Authorisation is checked when a session opens, and `remove_peer` does not close
the sessions of the peer it removes: a live one is served as before. Where no
session of the id is live and no handshake of it has been accepted, the removal
holds until the id is approved again.

* `severed_step`: a step that does not approve the id keeps it severed.
* `revocation_effective`: no work for a removed peer.
* `revoked_submits`: a header of a removed peer is recorded.
-/

namespace DeviceBuilder

open Runs

namespace ReceiverWorld

variable {cfg : PairingSettings} {v w w' : ReceiverWorld} {a : ReceiverAction} {i : ℕ}
  {n m : SessionId} {d d' : DashboardId} {o : Prop} {raw : String} {await : SessionAwait}

/-- The dashboard id a client speaks for. -/
def clientId (w : ReceiverWorld) : Client → Option DashboardId
  | .dialler d => some d
  | .session n => w.dashboardId n

/-- No session of `d` is live, and no handshake of `d` has been accepted. -/
def Absent (w : ReceiverWorld) (d : DashboardId) : Prop :=
  ∀ t ∈ w.tasks, ∀ c, t.client = some c → w.clientId c ≠ some d

/-- The step approves `d`, by the admin or for the first pair. -/
def Approves (cfg : PairingSettings) (d : DashboardId) (w : ReceiverWorld) : ReceiverAction → Prop
  | .pairing (.approvePeer raw) => validateDashboardId raw = some d
  | .pairing (.dispatch (.pairRequest q)) =>
    q.dashboardId = d ∧ w.pairing.AutoApproves cfg (q.handshake cfg.lib)
  | _ => False

/-- **The removal of `d` from `v` takes effect**: until `d` is approved again, no step starts or
continues work for a session of `d`. -/
def Revoked (cfg : PairingSettings) (v : ReceiverWorld) (raw : String) (d : DashboardId) : Prop :=
  ∀ w a es n, Reaches (step cfg) (fun w a => ¬w.Approves cfg d a) (v.step cfg (.pairing (.removePeer raw))) w →
    ¬w.Approves cfg d a → (w.step cfg a).log = w.log ++ es → .work n ∈ es → w.dashboardId n ≠ some d

/-! ### The rows -/

/-- A row that is not approved stays so. -/
theorem unapproved_step (hd : w.pairing.approvedPeers.get? d = none) {a' : PairAction}
    (ha : ¬w.Approves cfg d (.pairing a')) : (w.pairing.step cfg a').approvedPeers.get? d = none := by
  obtain ⟨W, hm, -⟩ := PairingState.step_moves cfg w.pairing a'
  generalize (w.pairing.step cfg a').approvedPeers = ap at hm ⊢
  generalize (w.pairing.step cfg a').pendingPeers = pn at hm
  cases hm with
  | @rePair q peer hp _ =>
    have hne : d ≠ q.dashboardId := by
      rintro rfl
      exact absurd (hd.symm.trans hp) nofun
    rw [Dict.get?_set, if_neg hne]
    exact hd
  | @autoApprove q h =>
    have hne : d ≠ q.dashboardId := by
      rintro rfl
      exact ha ⟨rfl, h⟩
    rw [Dict.get?_set, if_neg hne]
    exact hd
  | @approve raw d' p hv _ =>
    have hne : d ≠ d' := by
      rintro rfl
      exact ha hv
    rw [Dict.get?_set, if_neg hne]
    exact hd
  | revoke _ _ _ =>
    rw [Dict.get?_erase]
    split
    · rfl
    · exact hd
  | refresh =>
    rw [Dict.get?_adjust]
    split
    · rw [hd]
      rfl
    · exact hd
  | _ => exact hd

theorem removePeer_unapproved {s : PairingState} (hv : validateDashboardId raw = some d)
    (hp : s.pendingPeers.get? d = none) : (s.step cfg (.removePeer raw)).approvedPeers.get? d = none := by
  simp only [PairingState.step, PairingState.removePeer, hv, hp, Option.isSome_none, Bool.false_eq_true,
    if_false]
  cases ha : s.approvedPeers.get? d with
  | none => exact ha
  | some p => exact Dict.get?_erase_self ..

/-! ### One step -/

/-- Removed and not approved again, and nobody is connected. -/
structure Severed (w : ReceiverWorld) (d : DashboardId) : Prop where
  unapproved : w.pairing.approvedPeers.get? d = none
  absent : w.Absent d

theorem clientId_congr (h : ∀ m, w'.dashboardId m = w.dashboardId m) (c : Client) :
    w'.clientId c = w.clientId c := by
  cases c with
  | dialler d => rfl
  | session n => exact h n

theorem Absent.handled (hw : Absent w d) (h : Handled o n d' w w')
    (hn : w.dashboardId n ≠ some d) : Absent w' d := by
  intro t' ht' c hc
  rw [clientId_congr h.ids]
  rcases h.clients t' ht' c hc with rfl | ⟨t, ht, htc⟩
  · exact hn
  · exact hw t ht c htc

/-- The client of a coroutine that is not ending. -/
theorem Absent.session (hw : Absent w d) (ht : w.tasks[i]? = some (.session n await)) (hf : await ≠ .finish) :
    w.dashboardId n ≠ some d := by
  refine hw _ (List.mem_of_getElem? ht) (.session n) ?_
  cases await with
  | finish => exact absurd rfl hf
  | _ => rfl

theorem Absent.install (hw : Absent w d) (hd : d' ≠ d) (identity : SessionIdentity) :
    Absent (w.install d' identity) d := by
  intro t ht c hc
  have hold := hw t ht c hc
  cases c with
  | dialler => exact hold
  | session m =>
    show (w.install d' identity).dashboardId m ≠ some d
    rw [install_dashboardId]
    split
    · exact fun h => hd (Option.some.inj h)
    · exact hold

/-- A coroutine at `i` runs as session `n`. -/
theorem Absent.setTask (hw : Absent w d) (hn : w.dashboardId n ≠ some d)
    (htasks : w'.tasks = w.tasks.set i (.session n .receive)) (hs : w'.sessions = w.sessions) : Absent w' d := by
  have hid : ∀ m, w'.dashboardId m = w.dashboardId m := fun m => by unfold dashboardId; rw [hs]
  intro t ht c hc
  rw [clientId_congr hid]
  rw [htasks] at ht
  rcases List.mem_or_eq_of_mem_set ht with ht | rfl
  · exact hw t ht c hc
  · obtain rfl : Client.session n = c := Option.some.inj hc
    exact hn

theorem refresh_unapproved {s : PairingState} (hd : s.approvedPeers.get? d = none) (d' : DashboardId)
    (identity : SessionIdentity) : (s.refreshPeerDisplayIdentity d' identity).approvedPeers.get? d = none := by
  unfold PairingState.refreshPeerDisplayIdentity
  rw [Dict.get?_adjust]
  split
  · rw [hd]
    rfl
  · exact hd

/-- Only a peer with an APPROVED row has its handshake accepted. -/
theorem lookup_approved {s : PairingState} {pin : Pin} (h : (s.lookupPeerForSession d pin).response = .ok) :
    s.approvedPeers.get? d ≠ none := by
  intro hn
  unfold PairingState.lookupPeerForSession PairingState.lookupPeerResponse at h
  rw [hn] at h
  split at h
  · split at h <;> cases h
  · cases h

theorem severed_step (ha : ¬w.Approves cfg d a) (hw : Severed w d) : Severed (w.step cfg a) d := by
  cases step_cases cfg w a with
  | idle h =>
    refine ⟨by rw [(h 0 "").pairing]; exact hw.unapproved, ?_⟩
    -- a session that does not exist
    refine hw.absent.handled (h w.sessions.length "") ?_
    unfold dashboardId
    rw [List.getElem?_eq_none (Nat.le_refl _)]
    exact nofun
  | serve i n d' await ht hf hd h =>
    refine ⟨by rw [h.pairing]; exact hw.unapproved, hw.absent.handled h ?_⟩
    exact hw.absent.session ht hf
  | register i r d' identity _ _ ht h =>
    have hne : d' ≠ d := by
      rintro rfl
      exact hw.absent _ (List.mem_of_getElem? ht) _ rfl rfl
    have hi := hw.absent.install hne identity
    have hn : (w.install d' identity).dashboardId w.sessions.length ≠ some d := by
      rw [install_dashboardId, if_pos rfl]
      exact fun he => hne (Option.some.inj he)
    rw [h]
    rcases register_cases w i d' identity with ha | ⟨-, -, hh⟩
    · obtain ⟨identity', hp⟩ := ha.pairing
      exact ⟨by rw [hp]; exact refresh_unapproved hw.unapproved .., hi.setTask hn ha.tasks ha.sessions⟩
    · exact ⟨by rw [(hh False).pairing]; exact hw.unapproved, hi.handled (hh False) hn⟩
  | announce i r n d' _ _ ht hd h =>
    have hann : Announced i n d' w _ := announced hd
    rw [h]
    obtain ⟨identity', hp⟩ := hann.pairing
    exact ⟨by rw [hp]; exact refresh_unapproved hw.unapproved ..,
      hw.absent.setTask (hw.absent.session ht nofun) hann.tasks hann.sessions⟩
  | unregister i n d' _ hd h =>
    have hun := unregistered hd
    rw [h]
    refine ⟨?_, fun t ht c hc => ?_⟩
    · exact (congrArg (·.approvedPeers.get? d) hun.pairing).trans hw.unapproved
    · obtain ⟨t, ht, hc⟩ := ended_clients ht hc
      obtain ⟨t, ht, hc⟩ := hun.clients t ht c hc
      exact (clientId_congr hun.ids c).trans_ne (hw.absent t ht c hc)
  | pairing a' ha' h =>
    subst ha'
    rw [h]
    exact ⟨unapproved_step hw.unapproved ha, hw.absent⟩
  | handshake d' pub identity ha' _ =>
    subst ha'
    have hp : (w.pairing.step cfg (.dispatch (.peerLink d' pub))).approvedPeers.get? d = none :=
      unapproved_step hw.unapproved id
    simp only [step]
    split
    next hok =>
      have hne : d' ≠ d := by
        rintro rfl
        exact lookup_approved hok.2 hw.unapproved
      refine ⟨hp, fun t ht c hc => ?_⟩
      rcases List.mem_append.1 ht with ht | ht
      · exact hw.absent t ht c hc
      · rw [List.mem_singleton.1 ht] at hc
        obtain rfl : Client.dialler d' = c := Option.some.inj hc
        exact fun he => hne (Option.some.inj he)
    next => exact ⟨hp, hw.absent⟩

/-! ### The law -/

/-- Work is for a session that is being served. -/
theorem work_served {es : List ReceiverEvent} (hlog : (w.step cfg a).log = w.log ++ es) (hn : .work n ∈ es) :
    ∃ (i : ℕ) (await : SessionAwait), w.tasks[i]? = some (.session n await) ∧ await ≠ .finish := by
  -- of the new events of a step that does something else, none is work
  have other {es' : List ReceiverEvent} (h : (w.step cfg a).log = w.log ++ es') (hq : .work n ∉ es') : False := by
    rw [h] at hlog
    rw [List.append_cancel_left hlog] at hq
    exact hq hn
  cases step_cases cfg w a with
  | idle h =>
    obtain ⟨es', hes, hq⟩ := (h (n + 1) "").log
    exact (other hes fun hm => absurd (hq _ hm) (Nat.ne_of_lt (Nat.lt_succ_self n))).elim
  | serve i m d await ht hf _ h =>
    obtain ⟨es', hes, hq⟩ := h.log
    by_cases hmn : n = m
    · subst hmn
      exact ⟨i, await, ht, hf⟩
    · exact (other hes fun hm => hmn (hq _ hm)).elim
  | register i r d identity _ _ _ h =>
    rw [h] at other
    rcases register_cases w i d identity with ha | ⟨-, hl, -⟩
    · obtain ⟨name, addon, hl⟩ := ha.log
      exact (other hl (by simp)).elim
    · exact (other (hl.trans (List.append_nil _).symm) (by simp)).elim
  | announce i r m d _ _ _ hd h =>
    have hann : Announced i m d w _ := announced hd
    obtain ⟨name, addon, hl⟩ := hann.log
    rw [h] at other
    exact (other hl (by simp)).elim
  | unregister i m d _ hd h =>
    rw [h] at other
    rcases (unregistered hd).effect with ⟨-, -, -, hl⟩ | ⟨-, -, -, hl⟩
    · exact (other hl (by simp)).elim
    · exact (other (hl.trans (List.append_nil _).symm) (by simp)).elim
  | pairing a' _ h =>
    rw [h] at other
    exact (other (List.append_nil _).symm (by simp)).elim
  | handshake d pub identity ha _ =>
    subst ha
    obtain ⟨-, -, hl, -⟩ := step_handshake_fields cfg w d pub identity
    exact (other (hl.trans (List.append_nil _).symm) (by simp)).elim

theorem revocation_effective (hv : validateDashboardId raw = some d)
    (hp : v.pairing.pendingPeers.get? d = none) (ha : v.Absent d) : Revoked cfg v raw d := by
  intro w a es n hrun _ hlog hn
  have hgone : (v.pairing.step cfg (.removePeer raw)).approvedPeers.get? d = none :=
    removePeer_unapproved hv hp
  have hsev : Severed w d :=
    hrun.invariant (I := fun w => Severed w d) ⟨hgone, ha⟩ fun _ _ => severed_step
  obtain ⟨i, await, ht, hf⟩ := work_served hlog hn
  exact hsev.absent.session ht hf

/-! ### Runs of one peer -/

/-- A run of a receiver that has approved `kitchen`. -/
def run (as : List ReceiverAction) : ReceiverWorld :=
  as.foldl (step PairingState.someSettings) (start PairingState.someSettings someFile)

/-- A session that was open at the removal submits a job. -/
theorem revoked_submits : ¬∀ (cfg : PairingSettings) (v : ReceiverWorld) (raw : String) (d : DashboardId),
    Reachable cfg any v → validateDashboardId raw = some d → (v.pairing.approvedPeers.get? d).isSome = true →
      Revoked cfg v raw d := by
  intro h
  have hr : Reachable PairingState.someSettings any (run (dial 0)) := ⟨someFile, Reaches.foldl (dial 0) _⟩
  have hv := h PairingState.someSettings _ "kitchen" "kitchen" hr (by decide +kernel)
    (by decide +kernel)
  refine hv _ (.resume 0 .ok) [.work 0] 0 (.next (a := .frame 0 (.submitJob "job" (some (someHeader "job"))) {})
    (.refl _) id) id ?_ (List.mem_singleton.2 rfl) ?_ <;> decide

/-- A session that has closed before its peer is removed. -/
theorem revocation_effective_closed : Revoked PairingState.someSettings
    (run (dial 0 ++ [.wsClosed 0, .resume 0 .ok])) "kitchen" "kitchen" := by
  refine revocation_effective (by decide +kernel) (by decide +kernel) ?_
  intro t ht c hc
  have htasks : (run (dial 0 ++ [.wsClosed 0, .resume 0 .ok])).tasks = [.ended] := by decide
  rw [htasks, List.mem_singleton] at ht
  rw [ht] at hc
  cases hc

end ReceiverWorld

end DeviceBuilder
