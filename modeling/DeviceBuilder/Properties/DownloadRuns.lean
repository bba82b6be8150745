import DeviceBuilder.Properties.ArtifactsDownload

/-!
# Runs of a download

* `Inv`: the slots, the wires and the calls, kept by every step of either party.
* `download_returns_packed`: what a call returns was packed for its job, on the
  session that the call was made on.
* `download_slots`: a dashboard's slot is held by its one live download, and no
  two downloads stream on one session.
-/

namespace DeviceBuilder

variable {τ : Type*} {digest : Digest} {codec : ChunkCodec τ}

namespace DownloadCallPoint

/-- The call has returned these artifacts. -/
def gave (r : DownloadArtifactsResult) : DownloadCallPoint → Bool
  | returned (.ok r') => decide (r' = r)
  | _ => false

theorem gave_eq {r : DownloadArtifactsResult} {point : DownloadCallPoint} (h : point.gave r = true) :
    point = .returned (.ok r) := by
  unfold gave at h
  split at h
  · rw [of_decide_eq_true h]
  · cases h

end DownloadCallPoint

namespace Transfer

variable {w w' : Transfer τ} {i : ℕ} {n : SessionId} {t : DownloadTask τ} {point : DownloadPoint τ}

/-- **The invariant.** -/
structure Inv (digest : Digest) (codec : ChunkCodec τ) (w : Transfer τ) : Prop where
  slots : Slots w
  streams : Streams digest codec w
  awaits : Awaits digest codec w

/-- Nothing changes that the invariant speaks of. -/
structure Quiet (w w' : Transfer τ) : Prop where
  slots : SameSlots w w'
  wires : SameWires w w'
  calls : SameCalls w w'

theorem Inv.quiet (h : Inv digest codec w) (hq : Quiet w w') : Inv digest codec w' :=
  ⟨h.slots.same hq.slots, h.streams.same hq.wires, h.awaits.same hq.calls⟩

theorem modifySession_get (w : Transfer τ) (n : SessionId) (f : DownloadSession τ → DownloadSession τ) (m : SessionId) :
    (w.modifySession n f).session m = if m = n then f (w.session n) else w.session m := by
  unfold modifySession
  exact Function.update_apply ..

/-- One session changes, in what does not count. -/
theorem modifySession_quiet (w : Transfer τ) (n : SessionId) {f : DownloadSession τ → DownloadSession τ}
    (ho : ∀ s, (f s).opened = s.opened ∧ (f s).dashboardId = s.dashboardId ∧ (f s).sent = s.sent ∧ (f s).seen = s.seen)
    (hc : ∀ s, s.closing = true → (f s).closing = true)
    (he : (f (w.session n)).loop = .ended ↔ (w.session n).loop = .ended) : Quiet w (w.modifySession n f) := by
  refine ⟨modifySession_same w n (fun s => (ho s).1) (fun s => (ho s).2.1) hc he, ⟨fun m => ?_, rfl, ?_⟩,
    ⟨rfl, rfl, rfl, fun m => ?_, fun m => ?_, fun x => id⟩⟩
  · rw [modifySession_get]
    split
    · next h => rw [(ho _).2.2.1, h]
    · rfl
  · exact fun i u frames out hu hp => ⟨u, hu, hp, rfl, rfl⟩
  · rw [modifySession_get]
    split
    · next h => rw [(ho _).2.2.2, h]
    · rfl
  · rw [modifySession_get]
    split
    · next h => subst h; exact (ho _).2.2.1.symm ▸ List.prefix_refl _
    · exact List.prefix_refl _

theorem setBroken_quiet (w : Transfer τ) (n : SessionId) : Quiet w (w.setBroken n) :=
  modifySession_quiet w n (fun _ => ⟨rfl, rfl, rfl, rfl⟩) (fun _ => id) Iff.rfl

theorem setLoop_quiet (w : Transfer τ) {n : SessionId} {loop : SessionLoop} (h : (w.session n).loop ≠ .ended)
    (hl : loop ≠ .ended) : Quiet w (w.setLoop n loop) :=
  modifySession_quiet w n (fun _ => ⟨rfl, rfl, rfl, rfl⟩) (fun _ => id) (iff_of_false hl h)

theorem closing_quiet (w : Transfer τ) (n : SessionId) :
    Quiet w (w.modifySession n fun s => { s with closing := true }) :=
  modifySession_quiet w n (fun _ => ⟨rfl, rfl, rfl, rfl⟩) (fun _ _ => rfl) Iff.rfl

theorem requests_quiet (w : Transfer τ) (n : SessionId) (g : List (Option String) → List (Option String)) :
    Quiet w (w.modifySession n fun s => { s with requests := g s.requests }) :=
  modifySession_quiet w n (fun _ => ⟨rfl, rfl, rfl, rfl⟩) (fun _ => id) Iff.rfl

/-- A task leaves `_send_stream`, or stays out of it. -/
theorem setPoint_wires (w : Transfer τ) (i : ℕ) (hp : point.sending = false) : SameWires w (w.setPoint i point) := by
  refine ⟨fun _ => rfl, rfl, fun j u frames out hu hpt => ?_⟩
  obtain ⟨u₀, hu₀, hsess, hjob, -, hpt'⟩ := setPoint_get hu
  rw [hpt] at hpt'
  split at hpt'
  · rw [← hpt'] at hp
    cases hp
  · exact ⟨u₀, hu₀, hpt'.symm, hsess.symm, hjob.symm⟩

theorem setPoint_calls (w : Transfer τ) (i : ℕ) (point : DownloadPoint τ) : SameCalls w (w.setPoint i point) :=
  ⟨rfl, rfl, rfl, fun _ => rfl, fun _ => List.prefix_refl _, fun _ => id⟩

theorem emit_calls (w : Transfer τ) (n : SessionId) (f : ArtifactsFrame τ) : SameCalls w (w.emit n f) := by
  refine ⟨rfl, rfl, rfl, fun m => ?_, fun m => ?_, fun _ => id⟩
  · unfold emit
    rw [modifySession_get]
    split
    · next h => rw [h]
    · rfl
  · rw [emit_sent]
    split
    · exact List.prefix_append _ _
    · exact List.prefix_refl _

theorem emit_slots (w : Transfer τ) (n : SessionId) (f : ArtifactsFrame τ) : SameSlots w (w.emit n f) :=
  modifySession_same w n (fun _ => rfl) (fun _ => rfl) (fun _ => id) Iff.rfl

/-! #### The sender -/

theorem Inv.finishDownload (h : Inv digest codec w) (hi : w.tasks[i]? = some t) :
    Inv digest codec (w.finishDownload i t.session) := by
  have hends : SameWires w (w.setPoint i .ended) ∧ SameCalls w (w.setPoint i .ended) :=
    ⟨setPoint_wires w i rfl, setPoint_calls w i _⟩
  refine ⟨h.slots.finishDownload hi, h.streams.same ?_, h.awaits.same ?_⟩
  · unfold Transfer.finishDownload
    simp only
    split
    · exact ⟨hends.1.sent, hends.1.packs, hends.1.sending⟩
    · exact hends.1
  · unfold Transfer.finishDownload
    simp only
    split
    · exact ⟨rfl, rfl, rfl, hends.2.seen, hends.2.sent, hends.2.packs⟩
    · exact hends.2

/-- A task goes on outside `_send_stream`. -/
theorem Inv.setPoint (h : Inv digest codec w) (hi : w.tasks[i]? = some t) (he : t.point.isEnded = false)
    (hp : point.isEnded = false) (hs : point.sending = false) : Inv digest codec (w.setPoint i point) := by
  refine ⟨h.slots.setPoint hi he hp fun hx => ?_, h.streams.same (setPoint_wires w i hs),
    h.awaits.same (setPoint_calls w i _)⟩
  rw [hs] at hx
  cases hx

theorem Inv.rejectDownload (h : Inv digest codec w) (hi : w.tasks[i]? = some t) (he : t.point.isEnded = false)
    (reason detail : String) : Inv digest codec (w.rejectDownload i t.session reason detail) := by
  unfold Transfer.rejectDownload
  split
  · exact h.finishDownload hi
  · exact h.setPoint hi he rfl rfl

/-- `_send_stream` on a session that may be closing. -/
theorem Inv.sendStream (h : Inv digest codec w) (hi : w.tasks[i]? = some t) (he : t.point.isEnded = false)
    (hc : t.point.sending = true ∨ t.cancelled = false) (frames : List (ArtifactsFrame τ × String))
    (hs : Streams digest codec (w.setPoint i (.send frames false))) : Inv digest codec (w.sendStream i t.session frames) := by
  cases frames with
  | nil => exact h.finishDownload hi
  | cons x frames =>
    obtain ⟨f, label⟩ := x
    simp only [Transfer.sendStream]
    split
    · exact h.rejectDownload hi he _ _
    · next hcl =>
      refine ⟨h.slots.setPoint hi he rfl fun _ => hc.imp id fun hcan => ⟨hcan, Bool.eq_false_iff.2 hcl⟩, hs,
        h.awaits.same (setPoint_calls w i _)⟩

/-- **A step of a download** is one of the sender's. -/
theorem Inv.resumeDownload (h : Inv digest codec w) (hi : w.tasks[i]? = some t) (a : TransferAction)
    (hc : t.cancelled = false ∨ a = .out i) : Inv digest codec (w.resumeDownload digest codec i t a) := by
  unfold Transfer.resumeDownload
  split
  · next hp => exact h.setPoint hi (by rw [hp]; rfl) rfl rfl
  · next result hp =>
    have he : t.point.isEnded = false := by rw [hp]; rfl
    have hcan : t.cancelled = false := hc.resolve_right (by simp)
    cases result with
    | packed p =>
      have hpack : Inv digest codec { w with packs := w.packs ++ [(t.session, t.jobId, p)] } := by
        refine ⟨h.slots.same ⟨rfl, rfl, rfl, rfl, fun _ => rfl, fun _ => rfl, fun _ => id, fun _ => Iff.rfl⟩, ?_,
          h.awaits.same ⟨rfl, rfl, rfl, fun _ => rfl, fun _ => List.prefix_refl _,
            fun _ hx => List.mem_append_left _ hx⟩⟩
        refine ⟨fun j u frames out hu hpt => ?_, fun m pre j hd cs hpre hst => ?_⟩
        · obtain ⟨q, k, hmem, hrest⟩ := h.streams.stream j u frames out hu hpt
          exact ⟨q, k, List.mem_append_left _ hmem, hrest⟩
        · obtain ⟨q, k, hmem, hrest⟩ := h.streams.good m pre j hd cs hpre hst
          exact ⟨q, k, List.mem_append_left _ hmem, hrest⟩
      exact hpack.sendStream hi he (.inr hcan) _ (h.streams.start hi p)
    | missing detail => exact h.rejectDownload hi he _ _
    | failed detail => exact h.rejectDownload hi he _ _
  · next f label frames hp =>
    -- the next frame of a stream
    have he : t.point.isEnded = false := by rw [hp]; rfl
    refine ⟨?_, h.streams.emit h.slots hi hp, h.awaits.same ((emit_calls w _ f).trans (setPoint_calls _ i _))⟩
    exact (h.slots.same (emit_slots w t.session f)).setPoint hi he rfl fun _ => .inl (by rw [hp]; rfl)
  · next reason detail hp =>
    have he : t.point.isEnded = false := by rw [hp]; rfl
    have hend : Inv digest codec (w.emit t.session (.artifactsEnd t.jobId false reason detail)) :=
      ⟨h.slots.same (emit_slots w _ _), h.streams.emitEnd (fun _ _ => rfl) _, h.awaits.same (emit_calls w _ _)⟩
    exact hend.setPoint hi he rfl rfl
  · next ok frames out hp =>
    have he : t.point.isEnded = false := by rw [hp]; rfl
    split
    · exact h
    next hout =>
    unfold Transfer.resumeSend
    cases frames with
    | nil => exact h.finishDownload hi
    | cons x frames =>
      obtain ⟨f, label⟩ := x
      cases ok with
      | true =>
        have hout' : out = true := by
          cases out with
          | true => rfl
          | false => exact absurd rfl hout
        subst hout'
        exact h.sendStream hi he (.inl (by rw [hp]; rfl)) frames (h.streams.next hi hp)
      | false => exact (h.quiet (setBroken_quiet w t.session)).rejectDownload hi he _ _
  · next ok reason detail out hp =>
    split
    · exact h
    · split
      · exact h.finishDownload hi
      · exact (h.quiet (setBroken_quiet w t.session)).finishDownload hi
  · next detail frames out hp => exact h.rejectDownload hi (by rw [hp]; rfl) _ _
  · exact h

theorem Inv.cancelDownload (h : Inv digest codec w) (hi : w.tasks[i]? = some t) (hc : t.cancelled = true) :
    Inv digest codec (w.cancelDownload i t) := by
  unfold Transfer.cancelDownload
  split
  · exact ⟨h.slots.dropped hi hc, h.streams.same (setPoint_wires w i rfl), h.awaits.same (setPoint_calls w i _)⟩
  · exact h
  · exact h.finishDownload hi

theorem Inv.stepTask (h : Inv digest codec w) (i : ℕ) (a : TransferAction) (ha : ∀ k, a = .out k → k = i) :
    Inv digest codec (w.stepTask digest codec i a) := by
  unfold Transfer.stepTask
  split
  · exact h
  next t hi =>
  split
  · split
    · next hc => exact h.cancelDownload hi hc
    · exact h
  · next k _ =>
    obtain rfl := ha _ rfl
    exact h.resumeDownload hi _ (.inr rfl)
  · split
    · exact h
    · next hc => exact h.resumeDownload hi _ (.inl (Bool.eq_false_iff.2 hc))

/-! #### The offloader -/

theorem setCall_quiet (w : Transfer τ) (c : ℕ) (point : DownloadCallPoint) :
    SameSlots w (w.setCall c point) ∧ SameWires w (w.setCall c point) :=
  ⟨⟨rfl, rfl, rfl, rfl, fun _ => rfl, fun _ => rfl, fun _ => id, fun _ => Iff.rfl⟩,
    ⟨fun _ => rfl, rfl, fun _ u _ _ hu hp => ⟨u, hu, hp, rfl, rfl⟩⟩⟩

theorem endCall_quiet (w : Transfer τ) (c : ℕ) (j : String) (point : DownloadCallPoint) :
    SameSlots w (w.endCall c j point) ∧ SameWires w (w.endCall c j point) :=
  ⟨⟨rfl, rfl, rfl, rfl, fun _ => rfl, fun _ => rfl, fun _ => id, fun _ => Iff.rfl⟩,
    ⟨fun _ => rfl, rfl, fun _ u _ _ hu hp => ⟨u, hu, hp, rfl, rfl⟩⟩⟩

theorem Inv.goes {c : ℕ} {call : DownloadCall} {p : DownloadCallPoint} (h : Inv digest codec w)
    (hc : w.calls[c]? = some call) (ha : call.point.active = true) (hp : p.active = true) :
    Inv digest codec (w.setCall c p) :=
  ⟨h.slots.same (setCall_quiet w c p).1, h.streams.same (setCall_quiet w c p).2, h.awaits.goes hc ha hp⟩

theorem Inv.endCall {c : ℕ} {call : DownloadCall} {p : DownloadCallPoint} (h : Inv digest codec w)
    (hc : w.calls[c]? = some call) (ha : call.point.active = true) (hp : p.active = false)
    (hr : ∀ r, p = .returned (.ok r) → Packed w call.session call.jobId r) :
    Inv digest codec (w.endCall c call.jobId p) :=
  ⟨h.slots.same (endCall_quiet w c _ p).1, h.streams.same (endCall_quiet w c _ p).2, h.awaits.endCall hc ha hp hr⟩

theorem Inv.stepCall (h : Inv digest codec w) (c : ℕ) (a : TransferAction) : Inv digest codec (w.stepCall c a) := by
  unfold Transfer.stepCall
  split
  · exact h
  next call hc =>
  split
  · next hp =>
    have hq := h.quiet (requests_quiet w call.session fun r => r ++ [some call.jobId])
    exact hq.goes hc (by rw [hp]; rfl) rfl
  · next hp => exact h.goes hc (by rw [hp]; rfl) rfl
  · next hp =>
    have hq := h.quiet (setBroken_quiet w call.session)
    refine hq.endCall hc (by rw [hp]; rfl) rfl fun r hr => ?_
    cases hr
  · next hp =>
    split
    · exact h
    · next r hr =>
      refine h.endCall hc (by rw [hp]; rfl) rfl fun r' hr' => ?_
      -- the result is the one of the call's own entry
      obtain ⟨s, hs, hf⟩ := Option.bind_eq_some_iff.1 hr
      cases hr'
      exact h.awaits.done c call s r' hc (by rw [hp]; rfl) hs hf
  · next hp =>
    refine h.endCall hc (by rw [hp]; rfl) rfl fun r hr => ?_
    cases hr
  · next hp =>
    refine h.endCall hc (by rw [hp]; rfl) rfl fun r hr => ?_
    cases hr
  · exact h

theorem Inv.deliver (h : Inv digest codec w) : Inv digest codec (w.deliver digest codec) := by
  refine ⟨?_, ?_, h.awaits.deliver h.streams⟩
  all_goals unfold Transfer.deliver
  · split
    · exact h.slots
    next n _ =>
    split
    · exact h.slots
    · exact (h.slots.same (modifySession_same w n (f := fun s => { s with seen := s.seen + 1 })
        (fun _ => rfl) (fun _ => rfl) (fun _ => id) Iff.rfl)).same
        ⟨rfl, rfl, rfl, rfl, fun _ => rfl, fun _ => rfl, fun _ => id, fun _ => Iff.rfl⟩
  · split
    · exact h.streams
    next n _ =>
    split
    · exact h.streams
    · have hsent : ∀ m, ((w.modifySession n fun s => { s with seen := s.seen + 1 }).session m).sent =
          (w.session m).sent := by
        intro m
        rw [modifySession_get]
        split
        · next hm => rw [hm]
        · rfl
      exact h.streams.same ⟨hsent, rfl, fun _ u _ _ hu hp => ⟨u, hu, hp, rfl, rfl⟩⟩

theorem Inv.downloadArtifacts (h : Inv digest codec w) (j : String) : Inv digest codec (w.downloadArtifacts j) := by
  refine ⟨?_, ?_, h.awaits.downloadArtifacts j⟩
  all_goals unfold Transfer.downloadArtifacts
  · split
    · exact h.slots
    split
    · exact h.slots
    · exact h.slots.same ⟨rfl, rfl, rfl, rfl, fun _ => rfl, fun _ => rfl, fun _ => id, fun _ => Iff.rfl⟩
  · split
    · exact h.streams
    split
    · exact h.streams
    · exact h.streams.same ⟨fun _ => rfl, rfl, fun _ u _ _ hu hp => ⟨u, hu, hp, rfl, rfl⟩⟩

theorem Inv.disconnect (h : Inv digest codec w) : Inv digest codec w.disconnect :=
  ⟨h.slots.same ⟨rfl, rfl, rfl, rfl, fun _ => rfl, fun _ => rfl, fun _ => id, fun _ => Iff.rfl⟩,
    h.streams.same ⟨fun _ => rfl, rfl, fun _ u _ _ hu hp => ⟨u, hu, hp, rfl, rfl⟩⟩, h.awaits.disconnect⟩

/-! #### Sessions -/

/-- What an opening session changes besides the registry. -/
theorem register_spec (w : Transfer τ) (n : SessionId) (d : DashboardId) (mine : Bool) :
    (w.register n d mine).tasks = w.tasks ∧ (w.register n d mine).packs = w.packs ∧
      (w.register n d mine).channel = w.channel ∧ (w.register n d mine).downloads = w.downloads ∧
      (w.register n d mine).calls = w.calls ∧ (w.register n d mine).stopped = w.stopped ∧
      ∀ m, ((w.register n d mine).session m).sent = (w.session m).sent ∧
        ((w.register n d mine).session m).seen = (w.session m).seen ∧
        ((w.register n d mine).session m).requests = (w.session m).requests ∧
        ((w.register n d mine).session m).loop = (w.session m).loop ∧
        ((w.register n d mine).session m).broken = (w.session m).broken ∧
        ((w.session m).closing = true → ((w.register n d mine).session m).closing = true) := by
  have hset : ∀ m, ((({ w with registry := w.registry.set d n } : Transfer τ).modifySession n fun s =>
      { s with dashboardId := d, opened := true, mine := mine }).session m) =
      if m = n then { w.session n with dashboardId := d, opened := true, mine := mine } else w.session m := by
    intro m
    exact modifySession_get { w with registry := w.registry.set d n } n _ m
  unfold Transfer.register
  simp only
  split
  · refine ⟨rfl, rfl, rfl, rfl, rfl, rfl, fun m => ?_⟩
    rw [hset]
    split
    · next hm => subst hm; exact ⟨rfl, rfl, rfl, rfl, rfl, id⟩
    · exact ⟨rfl, rfl, rfl, rfl, rfl, id⟩
  · next m' _ =>
    refine ⟨rfl, rfl, rfl, rfl, rfl, rfl, fun m => ?_⟩
    rw [modifySession_get, hset, hset]
    split
    · next hm =>
      subst hm
      split
      · next hm => subst hm; exact ⟨rfl, rfl, rfl, rfl, rfl, fun _ => rfl⟩
      · exact ⟨rfl, rfl, rfl, rfl, rfl, fun _ => rfl⟩
    · split
      · next hm => subst hm; exact ⟨rfl, rfl, rfl, rfl, rfl, id⟩
      · exact ⟨rfl, rfl, rfl, rfl, rfl, id⟩

theorem Inv.register (h : Inv digest codec w) (hn : (w.session n).opened = false) (d : DashboardId) (mine : Bool) :
    Inv digest codec (w.register n d mine) := by
  obtain ⟨ht, hp, hc, hd, hcs, -, hs⟩ := register_spec w n d mine
  refine ⟨h.slots.register hn d mine, h.streams.same ⟨fun m => (hs m).1, hp, fun i u _ _ hu hpt => ?_⟩,
    h.awaits.same ⟨hc, hd, hcs, fun m => (hs m).2.1, fun m => ?_, fun x hx => hp ▸ hx⟩⟩
  · exact ⟨u, ht ▸ hu, hpt, rfl, rfl⟩
  · exact (hs m).1.symm ▸ List.prefix_refl _

/-- What the end of a receive loop leaves alone. -/
theorem endLoop_calls (w : Transfer τ) (n : SessionId) : SameCalls w (w.endLoop n) := by
  have hloop : SameCalls w (w.setLoop n .ended) := by
    refine ⟨rfl, rfl, rfl, fun m => ?_, fun m => ?_, fun _ => id⟩
    all_goals unfold setLoop; rw [modifySession_get]
    · split
      · next hm => rw [hm]
      · rfl
    · split
      · next hm => subst hm; exact List.prefix_refl _
      · exact List.prefix_refl _
  unfold Transfer.endLoop
  simp only
  split
  · unfold discardSession
    split
    · exact ⟨rfl, rfl, rfl, hloop.seen, hloop.sent, hloop.packs⟩
    · exact ⟨rfl, rfl, rfl, hloop.seen, hloop.sent, hloop.packs⟩
  · exact hloop

theorem Inv.endLoop (h : Inv digest codec w) (ho : (w.session n).opened = true) : Inv digest codec (w.endLoop n) := by
  have hspec := endLoop_spec w n
  refine ⟨h.slots.endLoop ho, h.streams.same ⟨fun m => (hspec.same m).2.2.2.1, hspec.packs, fun i u _ _ hu hpt => ?_⟩,
    h.awaits.same (endLoop_calls w n)⟩
  obtain ⟨t, ht, rfl⟩ := (hspec.tasks i u).1 hu
  exact ⟨t, ht, hpt, rfl, rfl⟩

theorem Inv.rejectRequest (h : Inv digest codec w) (hl : (w.session n).loop ≠ .ended) (jobId reason : String) :
    Inv digest codec (w.rejectRequest n jobId reason) := by
  unfold Transfer.rejectRequest
  split
  · exact h.quiet (setLoop_quiet w hl (by simp))
  · exact h.quiet (setLoop_quiet w hl (by simp))

/-- **A request is handled.** -/
theorem Inv.handleDownloadArtifacts (h : Inv digest codec w) (ho : (w.session n).opened = true)
    (hl : (w.session n).loop ≠ .ended) (request : Option String) (verdict : JobVerdict) :
    Inv digest codec (w.handleDownloadArtifacts n request verdict) := by
  unfold Transfer.handleDownloadArtifacts
  split
  · exact h.quiet (closing_quiet w n)
  next jobId =>
  simp only
  split
  · exact h.rejectRequest hl _ _
  next hfree =>
  have hnone : w.inflight.get? (w.session n).dashboardId = none := by
    cases hin : w.inflight.get? (w.session n).dashboardId with
    | none => rfl
    | some i =>
      rw [hin] at hfree
      exact absurd rfl hfree
  split
  · exact h.rejectRequest hl _ _
  · exact h.rejectRequest hl _ _
  · exact h.rejectRequest hl _ _
  next configuration =>
  split
  · exact h.rejectRequest hl _ _
  next hst =>
  -- the new task sends nothing yet
  refine ⟨h.slots.accept ho hl hnone (Bool.eq_false_iff.2 hst) jobId configuration,
    h.streams.same ⟨fun _ => rfl, rfl, fun i u frames out hu hpt => ?_⟩,
    h.awaits.same ⟨rfl, rfl, rfl, fun _ => rfl, fun _ => List.prefix_refl _, fun _ => id⟩⟩
  rcases of_getElem?_concat hu with hu | ⟨-, rfl⟩
  · exact ⟨u, hu, hpt, rfl, rfl⟩
  · cases hpt

/-! #### Runs -/

/-- **Every step keeps the invariant.** -/
theorem Inv.step (h : Inv digest codec w) (a : TransferAction) : Inv digest codec (w.step digest codec a) := by
  cases a with
  | connect n d =>
    simp only [Transfer.step]
    split
    · next hn =>
      have hr := h.register hn.2 d true
      have hc : (w.register n d true).channel = none := (register_spec w n d true).2.2.1.trans hn.1
      exact ⟨hr.slots.same ⟨rfl, rfl, rfl, rfl, fun _ => rfl, fun _ => rfl, fun _ => id, fun _ => Iff.rfl⟩,
        hr.streams.same ⟨fun _ => rfl, rfl, fun _ u _ _ hu hp => ⟨u, hu, hp, rfl, rfl⟩⟩, hr.awaits.connect hc n⟩
    · exact h
  | connectOther n d =>
    simp only [Transfer.step]
    split
    · exact h
    · next hn => exact h.register (Bool.eq_false_iff.2 hn) d false
  | requestOther n jobId =>
    simp only [Transfer.step]
    split
    · exact h.quiet (requests_quiet w n fun r => r ++ [jobId])
    · exact h
  | handle n verdict =>
    simp only [Transfer.step]
    split
    · next request requests ho hl hr =>
      have hq := h.quiet (requests_quiet w n fun _ => requests)
      have hget := modifySession_get w n (fun s => { s with requests := requests }) n
      rw [if_pos rfl] at hget
      refine hq.handleDownloadArtifacts ?_ ?_ request verdict
      · rw [hget]
        exact ho
      · rw [hget]
        simp [hl]
    · exact h
  | rejectOut n =>
    simp only [Transfer.step]
    split
    · next jobId reason hl =>
      have hend : Inv digest codec (w.emit n (.artifactsEnd jobId false reason "")) :=
        ⟨h.slots.same (emit_slots w _ _), h.streams.emitEnd (fun _ _ => rfl) _, h.awaits.same (emit_calls w _ _)⟩
      have hloop : ((w.emit n (.artifactsEnd jobId false reason "")).session n).loop ≠ .ended := by
        refine fun he => ?_
        have := ((emit_slots w n (.artifactsEnd jobId false reason "")).ended n).1 he
        rw [hl] at this
        cases this
      exact hend.quiet (setLoop_quiet _ hloop (by simp))
    · exact h
  | rejectSent n ok =>
    simp only [Transfer.step]
    split
    · next jobId reason out hl =>
      have hne : (w.session n).loop ≠ .ended := by rw [hl]; simp
      split
      · exact h
      · split
        · exact h.quiet (setLoop_quiet w hne (by simp))
        · have hb := h.quiet (setBroken_quiet w n)
          refine hb.quiet (setLoop_quiet _ (fun he => hne ?_) (by simp))
          exact ((setBroken_quiet w n).slots.ended n).1 he
    · exact h
  | terminate n => exact h.quiet (closing_quiet w n)
  | endLoop n =>
    simp only [Transfer.step]
    split
    · next ho => exact h.endLoop ho
    · exact h
  | out i => exact h.stepTask i (.out i) (by rintro k ⟨⟩; rfl)
  | sent i ok => exact h.stepTask i (.sent i ok) (by rintro k ⟨⟩)
  | sendRaises i detail => exact h.stepTask i (.sendRaises i detail) (by rintro k ⟨⟩)
  | begin i => exact h.stepTask i (.begin i) (by rintro k ⟨⟩)
  | packed i result => exact h.stepTask i (.packed i result) (by rintro k ⟨⟩)
  | cancelled i => exact h.stepTask i (.cancelled i) (by rintro k ⟨⟩)
  | stop =>
    refine ⟨h.slots.stop, h.streams.same ⟨fun _ => rfl, rfl, fun i u frames out hu hpt => ?_⟩,
      h.awaits.same ⟨rfl, rfl, rfl, fun _ => rfl, fun _ => List.prefix_refl _, fun _ => id⟩⟩
    simp only [Transfer.step, List.getElem?_map, Option.map_eq_some_iff] at hu
    obtain ⟨t, ht, rfl⟩ := hu
    exact ⟨t, ht, hpt, rfl, rfl⟩
  | stopDrained =>
    simp only [Transfer.step]
    split
    · next hd =>
      rw [Bool.and_eq_true] at hd
      exact ⟨h.slots.drained hd.2, h.streams.same ⟨fun _ => rfl, rfl, fun _ u _ _ hu hp => ⟨u, hu, hp, rfl, rfl⟩⟩,
        h.awaits.same ⟨rfl, rfl, rfl, fun _ => rfl, fun _ => List.prefix_refl _, fun _ => id⟩⟩
    · exact h
  | call jobId => exact h.downloadArtifacts jobId
  | requestOut c => exact h.stepCall c _
  | requestSent c ok => exact h.stepCall c _
  | deliver => exact h.deliver
  | disconnect => exact h.disconnect
  | finishCall c => exact h.stepCall c _
  | cancelCall c => exact h.stepCall c _

theorem Inv.start (digest : Digest) (codec : ChunkCodec τ) : Inv digest codec ({} : Transfer τ) := by
  refine ⟨⟨?_, ?_, ?_, ?_, ?_, ?_, ?_, ?_, ?_⟩, ⟨?_, ?_⟩, ⟨fun _ => Nat.le_refl 0, ?_, ?_, ?_, ?_, ?_, ?_, ?_⟩⟩
  all_goals simp [Dict.get?_empty]
  rintro pre j hd cs rfl hst
  cases hst

/-- **The invariant holds throughout.** -/
theorem reaches_inv (hw : Runs.Reaches (Transfer.step digest codec) Runs.any {} w) : Inv digest codec w :=
  hw.invariant (Inv.start digest codec) fun _ a _ h => h.step a

/-- **What a download returns was packed.** A call that returned artifacts returned what
`pack_build_artifacts` gave for its job on its own session: tarball and offset. -/
theorem download_returns_packed (digest : Digest) (codec : ChunkCodec τ) {w : Transfer τ}
    (hw : Runs.Reaches (Transfer.step digest codec) Runs.any {} w) {c : ℕ} {call : DownloadCall}
    {r : DownloadArtifactsResult} (hc : w.calls[c]? = some call) (hr : call.point = .returned (.ok r)) :
    ∃ p, (call.session, call.jobId, p) ∈ w.packs ∧ p.tarball = r.tarball ∧ p.firmwareOffset = r.firmwareOffset :=
  (reaches_inv hw).awaits.returned c call r hc hr

/-- A session opens, and a download runs through on it. -/
def oneDownload : List TransferAction :=
  [.connect 0 "d", .call "j", .requestOut 0, .requestSent 0 true, .handle 0 (.completed ""), .begin 0,
    .packed 0 (.packed ⟨[97], "0x10000"⟩), .out 0, .sent 0 true, .deliver, .out 0, .sent 0 true, .deliver, .out 0,
    .deliver, .finishCall 0]

theorem download_returns_packed_letter :
    ∃ p, ((0 : SessionId), "j", p) ∈ (oneDownload.foldl (Transfer.step letterDigest letterCodec) {}).packs ∧
      p.tarball = [97] ∧ p.firmwareOffset = "0x10000" := by
  have hany : (oneDownload.foldl (Transfer.step letterDigest letterCodec) {}).calls.any (fun call =>
      call.session == 0 && call.jobId == "j" && call.point.gave ⟨[97], "0x10000"⟩) = true := by decide +kernel
  obtain ⟨call, hmem, hcall⟩ := List.any_eq_true.1 hany
  simp only [Bool.and_eq_true, beq_iff_eq] at hcall
  obtain ⟨⟨hs, hj⟩, hp⟩ := hcall
  obtain ⟨c, hc⟩ := List.getElem?_of_mem hmem
  have h := download_returns_packed letterDigest letterCodec (.foldl oneDownload ({} : Transfer (List Char))) hc (DownloadCallPoint.gave_eq hp)
  rw [hs, hj] at h
  exact h

/-- **The slots of the dashboards.** While the sender runs, the slot of a dashboard names the
download of it that lives, if one does; and there is one `_send_stream` at a time on a session. -/
theorem download_slots (digest : Digest) (codec : ChunkCodec τ) {w : Transfer τ}
    (hw : Runs.Reaches (Transfer.step digest codec) Runs.any {} w) (hrun : w.stopped = false) :
    (∀ d i, w.inflight.get? d = some i ↔ ∃ t, w.tasks[i]? = some t ∧ (w.session t.session).dashboardId = d ∧
      t.cancelled = false ∧ t.point.isEnded = false) ∧
    ∀ (i k : ℕ) (t u : DownloadTask τ), w.tasks[i]? = some t → w.tasks[k]? = some u → t.session = u.session →
      t.point.sending = true → u.point.sending = true → i = k := by
  have h := (reaches_inv hw).slots
  refine ⟨fun d i => ⟨fun hi => ?_, ?_⟩, h.one⟩
  · obtain ⟨t, ht, hd, hcase⟩ := h.slot d i hi
    rcases hcase with hlive | hst
    · exact ⟨t, ht, hd, hlive⟩
    · rw [hrun] at hst
      cases hst
  · rintro ⟨t, ht, rfl, hc, he⟩
    exact h.owner i t ht hc he

theorem download_slots_letter :
    ∃ t, ((oneDownload.take 7).foldl (Transfer.step letterDigest letterCodec) {}).tasks[0]? = some t ∧
      (((oneDownload.take 7).foldl (Transfer.step letterDigest letterCodec) {}).session t.session).dashboardId = "d" ∧
      t.cancelled = false ∧ t.point.isEnded = false :=
  ((download_slots letterDigest letterCodec (.foldl (oneDownload.take 7) ({} : Transfer (List Char)))
    (by decide +kernel)).1 "d" 0).1 (by decide +kernel)

end Transfer

end DeviceBuilder
