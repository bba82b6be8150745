import DeviceBuilder.Properties.DownloadRuns

/-!
# A download is answered

* `Owed`: on a session, a job's answer is on its way: its request waits to be
  handled, the receive loop is about to reject it, a task still has the last
  frame of an answer to send, or that frame waits to be read.
* `Keeps`: the steps of the receiver forget nothing that is owed on a session
  that works.
* `download_answered`: a call that waits on such a session is owed its answer.
-/

namespace DeviceBuilder

variable {τ : Type*} {digest : Digest} {codec : ChunkCodec τ}

/-- The last frame of the task's answer has not gone out. -/
def DownloadPoint.owes : DownloadPoint τ → Bool
  | created | pack => true
  | send frames out => decide (out.toNat < frames.length)
  | reject _ _ out => !out
  | ended => false

namespace DownloadArtifactsState

theorem fail_none {s : DownloadArtifactsState} {e : DownloadArtifactsError} : (s.fail e).future ≠ none := by
  intro h
  have := (fail_future s e).1
  rw [h] at this
  cases this

/-- **The last frame settles the future**, whatever it says. -/
theorem dispatchArtifactsEnd_settles (s : DownloadArtifactsState) (accepted : Bool) (reason detail : String) :
    (s.dispatchArtifactsEnd digest accepted reason detail).future ≠ none := by
  unfold dispatchArtifactsEnd
  split
  · next h =>
    intro hn
    rw [hn] at h
    cases h
  split
  · exact fail_none
  split
  · exact fail_none
  split
  · exact fail_none
  · simp

/-- A frame never reopens a future. -/
theorem dispatch_none {s : DownloadArtifactsState} {f : ArtifactsFrame τ}
    (h : (f.dispatch digest codec s).future = none) : s.future = none := by
  cases f with
  | artifactsStart j a b c o =>
    simp only [ArtifactsFrame.dispatch, dispatchArtifactsStart] at h
    split at h
    · exact absurd h fail_none
    · exact h
  | artifactsChunk j a b c =>
    simp only [ArtifactsFrame.dispatch, dispatchArtifactsChunk] at h
    split at h
    · exact h
    split at h
    · exact absurd h fail_none
    split at h
    · exact h
    · exact absurd h fail_none
  | artifactsEnd j a b c => exact absurd h (dispatchArtifactsEnd_settles s a b c)

end DownloadArtifactsState

namespace Transfer

variable {w w' : Transfer τ} {i k c : ℕ} {n m : SessionId} {j : String} {t : DownloadTask τ}
  {point : DownloadPoint τ}

/-- A session that was neither closed nor broken, of a sender that runs. -/
structure Works (w : Transfer τ) (n : SessionId) : Prop where
  running : w.stopped = false
  closing : (w.session n).closing = false
  loop : (w.session n).loop ≠ .ended
  broken : (w.session n).broken = false

/-- The last frame of an answer waits to be read. -/
def Unread (w : Transfer τ) (n : SessionId) (j : String) : Prop :=
  ∃ accepted reason detail, ArtifactsFrame.artifactsEnd j accepted reason detail ∈
    (w.session n).sent.drop (w.session n).seen

/-- A task of the receiver has still to answer. -/
def Answering (w : Transfer τ) (n : SessionId) (j : String) : Prop :=
  ∃ (i : ℕ) (t : DownloadTask τ), w.tasks[i]? = some t ∧ t.session = n ∧ t.jobId = j ∧ t.cancelled = false ∧
    t.point.owes = true

/-- **An answer for job `j` is on its way.** -/
def Owed (w : Transfer τ) (n : SessionId) (j : String) : Prop :=
  some j ∈ (w.session n).requests ∨ (∃ reason, (w.session n).loop = .reject j reason false) ∨ w.Answering n j ∨
    w.Unread n j

/-- Nothing that is owed on a session that works is forgotten. -/
structure Keeps (w w' : Transfer τ) : Prop where
  works : ∀ n, w'.Works n → w.Works n
  owed : ∀ n j, w'.Works n → w.Owed n j → w'.Owed n j

theorem Keeps.refl (w : Transfer τ) : Keeps w w := ⟨fun _ => id, fun _ _ _ => id⟩

theorem Keeps.trans {w'' : Transfer τ} (h : Keeps w w') (h' : Keeps w' w'') : Keeps w w'' :=
  ⟨fun n hn => h.works n (h'.works n hn), fun n j hn ho => h'.owed n j hn (h.owed n j (h'.works n hn) ho)⟩

/-- What a session owes is read off its wires and the tasks. -/
theorem Keeps.of_same (ht : w'.tasks = w.tasks) (hst : w'.stopped = false → w.stopped = false)
    (hs : ∀ m, (w'.session m).sent = (w.session m).sent ∧ (w'.session m).seen = (w.session m).seen ∧
      (∀ x ∈ (w.session m).requests, x ∈ (w'.session m).requests) ∧ (w'.session m).loop = (w.session m).loop ∧
      ((w.session m).closing = true → (w'.session m).closing = true) ∧
      ((w.session m).broken = true → (w'.session m).broken = true)) : Keeps w w' := by
  refine ⟨fun n hn => ⟨hst hn.running, ?_, ?_, ?_⟩, fun n j _ ho => ?_⟩
  · cases hc : (w.session n).closing with
    | false => rfl
    | true => exact ((hs n).2.2.2.2.1 hc).symm.trans hn.closing
  · rw [← (hs n).2.2.2.1]
    exact hn.loop
  · cases hb : (w.session n).broken with
    | false => rfl
    | true => exact ((hs n).2.2.2.2.2 hb).symm.trans hn.broken
  · obtain ⟨hsent, hseen, hreq, hloop, -, -⟩ := hs n
    rcases ho with hr | hl | ha | hu
    · exact .inl (hreq _ hr)
    · exact .inr (.inl (hloop ▸ hl))
    · obtain ⟨i, t, hi, hrest⟩ := ha
      exact .inr (.inr (.inl ⟨i, t, ht ▸ hi, hrest⟩))
    · unfold Unread at hu
      rw [← hsent, ← hseen] at hu
      exact .inr (.inr (.inr hu))

theorem modifySession_keeps (w : Transfer τ) (n : SessionId) {f : DownloadSession τ → DownloadSession τ}
    (hs : ∀ s, (f s).sent = s.sent ∧ (f s).seen = s.seen ∧ (∀ x ∈ s.requests, x ∈ (f s).requests) ∧
      (f s).loop = s.loop ∧ (s.closing = true → (f s).closing = true) ∧ (s.broken = true → (f s).broken = true)) :
    Keeps w (w.modifySession n f) := by
  refine .of_same rfl id fun m => ?_
  rw [modifySession_get]
  split
  · next h =>
    subst h
    exact hs _
  · exact ⟨rfl, rfl, fun _ => id, rfl, id, id⟩

/-- A task moves; if it stops owing, the last frame of its answer is on the wire. -/
theorem setPoint_keeps (hi : w.tasks[i]? = some t)
    (ho : w.Works t.session → t.cancelled = false → t.point.owes = true →
      point.owes = true ∨ w.Unread t.session t.jobId) : Keeps w (w.setPoint i point) := by
  refine ⟨fun n hn => ⟨hn.1, hn.2, hn.3, hn.4⟩, fun n j hn hw => ?_⟩
  rcases hw with hr | hl | ⟨k, u, hk, rfl, rfl, hc, hu⟩ | hu
  · exact .inl hr
  · exact .inr (.inl hl)
  · have hget : (w.setPoint i point).tasks[k]? = some (if i = k then { u with point := point } else u) := by
      simp only [setPoint, List.getElem?_modify, hk, Option.map_eq_map, Option.map_some]
    by_cases hik : i = k
    · subst hik
      obtain rfl := Option.some.inj (hk.symm.trans hi)
      rw [if_pos rfl] at hget
      rcases ho ⟨hn.1, hn.2, hn.3, hn.4⟩ hc hu with hp | hx
      · exact .inr (.inr (.inl ⟨i, _, hget, rfl, rfl, hc, hp⟩))
      · exact .inr (.inr (.inr hx))
    · rw [if_neg hik] at hget
      exact .inr (.inr (.inl ⟨k, u, hget, rfl, rfl, hc, hu⟩))
  · exact .inr (.inr (.inr hu))

theorem emit_keeps (w : Transfer τ) (n : SessionId) (f : ArtifactsFrame τ) : Keeps w (w.emit n f) := by
  refine ⟨fun m hm => ?_, fun m j _ ho => ?_⟩
  all_goals have hget := modifySession_get w n (fun s => { s with sent := s.sent ++ [f] }) m
  · have hsame : ((w.emit n f).session m).closing = (w.session m).closing ∧
        ((w.emit n f).session m).loop = (w.session m).loop ∧
        ((w.emit n f).session m).broken = (w.session m).broken := by
      unfold emit
      rw [hget]
      split
      · next h => subst h; exact ⟨rfl, rfl, rfl⟩
      · exact ⟨rfl, rfl, rfl⟩
    exact ⟨hm.running, hsame.1 ▸ hm.closing, hsame.2.1 ▸ hm.loop, hsame.2.2 ▸ hm.broken⟩
  · have hsame : ((w.emit n f).session m).requests = (w.session m).requests ∧
        ((w.emit n f).session m).loop = (w.session m).loop ∧
        ∀ x ∈ (w.session m).sent.drop (w.session m).seen,
          x ∈ ((w.emit n f).session m).sent.drop ((w.emit n f).session m).seen := by
      unfold emit
      rw [hget]
      split
      · next h =>
        subst h
        refine ⟨rfl, rfl, fun x hx => ?_⟩
        simp only [List.drop_append]
        exact List.mem_append_left _ hx
      · exact ⟨rfl, rfl, fun _ => id⟩
    rcases ho with hr | hl | ha | ⟨a, r, e, hu⟩
    · exact .inl (hsame.1 ▸ hr)
    · exact .inr (.inl (hsame.2.1 ▸ hl))
    · exact .inr (.inr (.inl ha))
    · exact .inr (.inr (.inr ⟨a, r, e, hsame.2.2 _ hu⟩))

/-- The last frame of an answer goes onto the wire. -/
theorem emit_unread (h : Awaits digest codec w) (n : SessionId) (j : String) (accepted : Bool) (reason detail : String) :
    (w.emit n (.artifactsEnd j accepted reason detail)).Unread n j := by
  refine ⟨accepted, reason, detail, ?_⟩
  have hget := modifySession_get w n (fun s => { s with sent := s.sent ++ [.artifactsEnd j accepted reason detail] }) n
  rw [if_pos rfl] at hget
  unfold emit
  rw [hget]
  simp only [List.drop_append_of_le_length (h.read n)]
  exact List.mem_append_right _ (List.mem_singleton.2 rfl)

theorem setBroken_keeps (w : Transfer τ) (n : SessionId) :
    Keeps w (w.setBroken n) ∧ ¬ (w.setBroken n).Works n := by
  refine ⟨modifySession_keeps w n fun s => ⟨rfl, rfl, fun _ => id, rfl, id, fun _ => rfl⟩, fun h => ?_⟩
  have hget := modifySession_get w n (fun s => { s with broken := true }) n
  have hb := h.broken
  unfold setBroken at hb
  rw [hget, if_pos rfl] at hb
  cases hb

/-- The receive loop moves on; if it was about to reject a job, that is on the wire. -/
theorem setLoop_keeps (w : Transfer τ) {loop : SessionLoop} (hl : (w.session n).loop ≠ .ended)
    (hk : ∀ j reason, (w.session n).loop = .reject j reason false → w.Unread n j ∨ ¬ w.Works n) :
    Keeps w (w.setLoop n loop) := by
  have hget : ∀ m, (w.setLoop n loop).session m =
      if m = n then { w.session n with loop := loop } else w.session m := by
    intro m
    exact modifySession_get ..
  have hworks : ∀ m, (w.setLoop n loop).Works m → w.Works m := by
    intro m hm
    have hc := hm.closing
    have hl' := hm.loop
    have hb := hm.broken
    rw [hget] at hc hl' hb
    split at hc
    · next h =>
      subst h
      rw [if_pos rfl] at hb
      exact ⟨hm.running, hc, hl, hb⟩
    · next h =>
      rw [if_neg h] at hl' hb
      exact ⟨hm.running, hc, hl', hb⟩
  refine ⟨hworks, fun m j hm ho => ?_⟩
  rcases ho with hr | ⟨reason, hr⟩ | ha | hu
  · refine .inl ?_
    rw [hget]
    split
    · next h => subst h; exact hr
    · exact hr
  · by_cases h : m = n
    · subst h
      rcases hk j reason hr with ⟨a, r, e, hu⟩ | hx
      · refine .inr (.inr (.inr ⟨a, r, e, ?_⟩))
        rw [hget, if_pos rfl]
        exact hu
      · exact absurd (hworks m hm) hx
    · refine .inr (.inl ⟨reason, ?_⟩)
      rw [hget, if_neg h]
      exact hr
  · exact .inr (.inr (.inl ha))
  · obtain ⟨a, r, e, hu⟩ := hu
    refine .inr (.inr (.inr ⟨a, r, e, ?_⟩))
    rw [hget]
    split
    · next h => subst h; exact hu
    · exact hu

/-! #### The sender -/

/-- A task ends that owes no answer, or whose session no longer works. -/
theorem finishDownload_keeps (hi : w.tasks[i]? = some t)
    (ho : w.Works t.session → t.cancelled = false → t.point.owes = false ∨ w.Unread t.session t.jobId) :
    Keeps w (w.finishDownload i t.session) := by
  have hset : Keeps w (w.setPoint i .ended) := by
    refine setPoint_keeps hi fun hw hc hp => .inr ?_
    rcases ho hw hc with hno | hu
    · rw [hno] at hp
      cases hp
    · exact hu
  unfold Transfer.finishDownload
  simp only
  split
  · exact hset.trans (.of_same rfl id fun m => ⟨rfl, rfl, fun _ => id, rfl, id, id⟩)
  · exact hset

/-- A reject that is not sent is one on a closing session. -/
theorem rejectDownload_keeps (hi : w.tasks[i]? = some t) (reason detail : String) :
    Keeps w (w.rejectDownload i t.session reason detail) := by
  unfold Transfer.rejectDownload
  split
  · next hc =>
    refine finishDownload_keeps hi fun hw => ?_
    rw [hw.closing] at hc
    cases hc
  · exact setPoint_keeps hi fun _ _ _ => .inl rfl

/-- `_send_stream` gives up on a closing session only. -/
theorem sendStream_keeps (hi : w.tasks[i]? = some t) (frames : List (ArtifactsFrame τ × String))
    (ho : frames = [] → t.point.owes = false) : Keeps w (w.sendStream i t.session frames) := by
  cases frames with
  | nil => exact finishDownload_keeps hi fun _ _ => .inl (ho rfl)
  | cons x frames =>
    obtain ⟨f, label⟩ := x
    simp only [Transfer.sendStream]
    split
    · exact rejectDownload_keeps hi _ _
    · exact setPoint_keeps hi fun _ _ _ => .inl (by simp [DownloadPoint.owes])

/-- The last frame of a stream is its end. -/
theorem streamFrames_last {j : String} {p : PackedArtifacts} {x : ArtifactsFrame τ × String}
    (h : (streamFrames digest codec j p).drop k = [x]) : x.1 = .artifactsEnd j true "" "" := by
  have hlast : (streamFrames digest codec j p).getLast? = some (.artifactsEnd j true "" "", "end") := by
    unfold streamFrames
    simp only
    rw [List.getLast?_append]
    rfl
  have hd : ((streamFrames digest codec j p).take k ++ (streamFrames digest codec j p).drop k).getLast? = some x := by
    rw [h, List.getLast?_append]
    rfl
  rw [List.take_append_drop, hlast] at hd
  rw [← Option.some.inj hd]

/-- **A step of a download forgets no answer.** -/
theorem resumeDownload_keeps (h : Inv digest codec w) (hi : w.tasks[i]? = some t) (a : TransferAction) :
    Keeps w (w.resumeDownload digest codec i t a) := by
  unfold Transfer.resumeDownload
  split
  · exact setPoint_keeps hi fun _ _ _ => .inl rfl
  · next result hp =>
    cases result with
    | packed p =>
      have hpack : Keeps w { w with packs := w.packs ++ [(t.session, t.jobId, p)] } :=
        .of_same rfl id fun m => ⟨rfl, rfl, fun _ => id, rfl, id, id⟩
      exact hpack.trans (sendStream_keeps (w := { w with packs := w.packs ++ [(t.session, t.jobId, p)] }) hi
        (streamFrames digest codec t.jobId p) fun he => by cases he)
    | missing detail => exact rejectDownload_keeps hi _ _
    | failed detail => exact rejectDownload_keeps hi _ _
  · next f label frames hp =>
    refine (emit_keeps w t.session f).trans (setPoint_keeps hi fun _ _ _ => ?_)
    cases frames with
    | cons x frames => exact .inl (by simp [DownloadPoint.owes])
    | nil =>
      -- the last frame of a stream
      obtain ⟨p, k, -, hfr, -⟩ := h.streams.stream i t _ _ hi hp
      have hf : f = .artifactsEnd t.jobId true "" "" := streamFrames_last hfr.symm
      subst hf
      exact .inr (emit_unread h.awaits _ _ _ _ _)
  · next reason detail hp =>
    exact (emit_keeps w _ _).trans (setPoint_keeps hi fun _ _ _ => .inr (emit_unread h.awaits _ _ _ _ _))
  · next ok frames out hp =>
    split
    · exact .refl w
    next hout =>
    unfold Transfer.resumeSend
    cases frames with
    | nil => exact finishDownload_keeps hi fun _ _ => .inl (by rw [hp]; simp [DownloadPoint.owes])
    | cons x frames =>
      obtain ⟨f, label⟩ := x
      cases ok with
      | true =>
        refine sendStream_keeps hi frames fun he => ?_
        subst he
        cases out with
        | true => rw [hp]; simp [DownloadPoint.owes]
        | false => exact absurd rfl hout
      | false => exact (setBroken_keeps w t.session).1.trans (rejectDownload_keeps (w := w.setBroken t.session) hi _ _)
  · next ok reason detail out hp =>
    split
    · exact .refl w
    next hout =>
    cases ok with
    | true =>
      refine finishDownload_keeps hi fun _ _ => .inl ?_
      cases out with
      | true => rw [hp]; rfl
      | false => exact absurd rfl hout
    | false =>
      obtain ⟨hk, hb⟩ := setBroken_keeps w t.session
      exact hk.trans (finishDownload_keeps hi fun hw => absurd hw hb)
  · exact rejectDownload_keeps hi _ _
  · exact .refl w

theorem cancelDownload_keeps (hi : w.tasks[i]? = some t) (hc : t.cancelled = true) :
    Keeps w (w.cancelDownload i t) := by
  have hno : t.cancelled ≠ false := by rw [hc]; simp
  unfold Transfer.cancelDownload
  split
  · exact setPoint_keeps hi fun _ hf _ => absurd hf hno
  · exact .refl w
  · exact finishDownload_keeps hi fun _ hf => absurd hf hno

theorem stepTask_keeps (h : Inv digest codec w) (i : ℕ) (a : TransferAction) : Keeps w (w.stepTask digest codec i a) := by
  unfold Transfer.stepTask
  split
  · exact .refl w
  next t hi =>
  split
  · split
    · next hc => exact cancelDownload_keeps hi hc
    · exact .refl w
  · exact resumeDownload_keeps h hi _
  · split
    · exact .refl w
    · exact resumeDownload_keeps h hi _

/-! #### The sessions -/

theorem register_keeps (w : Transfer τ) (n : SessionId) (d : DashboardId) (mine : Bool) :
    Keeps w (w.register n d mine) := by
  obtain ⟨ht, -, -, -, -, hst, hs⟩ := register_spec w n d mine
  refine .of_same ht (fun h => hst.symm.trans h) fun m => ?_
  obtain ⟨hsent, hseen, hreq, hloop, hb, hc⟩ := hs m
  exact ⟨hsent, hseen, fun x hx => hreq ▸ hx, hloop, hc, fun h => hb.trans h⟩

/-- The end of a session's loop cancels no download of another that works. -/
theorem endLoop_keeps (h : Slots w) (ho : (w.session n).opened = true) : Keeps w (w.endLoop n) := by
  have hspec := endLoop_spec w n
  have hcalls := endLoop_calls w n
  have hfields : ∀ m, ((w.endLoop n).session m).requests = (w.session m).requests ∧
      ((w.endLoop n).session m).broken = (w.session m).broken := by
    have hset : ∀ m, ((w.setLoop n .ended).session m).requests = (w.session m).requests ∧
        ((w.setLoop n .ended).session m).broken = (w.session m).broken := by
      intro m
      unfold setLoop
      rw [modifySession_get]
      split
      · next h => subst h; exact ⟨rfl, rfl⟩
      · exact ⟨rfl, rfl⟩
    unfold Transfer.endLoop
    simp only
    split
    · unfold discardSession
      split <;> exact hset
    · exact hset
  have hne : ∀ m, (w.endLoop n).Works m → m ≠ n := by
    rintro m hm rfl
    exact hm.loop hspec.self
  have hworks : ∀ m, (w.endLoop n).Works m → w.Works m := by
    intro m hm
    obtain ⟨-, -, hc, -, hl⟩ := hspec.same m
    exact ⟨hspec.stopped ▸ hm.running, hc ▸ hm.closing, hl (hne m hm) ▸ hm.loop, (hfields m).2 ▸ hm.broken⟩
  refine ⟨hworks, fun m j hm hw => ?_⟩
  obtain ⟨-, -, -, hsent, hl⟩ := hspec.same m
  rcases hw with hr | hr | ⟨i, t, hi, rfl, rfl, hc, hu⟩ | ⟨a, r, e, hu⟩
  · exact .inl ((hfields m).1 ▸ hr)
  · exact .inr (.inl (hl (hne m hm) ▸ hr))
  · have hwm := hworks _ hm
    -- a session that works is the registered one, and holds the slot of its own dashboard
    have hlive := h.live _ (h.opened i t hi) hwm.closing hwm.loop
    refine .inr (.inr (.inl ⟨i, _, (hspec.tasks i _).2 ⟨t, hi, rfl⟩, rfl, rfl, ?_, hu⟩))
    rw [hc, Bool.false_or, decide_eq_false_iff_not]
    rintro ⟨hreg, hin⟩
    obtain ⟨u, hu', hd, -⟩ := h.slot _ i hin
    obtain rfl := Option.some.inj (hu'.symm.trans hi)
    rw [hd, hreg] at hlive
    exact hne _ hm (Option.some.inj hlive).symm
  · refine .inr (.inr (.inr ⟨a, r, e, ?_⟩))
    rw [hsent, hcalls.seen m]
    exact hu

theorem rejectRequest_keeps (hl : (w.session n).loop = .receive) (jobId reason : String) :
    Keeps w (w.rejectRequest n jobId reason) ∧
      ((w.rejectRequest n jobId reason).Works n → (w.rejectRequest n jobId reason).Owed n jobId) := by
  have hne : (w.session n).loop ≠ .ended := by rw [hl]; simp
  have hnone : ∀ j r, (w.session n).loop = .reject j r false → w.Unread n j ∨ ¬ w.Works n := by
    intro j r hr
    rw [hl] at hr
    cases hr
  unfold Transfer.rejectRequest
  split
  · next hc =>
    have hk : Keeps w (w.setLoop n .receive) := setLoop_keeps w hne hnone
    refine ⟨hk, fun hw => ?_⟩
    rw [(hk.works n hw).closing] at hc
    cases hc
  · refine ⟨setLoop_keeps w hne hnone, fun _ => .inr (.inl ⟨reason, ?_⟩)⟩
    unfold setLoop
    rw [modifySession_get, if_pos rfl]

/-- **A handled request is answered**, by its reject or by the download it starts. -/
theorem handleDownloadArtifacts_keeps (hl : (w.session n).loop = .receive) (request : Option String)
    (verdict : JobVerdict) :
    Keeps w (w.handleDownloadArtifacts n request verdict) ∧
      ∀ j, request = some j → (w.handleDownloadArtifacts n request verdict).Works n →
        (w.handleDownloadArtifacts n request verdict).Owed n j := by
  cases request with
  | none =>
    refine ⟨modifySession_keeps w n (f := fun s => { s with closing := true })
      fun s => ⟨rfl, rfl, fun _ => id, rfl, fun _ => rfl, id⟩, fun j hj => ?_⟩
    cases hj
  | some jobId =>
    have hrej : ∀ reason, Keeps w (w.rejectRequest n jobId reason) ∧
        ∀ j, some jobId = some j → (w.rejectRequest n jobId reason).Works n →
          (w.rejectRequest n jobId reason).Owed n j := by
      intro reason
      refine ⟨(rejectRequest_keeps hl jobId reason).1, fun j hj => ?_⟩
      obtain rfl := Option.some.inj hj
      exact (rejectRequest_keeps hl jobId reason).2
    unfold Transfer.handleDownloadArtifacts
    simp only
    split
    · exact hrej _
    split
    · exact hrej _
    · exact hrej _
    · exact hrej _
    next configuration =>
    split
    · exact hrej _
    refine ⟨⟨fun m hm => ⟨hm.1, hm.2, hm.3, hm.4⟩, fun m j _ ho => ?_⟩, fun j hj _ => ?_⟩
    · rcases ho with hr | hr | ⟨i, t, hi, hrest⟩ | hu
      · exact .inl hr
      · exact .inr (.inl hr)
      · have hlt := (List.getElem?_eq_some_iff.1 hi).1
        exact .inr (.inr (.inl ⟨i, t, (List.getElem?_append_left hlt).trans hi, hrest⟩))
      · exact .inr (.inr (.inr hu))
    · obtain rfl := Option.some.inj hj
      exact .inr (.inr (.inl ⟨w.tasks.length, { session := n, jobId := jobId, configuration := configuration },
        List.getElem?_concat_length, rfl, rfl, rfl, rfl⟩))

/-- The receive loop takes the next request. -/
theorem handle_keeps {request : Option String} {requests : List (Option String)} (hl : (w.session n).loop = .receive)
    (hr : (w.session n).requests = request :: requests) (verdict : JobVerdict) :
    Keeps w ((w.modifySession n fun s => { s with requests := requests }).handleDownloadArtifacts n request verdict) := by
  have hget := modifySession_get w n fun s => { s with requests := requests }
  have hloop : ((w.modifySession n fun s => { s with requests := requests }).session n).loop = .receive := by
    rw [hget, if_pos rfl]
    exact hl
  obtain ⟨hk, hans⟩ := handleDownloadArtifacts_keeps (w := w.modifySession n fun s => { s with requests := requests })
    hloop request verdict
  have hworks : ∀ m, (w.modifySession n fun s => { s with requests := requests }).Works m → w.Works m := by
    intro m hm
    have hc := hm.closing
    have hl' := hm.loop
    have hb := hm.broken
    rw [hget] at hc hl' hb
    split at hc
    · next h =>
      subst h
      rw [if_pos rfl] at hl' hb
      exact ⟨hm.running, hc, hl', hb⟩
    · next h =>
      rw [if_neg h] at hl' hb
      exact ⟨hm.running, hc, hl', hb⟩
  refine ⟨fun m hm => hworks m (hk.works m hm), fun m j hm ho => ?_⟩
  by_cases hmn : m = n
  · subst hmn
    have hown : some j = request ∨
        (w.modifySession m fun s => { s with requests := requests }).Owed m j := by
      unfold Owed Unread
      rw [hget, if_pos rfl]
      rcases ho with hx | hx | hx | hx
      · rw [hr] at hx
        rcases List.mem_cons.1 hx with he | hx
        · exact .inl he
        · exact .inr (.inl hx)
      · exact .inr (.inr (.inl hx))
      · exact .inr (.inr (.inr (.inl hx)))
      · exact .inr (.inr (.inr (.inr hx)))
    rcases hown with he | ho'
    · exact hans j he.symm hm
    · exact hk.owed m j hm ho'
  · refine hk.owed m j hm ?_
    unfold Owed Unread
    rw [hget, if_neg hmn]
    exact ho

/-! #### The calls -/

/-- **Every call that waits is owed its answer**, once its request is out. -/
def Answered (w : Transfer τ) : Prop :=
  ∀ (c : ℕ) (call : DownloadCall) s, w.calls[c]? = some call → call.point.active = true →
    call.point ≠ .requesting false → w.downloads.get? call.jobId = some s → s.future = none →
    w.Works call.session → w.Owed call.session call.jobId

/-- A step of the receiver. -/
theorem Answered.keeps (h : Answered w) (hk : Keeps w w') (hc : w'.calls = w.calls)
    (hd : w'.downloads = w.downloads) : Answered w' := by
  intro c call s hcall ha hp hs hf hw
  exact hk.owed _ _ hw (h c call s (hc ▸ hcall) ha hp (hd ▸ hs) hf (hk.works _ hw))

theorem SameCalls.answered (hs : SameCalls w w') (h : Answered w) (hk : Keeps w w') : Answered w' :=
  h.keeps hk hs.calls hs.downloads

/-- A call ends; no other waits for its entry. -/
theorem Answered.endCall {p : DownloadCallPoint} (h : Answered w) (hp : p.active = false) (jobId : String) :
    Answered (w.endCall c jobId p) := by
  intro e x s hx ha hnr hs hf hw
  have hold : w.downloads.get? x.jobId = some s := by
    have hs' : (w.downloads.erase jobId).get? x.jobId = some s := hs
    exact (Dict.of_get?_erase hs').2
  obtain ⟨y, hy, hsess, hjob, hpt⟩ := setCall_get (w := { w with downloads := w.downloads.erase jobId }) hx
  split at hpt
  · rw [hpt, hp] at ha
    cases ha
  · rw [hpt] at ha hnr
    rw [hjob] at hold
    rw [hsess] at hw
    have := h e y s hy ha hnr hold hf ⟨hw.1, hw.2, hw.3, hw.4⟩
    rw [hsess, hjob]
    exact this

theorem Answered.stepCall (h : Answered w) (c : ℕ) (a : TransferAction) : Answered (w.stepCall c a) := by
  unfold Transfer.stepCall
  split
  · exact h
  next call hc =>
  split
  · next hp =>
    -- the request is out, and waits to be handled
    have hk := modifySession_keeps w call.session (f := fun s => { s with requests := s.requests ++ [some call.jobId] })
      fun s => ⟨rfl, rfl, fun x hx => List.mem_append_left _ hx, rfl, id, id⟩
    have hget := modifySession_get w call.session
      (fun s => { s with requests := s.requests ++ [some call.jobId] }) call.session
    rw [if_pos rfl] at hget
    intro e x s hx ha hnr hs hf hw
    obtain ⟨y, hy, hsess, hjob, hpt⟩ := setCall_get hx
    rw [hsess] at hw ⊢
    rw [hjob] at hs ⊢
    split at hpt
    · next hec =>
      subst hec
      obtain rfl := Option.some.inj (hy.symm.trans hc)
      refine .inl ?_
      have hmem : some y.jobId ∈ (w.session y.session).requests ++ [some y.jobId] :=
        List.mem_append_right _ (List.mem_singleton.2 rfl)
      exact (congrArg DownloadSession.requests hget).symm ▸ hmem
    · rw [hpt] at ha hnr
      have hw' : (w.modifySession call.session fun s => { s with requests := s.requests ++ [some call.jobId] }).Works
          y.session := ⟨hw.1, hw.2, hw.3, hw.4⟩
      exact hk.owed _ _ hw' (h e y s hy ha hnr hs hf (hk.works _ hw'))
  · next hp =>
    intro e x s hx ha hnr hs hf hw
    obtain ⟨y, hy, hsess, hjob, hpt⟩ := setCall_get hx
    rw [hsess] at hw ⊢
    rw [hjob] at hs ⊢
    have hw' : w.Works y.session := ⟨hw.1, hw.2, hw.3, hw.4⟩
    split at hpt
    · next hec =>
      subst hec
      obtain rfl := Option.some.inj (hy.symm.trans hc)
      exact h e y s hy (by rw [hp]; rfl) (by rw [hp]; simp) hs hf hw'
    · rw [hpt] at ha hnr
      exact h e y s hy ha hnr hs hf hw'
  · next hp =>
    have hk := (setBroken_keeps w call.session).1
    exact (h.keeps hk rfl rfl).endCall rfl _
  · split
    · exact h
    · exact h.endCall rfl _
  · exact h.endCall rfl _
  · exact h.endCall rfl _
  · exact h

theorem Answered.downloadArtifacts (h : Answered w) (ha : Awaits digest codec w) (j : String) :
    Answered (w.downloadArtifacts j) := by
  unfold Transfer.downloadArtifacts
  split
  · exact h
  next n _ =>
  split
  · exact h
  next hfree =>
  intro e x s hx hact hnr hs hf hw
  have hw' : w.Works x.session := ⟨hw.1, hw.2, hw.3, hw.4⟩
  rcases of_getElem?_concat hx with hx' | ⟨-, rfl⟩
  · have hne : x.jobId ≠ j := by
      rintro rfl
      obtain ⟨s', hs'⟩ := ha.known e x hx' hact
      rw [hs'] at hfree
      exact hfree rfl
    exact h e x s hx' hact hnr ((Dict.get?_set_ne hne).symm.trans hs) hf hw'
  · exact absurd rfl hnr

/-- **A frame is read.** Only the last frame of an answer takes one off what is owed, and it settles
the call that waits for it. -/
theorem Answered.deliver (h : Answered w) (ha : Awaits digest codec w) : Answered (w.deliver digest codec) := by
  unfold Transfer.deliver
  split
  · exact h
  next n hn =>
  split
  · exact h
  next f hf =>
  intro e x s hx hact hnr hs hnone hw
  have hget := modifySession_get w n fun s => { s with seen := s.seen + 1 }
  have hx' : w.calls[e]? = some x := hx
  -- the entry before the frame
  obtain ⟨s₀, hs₀, hset⟩ : ∃ s₀, w.downloads.get? x.jobId = some s₀ ∧
      s = if x.jobId = f.jobId then f.dispatch digest codec s₀ else s₀ := by
    have hs' : (w.downloads.adjust f.jobId fun s => f.dispatch digest codec s).get? x.jobId = some s := hs
    rw [Dict.get?_adjust] at hs'
    split at hs'
    · next he =>
      obtain ⟨s₀, hs₀, rfl⟩ := Option.map_eq_some_iff.1 hs'
      exact ⟨s₀, hs₀, (if_pos he).symm⟩
    · next he => exact ⟨s, hs', (if_neg he).symm⟩
  have hnone₀ : s₀.future = none := by
    rw [hset] at hnone
    split at hnone
    · exact DownloadArtifactsState.dispatch_none hnone
    · exact hnone
  have hsess : x.session = n := Option.some.inj ((ha.live e x s₀ hx' hact hs₀ hnone₀).symm.trans hn)
  subst hsess
  have hself := hget x.session
  rw [if_pos rfl] at hself
  have hw' : w.Works x.session := by
    have hwm : (w.modifySession x.session fun s => { s with seen := s.seen + 1 }).Works x.session :=
      ⟨hw.1, hw.2, hw.3, hw.4⟩
    have hc := hwm.closing
    have hl := hwm.loop
    have hb := hwm.broken
    rw [hself] at hc hl hb
    exact ⟨hwm.running, hc, hl, hb⟩
  have howed := h e x s₀ hx' hact hnr hs₀ hnone₀ hw'
  have hgoal : (w.modifySession x.session fun s => { s with seen := s.seen + 1 }).Owed x.session x.jobId := by
    unfold Owed Unread
    rw [hself]
    rcases howed with hr | hr | hr | ⟨a, r, d, hu⟩
    · exact .inl hr
    · exact .inr (.inl hr)
    · exact .inr (.inr (.inl hr))
    · rw [List.drop_eq_getElem?_toList_append, hf] at hu
      rcases List.mem_append.1 hu with he | hu
      · -- the frame read is the answer: the future would be done
        exfalso
        have hfe : f = .artifactsEnd x.jobId a r d := (List.mem_singleton.1 he).symm
        subst hfe
        rw [hset] at hnone
        exact DownloadArtifactsState.dispatchArtifactsEnd_settles s₀ a r d ((if_pos rfl).symm ▸ hnone)
      · exact .inr (.inr (.inr ⟨a, r, d, hu⟩))
  exact hgoal

theorem Answered.disconnect : Answered w.disconnect := by
  intro e x s _ _ _ hs hf _
  have hs' : (w.downloads.mapValues fun s => s.fail .sessionLost).get? x.jobId = some s := hs
  rw [Dict.get?_mapValues] at hs'
  obtain ⟨s₀, -, rfl⟩ := Option.map_eq_some_iff.1 hs'
  exact absurd hf DownloadArtifactsState.fail_none

/-! #### Runs -/

theorem setCalls_same (w : Transfer τ) (n : SessionId) (loop : SessionLoop) : SameCalls w (w.setLoop n loop) := by
  refine ⟨rfl, rfl, rfl, fun m => ?_, fun m => ?_, fun _ => id⟩
  all_goals unfold setLoop; rw [modifySession_get]
  · split
    · next h => subst h; rfl
    · rfl
  · split
    · next h => subst h; exact List.prefix_refl _
    · exact List.prefix_refl _

theorem handleDownloadArtifacts_calls (w : Transfer τ) (n : SessionId) (request : Option String) (verdict : JobVerdict) :
    SameCalls w (w.handleDownloadArtifacts n request verdict) := by
  have hrej : ∀ j reason, SameCalls w (w.rejectRequest n j reason) := by
    intro j reason
    unfold Transfer.rejectRequest
    split
    · exact setCalls_same w n _
    · exact setCalls_same w n _
  unfold Transfer.handleDownloadArtifacts
  split
  · exact (closing_quiet w n).calls
  simp only
  split
  · exact hrej _ _
  split
  · exact hrej _ _
  · exact hrej _ _
  · exact hrej _ _
  split
  · exact hrej _ _
  · exact ⟨rfl, rfl, rfl, fun _ => rfl, fun _ => List.prefix_refl _, fun _ => id⟩

theorem finishDownload_calls (w : Transfer τ) (i : ℕ) (n : SessionId) : SameCalls w (w.finishDownload i n) := by
  unfold Transfer.finishDownload
  simp only
  split
  · exact ⟨rfl, rfl, rfl, fun _ => rfl, fun _ => List.prefix_refl _, fun _ => id⟩
  · exact setPoint_calls w i _

theorem rejectDownload_calls (w : Transfer τ) (i : ℕ) (n : SessionId) (reason detail : String) :
    SameCalls w (w.rejectDownload i n reason detail) := by
  unfold Transfer.rejectDownload
  split
  · exact finishDownload_calls w i n
  · exact setPoint_calls w i _

theorem sendStream_calls (w : Transfer τ) (i : ℕ) (n : SessionId) (frames : List (ArtifactsFrame τ × String)) :
    SameCalls w (w.sendStream i n frames) := by
  cases frames with
  | nil => exact finishDownload_calls w i n
  | cons x frames =>
    obtain ⟨f, label⟩ := x
    simp only [Transfer.sendStream]
    split
    · exact rejectDownload_calls w i n _ _
    · exact setPoint_calls w i _

theorem resumeDownload_calls (w : Transfer τ) (i : ℕ) (t : DownloadTask τ) (a : TransferAction) :
    SameCalls w (w.resumeDownload digest codec i t a) := by
  have hbroken : SameCalls w (w.setBroken t.session) := (setBroken_quiet w t.session).calls
  unfold Transfer.resumeDownload
  split
  · exact setPoint_calls w i _
  · next result _ =>
    cases result with
    | packed p =>
      have hpack : SameCalls w { w with packs := w.packs ++ [(t.session, t.jobId, p)] } :=
        ⟨rfl, rfl, rfl, fun _ => rfl, fun _ => List.prefix_refl _, fun _ hx => List.mem_append_left _ hx⟩
      exact hpack.trans (sendStream_calls { w with packs := w.packs ++ [(t.session, t.jobId, p)] } i t.session
        (streamFrames digest codec t.jobId p))
    | missing detail => exact rejectDownload_calls w i _ _ _
    | failed detail => exact rejectDownload_calls w i _ _ _
  · exact (emit_calls w _ _).trans (setPoint_calls _ i _)
  · exact (emit_calls w _ _).trans (setPoint_calls _ i _)
  · next ok frames out _ =>
    split
    · exact .refl w
    unfold Transfer.resumeSend
    split
    · exact finishDownload_calls w i _
    split
    · exact sendStream_calls w i _ _
    · exact hbroken.trans (rejectDownload_calls _ i _ _ _)
  · split
    · exact .refl w
    split
    · exact finishDownload_calls w i _
    · exact hbroken.trans (finishDownload_calls _ i _)
  · exact rejectDownload_calls w i _ _ _
  · exact .refl w

theorem stepTask_calls (w : Transfer τ) (i : ℕ) (a : TransferAction) :
    SameCalls w (w.stepTask digest codec i a) := by
  unfold Transfer.stepTask
  split
  · exact .refl w
  next t _ =>
  split
  · split
    · unfold Transfer.cancelDownload
      split
      · exact setPoint_calls w i _
      · exact .refl w
      · exact finishDownload_calls w i _
    · exact .refl w
  · exact resumeDownload_calls w i t _
  · split
    · exact .refl w
    · exact resumeDownload_calls w i t _

theorem Answered.step (h : Answered w) (hinv : Inv digest codec w) (a : TransferAction) :
    Answered (w.step digest codec a) := by
  cases a with
  | connect n d =>
    simp only [Transfer.step]
    split
    · obtain ⟨-, -, -, hd, hc, -, -⟩ := register_spec w n d true
      refine h.keeps ((register_keeps w n d true).trans (.of_same rfl id fun m => ?_)) hc hd
      exact ⟨rfl, rfl, fun _ => id, rfl, id, id⟩
    · exact h
  | connectOther n d =>
    simp only [Transfer.step]
    split
    · exact h
    · obtain ⟨-, -, -, hd, hc, -, -⟩ := register_spec w n d false
      exact h.keeps (register_keeps w n d false) hc hd
  | requestOther n jobId =>
    simp only [Transfer.step]
    split
    · exact h.keeps (modifySession_keeps w n (f := fun s => { s with requests := s.requests ++ [jobId] })
        fun s => ⟨rfl, rfl, fun x hx => List.mem_append_left _ hx, rfl, id, id⟩) rfl rfl
    · exact h
  | handle n verdict =>
    simp only [Transfer.step]
    split
    · next request requests ho hl hr =>
      have hcalls : SameCalls w ((w.modifySession n fun s => { s with requests := requests }).handleDownloadArtifacts n
          request verdict) := (requests_quiet w n fun _ => requests).calls.trans (handleDownloadArtifacts_calls ..)
      exact hcalls.answered h (handle_keeps hl hr verdict)
    · exact h
  | rejectOut n =>
    simp only [Transfer.step]
    split
    · next jobId reason hl =>
      have hloop : ((w.emit n (.artifactsEnd jobId false reason "")).session n).loop = .reject jobId reason false := by
        unfold emit
        rw [modifySession_get, if_pos rfl]
        exact hl
      refine h.keeps ((emit_keeps w n _).trans (setLoop_keeps _ (by rw [hloop]; simp) fun j r hr => .inl ?_)) rfl rfl
      rw [hloop] at hr
      cases hr
      exact emit_unread hinv.awaits _ _ _ _ _
    · exact h
  | rejectSent n ok =>
    simp only [Transfer.step]
    split
    · next jobId reason out hl =>
      have hne : (w.session n).loop ≠ .ended := by rw [hl]; simp
      split
      · exact h
      next hout =>
      cases ok with
      | true =>
        -- the frame is out: nothing hangs on the loop
        refine h.keeps (setLoop_keeps w hne fun j r hr => ?_) rfl rfl
        rw [hl] at hr
        cases hr
        exact absurd rfl hout
      | false =>
        obtain ⟨hk, hb⟩ := setBroken_keeps w n
        refine h.keeps (hk.trans (setLoop_keeps _ (fun he => hne ?_) fun j r _ => .inr hb)) rfl rfl
        exact ((setBroken_quiet w n).slots.ended n).1 he
    · exact h
  | terminate n =>
    exact h.keeps (modifySession_keeps w n (f := fun s => { s with closing := true })
      fun s => ⟨rfl, rfl, fun _ => id, rfl, fun _ => rfl, id⟩) rfl rfl
  | endLoop n =>
    simp only [Transfer.step]
    split
    · next ho => exact (endLoop_calls w n).answered h (endLoop_keeps hinv.slots ho)
    · exact h
  | out i => exact (stepTask_calls w i _).answered h (stepTask_keeps hinv i _)
  | sent i ok => exact (stepTask_calls w i _).answered h (stepTask_keeps hinv i _)
  | sendRaises i detail => exact (stepTask_calls w i _).answered h (stepTask_keeps hinv i _)
  | begin i => exact (stepTask_calls w i _).answered h (stepTask_keeps hinv i _)
  | packed i result => exact (stepTask_calls w i _).answered h (stepTask_keeps hinv i _)
  | cancelled i => exact (stepTask_calls w i _).answered h (stepTask_keeps hinv i _)
  | stop =>
    intro c call s _ _ _ _ _ hw
    cases hw.running
  | stopDrained =>
    simp only [Transfer.step]
    split
    · exact h.keeps (.of_same rfl id fun m => ⟨rfl, rfl, fun _ => id, rfl, id, id⟩) rfl rfl
    · exact h
  | call jobId => exact h.downloadArtifacts hinv.awaits jobId
  | requestOut c => exact h.stepCall c _
  | requestSent c ok => exact h.stepCall c _
  | deliver => exact h.deliver hinv.awaits
  | disconnect => exact .disconnect
  | finishCall c => exact h.stepCall c _
  | cancelCall c => exact h.stepCall c _

/-- **No download waits for nothing.** In every run, a call whose request is out and which has no
result yet, on a session that neither closed nor failed a send of a sender that runs, is owed its
answer: the request waits to be handled, the receive loop is about to reject it, a live task has
still to send the last frame of an answer, or that frame waits to be read. -/
theorem download_answered (digest : Digest) (codec : ChunkCodec τ) {w : Transfer τ}
    (hw : Runs.Reaches (Transfer.step digest codec) Runs.any {} w) {c : ℕ} {call : DownloadCall}
    {s : DownloadArtifactsState} (hc : w.calls[c]? = some call) (ha : call.point.active = true)
    (hout : call.point ≠ .requesting false) (hs : w.downloads.get? call.jobId = some s) (hf : s.future = none)
    (hworks : w.Works call.session) : w.Owed call.session call.jobId := by
  have hstart : Answered ({} : Transfer τ) := by
    intro c call s hc
    cases hc
  have hboth := hw.invariant (I := fun w => Inv digest codec w ∧ Answered w) ⟨Inv.start digest codec, hstart⟩
    fun u a _ h => ⟨h.1.step a, h.2.step h.1 a⟩
  exact hboth.2 c call s hc ha hout hs hf hworks

theorem download_answered_letter :
    ((oneDownload.take 5).foldl (Transfer.step letterDigest letterCodec) {}).Owed 0 "j" := by
  have hc : ((oneDownload.take 5).foldl (Transfer.step letterDigest letterCodec) {}).calls[0]? =
      some { jobId := "j", session := 0, point := .waiting } := rfl
  have hs : ((oneDownload.take 5).foldl (Transfer.step letterDigest letterCodec) {}).downloads.get? "j" = some {} := rfl
  exact download_answered letterDigest letterCodec (.foldl (oneDownload.take 5) ({} : Transfer (List Char))) hc rfl
    (by simp) hs rfl ⟨rfl, rfl, (by intro h; cases h), rfl⟩

end Transfer

end DeviceBuilder
