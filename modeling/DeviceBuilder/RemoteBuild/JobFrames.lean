import DeviceBuilder.RemoteBuild.Broadcasts

/-!
# The frames of a job

A job's frames wait behind one another in the send lock of its session, and the
fan-out forgets the job at its terminal event.

* `Fanned`: the invariant.
* `Hushed`, `Fanned.hushed`: steps without an event.
* `Fanned.event`: an event joins at most one channel, once.
* `Fanned.step`: the step lemma, for every step.
-/

namespace DeviceBuilder

/-- The event of job `j`. -/
def WireFrame.eventOf (j : JobId) : WireFrame → Option JobEvent
  | .job i _ e => if i = j then some e else none
  | _ => none

namespace FrameWorld

variable {w w' : FrameWorld} {s b : SessionId} {k : ℕ} {R L : List SessionId} {m : WireFrame}
  {st : QueueStatus} {j : JobId}

/-! ### The invariant -/

/-- The events of job `j` on the channel of `s`. -/
def jobStream (w : FrameWorld) (s : SessionId) (j : JobId) : List JobEvent :=
  (w.stream s).filterMap (WireFrame.eventOf j)

/-- The events of job `j` so far. -/
def eventsOf (w : FrameWorld) (j : JobId) : List JobEvent :=
  w.events.filterMap fun p => if p.1 = j then some p.2 else none

/-- No event follows a terminal one. -/
def EndsOnce (l : List JobEvent) : Prop := l.Pairwise fun e _ => e.isTerminal = false

/-- Job frames are events of the job in order, and the fan-out has forgotten a job whose terminal
frame is on a channel. -/
structure Fanned (w : FrameWorld) : Prop where
  sub : ∀ s j, (w.jobStream s j).Sublist (w.eventsOf j)
  once : ∀ s j, EndsOnce (w.jobStream s j)
  forgotten : ∀ s j, ∀ e ∈ w.jobStream s j, e.isTerminal = true → w.remoteJobs.get? j = none
  known : ∀ j, w.jobs.get? j = none → w.remoteJobs.get? j = none
  fresh : ∀ j, w.jobs.get? j = none → w.eventsOf j = []

/-- No event and no job frame is added. -/
structure Hushed (w w' : FrameWorld) : Prop where
  stream : ∀ s j, (w'.jobStream s j).Sublist (w.jobStream s j)
  events : w'.events = w.events
  remoteJobs : w'.remoteJobs = w.remoteJobs
  jobs : ∀ j, w'.jobs.get? j = none ↔ w.jobs.get? j = none

theorem Hushed.trans {u : FrameWorld} (h : w.Hushed w') (h' : w'.Hushed u) : w.Hushed u :=
  ⟨fun s j => (h'.stream s j).trans (h.stream s j), h'.events.trans h.events,
    h'.remoteJobs.trans h.remoteJobs, fun j => (h'.jobs j).trans (h.jobs j)⟩

theorem Hushed.of_channels (hc : w'.channels = w.channels) (he : w'.events = w.events)
    (hr : w'.remoteJobs = w.remoteJobs) (hj : ∀ j, w'.jobs.get? j = none ↔ w.jobs.get? j = none) :
    w.Hushed w' := by
  refine ⟨fun s j => ?_, he, hr, hj⟩
  unfold jobStream FrameWorld.stream
  rw [hc]

theorem Fanned.hushed (h : w.Fanned) (hh : w.Hushed w') : w'.Fanned where
  sub s j := by
    unfold eventsOf
    rw [hh.events]
    exact (hh.stream s j).trans (h.sub s j)
  once s j := (h.once s j).sublist (hh.stream s j)
  forgotten s j e he ht := hh.remoteJobs ▸ h.forgotten s j e ((hh.stream s j).subset he) ht
  known j hj := hh.remoteJobs ▸ h.known j ((hh.jobs j).1 hj)
  fresh j hj := by
    unfold eventsOf
    rw [hh.events]
    exact h.fresh j ((hh.jobs j).1 hj)

theorem jobStream_push (x : SessionId) (j : JobId) : (w.push s m).jobStream x j =
    w.jobStream x j ++ if x = s then (m.eventOf j).toList else [] := by
  unfold jobStream
  rw [push_stream, List.filterMap_append]
  split_ifs with h
  · cases hm : m.eventOf j <;> simp [hm]
  · rfl

theorem hushed_sendAppFrame (hm : ∀ j, m.eventOf j = none) : w.Hushed (w.sendAppFrame s m) := by
  unfold sendAppFrame
  split_ifs
  · exact Hushed.of_channels rfl rfl rfl fun _ => Iff.rfl
  · refine ⟨fun x j => ?_, rfl, rfl, fun _ => Iff.rfl⟩
    rw [jobStream_push, hm]
    split_ifs <;> exact (List.append_nil _).symm ▸ List.Sublist.refl _

theorem hushed_broadcast : w.Hushed (w.broadcast k st L) := by
  induction L with
  | nil => exact Hushed.of_channels rfl rfl rfl fun _ => Iff.rfl
  | cons x L ih =>
    have hx := hushed_sendAppFrame (w := w) (s := x) (m := .queueStatus k st L) fun _ => rfl
    unfold sendAppFrame at hx
    unfold FrameWorld.broadcast
    split_ifs with hc
    · exact ih
    · rwa [if_neg hc] at hx

theorem hushed_transition : w.Hushed w.onFirmwareQueueTransition := by
  refine Hushed.trans ?_ hushed_broadcast
  exact Hushed.of_channels rfl rfl rfl fun _ => Iff.rfl

theorem hushed_sendInitial : w.Hushed (w.sendInitialQueueStatus s) := by
  refine Hushed.trans ?_ (hushed_sendAppFrame fun _ => rfl)
  exact Hushed.of_channels rfl rfl rfl fun _ => Iff.rfl

/-- A change to one channel that adds no job frame. -/
theorem hushed_setChannel {f : SendChannel → SendChannel} (h : ∀ c j,
    (((f c).sent ++ (f c).waiting).filterMap (WireFrame.eventOf j)).Sublist
      ((c.sent ++ c.waiting).filterMap (WireFrame.eventOf j))) : w.Hushed (w.setChannel s f) := by
  refine ⟨fun x j => ?_, rfl, rfl, fun _ => Iff.rfl⟩
  have hx : (w.setChannel s f).channels x = if x = s then f (w.channels s) else w.channels x :=
    Function.update_apply _ _ _ _
  unfold jobStream FrameWorld.stream
  rw [hx]
  split_ifs with hx
  · rw [hx]
    exact h _ j
  · exact List.Sublist.refl _

theorem hushed_terminate : w.Hushed (w.terminate s) := by
  unfold terminate
  split_ifs
  · exact Hushed.of_channels rfl rfl rfl fun _ => Iff.rfl
  · refine hushed_setChannel fun c j => ?_
    dsimp only
    rw [← List.append_assoc, List.filterMap_append,
      show [WireFrame.terminate].filterMap (WireFrame.eventOf j) = [] from rfl, List.append_nil]

theorem hushed_write : w.Hushed (w.write b) := by
  cases hm : (w.channels b).waiting with
  | nil =>
    unfold FrameWorld.write
    rw [hm]
    exact Hushed.of_channels rfl rfl rfl fun _ => Iff.rfl
  | cons m ms =>
    have hserved : w.Hushed (w.served b m ms) := by
      refine ⟨fun x j => ?_, rfl, rfl, fun _ => Iff.rfl⟩
      exact (served_stream hm x).filterMap _
    cases m with
    | queueStatus k st R =>
      rw [write_status hm]
      exact hserved.trans hushed_broadcast
    | _ => exact write_other hm rfl ▸ hserved

theorem hushed_register (d : DashboardId) : w.Hushed (w.registerPeerLinkSession d) := by
  have hi : w.Hushed (w.installed d) := by
    refine ⟨fun x j => ?_, rfl, rfl, fun _ => Iff.rfl⟩
    have hx : (w.installed d).channels x =
        if x = w.opened then { dashboardId := d } else w.channels x := Function.update_apply _ _ _ _
    unfold jobStream FrameWorld.stream
    rw [hx]
    split_ifs
    · exact List.nil_sublist _
    · exact List.Sublist.refl _
  rcases register_cases w d with he | ⟨x, -, he⟩
  · rw [he]
    exact hi.trans hushed_sendInitial
  · rw [he]
    exact (hi.trans hushed_terminate).trans (Hushed.of_channels rfl rfl rfl fun _ => Iff.rfl)

/-! ### Events -/

theorem eventOf_job (r : String) (e : JobEvent) (i : JobId) :
    (WireFrame.job j r e).eventOf i = if j = i then some e else none := rfl

theorem jobStream_dispatch (peer : DashboardId) (r : String) (e : JobEvent) (x : SessionId)
    (i : JobId) : (w.dispatch j peer r e).jobStream x i = w.jobStream x i ∨
      i = j ∧ (w.dispatch j peer r e).jobStream x i = w.jobStream x i ++ [e] := by
  unfold dispatch sendAppFrame
  split
  · exact Or.inl rfl
  · split_ifs
    · exact Or.inl rfl
    · rw [jobStream_push]
      split_ifs with hx
      · rw [eventOf_job]
        split_ifs with hi
        · exact Or.inr ⟨hi.symm, rfl⟩
        · exact Or.inl (List.append_nil _)
      · exact Or.inl (List.append_nil _)

theorem dispatch_kept (peer : DashboardId) (r : String) (e : JobEvent) :
    (w.dispatch j peer r e).events = w.events ∧
      (w.dispatch j peer r e).remoteJobs = w.remoteJobs ∧
      (w.dispatch j peer r e).jobs = w.jobs := by
  unfold dispatch sendAppFrame
  split
  · exact ⟨rfl, rfl, rfl⟩
  · split_ifs <;> exact ⟨rfl, rfl, rfl⟩

theorem eventsOf_append {u : FrameWorld} {e : JobEvent} {i : JobId}
    (hu : u.events = w.events ++ [(j, e)]) :
    u.eventsOf i = w.eventsOf i ++ if j = i then [e] else [] := by
  unfold eventsOf
  rw [hu, List.filterMap_append]
  congr 1
  split_ifs with h <;> simp [h]

/-- An event joins the channels of at most its own job. -/
theorem Fanned.event (h : w.Fanned) {u : FrameWorld} {e : JobEvent}
    (hu : u.events = w.events ++ [(j, e)])
    (hs : ∀ s i, u.jobStream s i = w.jobStream s i ∨
      i = j ∧ u.jobStream s i = w.jobStream s i ++ [e] ∧
        ∀ a ∈ w.jobStream s j, a.isTerminal = false)
    (hr : ∀ i, i ≠ j → u.remoteJobs.get? i = w.remoteJobs.get? i)
    (he : e.isTerminal = true → u.remoteJobs.get? j = none)
    (hd : (∃ s, ∃ a ∈ w.jobStream s j, a.isTerminal = true) → u.remoteJobs.get? j = none)
    (hj : ∀ i, u.jobs.get? i = none → w.jobs.get? i = none ∧ i ≠ j) : u.Fanned where
  sub s i := by
    rw [eventsOf_append hu]
    rcases hs s i with hs | ⟨rfl, hs, -⟩
    · rw [hs]
      exact (h.sub s i).trans (List.sublist_append_left _ _)
    · rw [hs, if_pos rfl]
      exact (h.sub s i).append (List.Sublist.refl _)
  once s i := by
    rcases hs s i with hs | ⟨rfl, hs, hopen⟩
    · rw [hs]
      exact h.once s i
    · rw [hs]
      exact List.pairwise_append.2
        ⟨h.once s i, List.pairwise_singleton _ _, fun a ha _ _ => hopen a ha⟩
  forgotten s i a ha ht := by
    have hold : a ∈ w.jobStream s i → u.remoteJobs.get? i = none := fun ha => by
      by_cases hi : i = j
      · subst hi
        exact hd ⟨s, a, ha, ht⟩
      · rw [hr i hi]
        exact h.forgotten s i a ha ht
    rcases hs s i with hs | ⟨rfl, hs, -⟩
    · exact hold (hs ▸ ha)
    · rw [hs] at ha
      rcases List.mem_append.1 ha with ha | ha
      · exact hold ha
      · exact he (List.mem_singleton.1 ha ▸ ht)
  known i hi := by
    obtain ⟨hw, hne⟩ := hj i hi
    rw [hr i hne]
    exact h.known i hw
  fresh i hi := by
    obtain ⟨hw, hne⟩ := hj i hi
    rw [eventsOf_append hu, if_neg (Ne.symm hne), List.append_nil]
    exact h.fresh i hw

theorem Fanned.fire (h : w.Fanned) (hj : w.jobs.get? j ≠ none) (e : JobEvent) :
    (w.fire j e).Fanned := by
  set v : FrameWorld := if e.isTerminal then
    { w with events := w.events ++ [(j, e)], remoteJobs := w.remoteJobs.erase j }
    else { w with events := w.events ++ [(j, e)] } with hv
  have hvs : v.events = w.events ++ [(j, e)] ∧ v.channels = w.channels ∧ v.jobs = w.jobs ∧
      (e.isTerminal = true → v.remoteJobs.get? j = none) ∧
      (e.isTerminal = false → v.remoteJobs = w.remoteJobs) ∧
      ∀ i, i ≠ j → v.remoteJobs.get? i = w.remoteJobs.get? i := by
    rw [hv]
    cases he : e.isTerminal with
    | false => exact ⟨rfl, rfl, rfl, by simp, fun _ => rfl, fun _ _ => rfl⟩
    | true =>
      have hj : (w.remoteJobs.erase j).get? j = none := by rw [Dict.get?_erase, if_pos rfl]
      exact ⟨rfl, rfl, rfl, fun _ => hj, by simp, fun i hi => Dict.get?_erase_ne hi⟩
  obtain ⟨hev, hch, hjobs, ht, hnt, hne⟩ := hvs
  have hstream : ∀ s i, v.jobStream s i = w.jobStream s i := fun s i => by
    unfold jobStream stream
    rw [hch]
  have hnone : w.remoteJobs.get? j = none → v.remoteJobs.get? j = none := fun hn => by
    cases he : e.isTerminal with
    | true => exact ht he
    | false => rw [hnt he, hn]
  have hd : (∃ s, ∃ a ∈ w.jobStream s j, a.isTerminal = true) → v.remoteJobs.get? j = none :=
    by
      rintro ⟨s, a, ha, hat⟩
      exact hnone (h.forgotten s j a ha hat)
  have hjob : ∀ i, v.jobs.get? i = none → w.jobs.get? i = none ∧ i ≠ j := fun i hi => by
    rw [hjobs] at hi
    exact ⟨hi, fun e => hj (e ▸ hi)⟩
  cases hentry : w.remoteJobs.get? j with
  | none =>
    have hfire : w.fire j e = v := by simp only [FrameWorld.fire, onEvent, hentry, hv]
    rw [hfire]
    exact h.event hev (fun s i => Or.inl (hstream s i)) hne ht hd hjob
  | some p =>
    have hfire : w.fire j e = v.dispatch j p.1 p.2 e := by simp only [FrameWorld.fire, onEvent, hentry, hv]
    rw [hfire]
    obtain ⟨hde, hdr, hdj⟩ := @dispatch_kept v j p.1 p.2 e
    refine h.event (hde.trans hev) (fun s i => ?_) (fun i hi => by rw [hdr]; exact hne i hi)
      (fun he => by rw [hdr]; exact ht he) (fun hx => by rw [hdr]; exact hd hx)
      (fun i hi => hjob i (hdj ▸ hi))
    rcases jobStream_dispatch (w := v) p.1 p.2 e s i with hs | ⟨hi, hs⟩
    · exact Or.inl (hs.trans (hstream s i))
    · refine Or.inr ⟨hi, hs.trans (by rw [hstream]), fun a ha => ?_⟩
      rw [Bool.eq_false_iff]
      intro hat
      rw [h.forgotten s j a ha hat] at hentry
      cases hentry

theorem Fanned.announce (h : w.Fanned) {u : FrameWorld} (job : LaneJob)
    (hj : w.jobs.get? j = none) (hu : u.events = w.events ++ [(j, .state .queued "" .none)])
    (hc : u.channels = w.channels) (hr : u.remoteJobs = w.remoteJobs)
    (hjobs : ∀ i, u.jobs.get? i = none → w.jobs.get? i = none ∧ i ≠ j) :
    (u.onQueued j job).Fanned := by
  have hempty : ∀ s, w.jobStream s j = [] := fun s => by
    have := h.sub s j
    rw [h.fresh j hj] at this
    exact List.sublist_nil.1 this
  have hstream : ∀ s i, u.jobStream s i = w.jobStream s i := fun s i => by
    unfold jobStream stream
    rw [hc]
  have hd : ∀ {v : FrameWorld}, (∃ s, ∃ a ∈ w.jobStream s j, a.isTerminal = true) →
      v.remoteJobs.get? j = none := fun ⟨s, a, ha, _⟩ => by
    rw [hempty s] at ha
    cases ha
  unfold onQueued
  split_ifs
  · exact h.event hu (fun s i => Or.inl (hstream s i)) (fun i _ => by rw [hr])
      (fun he => by cases he) hd hjobs
  · set v : FrameWorld := { u with
      remoteJobs := u.remoteJobs.set j (job.remotePeer, job.remoteJobId) } with hv
    obtain ⟨hde, hdr, hdj⟩ :=
      @dispatch_kept v j job.remotePeer job.remoteJobId (.state .queued "" .none)
    refine h.event (hde.trans hu) (fun s i => ?_) (fun i hi => ?_) (fun he => by cases he) hd
      (fun i hi => hjobs i (hdj ▸ hi))
    · rcases jobStream_dispatch (w := v) job.remotePeer job.remoteJobId
          (.state .queued "" .none) s i with hs | ⟨hi, hs⟩
      · exact Or.inl (hs.trans (hstream s i))
      · refine Or.inr ⟨hi, hs.trans (congrArg (· ++ _) (hstream s i)), fun a ha => ?_⟩
        rw [hempty s] at ha
        cases ha
    · rw [hdr, hv]
      exact (Dict.get?_set_ne hi).trans (by rw [hr])

/-! ### The step lemma of the fan-out -/

theorem get?_setStatus (status : JobStatus) (i : JobId) :
    (w.setStatus j status).jobs.get? i = none ↔ w.jobs.get? i = none := by
  unfold setStatus
  dsimp only
  rw [Dict.get?_adjust]
  split_ifs
  · exact Option.map_eq_none_iff
  · exact Iff.rfl

theorem Fanned.beginRun (h : w.Fanned) (hj : w.jobs.get? j ≠ none) : (w.beginRun j).Fanned := by
  have hs : (w.setStatus j .running).Fanned :=
    h.hushed (Hushed.of_channels rfl rfl rfl (get?_setStatus _))
  exact (hs.fire (fun hn => hj ((get?_setStatus _ _).1 hn)) _).hushed hushed_transition

theorem Fanned.runLane (h : w.Fanned) : w.runLane.Fanned := by
  unfold FrameWorld.runLane
  split
  · rename_i i q _ _
    split_ifs with hc
    · exact h.hushed (Hushed.of_channels rfl rfl rfl fun _ => Iff.rfl)
    · have hw : ({ w with laneQueue := q, active := [i] } : FrameWorld).Fanned :=
        h.hushed (Hushed.of_channels rfl rfl rfl fun _ => Iff.rfl)
      refine hw.beginRun fun hn => hc ?_
      unfold isCancelled
      rw [show w.jobs.get? i = none from hn]
      rfl
  · exact h

theorem Fanned.finalizeTerminal (h : w.Fanned) (status : JobStatus) (error : String)
    (reason : JobFailureReason) : (w.finalizeTerminal j status error reason).Fanned := by
  unfold FrameWorld.finalizeTerminal
  by_cases hj : (w.jobs.get? j).isSome = true ∧ status.isTerminal = true
  · rw [if_pos hj]
    refine Fanned.hushed (Fanned.fire ?_ (fun hn => ?_) _) hushed_transition
    · exact h.hushed (Hushed.of_channels rfl rfl rfl (get?_setStatus _))
    · rw [(get?_setStatus status j).1 hn] at hj
      cases hj.1
  · rw [if_neg hj]
    exact h

theorem Fanned.placeAndAnnounce (h : w.Fanned) (job : LaneJob) (onLane : Bool) :
    (w.placeAndAnnounce j job onLane).Fanned := by
  unfold FrameWorld.placeAndAnnounce
  by_cases hj : w.jobs.get? j = none
  · rw [if_pos hj]
    refine Fanned.hushed ?_ hushed_transition
    refine h.announce job hj rfl rfl rfl fun i hi => ?_
    have hi' : (w.jobs.set j { job with status := .queued }).get? i = none := hi
    rw [Dict.get?_set] at hi'
    split_ifs at hi' with hij
    exact ⟨hi', hij⟩
  · rw [if_neg hj]
    exact h

/-- **The step lemma of the fan-out**, for every step. -/
theorem Fanned.step (h : w.Fanned) (action : FrameAction) : (w.step action).Fanned := by
  have same : ∀ {u : FrameWorld}, w.Hushed u → u.Fanned := h.hushed
  have quiet : w.Hushed w := Hushed.of_channels rfl rfl rfl fun _ => Iff.rfl
  cases action with
  | placeAndAnnounce j job onLane => exact h.placeAndAnnounce job onLane
  | placeOnLane j =>
    unfold FrameWorld.step placeOnLane
    dsimp only
    split_ifs
    exacts [same (Hushed.of_channels rfl rfl rfl fun _ => Iff.rfl), h]
  | runLane => exact h.runLane
  | beginRun j =>
    unfold FrameWorld.step
    dsimp only
    split_ifs with hj
    · exact h.beginRun fun hn => by rw [hn] at hj; cases hj
    · exact h
  | output j line =>
    unfold FrameWorld.step
    dsimp only
    split_ifs with hj
    · exact h.fire (fun hn => by rw [hn] at hj; cases hj) _
    · exact h
  | markCancelled j =>
    unfold FrameWorld.step markCancelled
    dsimp only
    split_ifs
    exacts [same (Hushed.of_channels rfl rfl rfl (get?_setStatus _)), h]
  | finalizeTerminal j status error reason => exact h.finalizeTerminal status error reason
  | register d => exact same (hushed_register d)
  | announce s x =>
    unfold FrameWorld.step announceSession
    dsimp only
    split_ifs
    · refine same (Hushed.trans ?_ hushed_sendInitial)
      exact Hushed.of_channels rfl rfl rfl fun _ => Iff.rfl
    · exact h
  | terminate s =>
    unfold FrameWorld.step
    dsimp only
    split_ifs
    exacts [same hushed_terminate, h]
  | peerTerminate s =>
    unfold FrameWorld.step
    dsimp only
    split_ifs
    exacts [same (hushed_setChannel fun _ _ => List.Sublist.refl _), h]
  | wsClose s =>
    unfold FrameWorld.step
    dsimp only
    split_ifs
    exacts [same (hushed_setChannel fun _ _ => List.Sublist.refl _), h]
  | unregister s =>
    unfold FrameWorld.step unregisterPeerLinkSession
    dsimp only
    split_ifs
    exacts [same (Hushed.of_channels rfl rfl rfl fun _ => Iff.rfl), h]
  | sendOther s =>
    unfold FrameWorld.step
    dsimp only
    split_ifs
    exacts [same (hushed_sendAppFrame fun _ => rfl), h]
  | write s => exact same hushed_write

end FrameWorld

end DeviceBuilder
