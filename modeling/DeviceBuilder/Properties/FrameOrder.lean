import DeviceBuilder.RemoteBuild.JobFrames
import DeviceBuilder.Lib.Runs

/-!
# The frames of a session

Frames a session receives arrive in order. For a job's frames this always holds.
For the status it rests on the broadcasts: an older one that waits at a slow
session is overtaken by a newer one that passes that session by, and the compile
lane can change without an event.

* `step_moves`: what a step does to the statuses.
* `Settled`: the newest status for an open session is the current one.
* `frames_ordered`: in a run without these steps every session receives its
  status frames in order, and the last is current once nothing is under way.
* `broadcast_overtaken`: one slow session, and another is left with a stale status.
-/

namespace DeviceBuilder

open Runs

namespace FrameWorld

variable {w w' : FrameWorld} {s a b x : SessionId} {k i : ℕ} {R L : List SessionId} {m : WireFrame}
  {st : QueueStatus} {j : JobId}

/-! ### Steps that keep the order -/

/-- The compile lane may change without an event: no session looks, or a `JOB_CANCELLED` is still
to come. -/
def Unwatched (w : FrameWorld) : Prop := w.registered = [] ∨ w.cancelling ≠ []

/-- The step neither overtakes an older status nor changes the compile lane in silence. -/
def KeepsOrder (w : FrameWorld) : FrameAction → Prop
  | .placeAndAnnounce j _ _ => w.jobs.get? j = none → w.Follows
  | .placeOnLane _ => w.Unwatched
  | .runLane =>
    match w.active, w.laneQueue with
    | [], j :: _ => if w.isCancelled j then w.Unwatched else w.Follows
    | _, _ => True
  | .beginRun j => (w.jobs.get? j).isSome → w.Follows
  | .finalizeTerminal j status _ _ => (w.jobs.get? j).isSome ∧ status.isTerminal → w.Follows
  | .announce s _ => ∀ t ∈ w.walks, s ∉ w.ahead t.2.2
  | .write s => w.Passes s
  | _ => True

instance : Decidable w.Follows :=
  inferInstanceAs (Decidable (∀ t ∈ w.walks, w.ahead t.2.2 = [] ∨
    (∀ x ∈ t.2.1 :: w.ahead t.2.2, x ∈ w.registered) ∧ t.2.1 ∉ w.registered.takeWhile w.isClosing))

instance : Decidable w.Unwatched :=
  inferInstanceAs (Decidable (w.registered = [] ∨ w.cancelling ≠ []))

instance : Decidable (w.Passes s) := by
  unfold Passes
  split <;> infer_instance

instance (action : FrameAction) : Decidable (w.KeepsOrder action) :=
  match action with
  | .placeAndAnnounce j _ _ => inferInstanceAs (Decidable (w.jobs.get? j = none → w.Follows))
  | .placeOnLane _ => inferInstanceAs (Decidable w.Unwatched)
  | .runLane => by
    unfold KeepsOrder
    dsimp only
    split
    · exact inferInstanceAs (Decidable (if w.isCancelled _ then w.Unwatched else w.Follows))
    · exact inferInstanceAs (Decidable True)
  | .beginRun j => inferInstanceAs (Decidable ((w.jobs.get? j).isSome → w.Follows))
  | .finalizeTerminal j status _ _ =>
    inferInstanceAs (Decidable ((w.jobs.get? j).isSome ∧ status.isTerminal → w.Follows))
  | .announce s _ => inferInstanceAs (Decidable (∀ t ∈ w.walks, s ∉ w.ahead t.2.2))
  | .write s => inferInstanceAs (Decidable (w.Passes s))
  | .output _ _ | .markCancelled _ | .register _ | .terminate _ | .peerTerminate _ | .wsClose _
  | .unregister _ | .sendOther _ => inferInstanceAs (Decidable True)

/-- Frames of the fan-out do not close a channel. -/
theorem isClosing_sendAppFrame (x : SessionId) :
    (w.sendAppFrame s m).isClosing x = w.isClosing x := by
  unfold sendAppFrame
  split_ifs
  · rfl
  · exact push_isClosing

theorem isClosing_dispatch (peer : DashboardId) (r : String) (e : JobEvent) (x : SessionId) :
    (w.dispatch j peer r e).isClosing x = w.isClosing x := by
  unfold dispatch
  split
  · rfl
  · exact isClosing_sendAppFrame x

theorem isClosing_onQueued (job : LaneJob) (x : SessionId) :
    (w.onQueued j job).isClosing x = w.isClosing x := by
  unfold onQueued
  split_ifs
  · rfl
  · exact isClosing_dispatch _ _ _ x

theorem isClosing_fire (e : JobEvent) (x : SessionId) :
    (w.fire j e).isClosing x = w.isClosing x := by
  unfold fire onEvent
  dsimp only
  split <;> split_ifs <;> first | rfl | exact isClosing_dispatch _ _ _ x

theorem sendAppFrame_lane : (w.sendAppFrame s m).compileQueueStatus = w.compileQueueStatus ∧
    (w.sendAppFrame s m).cancelling = w.cancelling := by
  unfold sendAppFrame
  split_ifs <;> exact ⟨rfl, rfl⟩

theorem fire_lane (e : JobEvent) : (w.fire j e).compileQueueStatus = w.compileQueueStatus ∧
    (w.fire j e).cancelling = w.cancelling := by
  unfold fire onEvent dispatch
  dsimp only
  split
  · split_ifs <;> exact ⟨rfl, rfl⟩
  · split
    · split_ifs <;> exact ⟨rfl, rfl⟩
    · have := @sendAppFrame_lane
      split_ifs <;> exact ⟨this.1.trans rfl, this.2.trans rfl⟩

/-- A change of the firmware's own state, then an event's frames. -/
structure Firmware (w w' : FrameWorld) : Prop extends w.Echo w' where
  isClosing : ∀ x, w'.isClosing x = w.isClosing x

theorem Follows.firmware (hf : w.Follows) (h : w.Ordered) (he : w.Firmware w') : w'.Follows := by
  have hahead : ∀ R, w'.ahead R = w.ahead R := fun R => by
    unfold ahead
    congr 1
    funext x
    rw [he.isClosing]
  intro t ht
  have hw' : w'.Walk t.1 t.2.1 t.2.2 := by
    obtain ⟨a, -, hm⟩ := List.mem_flatMap.1 ht
    obtain ⟨m, hmem, hmt⟩ := List.mem_filterMap.1 hm
    cases m with
    | queueStatus k st R =>
      cases hmt
      exact ⟨st, hmem⟩
    | _ => cases hmt
  have := hf t (h.mem_walks (he.walk.1 hw'))
  rw [hahead, he.registered, show w'.isClosing = w.isClosing from funext he.isClosing]
  exact this

theorem firmware_fire (h : w.Ordered) (e : JobEvent) {u : FrameWorld}
    (hc : u.channels = w.channels) (hk : u.compiled = w.compiled) (ho : u.opened = w.opened)
    (hp : u.peerLinkSessions = w.peerLinkSessions) (hr : u.registering = w.registering) :
    w.Firmware (u.fire j e) where
  toEcho := by
    have hu : w.Echo u := Echo.of_channels hc hk ho hp hr
    refine hu.trans (echo_fire (fun s hs => ?_) e j)
    rw [ho]
    exact h.known s (hu.registered ▸ hs)
  isClosing x := by
    rw [isClosing_fire, isClosing, hc, isClosing]

theorem firmware_onQueued (h : w.Ordered) (job : LaneJob) {u : FrameWorld}
    (hc : u.channels = w.channels) (hk : u.compiled = w.compiled) (ho : u.opened = w.opened)
    (hp : u.peerLinkSessions = w.peerLinkSessions) (hr : u.registering = w.registering) :
    w.Firmware (u.onQueued j job) where
  toEcho := by
    have hu : w.Echo u := Echo.of_channels hc hk ho hp hr
    refine hu.trans (echo_onQueued (fun s hs => ?_) j job)
    rw [ho]
    exact h.known s (hu.registered ▸ hs)
  isClosing x := by
    rw [isClosing_onQueued, isClosing, hc, isClosing]

/-- What a step does to the statuses: at most one is compiled. -/
inductive Moves (w : FrameWorld) : FrameAction → FrameWorld → Prop
  /-- Nothing is compiled or sent, and the lane's status stays unless the step is silent. -/
  | quiet {action : FrameAction} {u : FrameWorld} (he : w.Echo u)
      (hs : u.compileQueueStatus = w.compileQueueStatus ∧
          (u.cancelling = w.cancelling ∨ u.cancelling ≠ []) ∨
        (w.KeepsOrder action → w.Unwatched) ∧ u.cancelling = w.cancelling) : Moves w action u
  /-- An event has changed the firmware's state and is broadcast. -/
  | transition {action : FrameAction} {u : FrameWorld} (he : w.Firmware u)
      (hf : w.KeepsOrder action → w.Follows) : Moves w action u.onFirmwareQueueTransition
  | install (d : DashboardId) : Moves w (.register d) (w.registerPeerLinkSession d)
  | announce {s x : SessionId} (hr : (s, x) ∈ w.registering) : Moves w (.announce s x)
      ({ w with registering := w.registering.erase (s, x) }.sendInitialQueueStatus s)
  | unregister (s : SessionId) : Moves w (.unregister s) (w.unregisterPeerLinkSession s)
  | write (s : SessionId) : Moves w (.write s) (w.write s)

theorem Moves.refl (w : FrameWorld) (action : FrameAction) : w.Moves action w :=
  .quiet (Echo.refl w) (Or.inl ⟨rfl, Or.inl rfl⟩)

theorem moves_runLane (h : w.Ordered) : w.Moves .runLane w.runLane := by
  unfold runLane
  split
  · rename_i j q ha hq
    split_ifs with hc
    · refine .quiet (Echo.of_channels rfl rfl rfl rfl rfl) (Or.inr ⟨fun hk => ?_, rfl⟩)
      unfold KeepsOrder at hk
      rw [ha, hq] at hk
      exact (if_pos hc).mp hk
    · refine .transition (firmware_fire h _ rfl rfl rfl rfl rfl) fun hk => ?_
      unfold KeepsOrder at hk
      rw [ha, hq] at hk
      exact (if_neg hc).mp hk
  · exact Moves.refl w _

/-- **What a step does.** -/
theorem step_moves (h : w.Ordered) (action : FrameAction) : w.Moves action (w.step action) := by
  cases action with
  | placeAndAnnounce j job onLane =>
    unfold step placeAndAnnounce
    dsimp only
    by_cases hj : w.jobs.get? j = none
    · rw [if_pos hj]
      exact .transition (firmware_onQueued h _ rfl rfl rfl rfl rfl) fun hk => hk hj
    · rw [if_neg hj]
      exact Moves.refl w _
  | placeOnLane j =>
    unfold step placeOnLane
    dsimp only
    split_ifs
    · exact .quiet (Echo.of_channels rfl rfl rfl rfl rfl) (Or.inr ⟨id, rfl⟩)
    · exact Moves.refl w _
  | runLane => exact moves_runLane h
  | beginRun j =>
    unfold step
    dsimp only
    split_ifs with hj
    · exact .transition (firmware_fire h _ rfl rfl rfl rfl rfl) fun hk => hk hj
    · exact Moves.refl w _
  | output j line =>
    unfold step
    dsimp only
    split_ifs
    · exact .quiet (echo_fire h.known _ j) (Or.inl ⟨(fire_lane _).1, Or.inl (fire_lane _).2⟩)
    · exact Moves.refl w _
  | markCancelled j =>
    unfold step markCancelled
    dsimp only
    split_ifs
    · refine .quiet (Echo.of_channels rfl rfl rfl rfl rfl) (Or.inl ⟨rfl, Or.inr ?_⟩)
      exact List.append_ne_nil_of_right_ne_nil _ (List.cons_ne_nil _ _)
    · exact Moves.refl w _
  | finalizeTerminal j status error reason =>
    unfold step finalizeTerminal
    dsimp only
    by_cases hj : (w.jobs.get? j).isSome = true ∧ status.isTerminal = true
    · rw [if_pos hj]
      exact .transition (firmware_fire h _ rfl rfl rfl rfl rfl) fun hk => hk hj
    · rw [if_neg hj]
      exact Moves.refl w _
  | register d => exact .install d
  | announce s x =>
    unfold step announceSession
    dsimp only
    split_ifs with hr
    · exact .announce hr.1
    · exact Moves.refl w _
  | terminate s =>
    unfold step
    dsimp only
    split_ifs with hs
    · refine .quiet (echo_terminate hs) (Or.inl ?_)
      unfold terminate
      split_ifs <;> exact ⟨rfl, Or.inl rfl⟩
    · exact Moves.refl w _
  | peerTerminate s =>
    unfold step
    dsimp only
    split_ifs with hs
    · exact .quiet (echo_setChannel hs fun c => ⟨rfl, rfl, fun _ => rfl, id⟩)
        (Or.inl ⟨rfl, Or.inl rfl⟩)
    · exact Moves.refl w _
  | wsClose s =>
    unfold step
    dsimp only
    split_ifs with hs
    · exact .quiet (echo_setChannel hs fun c => ⟨rfl, rfl, id, fun _ => rfl⟩)
        (Or.inl ⟨rfl, Or.inl rfl⟩)
    · exact Moves.refl w _
  | unregister s => exact .unregister s
  | sendOther s =>
    unfold step
    dsimp only
    split_ifs with hs
    · refine .quiet (echo_sendAppFrame hs rfl) (Or.inl ?_)
      exact ⟨sendAppFrame_lane.1, Or.inl sendAppFrame_lane.2⟩
    · exact Moves.refl w _
  | write s => exact .write s

/-! ### What broadcasts leave alone -/

theorem broadcast_kept : (w.broadcast k st L).compileQueueStatus = w.compileQueueStatus ∧
    (w.broadcast k st L).cancelling = w.cancelling ∧
    (w.broadcast k st L).registering = w.registering ∧
    (w.broadcast k st L).opened = w.opened ∧ (w.broadcast k st L).registered = w.registered ∧
    (∀ x, (w.broadcast k st L).isClosing x = w.isClosing x) ∧
    ∀ x, ((w.broadcast k st L).channels x).wsClosed = (w.channels x).wsClosed := by
  induction L with
  | nil => exact ⟨rfl, rfl, rfl, rfl, rfl, fun _ => rfl, fun _ => rfl⟩
  | cons s L ih =>
    unfold FrameWorld.broadcast
    split_ifs
    · exact ih
    · refine ⟨rfl, rfl, rfl, rfl, rfl, fun _ => push_isClosing, fun x => ?_⟩
      rw [push_channels]
      split_ifs with hx
      · rw [hx]
      · rfl

theorem sendInitial_kept : (w.sendInitialQueueStatus s).registering = w.registering ∧
    (w.sendInitialQueueStatus s).opened = w.opened ∧
    (w.sendInitialQueueStatus s).registered = w.registered ∧
    (∀ x, (w.sendInitialQueueStatus s).isClosing x = w.isClosing x) ∧
    ∀ x, ((w.sendInitialQueueStatus s).channels x).wsClosed = (w.channels x).wsClosed := by
  unfold sendInitialQueueStatus sendAppFrame
  split_ifs
  · exact ⟨rfl, rfl, rfl, fun _ => rfl, fun _ => rfl⟩
  · refine ⟨rfl, rfl, rfl, fun _ => push_isClosing, fun x => ?_⟩
    rw [push_channels]
    split_ifs with hx
    · rw [hx]
    · rfl

/-- Sessions under registration have been opened. -/
def Known (w : FrameWorld) : Prop := ∀ p ∈ w.registering, p.1 < w.opened

theorem Ordered.installed (h : w.Ordered) (d : DashboardId) : (w.installed d).Ordered := h.install d

theorem Ordered.register (h : w.Ordered) (d : DashboardId) :
    (w.registerPeerLinkSession d).Ordered := by
  have hi := h.installed d
  rcases register_cases w d with he | ⟨x, hx, he⟩
  · rw [he]
    refine hi.sendInitial (Nat.lt_succ_self _) fun {k a R} hw hm => ?_
    have hold : w.Walk k a R := by
      obtain ⟨st, hst⟩ := hw
      refine ⟨st, ?_⟩
      unfold FrameWorld.installed at hst
      dsimp only at hst
      rw [Function.update_apply] at hst
      split_ifs at hst
      · cases hst
      · exact hst
    exact Nat.lt_irrefl _ (h.opened hold _ (List.mem_cons_of_mem _ (ahead_sublist.subset hm)))
  · rw [he]
    have hlt : x < (w.installed d).opened :=
      Nat.lt_succ_of_lt (h.known x (Dict.mem_values.2 ⟨d, hx⟩))
    have ht := hi.echo (echo_terminate hlt)
    exact ⟨ht.sorted, ht.below, ht.reached, ht.behind, ht.alone, ht.nodup, ht.opened, ht.order,
      ht.registered, ht.known, ht.fresh⟩

theorem Ordered.forget (h : w.Ordered) (r : List (SessionId × SessionId)) :
    ({ w with registering := r } : FrameWorld).Ordered :=
  ⟨h.sorted, h.below, h.reached, h.behind, h.alone, h.nodup, h.opened, h.order, h.registered,
    h.known, h.fresh⟩

/-- **The step lemma of the order.** -/
theorem Moves.ordered {action : FrameAction} (hm : w.Moves action w') (h : w.Ordered)
    (hkn : w.Known) (hk : w.KeepsOrder action) : w'.Ordered := by
  cases hm with
  | quiet he _ => exact h.echo he
  | transition he hf => exact (h.echo he.toEcho).transition ((hf hk).firmware h he)
  | install d => exact h.register d
  | announce hr =>
    refine (h.forget _).sendInitial (hkn _ hr) fun {k a R} hw => ?_
    exact hk _ (h.mem_walks (show w.Walk k a R from hw))
  | unregister s => exact h.unregister s
  | write s => exact h.write hk

theorem write_kept (s : SessionId) : (w.write s).registering = w.registering ∧
    (w.write s).opened = w.opened ∧ (w.write s).registered = w.registered ∧
    (w.write s).compileQueueStatus = w.compileQueueStatus ∧
    (w.write s).cancelling = w.cancelling := by
  cases hm : (w.channels s).waiting with
  | nil =>
    unfold FrameWorld.write
    rw [hm]
    exact ⟨rfl, rfl, rfl, rfl, rfl⟩
  | cons m ms =>
    cases m with
    | queueStatus k st R =>
      rw [write_status hm]
      obtain ⟨h1, h2, h3, h4, h5, -⟩ := @broadcast_kept (w.served s (.queueStatus k st R) ms) k R st
      exact ⟨h3, h4, h5, h1, h2⟩
    | _ =>
      rw [write_other hm rfl]
      exact ⟨rfl, rfl, rfl, rfl, rfl⟩

theorem unregister_kept (s : SessionId) :
    (w.unregisterPeerLinkSession s).registering = w.registering ∧
    (w.unregisterPeerLinkSession s).opened = w.opened := by
  unfold unregisterPeerLinkSession
  split_ifs <;> exact ⟨rfl, rfl⟩

theorem Moves.known {action : FrameAction} (hm : w.Moves action w') (hkn : w.Known) : w'.Known := by
  have keep : ∀ {u : FrameWorld}, u.registering = w.registering → u.opened = w.opened → u.Known :=
    fun hr ho p hp => ho ▸ hkn p (hr ▸ hp)
  cases hm with
  | quiet he _ => exact keep he.registering he.opened
  | transition he _ =>
    exact keep (broadcast_kept.2.2.1.trans he.registering) (broadcast_kept.2.2.2.1.trans he.opened)
  | install d =>
    rcases register_cases w d with he | ⟨x, -, he⟩
    · rw [he]
      intro p hp
      rw [sendInitial_kept.1] at hp
      rw [sendInitial_kept.2.1]
      exact Nat.lt_succ_of_lt (hkn p hp)
    · rw [he]
      have ho : ((w.installed d).terminate x).opened = w.opened + 1 := by
        unfold terminate
        split_ifs <;> rfl
      intro p hp
      show p.1 < ((w.installed d).terminate x).opened
      rw [ho]
      rcases List.mem_append.1 hp with hp | hp
      · exact Nat.lt_succ_of_lt (hkn p hp)
      · rw [List.mem_singleton.1 hp]
        exact Nat.lt_succ_self _
  | announce hr =>
    intro p hp
    rw [sendInitial_kept.1] at hp
    rw [sendInitial_kept.2.1]
    exact hkn p (List.mem_of_mem_erase hp)
  | unregister s => exact keep (unregister_kept s).1 (unregister_kept s).2
  | write s => exact keep (write_kept s).1 (write_kept s).2.1

/-! ### Convergence -/

/-- A status is on the channel of `s`, or on its way there. -/
def Carries (w : FrameWorld) (s : SessionId) (k : ℕ) (st : QueueStatus) : Prop :=
  (k, st) ∈ w.track s ∨ ∃ a R, WireFrame.queueStatus k st R ∈ (w.channels a).waiting ∧ s ∈ R

/-- The newest status for `s` is that of the lane now. -/
def Current (w : FrameWorld) (s : SessionId) : Prop :=
  ∃ k, w.Carries s k w.compileQueueStatus ∧ ∀ i st, w.Carries s i st → i ≤ k

/-- The session takes frames, and they arrive. -/
def Open (w : FrameWorld) (s : SessionId) : Prop :=
  s ∈ w.registered ∧ w.isClosing s = false ∧ (w.channels s).wsClosed = false

def Settled (w : FrameWorld) : Prop :=
  w.cancelling = [] → ∀ s, w.Open s → (∀ p ∈ w.registering, p.1 ≠ s) → w.Current s

variable {q : QueueStatus}

theorem Ordered.carries_lt (h : w.Ordered) (hc : w.Carries s k st) : k < w.compiled := by
  rcases hc with hc | ⟨a, R, hm, -⟩
  · exact h.below s _ hc
  · exact h.walk_lt ⟨st, hm⟩

theorem Echo.carries (he : w.Echo w') : w'.Carries s k st ↔ w.Carries s k st := by
  unfold Carries
  rw [he.track]
  simp only [← mem_isStatus (l := (w'.channels _).waiting), he.waiting, mem_isStatus]

theorem carries_push : (w.push b (.queueStatus k st R)).Carries s i q ↔
    w.Carries s i q ∨ i = k ∧ q = st ∧ s ∈ b :: R := by
  unfold Carries
  rw [push_track, List.mem_append]
  simp only [push_channels]
  constructor
  · rintro ((h | h) | ⟨a, L, hm, hs⟩)
    · exact Or.inl (Or.inl h)
    · split_ifs at h with hb
      · cases List.mem_singleton.1 h
        exact Or.inr ⟨rfl, rfl, hb ▸ List.mem_cons_self⟩
      · cases h
    · split_ifs at hm with ha
      · rcases List.mem_append.1 hm with hm | hm
        · exact Or.inl (Or.inr ⟨b, L, hm, hs⟩)
        · cases List.mem_singleton.1 hm
          exact Or.inr ⟨rfl, rfl, List.mem_cons_of_mem _ hs⟩
      · exact Or.inl (Or.inr ⟨a, L, hm, hs⟩)
  · rintro ((h | ⟨a, L, hm, hs⟩) | ⟨rfl, rfl, hs⟩)
    · exact Or.inl (Or.inl h)
    · refine Or.inr ⟨a, L, ?_, hs⟩
      split_ifs with ha
      · exact List.mem_append_left _ (ha ▸ hm)
      · exact hm
    · rcases List.mem_cons.1 hs with rfl | hs
      · exact Or.inl (Or.inr (by rw [if_pos rfl]; exact List.mem_singleton_self _))
      · refine Or.inr ⟨b, R, ?_, hs⟩
        rw [if_pos rfl]
        exact List.mem_append_right _ (List.mem_singleton_self _)

theorem carries_broadcast : (w.broadcast k st L).Carries s i q ↔
    w.Carries s i q ∨ i = k ∧ q = st ∧ s ∈ L.dropWhile w.isClosing := by
  induction L with
  | nil => exact ⟨Or.inl, fun h => h.resolve_right fun h => by cases h.2.2⟩
  | cons x L ih =>
    unfold FrameWorld.broadcast
    split_ifs with hx
    · rw [ih, List.dropWhile_cons_of_pos (show w.isClosing x = true from hx)]
    · rw [carries_push, List.dropWhile_cons_of_neg (show ¬w.isClosing x = true from hx)]

theorem carries_sendInitial (hs : w.isClosing s = false) :
    (w.sendInitialQueueStatus s).Carries x i q ↔
      w.Carries x i q ∨ i = w.compiled ∧ q = w.compileQueueStatus ∧ x = s := by
  unfold sendInitialQueueStatus sendAppFrame
  rw [if_neg (by exact fun h => by rw [isClosing, h] at hs; cases hs), carries_push,
    List.mem_singleton]
  rfl

/-- An open session is not skipped. -/
theorem mem_dropWhile_isClosing (hs : s ∈ L) (hc : w.isClosing s = false) :
    s ∈ L.dropWhile w.isClosing := by
  induction L with
  | nil => cases hs
  | cons x L ih =>
    by_cases hx : w.isClosing x = true
    · rw [List.dropWhile_cons_of_pos hx]
      refine ih ((List.mem_cons.1 hs).resolve_left ?_)
      rintro rfl
      rw [hx] at hc
      cases hc
    · rwa [List.dropWhile_cons_of_neg hx]

/-- The status of an open session stays newest when nothing is compiled for it. -/
theorem Current.keep (hc : w.Current s) (hq : w'.compileQueueStatus = w.compileQueueStatus)
    (h : ∀ i q, w'.Carries s i q ↔ w.Carries s i q) : w'.Current s := by
  obtain ⟨k, hk, hmax⟩ := hc
  refine ⟨k, ?_, fun i q hi => hmax i q ((h i q).1 hi)⟩
  rw [hq]
  exact (h k _).2 hk

/-- A compiled status is the newest for the sessions it is carried to. -/
theorem Ordered.current (h : w.Ordered)
    (hq : w'.compileQueueStatus = w.compileQueueStatus)
    (hs : w'.Carries s w.compiled w.compileQueueStatus)
    (hold : ∀ i q, w'.Carries s i q → w.Carries s i q ∨ i = w.compiled) : w'.Current s := by
  refine ⟨w.compiled, hq ▸ hs, fun i q hi => ?_⟩
  rcases hold i q hi with hi | rfl
  · exact Nat.le_of_lt (h.carries_lt hi)
  · exact Nat.le_refl _

theorem Settled.quiet (hst : w.Settled) (he : w.Echo w')
    (hc : w'.cancelling = [] → w.cancelling = [])
    (hq : w'.cancelling = [] → ∀ s, w'.Open s → w'.compileQueueStatus = w.compileQueueStatus) :
    w'.Settled := by
  intro hnil s ⟨hreg, hcl, hws⟩ hr
  have hopen : w.Open s := by
    refine ⟨he.registered ▸ hreg, ?_, ?_⟩
    · rw [Bool.eq_false_iff]
      intro h
      rw [he.closing s h] at hcl
      cases hcl
    · rw [Bool.eq_false_iff]
      intro h
      rw [he.wsClosed s h] at hws
      cases hws
  exact (hst (hc hnil) s hopen (he.registering ▸ hr)).keep (hq hnil s ⟨hreg, hcl, hws⟩)
    fun _ _ => he.carries

theorem Ordered.settled_transition (h : w.Ordered) : w.onFirmwareQueueTransition.Settled := by
  obtain ⟨hlane, -, -, -, hreg, hcl, -⟩ := @broadcast_kept { w with compiled := w.compiled + 1 }
    w.compiled w.peerLinkSessions.values w.compileQueueStatus
  intro _ s ⟨hs, hc, _⟩ _
  have hs' : s ∈ w.registered := by
    rw [onFirmwareQueueTransition, hreg] at hs
    exact hs
  have hc' : w.isClosing s = false := (hcl s).symm.trans hc
  refine h.current hlane (carries_broadcast.2 (Or.inr ⟨rfl, rfl, mem_dropWhile_isClosing hs' hc'⟩))
    fun i q hi => ?_
  rcases carries_broadcast.1 hi with hi | ⟨rfl, -, -⟩
  · exact Or.inl hi
  · exact Or.inr rfl

/-- Past an initial send, the session it is for is current and the others as before. -/
theorem Ordered.settled_sendInitial (h : w.Ordered)
    (hst : w.cancelling = [] → ∀ x, x ≠ s → w.Open x → (∀ p ∈ w.registering, p.1 ≠ x) →
      w.Current x) : (w.sendInitialQueueStatus s).Settled := by
  obtain ⟨hr, -, hreg, hcl, hws⟩ := @sendInitial_kept w s
  have hlane : (w.sendInitialQueueStatus s).compileQueueStatus = w.compileQueueStatus ∧
      (w.sendInitialQueueStatus s).cancelling = w.cancelling := sendAppFrame_lane
  intro hnil x ⟨hx, hxc, hxw⟩ hxr
  have hopen : w.Open x := ⟨hreg ▸ hx, (hcl x).symm.trans hxc, (hws x).symm.trans hxw⟩
  by_cases hxs : x = s
  · subst hxs
    refine h.current hlane.1 ((carries_sendInitial hopen.2.1).2 (Or.inr ⟨rfl, rfl, rfl⟩)) ?_
    intro i q hi
    rcases (carries_sendInitial hopen.2.1).1 hi with hi | ⟨rfl, -, -⟩
    · exact Or.inl hi
    · exact Or.inr rfl
  · refine (hst (hlane.2 ▸ hnil) x hxs hopen (hr ▸ hxr)).keep hlane.1 fun i q => ?_
    by_cases hc : w.isClosing s = false
    · rw [carries_sendInitial hc]
      exact ⟨fun hi => hi.resolve_right fun hi => hxs hi.2.2, Or.inl⟩
    · have hskip : w.sendInitialQueueStatus s = { w with compiled := w.compiled + 1 } := by
        unfold sendInitialQueueStatus sendAppFrame
        rw [if_pos (show (w.channels s).closing = true from by simpa [isClosing] using hc)]
      rw [hskip]
      exact Iff.rfl

theorem installed_channel (h : w.Ordered) (d : DashboardId) (x : SessionId) :
    ((w.installed d).channels x).sent = (w.channels x).sent ∧
      ((w.installed d).channels x).waiting = (w.channels x).waiting ∧
      ((w.installed d).channels x).closing = (w.channels x).closing ∧
      ((w.installed d).channels x).wsClosed = (w.channels x).wsClosed := by
  have hx : (w.installed d).channels x =
      if x = w.opened then { dashboardId := d } else w.channels x := Function.update_apply _ _ _ _
  rw [hx]
  split_ifs with hx
  · rw [hx, h.fresh w.opened (Nat.le_refl _)]
    exact ⟨rfl, rfl, rfl, rfl⟩
  · exact ⟨rfl, rfl, rfl, rfl⟩

theorem carries_installed (h : w.Ordered) (d : DashboardId) :
    (w.installed d).Carries s i q ↔ w.Carries s i q := by
  unfold Carries track stream
  simp only [(installed_channel h d _).1, (installed_channel h d _).2.1]

theorem settled_installed (h : w.Ordered) (hst : w.Settled) (d : DashboardId)
    (hnil : w.cancelling = []) (hx : x ≠ w.opened) (ho : (w.installed d).Open x)
    (hr : ∀ p ∈ w.registering, p.1 ≠ x) : (w.installed d).Current x := by
  have hch := installed_channel h d x
  have hreg : x ∈ w.registered := by
    rcases Dict.mem_values_set ho.1 with hx' | hx'
    · exact absurd hx' hx
    · exact Dict.values_erase_sublist.subset hx'
  exact (hst hnil x ⟨hreg, hch.2.2.1.symm.trans ho.2.1, hch.2.2.2.symm.trans ho.2.2⟩ hr).keep rfl
    fun _ _ => carries_installed h d

theorem Settled.register (hst : w.Settled) (h : w.Ordered) (d : DashboardId) :
    (w.registerPeerLinkSession d).Settled := by
  rcases register_cases w d with he | ⟨x, hx, he⟩
  · rw [he]
    exact (h.installed d).settled_sendInitial fun hnil _ hy ho hr =>
      settled_installed h hst d hnil hy ho hr
  · rw [he]
    have hlt : x < (w.installed d).opened :=
      Nat.lt_succ_of_lt (h.known x (Dict.mem_values.2 ⟨d, hx⟩))
    have hecho := echo_terminate hlt
    have hlane : ((w.installed d).terminate x).compileQueueStatus = w.compileQueueStatus ∧
        ((w.installed d).terminate x).cancelling = w.cancelling := by
      unfold terminate
      split_ifs <;> exact ⟨rfl, rfl⟩
    intro hnil y ⟨hy, hyc, hyw⟩ hyr
    have hne : y ≠ w.opened := fun e =>
      hyr _ (List.mem_append_right _ (List.mem_singleton_self _)) e.symm
    have hopen : (w.installed d).Open y := by
      refine ⟨hecho.registered ▸ hy, ?_, ?_⟩
      · exact Bool.eq_false_iff.2 fun hc => Bool.eq_false_iff.1 hyc (hecho.closing y hc)
      · exact Bool.eq_false_iff.2 fun hc => Bool.eq_false_iff.1 hyw (hecho.wsClosed y hc)
    have hcur := settled_installed h hst d (hlane.2 ▸ hnil) hne hopen fun p hp =>
      hyr p (List.mem_append_left _ hp)
    exact hcur.keep hlane.1 fun _ _ => hecho.carries

theorem Settled.announce (hst : w.Settled) (h : w.Ordered) {x : SessionId} :
    ({ w with registering := w.registering.erase (s, x) }.sendInitialQueueStatus s).Settled := by
  refine (h.forget _).settled_sendInitial fun hnil y hy ho hr => ?_
  have hcur := hst hnil y ho fun p hp hpy => ?_
  · exact hcur
  · have hne : p ≠ (s, x) := by
      rintro rfl
      exact hy hpy.symm
    exact hr p ((List.mem_erase_of_ne hne).2 hp) hpy

theorem Settled.unregister (hst : w.Settled) (s : SessionId) :
    (w.unregisterPeerLinkSession s).Settled := by
  unfold unregisterPeerLinkSession
  split_ifs
  · intro hnil x ⟨hx, hc, hw⟩ hr
    exact hst hnil x ⟨Dict.values_erase_sublist.subset hx, hc, hw⟩ hr
  · exact hst

theorem serve_stream_eq (c : SendChannel) (m : WireFrame) (ms : List WireFrame)
    (hw : c.wsClosed = false) :
    (c.serve m ms).sent ++ (c.serve m ms).waiting = c.sent ++ m :: ms := by
  unfold SendChannel.serve
  rw [hw, if_neg (by decide), List.append_assoc]
  rfl

theorem served_track {ms : List WireFrame} (hm : (w.channels b).waiting = m :: ms)
    (hw : (w.channels s).wsClosed = false) : (w.served b m ms).track s = w.track s := by
  unfold track stream
  rw [served_channels]
  split_ifs with hs
  · subst hs
    rw [serve_stream_eq _ m ms hw, hm]
  · rfl

theorem mem_served {ms : List WireFrame} (hm : (w.channels b).waiting = m :: ms) {f : WireFrame} :
    f ∈ ((w.served b m ms).channels a).waiting → f ∈ (w.channels a).waiting := by
  rw [served_channels]
  split_ifs with ha
  · subst ha
    rw [hm]
    exact List.mem_cons_of_mem _
  · exact id

/-- Serving a channel takes no status away from an open session. -/
theorem carries_write {ms : List WireFrame}
    (hm : (w.channels b).waiting = .queueStatus k st R :: ms)
    (hc : w.isClosing s = false) (hw : (w.channels s).wsClosed = false) :
    (w.write b).Carries s i q ↔ w.Carries s i q := by
  have hclosing : (w.served b (.queueStatus k st R) ms).isClosing = w.isClosing :=
    funext served_isClosing
  rw [write_status hm, carries_broadcast, hclosing]
  unfold Carries
  rw [served_track hm hw]
  constructor
  · rintro ((h | ⟨a, L, hL, hs⟩) | ⟨rfl, rfl, hs⟩)
    · exact Or.inl h
    · exact Or.inr ⟨a, L, mem_served hm hL, hs⟩
    · exact Or.inr ⟨b, R, hm ▸ List.mem_cons_self, (List.dropWhile_suffix _).subset hs⟩
  · rintro (h | ⟨a, L, hL, hs⟩)
    · exact Or.inl (Or.inl h)
    by_cases ha : a = b
    · subst ha
      rcases List.mem_cons.1 (hm ▸ hL) with he | hL
      · cases he
        exact Or.inr ⟨rfl, rfl, mem_dropWhile_isClosing hs hc⟩
      · refine Or.inl (Or.inr ⟨a, L, ?_, hs⟩)
        rw [served_channels, if_pos rfl]
        exact hL
    · refine Or.inl (Or.inr ⟨a, L, ?_, hs⟩)
      rwa [served_channels, if_neg ha]

theorem carries_write_other {ms : List WireFrame} (hm : (w.channels b).waiting = m :: ms)
    (hn : isStatus m = false) (hw : (w.channels s).wsClosed = false) :
    (w.write b).Carries s i q ↔ w.Carries s i q := by
  rw [write_other hm hn]
  unfold Carries
  rw [served_track hm hw]
  refine or_congr Iff.rfl (exists_congr fun a => exists_congr fun L => and_congr_left fun _ =>
    ⟨mem_served hm, fun hL => ?_⟩)
  rw [served_channels]
  split_ifs with ha
  · subst ha
    rcases List.mem_cons.1 (hm ▸ hL) with rfl | hL
    · cases hn
    · exact hL
  · exact hL

/-- An open session was open before the write. -/
theorem open_of_write (h : (w.write b).Open s) : w.Open s := by
  cases hm : (w.channels b).waiting with
  | nil =>
    unfold FrameWorld.write at h
    rw [hm] at h
    exact h
  | cons m ms =>
    have hserved : (w.served b m ms).Open s → w.Open s := fun ⟨hr, hc, hw⟩ => by
      refine ⟨hr, (served_isClosing s).symm.trans hc, ?_⟩
      rw [served_channels] at hw
      split_ifs at hw with hs
      · rw [hs]
        unfold SendChannel.serve at hw
        exact (Bool.or_eq_false_iff.1 hw).1
      · exact hw
    cases m with
    | queueStatus k st R =>
      rw [write_status hm] at h
      obtain ⟨-, -, -, -, hr, hc, hw⟩ :=
        @broadcast_kept (w.served b (.queueStatus k st R) ms) k R st
      exact hserved ⟨hr ▸ h.1, (hc s).symm.trans h.2.1, (hw s).symm.trans h.2.2⟩
    | _ => exact hserved (write_other hm rfl ▸ h)

theorem Settled.write (hst : w.Settled) (b : SessionId) : (w.write b).Settled := by
  obtain ⟨hr, -, -, hlane, hcan⟩ := write_kept (w := w) b
  intro hnil s hs hsr
  have ho := open_of_write hs
  refine (hst (hcan ▸ hnil) s ho (hr ▸ hsr)).keep hlane fun i q => ?_
  cases hm : (w.channels b).waiting with
  | nil =>
    unfold FrameWorld.write
    rw [hm]
  | cons m ms =>
    cases m with
    | queueStatus k st R => exact carries_write hm ho.2.1 ho.2.2
    | _ => exact carries_write_other hm rfl ho.2.2

theorem Moves.settled {action : FrameAction} (hm : w.Moves action w') (h : w.Ordered)
    (hst : w.Settled) (hk : w.KeepsOrder action) : w'.Settled := by
  cases hm with
  | quiet he hs =>
    rcases hs with ⟨hq, hc⟩ | ⟨hun, hc⟩
    · refine hst.quiet he (fun hnil => ?_) fun _ _ _ => hq
      rcases hc with hc | hc
      · exact hc ▸ hnil
      · exact absurd hnil hc
    · refine hst.quiet he (fun hnil => hc ▸ hnil) fun hnil s hs => ?_
      rcases hun hk with hreg | hne
      · have := hs.1
        rw [he.registered, hreg] at this
        cases this
      · exact absurd (hc ▸ hnil) hne
  | transition he _ => exact (h.echo he.toEcho).settled_transition
  | install d => exact hst.register h d
  | announce _ => exact hst.announce h
  | unregister s => exact hst.unregister s
  | write s => exact hst.write s

/-! ### Runs -/

/-- A dashboard that has just started: no session yet, and any jobs restored. -/
structure Starts (w : FrameWorld) : Prop where
  channels : w.channels = fun _ => {}
  opened : w.opened = 0
  peerLinkSessions : w.peerLinkSessions = ∅
  registering : w.registering = []
  cancelling : w.cancelling = []
  remoteJobs : w.remoteJobs = ∅
  events : w.events = []

/-- Nothing is under way: no frame waits, no session is being registered and no job cancelled. -/
def Quiescent (w : FrameWorld) : Prop :=
  (∀ s, (w.channels s).waiting = []) ∧ w.registering = [] ∧ w.cancelling = []

/-- The status frames a session has received. -/
def statuses (w : FrameWorld) (s : SessionId) : List (ℕ × QueueStatus) :=
  (w.channels s).sent.filterMap WireFrame.status?

/-- The frames of job `j` a session has received. -/
def received (w : FrameWorld) (s : SessionId) (j : JobId) : List JobEvent :=
  (w.channels s).sent.filterMap (WireFrame.eventOf j)

/-- Statuses arrive in the order they were compiled in and converge; the frames of a job are events
of it in order, and none follows the terminal one. -/
structure FramesInOrder (w : FrameWorld) : Prop where
  statuses : ∀ s, (w.statuses s).Pairwise fun p q => p.1 < q.1
  converged : w.Quiescent → ∀ s, w.Open s →
    (w.statuses s).getLast?.map Prod.snd = some w.compileQueueStatus
  jobs : ∀ s j, (w.received s j).Sublist (w.eventsOf j) ∧ EndsOnce (w.received s j)

theorem Starts.empty (h : w.Starts) (s : SessionId) : w.channels s = {} := by rw [h.channels]

theorem Starts.ordered (h : w.Starts) : w.Ordered := by
  have hwalk : ∀ {k a R}, ¬w.Walk k a R := fun {k a R} ⟨st, hm⟩ => by
    rw [h.empty] at hm
    cases hm
  have htrack : ∀ s, w.track s = [] := fun s => by
    unfold track stream
    rw [h.empty]
    rfl
  have hreg : w.registered = [] := by
    unfold registered
    rw [h.peerLinkSessions]
    rfl
  refine ⟨fun s => ?_, fun s p hp => ?_, fun hw => absurd hw hwalk, fun hw => absurd hw hwalk,
    fun hw => absurd hw hwalk, fun hw => absurd hw hwalk, fun hw => absurd hw hwalk,
    fun hw => absurd hw hwalk, ?_, fun s hs => ?_, fun s _ => h.empty s⟩
  · rw [htrack]
    exact List.Pairwise.nil
  · rw [htrack] at hp
    cases hp
  · rw [hreg]
    exact List.nodup_nil
  · rw [hreg] at hs
    cases hs

theorem Starts.fanned (h : w.Starts) : w.Fanned := by
  have hstream : ∀ s j, w.jobStream s j = [] := fun s j => by
    unfold jobStream stream
    rw [h.empty]
    rfl
  refine ⟨fun s j => ?_, fun s j => ?_, fun s j e he => ?_, fun j _ => ?_, fun j _ => ?_⟩
  · rw [hstream]
    exact List.nil_sublist _
  · rw [hstream]
    exact List.Pairwise.nil
  · rw [hstream] at he
    cases he
  · rw [h.remoteJobs]
    rfl
  · unfold eventsOf
    rw [h.events]
    rfl

theorem Starts.settled (h : w.Starts) : w.Settled := by
  intro _ s hs
  have := hs.1
  unfold registered at this
  rw [h.peerLinkSessions] at this
  cases this

theorem Starts.known (h : w.Starts) : w.Known := by
  intro p hp
  rw [h.registering] at hp
  cases hp

/-- The largest entry of an increasing list is its last. -/
theorem getLast?_of_max {l : List (ℕ × QueueStatus)} (hl : l.Pairwise fun p q => p.1 < q.1)
    (hk : (k, st) ∈ l) (hmax : ∀ p ∈ l, p.1 ≤ k) : l.getLast? = some (k, st) := by
  rcases List.eq_nil_or_concat l with rfl | ⟨l, p, rfl⟩
  · cases hk
  rw [List.concat_eq_append] at *
  rw [List.getLast?_append_of_ne_nil _ (List.cons_ne_nil _ _), List.getLast?_singleton]
  rcases List.mem_append.1 hk with hk | hk
  · have hlt := (List.pairwise_append.1 hl).2.2 _ hk p (List.mem_singleton_self p)
    have hle := hmax p (List.mem_append_right _ (List.mem_singleton_self p))
    exact absurd hlt (Nat.not_lt.2 hle)
  · rw [List.mem_singleton.1 hk]

theorem framesInOrder (h : w.Ordered) (hst : w.Settled) (hf : w.Fanned) : w.FramesInOrder where
  statuses s := by
    have := h.sorted s
    unfold track stream at this
    rw [List.filterMap_append] at this
    exact (List.pairwise_append.1 this).1
  converged := by
    intro ⟨hwait, hreg, hcan⟩ s hs
    have htrack : w.track s = w.statuses s := by
      unfold track stream statuses
      rw [hwait s, List.append_nil]
    obtain ⟨k, hk, hmax⟩ := hst hcan s hs (by rw [hreg]; exact nofun)
    have hmem : (k, w.compileQueueStatus) ∈ w.statuses s := by
      rcases hk with hk | ⟨a, R, hm, -⟩
      · exact htrack ▸ hk
      · rw [hwait a] at hm
        cases hm
    rw [getLast?_of_max (htrack ▸ h.sorted s) hmem fun p hp => hmax p.1 p.2 (Or.inl (htrack ▸ hp))]
    rfl
  jobs s j := by
    have hsub : (w.received s j).Sublist (w.jobStream s j) := by
      unfold jobStream stream
      rw [List.filterMap_append]
      exact List.sublist_append_left _ _
    exact ⟨hsub.trans (hf.sub s j), (hf.once s j).sublist hsub⟩

/-- **In a run that overtakes no status and does not change the lane in silence, the frames of every
session arrive in order and converge.** -/
theorem frames_ordered {w₀ : FrameWorld} (h₀ : w₀.Starts) (h : Reaches step KeepsOrder w₀ w) :
    w.FramesInOrder := by
  have hinv : (w.Ordered ∧ w.Known) ∧ w.Settled ∧ w.Fanned := by
    refine h.invariant (I := fun w => (w.Ordered ∧ w.Known) ∧ w.Settled ∧ w.Fanned)
      ⟨⟨h₀.ordered, h₀.known⟩, h₀.settled, h₀.fanned⟩ ?_
    rintro w action hk ⟨⟨ho, hkn⟩, hst, hf⟩
    have hm := step_moves ho action
    exact ⟨⟨hm.ordered ho hkn hk, hm.known hkn⟩, hm.settled ho hst hk, hf.step action⟩
  exact framesInOrder hinv.1.1 hinv.2.1 hinv.2.2

/-- Two sessions see one build through. -/
def build : List FrameAction :=
  [.register "a", .write 0, .register "b", .write 1,
    .placeAndAnnounce 7 { remotePeer := "b", remoteJobId := "build" } true, .write 0, .write 1,
    .write 1, .runLane, .write 0, .write 1, .write 1, .output 7 "ok", .write 1,
    .finalizeTerminal 7 .completed "" .none, .write 0, .write 1, .write 1]

theorem starts_new : Starts {} := ⟨rfl, rfl, rfl, rfl, rfl, rfl, rfl⟩

theorem frames_ordered_build : FramesInOrder (build.foldl step {}) := by
  refine frames_ordered starts_new ?_
  have hcheck :
      Reaches.checks step (fun w action => decide (KeepsOrder w action)) build {} = true := by
    decide +kernel
  exact Reaches.foldl_checks (fun _ _ h => of_decide_eq_true h) build _ hcheck

/-- A broadcast waits at a session that is being terminated when the next job starts. -/
def overtaken : List FrameAction :=
  [.register "a", .write 0, .register "b", .write 1,
    .placeAndAnnounce 7 { remotePeer := "", remoteJobId := "" } true, .terminate 0, .runLane,
    .write 1, .write 0, .write 0, .write 1]

/-- Any steps: the status of the queued job arrives after that of the running one. -/
theorem broadcast_overtaken : ¬∀ w₀ w : FrameWorld, w₀.Starts → Reaches step any w₀ w →
    w.FramesInOrder := by
  intro h
  have hsort := (h {} _ starts_new (Reaches.foldl overtaken _)).statuses 1
  revert hsort
  decide +kernel

end FrameWorld

end DeviceBuilder
