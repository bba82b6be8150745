import DeviceBuilder.Properties.Pool

/-!
# Running jobs can be cancelled

`cancel` finds a RUNNING job in a lane slot or in flight. Every path that takes a
job out of them stamps it first, but one: `_requeue_after_provision_failure`
routes a job to the local lane and leaves it RUNNING.

* `Ledger.Stamped`: the invariant of the other paths.
* `running_tracked`: in runs without such a re-route, every RUNNING job is
  tracked, and no `cancel` raises that the state is out of sync.
-/

namespace DeviceBuilder

open Runs Ledger

variable {c c' : Ledger} {ℓ : Label} {w : World} {j k : JobId} {job job' : FirmwareJob}

/-- If job `j` is running, it is in a lane slot or in flight. -/
def Ledger.Tracked (c : Ledger) (j : JobId) : Prop :=
  ∀ job, c.obj j = some job → job.status = .running → c.active j = true ∨ j ∈ c.inFlight

/-- **A running job is in a lane slot or in flight.** -/
def Ledger.Stamped (c : Ledger) : Prop :=
  ∀ j job, c.obj j = some job → job.status = .running → c.active j = true ∨ j ∈ c.inFlight

/-- An object is replaced; the slots of the other jobs stay. -/
theorem tracked_update (hk : c.Tracked k) (ho : k ≠ j → c'.obj k = c.obj k) (ha : k ≠ j → c'.active k = c.active k)
    (hf : k ≠ j → k ∈ c.inFlight → k ∈ c'.inFlight)
    (hself : ∀ job, c'.obj j = some job → job.status = .running → c'.active j = true ∨ j ∈ c'.inFlight) :
    c'.Tracked k := by
  intro b hb hs
  by_cases he : k = j
  · subst he
    exact hself b hb hs
  · rw [ho he] at hb
    rcases hk b hb hs with h | h
    · exact .inl ((ha he).trans h)
    · exact .inr (hf he h)

/-- An object is replaced by one that is not running. -/
theorem tracked_stop (hk : c.Tracked k) (ho : c'.obj = Function.update c.obj j (some job'))
    (ha : k ≠ j → c'.active k = c.active k) (hf : k ≠ j → k ∈ c.inFlight → k ∈ c'.inFlight)
    (hs : job'.status ≠ .running) : c'.Tracked k := by
  refine tracked_update hk (fun he => by rw [ho, Function.update_of_ne he]) ha hf fun b hb hr => ?_
  rw [ho, Function.update_self] at hb
  cases hb
  exact absurd hr hs

/-- An object is replaced by one of the same status. -/
theorem tracked_same (hk : c.Tracked k) (hj : c.obj j = some job)
    (ho : c'.obj = Function.update c.obj j (some job')) (ha : c'.active = c.active)
    (hf : c'.inFlight = c.inFlight) (hs : job'.status = job.status) : c'.Tracked k := by
  intro b hb hr
  rw [ha, hf]
  by_cases he : k = j
  · subst he
    rw [ho, Function.update_self] at hb
    cases hb
    exact hk job hj (hs ▸ hr)
  · rw [ho, Function.update_of_ne he] at hb
    exact hk b hb hr

theorem ends_not_running (he : job.EndsAs job') : job'.status ≠ .running := by
  intro hr
  have := he.2.1
  simp [FirmwareJob.isActive, hr, JobStatus.isTerminal] at this

/-- **A tracked job stays tracked**, unless its server could not provision. -/
theorem tracked_move (hm : Move ℓ c c') (hI : c.Inv) (hk : c.Tracked k) (hℓ : ∀ t, ℓ ≠ .provision t) :
    c'.Tracked k := by
  have drop : ∀ {i : JobId}, k ≠ i → k ∈ c.inFlight → k ∈ KeyList.drop c.inFlight i :=
    fun he h => KeyList.mem_drop.2 ⟨h, he⟩
  cases hm with
  | edit hj he => exact tracked_same hk hj rfl rfl rfl he.2.1
  | create a hn hd hs | submit a hn hd hs ht =>
    exact tracked_stop hk rfl (fun _ => rfl) (fun _ => id) (by simp [hn.2.1])
  | submitChain head dep hh hhd hd hdd =>
    have h1 : (c.create head).Tracked k :=
      tracked_stop hk rfl (fun _ => rfl) (fun _ => id) (by simp [hh.2.1])
    exact tracked_stop h1 rfl (fun _ => rfl) (fun _ => id) (by simp [hd.2.1])
  | place hj ht | placeChain hj ht => exact tracked_same hk hj rfl rfl rfl latched_status
  | placeOwed ht hj => exact tracked_same hk hj rfl rfl rfl latched_status
  | toLocal hp hj => exact tracked_same hk hj rfl rfl rfl latched_status
  | @startExec _ j a ts ht hj hs =>
    refine tracked_update (j := j) hk (fun he => Function.update_of_ne he ..)
      (fun he => Function.update_of_ne he ..) (fun _ => id) fun _ _ _ => .inl ?_
    exact Function.update_self ..
  | @startDrive _ j a pin source hj hp hs hpin hsrc hsp =>
    exact tracked_update (j := j) hk (fun he => Function.update_of_ne he ..) (fun _ => rfl)
      (fun _ h => KeyList.mem_add.2 (.inl h)) fun _ _ _ => .inr (KeyList.mem_add.2 (.inr rfl))
  | finishExec ht hj he | finishDrive ht hj he | failPending hp hj hs he | finishQueued hj hs he
  | refinish hj hs he =>
    exact tracked_stop hk rfl (fun he => Function.update_of_ne he ..) (fun _ => id)
      (ends_not_running he)
  | cancelMark hj => exact tracked_stop hk rfl (fun _ => rfl) drop (by simp)
  | reroute ht hj =>
    exact tracked_stop hk rfl (fun _ => rfl) drop (by simp)
  | provision ht hj => exact absurd rfl (hℓ _)
  | @release _ j ts ht =>
    refine tracked_update (j := j) hk (fun _ => rfl) (fun _ => rfl) drop
      fun b hb hs => ?_
    have hend := (hI.view j).settle (by simp [Ledger.view, ht])
    change c.obj j = some b at hb
    simp [View.Ended, Ledger.view, hb, hs] at hend
  | _ => exact hk

theorem stamped_move (hm : Move ℓ c c') (hI : c.Inv) (hst : c.Stamped)
    (hℓ : ∀ t, ℓ ≠ .provision t) : c'.Stamped :=
  fun k => tracked_move hm hI (hst k) hℓ

theorem stamped_loaded (table : List JobId) : (c.loaded table).Stamped := by
  intro j job hj hs
  exfalso
  obtain ⟨row, -, rfl⟩ := Option.map_eq_some_iff.1 hj
  by_cases ha : row.isActive = true
  · simp [FirmwareJob.restore, ha] at hs
  · rw [FirmwareJob.restore, if_neg ha] at hs
    exact ha (FirmwareJob.isActive_iff _ |>.2 (.inr hs))

theorem stamped_round (hj : c.obj j = some job) (hround : World.Routed c j job c')
    (hst : c.Stamped) : c'.Stamped := by
  cases hround with
  | held => exact hst
  | placed h => exact fun k => tracked_same (hst k) hj rfl rfl rfl latched_status
  | cancelled => exact fun k => tracked_stop (hst k) rfl (fun _ => rfl) (fun _ => id) (by simp)

/-- `cancel` finds the job it is called on. -/
theorem cancelStart_inSync {h : Multiset Token} {j : JobId} (hst : (w.ledger h).Tracked j)
    (cause : CancelCause) : (w.cancelStart j cause).2 ≠ .raised .stateOutOfSync := by
  unfold World.cancelStart
  simp only
  split
  · simp
  · rename_i job hfind
    have hj : w.fw.obj j = some job := (FirmwareState.find_some hfind).2
    split
    · simp
    · rename_i hs
      split
      · simp
      · rename_i hflight
        split
        · rename_i hlane
          rcases hst job hj hs with h | h
          · have h' : w.fw.jobIsOnALane j = true := h
            rw [show (w.emit (.cancelCalled j cause)).fw = w.fw from rfl, h'] at hlane
            cases hlane
          · exact absurd (decide_eq_true h) hflight
        · simp only
          split <;> simp
    · simp
    · simp
    · simp

theorem active_lane {fw : FirmwareState} (h : fw.jobIsOnALane j = true) :
    ∃ l, j ∈ (fw.lane l).active := by
  simp only [FirmwareState.jobIsOnALane, Bool.or_eq_true, decide_eq_true_eq] at h
  rcases h with (h | h) | h
  · exact ⟨.compile, h⟩
  · exact ⟨.upload, h⟩
  · exact ⟨.threadUpload, h⟩

/-- **Running jobs are tracked**, in runs where no server of the pool says that it cannot
provision; so no `cancel` finds its job out of sync. -/
theorem running_tracked (h : Reachable (fun w a => ∀ j, ¬ a.Provisions w j) w) :
    (∀ j job, w.fw.obj j = some job → job.status = .running →
      (∃ l, j ∈ (w.fw.lane l).active) ∨ j ∈ w.fw.remoteDispatch.inFlight) ∧
    ∀ j cause, (w.cancelStart j cause).2 ≠ .raised .stateOutOfSync := by
  have hst : (w.ledger 0).Stamped := by
    refine side_reachable (L := fun ℓ => ∀ t, ℓ ≠ .provision t) h ?_ ?_
      (fun _ _ _ hℓ hm hI hst => stamped_move hm hI hst hℓ) (fun _ _ _ _ _ => stamped_loaded _)
      fun _ _ hj _ hround hst => stamped_round hj hround hst
    · rintro w a ℓ hno - hℓ t rfl
      obtain ⟨j, job, hp, -⟩ := hℓ
      exact hno j hp
    · exact fun j job hj => by simp [World.ledger] at hj
  refine ⟨fun j job hj hs => ?_, fun j => cancelStart_inSync (hst j)⟩
  rcases hst j job hj hs with h | h
  · exact .inl (active_lane h)
  · exact .inr h

/-- A compile on the server, with a cancel after its driver has heard from it. -/
def provisionCancelled : List Action :=
  [.restart [] (fun _ => some {}) (some oneServer) 1, .command (.compile "a.yaml" false),
    .resume 3 .ok, .resume 3 .ok, .resume 5 .ok, .resume 5 .ok, .resume 5 .ok,
    .resume 5 (.frame .failed .provision "no toolchain"), .command (.cancel 0)]

/-- After a provision failure the compile waits on the local lane, RUNNING, and its `cancel`
raises. -/
theorem running_untracked :
    ¬ ∀ w, Reachable any w → (∀ j job, w.fw.obj j = some job → job.status = .running →
      (∃ l, j ∈ (w.fw.lane l).active) ∨ j ∈ w.fw.remoteDispatch.inFlight) ∧
      ∀ j cause, (w.cancelStart j cause).2 ≠ .raised .stateOutOfSync := by
  intro hclaim
  have hw := hclaim _ (reachable_run (provisionCancelled.take 8))
  exact hw.2 0 .user (by decide)

/-- A frame that says that a server cannot provision. -/
def Action.provisionFrame : Action → Bool
  | .resume _ (.frame .failed .provision _) => true
  | _ => false

theorem Action.not_provisions {as : List Action} (h : as.all (fun a => !a.provisionFrame) = true) :
    ∀ a ∈ as, ∀ (w : World) j, ¬ a.Provisions w j := by
  rintro a ha w j ⟨i, sent, text, rfl, -⟩
  have := List.all_eq_true.1 h _ ha
  cases this

/-- A build that goes well is tracked while it runs. -/
theorem running_tracked_twoCompiles :
    ((World.run twoCompiles).fw.obj 0).map (·.status) = some .running ∧
    ∀ j cause, ((World.run twoCompiles).cancelStart j cause).2 ≠ .raised .stateOutOfSync :=
  ⟨by decide, (running_tracked (reachable_run_of twoCompiles
    (Action.not_provisions (by decide)))).2⟩

end DeviceBuilder
