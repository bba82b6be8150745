import DeviceBuilder.Queue.Abstraction

/-!
# Cancels, commits and creations as moves

Each function of `Firmware.Jobs` and `Firmware.Factories` is a chain of moves.

* `cancelStart_sims`, `runSweep_sims`: a cancel, and the sweep of a supersede.
* `commitPlaced_sims`, `enqueue_sims`: a commit places what was staged.
-/

namespace DeviceBuilder

open Runs

variable {ok : Label → Prop} {w w' : World} {h h' : Multiset Token} {j : JobId}
  {job : FirmwareJob}

theorem FirmwareState.modify_of_some {fw : FirmwareState} (hj : fw.obj j = some job)
    (f : FirmwareJob → FirmwareJob) :
    fw.modify j f = { fw with obj := Function.update fw.obj j (some (f job)) } := by
  unfold modify; rw [hj]; rfl

namespace World

/-! ### The table -/

theorem row_id (hI : (w.ledger h).Inv) (hr : job ∈ w.fw.rows) :
    job.jobId ∈ w.fw.jobs ∧ w.fw.obj job.jobId = some job := by
  obtain ⟨j, hj, hobj⟩ := FirmwareState.mem_rows.1 hr
  have hid : job.jobId = j := (hI.ids (j := j) hobj).1
  rw [hid]; exact ⟨hj, hobj⟩

theorem rows_map_id (hI : (w.ledger h).Inv) : w.fw.rows.map (·.jobId) = w.fw.jobs := by
  have hrow : ∀ l : List JobId, (∀ j ∈ l, ∃ job, w.fw.obj j = some job ∧ job.jobId = j) →
      (l.filterMap w.fw.obj).map (·.jobId) = l := by
    intro l
    induction l with
    | nil => intro _; rfl
    | cons j l ih =>
      intro hl
      obtain ⟨job, hjob, hid⟩ := hl j List.mem_cons_self
      rw [List.filterMap_cons, hjob]
      simp only [List.map_cons, hid]
      rw [ih fun k hk => hl k (List.mem_cons_of_mem _ hk)]
  refine hrow _ fun j hj => ?_
  obtain ⟨job, hjob⟩ := hI.rows (j := j) hj
  exact ⟨job, hjob, (hI.ids hjob).1⟩

/-- **Pruning** is a move. -/
theorem pruneHistory_sims : Sims Label.basic w h { w with fw := w.fw.pruneHistory } h := by
  refine .plain (fun hI => ?_) rfl
  refine Move.prune (c := w.ledger h) (w.fw.prunedRows.map (·.jobId)) ?_ ?_ ?_
  · have hle := Multiset.map_le_map (f := FirmwareJob.jobId) w.fw.prunedRows_le
    have hn : (w.fw.rows.map (·.jobId)).Nodup := by rw [rows_map_id hI]; exact hI.nodup
    exact Multiset.coe_nodup.1 (Multiset.nodup_of_le (by simpa using hle) (Multiset.coe_nodup.2 hn))
  · intro j hj
    obtain ⟨job, hjob, rfl⟩ := List.mem_map.1 hj
    exact (row_id hI (FirmwareState.mem_prunedRows.1 hjob)).1
  · intro j hj job hjob ha
    refine List.mem_map.2 ⟨job, FirmwareState.mem_prunedRows.2 ?_, (hI.ids hjob).1⟩
    exact FirmwareState.mem_activeJobs.2 ⟨FirmwareState.mem_rows.2 ⟨j, hj, hjob⟩, ha⟩

/-! ### Cancels -/

theorem cancelStart_sims (cause : CancelCause)
    (hc : cause = .user ∨ (∃ t, cause = .tail t) ∨ .sweep j cause ∈ taskTokens w.tasks + h) :
    Sims Label.basic w h (w.cancelStart j cause).1 ((w.cancelStart j cause).2.tokens + h) := by
  have hcall : Sims Label.basic w h (w.emit (.cancelCalled j cause)) h :=
    .plain (fun _ => Move.callCancel (c := w.ledger h) j cause hc) rfl
  refine hcall.trans ?_
  unfold cancelStart
  set w := w.emit (.cancelCalled j cause)
  cases hj : w.fw.find j with
  | none => simpa [hj, Outcome.tokens] using .refl w h
  | some job =>
    obtain ⟨hrow, hobj⟩ := FirmwareState.find_some hj
    simp only [hj]
    cases hs : job.status with
    | queued =>
      have hmark : Sims Label.basic w h
          { w with fw := { w.fw with
            remoteDispatch := w.fw.remoteDispatch.discard j }.modify j (·.markTerminal .cancelled) }
          (.fire j ::ₘ h) := by
        -- the pool forgets the job
        refine .forgets (show Label.basic .plain from trivial) nofun (fun _ => ?_)
          (.of_tasks rfl rfl) (.inr ⟨j, 0, rfl, fun hI => ?_⟩)
        swap
        · have hmarked : ({ w.fw with remoteDispatch := w.fw.remoteDispatch.discard j }.modify j
              (·.markTerminal .cancelled)).obj j = some (job.markTerminal .cancelled) := by
            rw [FirmwareState.modify_of_some (by exact hobj)]
            exact Function.update_self ..
          exact Ledger.spent_of_ended hI hmarked rfl
        have hm := Move.cancelMark (c := w.ledger h) (j := j) hobj hs hrow
        rw [FirmwareState.modify_of_some (by exact hobj)]
        rw [show Token.fire j ::ₘ (w.ledger h).tokens = taskTokens w.tasks + (.fire j ::ₘ h) from
          (Multiset.add_cons ..).symm] at hm
        exact hm
      have hp := hmark.trans pruneHistory_sims
      simpa [Outcome.tokens, Frame.tokens, hobj] using hp
    | running =>
      simp only
      split
      · exact .of_eq (by simp [Outcome.tokens]; rfl) rfl
      · split
        · simpa [Outcome.tokens] using .refl w h
        · refine .of_eq ?_ rfl
          split <;> simp [Outcome.tokens, Frame.tokens] <;> rfl
    | completed | failed | cancelled => simpa [Outcome.tokens] using .refl w h

theorem endSweep_sims (cause : CancelCause) (w : World) (h : Multiset Token) :
    Sims Label.basic w (.sweep j cause ::ₘ h) w h :=
  .plain (fun _ => Move.endSweep (ledger_tokens_cons ..)) rfl

theorem endSweeps_sims (cause : CancelCause) (js : List JobId) (w : World) (h : Multiset Token) :
    Sims Label.basic w ((js.map (Token.sweep · cause) : List Token) + h) w h := by
  induction js with
  | nil => simpa using .refl w h
  | cons j js ih =>
    have := endSweep_sims (j := j) cause w ((js.map (Token.sweep · cause) : List Token) + h)
    exact (by simpa [← Multiset.cons_coe] using this : Sims _ _ _ _ _).trans ih

/-- **A sweep** cancels the jobs it holds, and hands the rest on when it is suspended. -/
theorem runSweep_sims (cause : CancelCause) (js : List JobId) (w : World) (h : Multiset Token) :
    Sims Label.basic w ((js.map (Token.sweep · cause) : List Token) + h) (w.runSweep cause js).1
      ((w.runSweep cause js).2.tokens + h) := by
  induction js generalizing w with
  | nil => simpa [runSweep, Outcome.tokens] using .refl w h
  | cons j rest ih =>
    set sweeps : Multiset Token := ((rest.map (Token.sweep · cause) : List Token) : Multiset Token)
    have hnext : Sims Label.basic w (.sweep j cause ::ₘ (sweeps + h))
        (w.cancelStart j cause).1 ((w.cancelStart j cause).2.tokens + (sweeps + h)) := by
      refine (cancelStart_sims (j := j) cause (.inr (.inr (by simp)))).trans ?_
      rw [Multiset.add_cons]
      exact endSweep_sims cause _ _
    have hcons : (((j :: rest).map (Token.sweep · cause) : List Token) : Multiset Token) + h =
        .sweep j cause ::ₘ (sweeps + h) := by
      rw [List.map_cons, ← Multiset.cons_coe, Multiset.cons_add]
    rw [hcons]
    unfold runSweep
    split
    · rename_i w' fs heq
      rw [heq] at hnext
      simpa [Outcome.tokens, Frame.tokens, add_assoc] using hnext
    · rename_i w' heq
      rw [heq] at hnext
      simp only [Outcome.tokens, zero_add] at hnext
      exact hnext.trans (ih w')
    · rename_i w' e heq
      rw [heq] at hnext
      simp only [Outcome.tokens, zero_add] at hnext
      split
      · exact hnext.trans (ih w')
      · exact hnext.trans (by simpa [Outcome.tokens] using endSweeps_sims cause rest w' h)

/-- A sweep from its start. -/
theorem startSweep_sims (cause : CancelCause) (js : List JobId) (w : World) (h : Multiset Token) :
    Sims Label.basic w h (w.runSweep cause js).1 ((w.runSweep cause js).2.tokens + h) := by
  have hbegin : Sims Label.basic w h w ((js.map (Token.sweep · cause) : List Token) + h) := by
    refine Sims.one (show Label.basic (.sweep cause) from trivial) nofun (fun _ => ?_) rfl
    have hm := Move.beginSweep (c := w.ledger h) cause js
    rw [show (w.ledger h).tokens + (js.map (Token.sweep · cause) : List Token) =
      taskTokens w.tasks + ((js.map (Token.sweep · cause) : List Token) + h) by
        simp only [ledger, add_assoc, add_comm h]] at hm
    exact hm
  exact hbegin.trans (runSweep_sims cause js w h)

/-! ### Creation and commit -/

/-- A new job is held by the section that creates it. -/
theorem createJob_sims (job : FirmwareJob) (hq : job.status = .queued)
    (hr : job.dependencyReleased = false) (hd : job.dependsOn = none)
    (hs : job.jobType = .compile → job.source = .local) :
    Sims Label.basic w h (w.createJob job) (.stage w.fw.fresh ::ₘ h) := by
  refine .plain (fun _ => ?_) rfl
  have hm := Move.create (c := w.ledger h)
    { job with jobId := w.fw.fresh, createdAt := w.clock } ⟨rfl, hq, hr⟩ hd hs
  rw [show Token.stage (w.ledger h).fresh ::ₘ (w.ledger h).tokens =
    taskTokens w.tasks + (.stage w.fw.fresh ::ₘ h) from (Multiset.add_cons ..).symm] at hm
  exact hm

/-- What is staged waits, and depends on nothing. -/
theorem staged (hI : (w.ledger (.stage j ::ₘ h)).Inv) :
    ∃ job, w.fw.obj j = some job ∧ job.dependsOn = none ∧ .owed j ∉ taskTokens w.tasks + h := by
  have hmem : .stage j ∈ (w.ledger (.stage j ::ₘ h)).tokens := by simp [ledger]
  have hpos : 0 < ((w.ledger (.stage j ::ₘ h)).view j).stage := Multiset.count_pos.2 hmem
  cases ho : w.fw.obj j with
  | none =>
    have h0 := ((hI.view j).absent (by simp [Ledger.view, ledger, ho])).1
    unfold View.track at h0; omega
  | some job =>
    have hd := hI.stage hmem job ho
    refine ⟨job, rfl, hd, fun hm => ?_⟩
    obtain ⟨job', p, -, hj', hd', -⟩ := hI.owed (d := j) (by
      simp only [ledger, Multiset.add_cons, Multiset.mem_cons]; exact .inr hm)
    simp only [ledger] at hj'
    rw [ho] at hj'; cases hj'
    rw [hd] at hd'; cases hd'

@[simp] theorem laneQueued_enqueueOn (fw : FirmwareState) (l : LaneId) (j : JobId) :
    (fw.enqueueOn l j).laneQueued = j ::ₘ fw.laneQueued := by
  have hj : ∀ q : List JobId, ((q ++ [j] : List JobId) : Multiset JobId) = j ::ₘ (q : Multiset JobId) :=
    fun q => Multiset.coe_eq_coe.2 (List.perm_append_singleton j q)
  cases l <;>
    simp only [FirmwareState.laneQueued, FirmwareState.enqueueOn, FirmwareState.setLane,
      FirmwareState.lane, hj, Multiset.cons_add, Multiset.add_cons]

theorem enqueueOn_fields (fw : FirmwareState) (l : LaneId) (j : JobId) :
    (fw.enqueueOn l j).obj = fw.obj ∧ (fw.enqueueOn l j).fresh = fw.fresh ∧
      (fw.enqueueOn l j).jobs = fw.jobs ∧ (fw.enqueueOn l j).jobIsOnALane = fw.jobIsOnALane ∧
      (fw.enqueueOn l j).remoteDispatch = fw.remoteDispatch := by
  cases l <;> exact ⟨rfl, rfl, rfl, rfl, rfl⟩

/-- Routing a job in the world is routing it in the ledger. -/
theorem placeOnLane_ledger (hj : w.fw.obj j = some job) :
    (w.placeOnLane j).ledger h = (w.ledger h).route j job := by
  have hlatch : (if job.dependsOn.isSome then w.fw.modify j ({ · with dependencyReleased := true })
      else w.fw) = { w.fw with obj := Function.update w.fw.obj j (some (Ledger.latched job)) } := by
    unfold Ledger.latched
    split
    · exact FirmwareState.modify_of_some hj _
    · rw [Function.update_eq_self_iff.2 hj.symm]
  unfold placeOnLane FirmwareState.placeOnLane
  simp only [hj, hlatch]
  by_cases hp : FirmwareState.pooled job = true
  · simp only [hp, if_true, ledger, emit, RemoteDispatchState.hold, Ledger.route]
    rfl
  · obtain ⟨h1, h2, h3, h4, h5⟩ := enqueueOn_fields
      { w.fw with
        obj := Function.update w.fw.obj j (some (Ledger.latched job))
        remoteDispatch := w.fw.remoteDispatch.drop j } (FirmwareState.laneFor w.isThread job) j
    simp only [hp, ledger, emit, Ledger.route]
    simp only [Bool.false_eq_true, if_false, h1, h2, h3, h4, h5, laneQueued_enqueueOn]
    rfl

theorem latch_remoteDispatch (fw : FirmwareState) :
    (if job.dependsOn.isSome then fw.modify j ({ · with dependencyReleased := true }) else
      fw).remoteDispatch = fw.remoteDispatch := by
  split <;> rfl

/-- The router leaves the counter of a job that it sends to the pool. -/
theorem placeOnLane_pooled (hj : w.fw.obj j = some job) (hp : FirmwareState.pooled job = true) :
    (w.placeOnLane j).losses = w.losses := by
  show (w.fw.placeOnLane w.isThread j).remoteDispatch.retries = _
  unfold FirmwareState.placeOnLane
  simp only [hj, hp, if_true, RemoteDispatchState.hold, latch_remoteDispatch]
  rfl

/-- The router resets the counter of a job that it sends to a lane. -/
theorem placeOnLane_losses (hj : w.fw.obj j = some job) :
    (w.placeOnLane j).losses = w.losses ∨
      (w.placeOnLane j).losses = Function.update w.losses j 0 ∧
        j ∈ (w.placeOnLane j).fw.laneQueued := by
  by_cases hp : FirmwareState.pooled job = true
  · exact .inl (placeOnLane_pooled hj hp)
  · refine .inr ⟨?_, ?_⟩
    · show (w.fw.placeOnLane w.isThread j).remoteDispatch.retries = _
      unfold FirmwareState.placeOnLane
      simp only [hj, hp, if_false, (enqueueOn_fields ..).2.2.2.2, Bool.false_eq_true]
      simp only [RemoteDispatchState.drop, latch_remoteDispatch]
      rfl
    · have hq := congrArg Ledger.queued (placeOnLane_ledger (h := 0) hj)
      simp only [Ledger.route, hp, Bool.false_eq_true, if_false] at hq
      show j ∈ ((w.placeOnLane j).ledger 0).queued
      rw [hq]
      exact Multiset.mem_cons_self ..

theorem placeOnLane_keeps : Keeps w (w.placeOnLane j) := .of_tasks rfl rfl

theorem note_sims (ev : Ev) (hn : ev.isNote = true) : Sims Label.basic w h (w.emit ev) h :=
  .plain (fun _ => Move.note (c := w.ledger h) ev hn) rfl

/-- A job that was placed is announced. -/
theorem placeAndAnnounce_of_satisfied (hj : w.fw.obj j = some job)
    (hs : w.fw.dependencySatisfied job = true) :
    Sims Label.basic (w.placeOnLane j) h (w.placeAndAnnounce j) h := by
  unfold placeAndAnnounce
  simp only [hj, hs, if_true]
  split
  · exact .refl _ _
  · exact note_sims _ rfl

/-- **A staged job is placed.** -/
theorem placeAndAnnounce_sims :
    Sims Label.basic w (.stage j ::ₘ h) (w.placeAndAnnounce j) h := by
  refine .of_inv fun hI => ?_
  obtain ⟨job, hj, hd, -⟩ := staged hI
  refine Sims.trans ?_
    (placeAndAnnounce_of_satisfied hj (by simp [FirmwareState.dependencySatisfied, hd]))
  refine .forgets (show Label.basic .plain from trivial) nofun (fun _ => ?_) placeOnLane_keeps
    (.of_lane (placeOnLane_losses hj))
  have hm := Move.place (c := w.ledger (.stage j ::ₘ h)) hj (ledger_tokens_cons ..)
  rw [placeOnLane_ledger hj]
  exact hm

section Chain

variable {head dependent : JobId}

/-- A staged chain: its head waits, its dependent depends on it. -/
theorem stagedChain (hI : (w.ledger (.chain head dependent ::ₘ h)).Inv) :
    ∃ a b, w.fw.obj head = some a ∧ w.fw.obj dependent = some b ∧ a.dependsOn = none ∧
      b.dependsOn = some head ∧ a.status ≠ .completed := by
  have hmem : .chain head dependent ∈ (w.ledger (.chain head dependent ::ₘ h)).tokens := by
    simp [ledger]
  obtain ⟨a, b, ha, hb, hd⟩ := hI.chain hmem
  refine ⟨a, b, ha, hb, hI.deps.depth hb hd ha, hd, ?_⟩
  have hpos := Ledger.chainCount_pos hmem (j := head) (.inl rfl)
  have hw := (hI.view head).staged (Nat.add_pos_right _ hpos)
  simp only [View.Waiting, Ledger.view, ha, Option.map_some, Option.some.injEq] at hw
  rcases hw with hw | hw <;> rw [hw] <;> simp

/-- The dependent of a staged chain is announced and not placed. -/
theorem placeDependent_sims :
    Sims Label.basic w (.chain head dependent ::ₘ h) (w.placeAndAnnounce dependent)
      (.chain head dependent ::ₘ h) := by
  refine .of_inv fun hI => ?_
  obtain ⟨a, b, ha, hb, -, hd, hs⟩ := stagedChain hI
  have hun : w.fw.dependencySatisfied b = false := by
    unfold FirmwareState.dependencySatisfied
    simp only [hd]
    split
    · rename_i prereq hp
      have := (FirmwareState.find_some hp).2
      rw [ha] at this; cases this
      simpa using hs
    · rfl
  unfold placeAndAnnounce
  simp only [hb, hun, Bool.false_eq_true, if_false]
  exact note_sims _ rfl

/-- The head of a staged chain is placed. -/
theorem placeHead_sims :
    Sims Label.basic w (.chain head dependent ::ₘ h) (w.placeAndAnnounce head) h := by
  refine .of_inv fun hI => ?_
  obtain ⟨a, b, ha, -, hd, -, -⟩ := stagedChain hI
  refine Sims.trans ?_
    (placeAndAnnounce_of_satisfied ha (by simp [FirmwareState.dependencySatisfied, hd]))
  refine .forgets (show Label.basic .plain from trivial) nofun (fun _ => ?_) placeOnLane_keeps
    (.of_lane (placeOnLane_losses ha))
  have hm := Move.placeChain (c := w.ledger (.chain head dependent ::ₘ h)) ha
    (ledger_tokens_cons ..)
  rw [placeOnLane_ledger ha]
  exact hm

end Chain

/-- What `commit_chain` commits: its jobs in the order of placement, and the token that stages
them. -/
inductive Staged : List JobId → Token → Prop
  | single (j : JobId) : Staged [j] (.stage j)
  | chain (head dependent : JobId) : Staged [dependent, head] (.chain head dependent)

theorem placeAll_sims {jobs : List JobId} {t : Token} (ht : Staged jobs t) :
    Sims Label.basic w (t ::ₘ h) (jobs.foldl placeAndAnnounce w) h := by
  cases ht with
  | single j => exact placeAndAnnounce_sims
  | chain head dependent => exact placeDependent_sims.trans placeHead_sims

/-- **`commit_chain`** after its check: place, supersede, persist. -/
theorem commitPlaced_sims {jobs : List JobId} {t : Token} (ht : Staged jobs t)
    (supersede : Option Configuration) :
    Sims Label.basic w (t ::ₘ h) (w.commitPlaced jobs supersede).1
      ((w.commitPlaced jobs supersede).2.tokens + h) := by
  refine (placeAll_sims ht).trans ?_
  unfold commitPlaced
  set w := jobs.foldl placeAndAnnounce w
  have none_ : Sims Label.basic w h w ((Outcome.suspended [.commitPersist]).tokens + h) := by
    simpa [Outcome.tokens, Frame.tokens] using .refl w h
  split
  · exact none_
  · exact none_
  · rename_i configuration hne
    have hsw := startSweep_sims (.supersede jobs) (w.toCancel jobs (some configuration)) w h
    simp only [supersedeActiveJobs]
    generalize w.runSweep (.supersede jobs) (w.toCancel jobs (some configuration)) = r at hsw ⊢
    rcases r with ⟨w', fs | _ | e⟩
    · simpa [Outcome.tokens, Frame.tokens] using hsw
    · simpa [Outcome.tokens, Frame.tokens] using hsw
    · simpa [Outcome.tokens] using hsw

/-- A staged job is rolled back. -/
theorem rollBack_sims : Sims Label.basic w (.stage j ::ₘ h) (w.popJob j) h := by
  refine .of_inv fun hI => ?_
  obtain ⟨-, -, -, ho⟩ := staged hI
  refine .plain (fun _ => Move.unstage (c := w.ledger (.stage j ::ₘ h)) (ledger_tokens_cons ..) ?_) rfl
  rw [ledger_tokens_cons, Multiset.mem_cons]
  rintro (hm | hm)
  · cases hm
  · exact ho hm

/-- What is staged is there. -/
theorem staged_some {w' : World} (hj : w.fw.obj j = none) :
    Sims Label.basic w (.stage j ::ₘ h) w' h' := by
  refine .of_inv fun hI => ?_
  obtain ⟨job, hjob, -⟩ := staged hI
  rw [hj] at hjob; cases hjob

/-- **`commit_chain`** of one job. -/
theorem commitChain_sims (supersede : Option Configuration) :
    Sims Label.basic w (.stage j ::ₘ h) (w.commitChain j none supersede).1
      ((w.commitChain j none supersede).2.tokens + h) := by
  unfold commitChain
  split
  · exact staged_some ‹_›
  · simp only [Option.toList_none, List.nil_append, List.foldl_cons, List.foldl_nil]
    split
    · simpa [Outcome.tokens] using rollBack_sims
    · exact commitPlaced_sims (.single j) supersede

theorem enqueue_sims (supersede : Bool) :
    Sims Label.basic w (.stage j ::ₘ h) (w.enqueue j supersede).1
      ((w.enqueue j supersede).2.tokens + h) := by
  unfold enqueue
  split
  · exact staged_some ‹_›
  · exact commitChain_sims _

/-! ### The stacks of these calls -/

theorem cancelStart_plain (cause : CancelCause) : PlainStack (w.cancelStart j cause).2.frames := by
  unfold cancelStart
  simp only
  split
  · exact plainStack_nil
  split
  · exact plainStack_one trivial
  · split
    · exact plainStack_nil
    split
    · exact plainStack_nil
    · split
      · exact plainStack_one trivial
      · exact plainStack_nil
  · exact plainStack_nil
  · exact plainStack_nil
  · exact plainStack_nil

theorem runSweep_plain (cause : CancelCause) (js : List JobId) (w : World) :
    PlainStack (w.runSweep cause js).2.frames := by
  induction js generalizing w with
  | nil => exact plainStack_nil
  | cons j js ih =>
    have hc := cancelStart_plain (w := w) (j := j) cause
    unfold runSweep
    generalize w.cancelStart j cause = r at hc ⊢
    rcases r with ⟨v, fs | _ | e⟩
    · exact hc.wait trivial fun _ => id
    · exact ih v
    · simp only
      split
      · exact ih v
      · exact plainStack_nil

theorem commitPlaced_plain (w : World) (jobs : List JobId) (supersede : Option Configuration) :
    PlainStack (w.commitPlaced jobs supersede).2.frames := by
  unfold commitPlaced
  generalize jobs.foldl placeAndAnnounce w = v
  simp only
  split
  · exact plainStack_one trivial
  · exact plainStack_one trivial
  · next configuration _ =>
    have hs : PlainStack (v.supersedeActiveJobs configuration jobs).2.frames := runSweep_plain _ _ v
    generalize v.supersedeActiveJobs configuration jobs = r at hs ⊢
    rcases r with ⟨u, fs | _ | e⟩
    · exact hs.wait trivial fun _ => id
    · exact plainStack_one trivial
    · exact plainStack_nil

theorem enqueue_plain (w : World) (j : JobId) (supersede : Bool) : PlainStack (w.enqueue j supersede).2.frames := by
  unfold enqueue
  split
  · exact plainStack_nil
  · unfold commitChain
    simp only
    split
    · exact plainStack_nil
    split
    · exact plainStack_nil
    · exact commitPlaced_plain _ _ _

/-- A command that starts as a task of its own takes its tokens along. -/
theorem startCommand_entries {ok : Label → Prop} {r : World × Outcome}
    (hok : ∀ ℓ, ℓ.basic → ok ℓ) (hs : Sims ok w h r.1 (r.2.tokens + h'))
    (hI : (w.ledger h).Inv) : Chain Entry ok (w.account h) ((startCommand r).account h') := by
  refine (hs.entries hI).trans ?_
  unfold startCommand
  rcases r with ⟨w', fs | _ | e⟩
  · exact Chain.of_eq (congrArg (Account.mk · w'.losses)
      (ledger_spawnTask w' h' (.command fs)).symm)
  · exact Chain.of_eq (by simp [Outcome.tokens])
  · exact Chain.trans (Chain.of_eq (by simp [Outcome.tokens]))
      ((note_sims (w := w') (h := h') (.commandError e) rfl).mono hok |>.entries
        (by simpa [Outcome.tokens] using hs.inv hI))

/-- The flash of a device that woke up starts so. -/
theorem startCommand_sims {ok : Label → Prop} {r : World × Outcome} (hok : ∀ ℓ, ℓ.basic → ok ℓ)
    (hs : Sims ok w h r.1 (r.2.tokens + h')) (hp : PlainStack r.2.frames) : Sims ok w h (startCommand r) h' := by
  refine ⟨startCommand_entries hok hs, fun hI => (hs.keeps hI).trans ?_⟩
  rcases r with ⟨w', fs | _ | e⟩
  · exact spawnTask_keeps w' (t := .command fs) hp
  · exact .of_eq rfl
  · exact .of_eq rfl

end World

end DeviceBuilder
