import DeviceBuilder.Queue.Attempts
import DeviceBuilder.Queue.Tabled
import DeviceBuilder.Properties.Pool
import DeviceBuilder.Properties.Faults

/-!
# Re-routing terminates

A job of the pool that loses its server goes back to the pool, and one whose server
cannot provision goes to the local lane. The loss counter of a job is kept in the
pool, beside the jobs that wait and those that are driven.

* `Ledger.Grounded`: a job that is local stays so.
* `RerouteLaw`: the starts of a job, its counter, and what a lost server does.
* `rerouting_terminates`: in every world reached.
-/

namespace DeviceBuilder

open Runs Ledger

variable {c c' : Ledger} {ℓ : Label} {w w' : World} {j k : JobId} {job : FirmwareJob} {a : Action}
  {n : ℕ}

/-! ### A local job stays local -/

/-- `j` is local, no server is bound to it, and it was started on a server `n` times. -/
structure Ledger.Grounded (c : Ledger) (j : JobId) (n : ℕ) : Prop where
  source : ∃ job, c.obj j = some job ∧ job.source = .local
  flight : j ∉ c.inFlight
  starts : remoteStarts c.log j = n

theorem latched_source : (latched job).source = job.source := by
  unfold latched
  split <;> rfl

theorem Ledger.Grounded.unpooled {losses : JobId → ℕ} (h : c.Grounded j n)
    (ht : (c.tally j).Ok (losses j)) : j ∉ c.pending ∧ .drive j ∉ c.tokens := by
  obtain ⟨job, hj, hs⟩ := h.source
  refine ⟨fun hp => ?_, fun hd => ?_⟩
  · have hpool := (ht.pending job hj (List.count_pos_iff.2 hp)).1
    simp [FirmwareState.pooled, hs] at hpool
  · have hremote := (ht.drive job hj (Multiset.count_pos.2 hd)).1
    rw [hs] at hremote
    cases hremote

/-- Only the pool makes a local job another one. -/
theorem stays_local (hm : Move ℓ c c') (hp : ℓ ≠ .pool) (hI : c.Inv) {x : FirmwareJob}
    (hj : c.obj j = some x) (hs : x.source = .local) :
    ∃ b, c'.obj j = some b ∧ b.source = .local := by
  have upd : ∀ {k : JobId} {b : FirmwareJob},
      (∀ a, c.obj k = some a → a.source = .local → b.source = .local) →
      ∃ y, Function.update c.obj k (some b) j = some y ∧ y.source = .local := by
    intro k b hb
    by_cases hk : j = k
    · subst hk
      exact ⟨b, Function.update_self .., hb x hj hs⟩
    · exact ⟨x, (Function.update_of_ne hk ..).trans hj, hs⟩
  have same : ∀ {k : JobId} {a b : FirmwareJob}, c.obj k = some a → b.source = a.source →
      ∃ y, Function.update c.obj k (some b) j = some y ∧ y.source = .local := by
    intro k a b ha hb
    refine upd fun a' ha' hs' => ?_
    rw [ha] at ha'
    cases ha'
    exact hb.trans hs'
  have hlt : j < c.fresh := (hI.ids hj).2
  cases hm with
  | edit hk hab => exact same hk (congrArg Prod.fst hab.2.2.2.1)
  | create | submit =>
    exact ⟨x, (Function.update_of_ne (Nat.ne_of_lt hlt) ..).trans hj, hs⟩
  | submitChain =>
    refine ⟨x, ?_, hs⟩
    show Function.update (Function.update c.obj c.fresh _) (c.fresh + 1) _ j = some x
    rw [Function.update_of_ne (Nat.ne_of_lt (Nat.lt_succ_of_lt hlt)),
      Function.update_of_ne (Nat.ne_of_lt hlt)]
    exact hj
  | place hk | placeChain hk | placeOwed _ hk => exact same hk latched_source
  | startExec _ hk => exact same hk rfl
  | finishExec _ hk he | finishDrive _ hk he | failPending _ hk _ he | finishQueued hk _ he
  | refinish hk _ he => exact same hk (congrArg Prod.fst he.2.2.2.1)
  | cancelMark hk => exact same hk rfl
  | provision | toLocal => exact upd fun _ _ _ => latched_source
  | startDrive | reroute => exact absurd rfl hp
  | _ => exact ⟨x, hj, hs⟩

/-- A local job is started on no server. -/
theorem starts_move (hm : Move ℓ c c') (hp : ℓ ≠ .pool) (hI : c.Inv) {x : FirmwareJob}
    (hj : c.obj j = some x) (hs : x.source = .local) :
    remoteStarts c'.log j = remoteStarts c.log j := by
  cases hm with
  | note ev he => simp [startsRemote_of_note he]
  | @startExec _ k b ts ht hk hb =>
    have hno : Ev.startsRemote j (.jobStarted b.markRunning) = false := by
      by_cases hjk : j = k
      · subst hjk
        rw [hj] at hk
        cases hk
        simp [Ev.startsRemote, FirmwareJob.markRunning, hs]
      · simp [Ev.startsRemote, FirmwareJob.markRunning, (hI.ids hk).1, Ne.symm hjk]
    simp [hno]
  | startDrive | reroute => exact absurd rfl hp
  | _ => first | rfl | simp [Ev.startsRemote]

/-- **A local job stays local**, whatever the code does. -/
theorem grounded_entry {x y : Account} (he : Entry ℓ x y) (hI : x.ledger.Inv) (hc : x.Counted)
    (h : x.ledger.Grounded j n) : y.ledger.Grounded j n := by
  obtain ⟨hpend, hdrive⟩ := h.unpooled (hc.tally j)
  obtain ⟨b, hb, hs⟩ := h.source
  cases he with
  | move hm hp =>
    exact ⟨stays_local hm hp hI hb hs, fun hf => (inFlight_move hm hf).elim h.flight hpend,
      (starts_move hm hp hI hb hs).trans h.starts⟩
  | @startDrive c r k a pin src hj hk =>
    have hne : j ≠ k := fun he => hpend (he ▸ hk)
    refine ⟨⟨b, (Function.update_of_ne hne ..).trans hb, hs⟩, fun hf => ?_, ?_⟩
    · exact (KeyList.mem_add.1 hf).elim h.flight hne
    · have hno : Ev.startsRemote j (.jobStarted (a.applyBuildSource src).markRunning) = false := by
        simp [Ev.startsRemote, FirmwareJob.markRunning, FirmwareJob.applyBuildSource,
          (hI.ids hj).1, Ne.symm hne]
      have hstarts := h.starts
      simp [hno, hstarts]
  | @reroute c r k a ts ht hj =>
    have hne : j ≠ k := fun he => hdrive (he ▸ ht ▸ Multiset.mem_cons_self ..)
    refine ⟨⟨b, (Function.update_of_ne hne ..).trans hb, hs⟩, fun hf => ?_, ?_⟩
    · exact h.flight (KeyList.mem_drop.1 hf).1
    · have hstarts := h.starts
      simp [Ev.startsRemote, hstarts]
  | forget => exact h

/-- The steps of one run of the dashboard. -/
def NoRestart (_ : World) (a : Action) : Prop :=
  ∀ rows devices offloader workers, a ≠ .restart rows devices offloader workers

theorem grounded_run (hr : Reaches World.step NoRestart w w') (hI : (w.ledger 0).Inv)
    (hc : (w.account 0).Counted) (h : (w.ledger 0).Grounded j n) :
    (w'.account 0).Counted ∧ (w'.ledger 0).Grounded j n := by
  have key := hr.invariant (I := fun w => (w.ledger 0).Inv ∧ (w.account 0).Counted ∧
    (w.ledger 0).Grounded j n) ⟨hI, hc, h⟩ ?_
  · exact key.2
  · rintro w a ha ⟨hI, hc, hg⟩
    refine ⟨inv_step hI a, counted_step hI hc a, ?_⟩
    refine ((World.step_entries ha hI).invariant (I := fun x => x.ledger.Inv ∧ x.Counted ∧
      x.ledger.Grounded j n) ⟨hI, hc, hg⟩ ?_).2.2
    rintro ℓ x y - he ⟨hI, hc, hg⟩
    exact ⟨hI.entry he, counted_entry he hI hc, grounded_entry he hI hc hg⟩

/-! ### What the drivers do -/

/-- The step hears that the session of `j`, driven by the pool, is lost. -/
def Action.LosesServer (w : World) (a : Action) (j : JobId) : Prop :=
  ∃ i cancelSent text, a = .resume i (.sessionLost text) ∧
    w.tasks[i]? = some (.driveRemote j (.terminal cancelSent)) ∧ w.isCancelRequested j = false

/-- The driver of `j`. -/
def Task.drives (j : JobId) (t : Task) : Prop := t = .driveBegin j ∨ ∃ pt, t = .driveRemote j pt

namespace World

variable {i : ℕ} {t : Task}

theorem drive_mem (hi : w.tasks[i]? = some t) (ht : t.drives j) :
    .drive j ∈ (w.ledger 0).tokens := by
  refine Multiset.mem_add.2 (.inl ?_)
  rw [← tokens_le_of_task hi]
  refine Multiset.mem_add.2 (.inr ?_)
  rcases ht with rfl | ⟨pt, rfl⟩ <;> exact Multiset.mem_singleton_self _

theorem setTask_inv (hI : (w.ledger 0).Inv) {pt : RemotePoint}
    (hi : w.tasks[i]? = some (.driveRemote j pt)) :
    ((w.setTask i .ended).ledger (.drive j ::ₘ 0)).Inv := by
  rw [show Token.drive j ::ₘ 0 = (Task.driveRemote j pt).tokens + 0 from (add_zero _).symm,
    ledger_setTask hi]
  exact (zero_add (0 : Multiset Token)).symm ▸ hI

theorem driveFinish_of_active (hj : w.fw.obj j = some job) (ha : job.isTerminal = false) :
    w.driveFinish j = w.modifyPool (·.release j) := by
  have hobj : (w.modifyPool (·.release j)).fw.obj j = some job := hj
  unfold driveFinish endRun
  simp only [hobj, Option.map_some, Option.getD_some, ha, Bool.false_eq_true, if_false]

/-- A server that was lost, while the job may still be re-routed. -/
theorem reroute_loss (hj : w.fw.obj j = some job) (ht : job.jobType ∈ remotePoolJobTypes)
    (hr : w.losses j < maxServerLossRetries) (reason : String) :
    let v := (w.requeueAfterServerLoss j reason).driveFinish j
    (∃ job', v.fw.obj j = some job' ∧ job'.status = .queued ∧ job'.source = .remotePending) ∧
      j ∈ v.fw.remoteDispatch.pending ∧ v.losses j = w.losses j + 1 := by
  intro v
  set u := w.modifyPool (·.recordLoss j)
  have hcount : u.fw.remoteDispatch.retries j = w.losses j + 1 := Function.update_self ..
  have hobj : (u.modifyJob j (·.revertToPendingRemote)).fw.obj j =
      some job.revertToPendingRemote := by
    rw [modifyJob_obj (show u.fw.obj j = some job from hj)]
    exact Function.update_self ..
  have hpool : FirmwareState.pooled job.revertToPendingRemote = true := by
    have hsrc : job.revertToPendingRemote.source = .remotePending := rfl
    have htype : job.revertToPendingRemote.jobType = job.jobType := rfl
    unfold FirmwareState.pooled
    rw [hsrc, htype]
    simpa using ht
  set p := (u.modifyJob j (·.revertToPendingRemote)).placeOnLane j with hp
  have hback : w.requeueAfterServerLoss j reason = p := by
    unfold requeueAfterServerLoss
    exact if_neg (show ¬maxServerLossRetries < u.fw.remoteDispatch.retries j by omega)
  have hledger := placeOnLane_ledger (h := 0) hobj
  have hplaced : p.fw.obj j = some (latched job.revertToPendingRemote) :=
    (congrFun (congrArg Ledger.obj hledger) j).trans (Function.update_self ..)
  have hv : v = p.modifyPool (·.release j) := by
    rw [← driveFinish_of_active hplaced (by rw [FirmwareJob.isTerminal, latched_status]; rfl),
      ← hback]
  have hpending : p.fw.remoteDispatch.pending =
      KeyList.add (w.fw.remoteDispatch.pending) j := by
    have hl := congrArg Ledger.pending hledger
    simp only [Ledger.route, hpool, if_true] at hl
    exact hl
  have hlosses : p.losses j = w.losses j + 1 :=
    (congrFun (placeOnLane_pooled hobj hpool) j).trans hcount
  rw [hv]
  refine ⟨⟨_, hplaced, latched_status, latched_source⟩, ?_, hlosses⟩
  show j ∈ p.fw.remoteDispatch.pending
  rw [hpending]
  exact KeyList.mem_add.2 (.inr rfl)

/-- A server that was lost once too often. -/
theorem fail_loss (hI : (w.ledger (.drive j ::ₘ 0)).Inv) (hr : maxServerLossRetries ≤ w.losses j)
    (reason : String) :
    ∃ job', ((w.requeueAfterServerLoss j reason).driveFinish j).fw.obj j = some job' ∧
      job'.status = .failed := by
  obtain ⟨job, hj, -⟩ := obj_of_holds (.drive j) hI
  set u := w.modifyPool (·.recordLoss j)
  have hcount : u.fw.remoteDispatch.retries j = w.losses j + 1 := Function.update_self ..
  rw [obj_driveFinish]
  unfold requeueAfterServerLoss
  rw [if_pos (show maxServerLossRetries < u.fw.remoteDispatch.retries j by omega)]
  exact (finalizeWith_sims (u.fw.jobs.length + 1) _ (fun _ => id)
    (show u.fw.obj j = some job from hj) rfl (by simp) (ends_of_loss hj)).2 hI

/-- A job whose server could not provision is local, and no server is bound to it. -/
theorem grounded_provision (hj : w.fw.obj j = some job) :
    (((w.requeueAfterProvisionFailure j).driveFinish j).ledger 0).Grounded j
      (remoteStarts w.log j) := by
  have hobj : (w.modifyJob j (·.clearRunState)).fw.obj j = some job.clearRunState := by
    rw [modifyJob_obj hj]
    exact Function.update_self ..
  have hledger := fallbackToLocal_ledger (h := 0) hobj
  set v := w.requeueAfterProvisionFailure j
  have hlog : v.log = w.log ++ [.placed j job.dependsOn] := congrArg Ledger.log hledger
  have hend : ∀ x : World, (x.endRun j).log = x.log ∧
      (x.endRun j).fw.remoteDispatch = x.fw.remoteDispatch := by
    intro x
    unfold endRun
    split <;> exact ⟨rfl, rfl⟩
  have hfinish : (v.driveFinish j).log = v.log ∧ (v.driveFinish j).fw.remoteDispatch.inFlight =
      KeyList.drop v.fw.remoteDispatch.inFlight j := by
    unfold driveFinish
    refine ⟨(hend _).1.trans ?_, (congrArg (·.inFlight) (hend _).2).trans ?_⟩ <;> split <;> rfl
  have hplaced : (v.driveFinish j).fw.obj j =
      some (latched (job.clearRunState.applyBuildSource localJobBuildSource)) := by
    rw [obj_driveFinish]
    exact (congrFun (congrArg Ledger.obj hledger) j).trans (Function.update_self ..)
  refine ⟨⟨_, hplaced, latched_source.trans rfl⟩, ?_, ?_⟩
  · show j ∉ (v.driveFinish j).fw.remoteDispatch.inFlight
    rw [hfinish.2]
    exact fun hm => (KeyList.mem_drop.1 hm).2 rfl
  · show remoteStarts (v.driveFinish j).log j = _
    rw [hfinish.1, hlog]
    simp [Ev.startsRemote]

/-- The section that hears of a lost session. -/
theorem step_lost (hI : (w.ledger 0).Inv) {sent : Bool} {text : String}
    (hi : w.tasks[i]? = some (.driveRemote j (.terminal sent)))
    (hc : w.isCancelRequested j = false) :
    w.step (.resume i (.sessionLost text)) =
      (((w.setTask i .ended).requeueAfterServerLoss j text).driveFinish j).setTask i
        (.driveEnd j) := by
  obtain ⟨job, hj, -⟩ := running_of_task hI hi (.drive j) (Multiset.mem_singleton_self _)
  have hobj : (w.setTask i .ended).fw.obj j = some job := hj
  have hcancel : (w.setTask i .ended).isCancelRequested j = false := hc
  rw [step_resume hi]
  simp only [resumeTask, remoteResume, hobj, onSessionLost, hcancel, driveReturn, Bool.not_false,
    Bool.and_self, if_true]

/-- The section that hears that the server cannot provision. -/
theorem step_provision (hI : (w.ledger 0).Inv) {sent : Bool} {text : String}
    (hi : w.tasks[i]? = some (.driveRemote j (.terminal sent)))
    (hc : w.isCancelRequested j = false) :
    w.step (.resume i (.frame .failed .provision text)) =
      (((w.setTask i .ended).requeueAfterProvisionFailure j).driveFinish j).setTask i
        (.driveEnd j) := by
  obtain ⟨job, hj, -⟩ := running_of_task hI hi (.drive j) (Multiset.mem_singleton_self _)
  have hobj : (w.setTask i .ended).fw.obj j = some job := hj
  have hcancel : (w.setTask i .ended).isCancelRequested j = false := hc
  rw [step_resume hi]
  simp only [resumeTask, remoteResume, hobj, onTerminalFrame, hcancel, driveReturn, and_self,
    Bool.false_eq_true, if_false, if_true]

end World

/-! ### Every run -/

/-- **What re-routing keeps to**: how often a job is started on servers, in the log since the
dashboard was started; its loss counter; and what happens to a job when it loses its server, and
when the server cannot provision. -/
structure RerouteLaw (w : World) : Prop where
  starts : ∀ j, remoteStarts w.log j ≤ maxServerLossRetries + 1
  /-- The counter survives the moves of the pool. -/
  survives : ∀ (pool : RemoteDispatchState) (j : JobId) (pin : Pin),
    (pool.hold j).retries = pool.retries ∧ (pool.start j pin).retries = pool.retries ∧
      (pool.release j).retries = pool.retries
  /-- A job that waits lost its server as often as it was started. -/
  waits : ∀ j job, w.fw.obj j = some job → job.status = .queued →
    j ∈ w.fw.remoteDispatch.pending → w.losses j = remoteStarts w.log j
  drives : ∀ (i : ℕ) t j, w.tasks[i]? = some t → t.drives j →
    w.losses j + 1 = remoteStarts w.log j
  returns : ∀ a j, a.LosesServer w j → remoteStarts w.log j ≤ maxServerLossRetries →
    (∃ job, (w.step a).fw.obj j = some job ∧ job.status = .queued ∧
      job.source = .remotePending) ∧
    j ∈ (w.step a).fw.remoteDispatch.pending ∧ (w.step a).losses j = remoteStarts w.log j
  fails : ∀ a j, a.LosesServer w j → remoteStarts w.log j = maxServerLossRetries + 1 →
    ∃ job, (w.step a).fw.obj j = some job ∧ job.status = .failed
  /-- After a provision failure the job is local for the rest of the run. -/
  grounded : ∀ a j, a.Provisions w j → ∀ w', Reaches World.step NoRestart (w.step a) w' →
    (∃ job, w'.fw.obj j = some job ∧ job.source = .local) ∧
      j ∉ w'.fw.remoteDispatch.pending ∧ j ∉ w'.fw.remoteDispatch.inFlight ∧
      remoteStarts w'.log j = remoteStarts w.log j

/-- **Re-routing terminates.** In every world reached, whatever servers are lost and cannot
provision, a job was started on servers at most `_MAX_SERVER_LOSS_RETRIES + 1` times since the
dashboard was; its counter says how often it lost one; after that many losses it fails; and once
it was sent to the local lane it never is in the pool again. -/
theorem rerouting_terminates (h : Reachable any w) : RerouteLaw w := by
  have hI := inv_reachable h
  have hC := counted_reachable h
  have hdriven : ∀ (i : ℕ) t j, w.tasks[i]? = some t → t.drives j →
      ∃ job, w.fw.obj j = some job ∧ job.jobType ∈ remotePoolJobTypes ∧
        remoteStarts w.log j = w.losses j + 1 := by
    intro i t j hi ht
    have hpos : 0 < ((w.ledger 0).view j).drive := Multiset.count_pos.2 (World.drive_mem hi ht)
    obtain ⟨job, hj, -⟩ := Option.map_eq_some_iff.1 ((hI.view j).drive hpos).1
    obtain ⟨-, htype, hs, -⟩ := (hC.tally j).drive job hj hpos
    exact ⟨job, hj, htype, hs⟩
  refine ⟨fun j => (hC.tally j).bound, fun pool j pin => ⟨rfl, rfl, rfl⟩, ?_, ?_, ?_, ?_, ?_⟩
  · intro j job hj hq hp
    exact (((hC.tally j).pending job hj (List.count_pos_iff.2 hp)).2 hq).1.symm
  · intro i t j hi ht
    obtain ⟨-, -, -, hs⟩ := hdriven i t j hi ht
    exact hs.symm
  · rintro a j ⟨i, sent, text, rfl, hi, hc⟩ hmax
    obtain ⟨job, hj, htype, hs⟩ := hdriven i _ j hi (.inr ⟨_, rfl⟩)
    rw [World.step_lost hI hi hc, hs]
    rw [hs] at hmax
    exact World.reroute_loss (w := w.setTask i .ended) hj htype hmax text
  · rintro a j ⟨i, sent, text, rfl, hi, hc⟩ hmax
    obtain ⟨job, hj, htype, hs⟩ := hdriven i _ j hi (.inr ⟨_, rfl⟩)
    have hlosses : w.losses j = maxServerLossRetries := by omega
    rw [World.step_lost hI hi hc]
    exact World.fail_loss (World.setTask_inv hI hi) hlosses.ge text
  · rintro a j ⟨i, sent, text, rfl, hi, hc⟩ w' hr
    obtain ⟨job, hj, -, -⟩ := hdriven i _ j hi (.inr ⟨_, rfl⟩)
    have hground : ((w.step (.resume i (.frame .failed .provision text))).ledger 0).Grounded j
        (remoteStarts w.log j) := by
      rw [World.step_provision hI hi hc]
      obtain ⟨hsrc, hflight, hstarts⟩ := World.grounded_provision (w := w.setTask i .ended) hj
      exact ⟨hsrc, hflight, hstarts⟩
    obtain ⟨hC', hg⟩ := grounded_run hr (inv_step hI _) (counted_step hI hC _) hground
    exact ⟨hg.source, (hg.unpooled (hC'.tally j)).1, hg.flight, hg.starts⟩

/-- Driver `i` starts on the server and loses it, and the matcher runs. -/
def loses (i : ℕ) : List Action :=
  [.resume i .ok, .resume i .ok, .resume i .ok, .resume i (.sessionLost "closed"), .resume 3 .ok]

/-- A compile whose server is lost again and again. -/
def flapping : List Action :=
  [.restart [] (fun _ => some {}) (some oneServer) 1, .command (.compile "a.yaml" false),
    .resume 3 .ok, .resume 3 .ok] ++ loses 5 ++ loses 6 ++ loses 7 ++ loses 8

theorem rerouting_flapping :
    RerouteLaw (World.run flapping) ∧ remoteStarts (World.run flapping).log 0 = 4 ∧
      ((World.run flapping).fw.obj 0).map (·.status) = some .failed :=
  ⟨rerouting_terminates (reachable_run flapping), by decide, by decide⟩

end DeviceBuilder
