import DeviceBuilder.Properties.Terminal

/-!
# Exceptions in a run

From its `JOB_STARTED` on, a job's run passes awaits that may raise: the persists of
`begin_run` and `end_run`, and everything between them. `execute_job` and `_drive_remote`
guard what stands between; the persist of `begin_run` stands before their `try`, and that of
`end_run`, in `execute_job`, is the last thing a lane worker does before its next job.

* `Task.running`, `Task.unguarded`: a run's awaits, and those that nothing guards.
* `Survives`: what an exception must leave.
* `raised_run`: an exception leaves it, or makes no difference, exactly where it is guarded.
-/

namespace DeviceBuilder

open Runs Ledger

variable {c c' : Ledger} {ℓ : Label} {w w' v : World} {h : Multiset Token} {i : ℕ} {j : JobId} {l : LaneId} {t : Task}
  {job : FirmwareJob} {exc : String}

/-- The job whose run the task is in. -/
def Task.running : Task → Option JobId
  | .laneBegin _ j | .laneLocal _ j _ | .laneRemote _ j _ | .laneEnd _ j _ | .driveBegin j | .driveRemote j _
  | .driveEnd j => some j
  | _ => none

/-- The persist of `begin_run`, or that of `end_run` in a lane worker that is to go on. -/
def Task.unguarded : Task → Bool
  | .laneBegin .. | .laneEnd _ _ false | .driveBegin _ => true
  | _ => false

/-- The lane whose worker the task is. -/
def Task.lane : Task → Option LaneId
  | .laneIdle l | .laneGate l _ _ | .laneBegin l _ | .laneLocal l _ _ | .laneRemote l _ _ | .laneEnd l _ _ => some l
  | _ => none

/-! ### The end of a run is announced -/

/-- A terminal event of `j` was fired. -/
def Announced (log : List Ev) (j : JobId) : Prop := ∃ job, .jobTerminal job ∈ log ∧ job.jobId = j

/-- Job `j` runs, or its end was announced. -/
def Ledger.Accounted (c : Ledger) (j : JobId) : Prop :=
  ∃ job, c.obj j = some job ∧ (job.status = .running ∨ Announced c.log j)

theorem Announced.mono {log log' : List Ev} (ha : Announced log j) (hp : log <+: log') : Announced log' j := by
  obtain ⟨e, he, hid⟩ := ha
  exact ⟨e, hp.subset he, hid⟩

/-- An object is replaced: another job's, or `j`'s by one that runs if it did, or whose end is announced. -/
theorem accounted_update {k : JobId} {a b : FirmwareJob} (hc : c.Accounted j) (hk : c.obj k = some a)
    (ho : c'.obj = Function.update c.obj k (some b)) (hlog : c.log <+: c'.log)
    (hself : a.status = .running → b.status = .running ∨ Announced c'.log k) : c'.Accounted j := by
  obtain ⟨job, hj, hr⟩ := hc
  by_cases he : j = k
  · subst he
    rw [hk] at hj
    cases hj
    refine ⟨b, by rw [ho, Function.update_self], ?_⟩
    rcases hr with hr | ha
    · exact hself hr
    · exact .inr (ha.mono hlog)
  · refine ⟨job, ?_, hr.imp_right (·.mono hlog)⟩
    rw [ho, Function.update_of_ne he]
    exact hj

theorem accounted_same (hc : c.Accounted j) (ho : c'.obj = c.obj) (hlog : c.log <+: c'.log) : c'.Accounted j := by
  obtain ⟨job, hj, hr⟩ := hc
  exact ⟨job, by rw [ho]; exact hj, hr.imp_right (·.mono hlog)⟩

theorem accounted_create {k : JobId} {b : FirmwareJob} (hI : c.Inv) (hc : c.Accounted j) (hk : c.fresh ≤ k)
    (ho : c'.obj = Function.update c.obj k (some b)) (hlog : c.log <+: c'.log) : c'.Accounted j := by
  obtain ⟨job, hj, hr⟩ := hc
  have hne : j ≠ k := by
    rintro rfl
    exact absurd (hI.ids hj).2 (Nat.not_lt.2 hk)
  exact ⟨job, by rw [ho, Function.update_of_ne hne]; exact hj, hr.imp_right (·.mono hlog)⟩

/-- **A run's end is announced.** -/
theorem accounted_move (hm : Move ℓ c c') (hI : c.Inv) (hc : c.Accounted j) (hℓ : ℓ.basic) : c'.Accounted j := by
  have quiet : c'.obj = c.obj → c'.log = c.log → c'.Accounted j :=
    fun ho hlog => accounted_same hc ho (by rw [hlog])
  have one : ∀ ev, c.log <+: c.log ++ [ev] := fun ev => List.prefix_append _ _
  -- what ends a job announces it
  have ends : ∀ {k : JobId} {a b : FirmwareJob}, c.obj k = some a → a.EndsAs b →
      c'.obj = Function.update c.obj k (some b) → c'.log = c.log ++ [.jobTerminal b] → c'.Accounted j := by
    intro k a b hk he ho hlog
    refine accounted_update hc hk ho (by rw [hlog]; exact one _) fun _ => .inr ⟨b, ?_, ?_⟩
    · rw [hlog]
      exact List.mem_append_right _ (List.mem_singleton_self _)
    · exact (jobId_of_identity he.1).trans (hI.ids hk).1
  cases hm with
  | note ev hn => exact accounted_same hc rfl (one _)
  | edit hk he => exact accounted_update hc hk rfl List.prefix_rfl fun hr => .inl (he.2.1.trans hr)
  | create a hn hd hs => exact accounted_create hI hc le_rfl rfl List.prefix_rfl
  | submit a hn hd hs ht => exact accounted_create hI hc le_rfl rfl (one _)
  | place hk ht | placeChain hk ht | placeOwed ht hk =>
    exact accounted_update hc hk rfl (one _) fun hr => .inl (latched_status.trans hr)
  | finishExec ht hk he hf | finishDrive ht hk he hf | failPending hp hk hs he hf | finishQueued hk hs he hf =>
    exact ends hk he rfl rfl
  | callCancel k cause hcause => exact accounted_same hc rfl (one _)
  | cancelMark hk hs hr =>
    -- only a queued job is marked
    refine accounted_update hc hk rfl List.prefix_rfl fun hrun => ?_
    rw [hs] at hrun
    cases hrun
  | fireCancelled ht hk => exact accounted_same hc rfl (one _)
  | _ => first | exact quiet rfl rfl | exact hℓ.elim

/-! ### The runner stays up -/

namespace World

theorem queueDown_placeAndAnnounce (w : World) (j : JobId) : (w.placeAndAnnounce j).queueDown = w.queueDown := by
  unfold placeAndAnnounce
  split
  · rfl
  · dsimp only
    split
    all_goals
      split
      · rfl
      · rfl

theorem queueDown_cancelStart (w : World) (j : JobId) (cause : CancelCause) :
    (w.cancelStart j cause).1.queueDown = w.queueDown := by
  unfold cancelStart
  dsimp only
  split
  · rfl
  · split
    · rfl
    · split
      · rfl
      · split <;> rfl
    all_goals rfl

theorem queueDown_runSweep (cause : CancelCause) (js : List JobId) (w : World) :
    (w.runSweep cause js).1.queueDown = w.queueDown := by
  induction js generalizing w with
  | nil => rfl
  | cons j js ih =>
    have hj := queueDown_cancelStart w j cause
    unfold runSweep
    generalize w.cancelStart j cause = r at hj ⊢
    rcases r with ⟨v, fs | _ | e⟩
    · exact hj
    · exact (ih v).trans hj
    · dsimp only
      split
      · exact (ih v).trans hj
      · exact hj

theorem queueDown_commitPlaced (w : World) (jobs : List JobId) (supersede : Option Configuration) :
    (w.commitPlaced jobs supersede).1.queueDown = w.queueDown := by
  have hplaced : (jobs.foldl placeAndAnnounce w).queueDown = w.queueDown := by
    induction jobs generalizing w with
    | nil => rfl
    | cons j jobs ih => exact (ih _).trans (queueDown_placeAndAnnounce w j)
  unfold commitPlaced
  dsimp only
  split
  · exact hplaced
  · exact hplaced
  · rename_i configuration _
    have hsweep := queueDown_runSweep (.supersede jobs)
      ((jobs.foldl placeAndAnnounce w).toCancel jobs (some configuration)) (jobs.foldl placeAndAnnounce w)
    unfold supersedeActiveJobs
    generalize (jobs.foldl placeAndAnnounce w).runSweep (.supersede jobs) _ = r at hsweep ⊢
    rcases r with ⟨v, fs | _ | e⟩
    all_goals exact hsweep.trans hplaced

theorem queueDown_popJobs (js : List JobId) (w : World) : (js.foldl popJob w).queueDown = w.queueDown := by
  induction js generalizing w with
  | nil => rfl
  | cons j js ih => exact ih (w.popJob j)

theorem queueDown_enqueue (w : World) (j : JobId) : (w.enqueue j).1.queueDown = w.queueDown := by
  unfold enqueue
  split
  · rfl
  · unfold commitChain
    dsimp only
    split
    · rfl
    · split
      · exact queueDown_popJobs _ w
      · exact queueDown_commitPlaced w _ _

theorem queueDown_dispatchQueuedUpload (w : World) (configuration : Configuration) :
    (w.dispatchQueuedUpload configuration).queueDown = w.queueDown := by
  unfold dispatchQueuedUpload
  dsimp only
  set job : FirmwareJob := { jobId := 0, configuration := configuration, jobType := .upload, port := otaPort }
  have h := queueDown_enqueue ((w.createJob job).emit (.wakeUpload w.fw.fresh)) w.fw.fresh
  unfold startCommand
  split <;> exact h

theorem queueDown_handleTerminal (w : World) (job : FirmwareJob) :
    (w.handleTerminal job).queueDown = w.queueDown := by
  have harm : ∀ v : World, (v.armQueuedUpdateIfFlagged job).queueDown = v.queueDown := by
    intro v
    unfold armQueuedUpdateIfFlagged
    split <;> rfl
  have hdeferred : ∀ v : World, (v.handleDeferredCompileCompletion job).queueDown = v.queueDown := by
    intro v
    unfold handleDeferredCompileCompletion
    split
    · exact queueDown_dispatchQueuedUpload v _
    · rfl
  have hota : ∀ v : World, (v.handleOtaUploadCompletion job).queueDown = v.queueDown := by
    intro v
    unfold handleOtaUploadCompletion
    split <;> rfl
  unfold handleTerminal
  split
  · exact (hota _).trans ((hdeferred _).trans (harm w))
  · exact harm w
  · rfl

theorem queueDown_fireTerminal (w : World) (j : JobId) : (w.fireTerminal j).queueDown = w.queueDown := by
  unfold fireTerminal
  split
  · rfl
  · exact queueDown_handleTerminal _ _

theorem queueDown_stampTerminal (w : World) (j : JobId) (status : JobStatus) (error : Option String) :
    (w.stampTerminal j status error).queueDown = w.queueDown := by
  unfold stampTerminal deferInstallIfTargetOffline
  dsimp only
  split
  · rfl
  · split
    · split <;> rfl
    · split <;> rfl

theorem queueDown_onJobTerminal (w : World) (j : JobId) : (w.onJobTerminal j).queueDown = w.queueDown := by
  unfold onJobTerminal
  split
  · rfl
  · split
    · have hlocked : (w.revertLocked j).1.queueDown = w.queueDown := by
        unfold revertLocked
        split
        · rfl
        · split <;> rfl
      unfold startRevert
      split
      · exact hlocked
      · rfl
    · rfl

theorem queueDown_releaseDependents {finalize : World → JobId → Option String → World}
    (hf : ∀ v dep error, (finalize v dep error).queueDown = v.queueDown) (w : World) (j : JobId) :
    (w.releaseDependentsWith finalize j).queueDown = w.queueDown := by
  have hone : ∀ prereq v dep, (releaseDependent finalize prereq v dep).queueDown = v.queueDown := by
    intro prereq v dep
    unfold releaseDependent
    split
    · rfl
    · split
      · rfl
      · split
        · exact hf v dep _
        · split
          · exact hf v dep _
          · rfl
  have hall : ∀ (prereq : FirmwareJob) (deps : List JobId) (v : World),
      (deps.foldl (releaseDependent finalize prereq) v).queueDown = v.queueDown := by
    intro prereq deps
    induction deps with
    | nil => intro v; rfl
    | cons d deps ih => intro v; exact (ih _).trans (hone prereq v d)
  unfold releaseDependentsWith
  split
  · rfl
  · exact hall _ _ w

theorem queueDown_finalizeWith (depth : ℕ) : ∀ (w : World) (j : JobId) (status : JobStatus) (error : Option String),
    (finalizeWith depth w j status error).queueDown = w.queueDown := by
  induction depth with
  | zero =>
    intro w j status error
    exact (queueDown_fireTerminal _ j).trans (queueDown_stampTerminal w j status error)
  | succ depth ih =>
    intro w j status error
    have hfired := (queueDown_fireTerminal (w.stampTerminal j status error) j).trans
      (queueDown_stampTerminal w j status error)
    have hreleased := queueDown_releaseDependents (fun v dep error => ih v dep .cancelled error)
      ((w.stampTerminal j status error).fireTerminal j) j
    exact (queueDown_onJobTerminal _ j).trans (hreleased.trans hfired)

theorem queueDown_finalizeTerminal (w : World) (j : JobId) (status : JobStatus) (error : Option String) :
    (w.finalizeTerminal j status error).queueDown = w.queueDown := queueDown_finalizeWith _ w j status error

theorem queueDown_finalizeFailed (w : World) (j : JobId) (error : String) :
    (w.finalizeFailed j error).queueDown = w.queueDown := by
  unfold finalizeFailed finalizeCancelled
  split <;> exact queueDown_finalizeTerminal _ j _ _

theorem queueDown_laneFinish (w : World) (l : LaneId) (j : JobId) (dying : Bool) :
    (w.laneFinish l j dying).1.queueDown = w.queueDown := by
  unfold laneFinish endRun
  dsimp only
  split <;> rfl

theorem queueDown_driveFinish (w : World) (j : JobId) : (w.driveFinish j).queueDown = w.queueDown := by
  have hend : ∀ v : World, (v.endRun j).queueDown = v.queueDown := by
    intro v
    unfold endRun
    split <;> rfl
  unfold driveFinish
  refine (hend _).trans ?_
  split <;> rfl

end World

/-! ### An exception that is guarded -/

/-- The run of `j` in task `i` ends, nothing of it is left, and the runner goes on. -/
structure Survives (w w' : World) (i : ℕ) (t : Task) (j : JobId) : Prop where
  ended : ∃ job, w'.fw.obj j = some job ∧ job.isTerminal = true ∧ Announced w'.log j
  released : w'.fw.jobIsOnALane j = false ∧ j ∉ w'.fw.remoteDispatch.inFlight ∧
    j ∉ w'.fw.remoteDispatch.jobPeer.map Prod.fst
  /-- A lane worker takes its next job after the last persist. -/
  worker : ∀ l, t.lane = some l → (w'.step (.resume i .ok)).tasks[i]? = some (.laneIdle l)
  /-- The other workers and the dispatch loop wait as they did. -/
  others : ∀ (k : ℕ) (u : Task), k ≠ i → w.tasks[k]? = some u →
    w'.tasks[k]? = some u ∨ w'.tasks[k]? = some u.wakeGate
  runner : w'.queueDown = w.queueDown

namespace World

theorem step_raise (hi : w.tasks[i]? = some t) (exc : String) : w.step (.raise i exc) =
    (raiseTask exc (w.setTask i .ended) t).1.setTask i (raiseTask exc (w.setTask i .ended) t).2 := by
  simp only [step, runTask, hi]

theorem step_resume (hi : w.tasks[i]? = some t) (input : Input) : w.step (.resume i input) =
    (resumeTask input (w.setTask i .ended) t).1.setTask i (resumeTask input (w.setTask i .ended) t).2 := by
  simp only [step, runTask, hi]

theorem getElem?_setTask_self (hi : w.tasks[i]? = some t) (t' : Task) : (w.setTask i t').tasks[i]? = some t' := by
  have hlt := (List.getElem?_eq_some_iff.1 hi).1
  simp [setTask, hlt]

theorem getElem?_setTask_ne {k : ℕ} (hk : k ≠ i) (t' : Task) : (w.setTask i t').tasks[k]? = w.tasks[k]? := by
  simp [setTask, List.getElem?_set_ne (Ne.symm hk)]

theorem obj_laneFinish (w : World) (l : LaneId) (j : JobId) (dying : Bool) :
    (w.laneFinish l j dying).1.fw.obj = w.fw.obj := by
  unfold laneFinish endRun
  dsimp only
  split <;> cases l <;> rfl

theorem obj_driveFinish (w : World) (j : JobId) : (w.driveFinish j).fw.obj = w.fw.obj := by
  have hend : ∀ v : World, (v.endRun j).fw.obj = v.fw.obj := by
    intro v
    unfold endRun
    split <;> rfl
  unfold driveFinish
  refine (hend _).trans ?_
  split <;> rfl

/-- No suspended task holds a server whose job is settled. -/
theorem settle_notMem (ts : List Task) (j : JobId) : .settle j ∉ taskTokens ts := by
  have hframe : ∀ f : Frame, .settle j ∉ f.tokens := by
    intro f
    cases f <;> simp [Frame.tokens]
  have hframes : ∀ fs : List Frame, .settle j ∉ framesTokens fs := by
    intro fs
    induction fs with
    | nil => simp
    | cons f fs ih =>
      rw [framesTokens_cons, Multiset.mem_add]
      exact not_or.2 ⟨hframe f, ih⟩
  induction ts with
  | nil => simp [taskTokens]
  | cons t ts ih =>
    rw [taskTokens_cons, Multiset.mem_add]
    refine not_or.2 ⟨?_, ih⟩
    cases t with
    | command fs => exact hframes fs
    | _ => simp [Task.tokens]

/-- A job that ended is in no lane slot and on no server. -/
theorem released_of_ended (hI : (w.ledger 0).Inv) (hj : w.fw.obj j = some job) (ha : job.isActive = false) :
    w.fw.jobIsOnALane j = false ∧ j ∉ w.fw.remoteDispatch.inFlight ∧
      j ∉ w.fw.remoteDispatch.jobPeer.map Prod.fst := by
  have hok := hI.view j
  have hstatus : ((w.ledger 0).view j).status ≠ some .running := by
    intro hr
    have hs : job.status = .running := by simpa [Ledger.view, ledger, hj] using hr
    rw [(FirmwareJob.isActive_iff job).2 (.inr hs)] at ha
    cases ha
  have hsettle : ((w.ledger 0).view j).settle = 0 := by
    refine Multiset.count_eq_zero.2 fun hm => settle_notMem w.tasks j ?_
    simpa [ledger] using hm
  have hflight : j ∉ w.fw.remoteDispatch.inFlight := by
    intro hm
    rcases hok.flight (List.count_pos_iff.2 hm) with h | h
    · rw [hsettle] at h
      cases h
    · exact hstatus h.1
  refine ⟨?_, hflight, fun hm => hflight ((hI.peerKeys j).2 hm)⟩
  by_contra hne
  exact hstatus (hok.slot (Bool.eq_true_of_not_eq_false hne)).1

/-- **A run that a section ends.** -/
theorem survives_of_section {u : World} {t' : Task} (hI : (w.ledger 0).Inv) (hi : w.tasks[i]? = some t)
    (hw : w.step (.raise i exc) = u.setTask i t') (hrun : ∃ job, w.fw.obj j = some job ∧ job.status = .running)
    (hs : Sims Label.basic (w.setTask i .ended) (t.tokens + 0) u (t'.tokens + 0))
    (hend : ∃ job, u.fw.obj j = some job ∧ job.isActive = false) (hq : u.queueDown = w.queueDown)
    (hworker : ∀ l, t.lane = some l → (u.setTask i t').tasks[i]? = some t' →
      ((u.setTask i t').step (.resume i .ok)).tasks[i]? = some (.laneIdle l)) :
    Survives w (w.step (.raise i exc)) i t j := by
  have hIv : ((w.setTask i .ended).ledger (t.tokens + 0)).Inv := by
    rw [ledger_setTask hi]
    exact (zero_add (0 : Multiset Token)).symm ▸ hI
  obtain ⟨job, hj, ha⟩ := hend
  have hslot : u.tasks[i]? = some .ended := (hs.keeps hIv).ended (getElem?_setTask_self hi _)
  have hstep := inv_step hI (.raise i exc)
  rw [hw] at hstep ⊢
  refine ⟨⟨job, hj, ?_, ?_⟩, released_of_ended hstep hj ha, fun l hl => hworker l hl (getElem?_setTask_self hslot _),
    fun k x hk hx => ?_, hq⟩
  · simpa [FirmwareJob.isActive, FirmwareJob.isTerminal] using ha
  · -- the run's end is in the log
    obtain ⟨a, haobj, har⟩ := hrun
    have hstart : ((w.setTask i .ended).ledger (t.tokens + 0)).Accounted j := ⟨a, haobj, .inl har⟩
    have hacc : ((w.setTask i .ended).ledger (t.tokens + 0)).Inv ∧
        ((w.setTask i .ended).ledger (t.tokens + 0)).Accounted j → (u.ledger (t'.tokens + 0)).Inv ∧
        (u.ledger (t'.tokens + 0)).Accounted j := fun h₀ =>
      (hs.chain hIv).invariant (I := fun c => c.Inv ∧ c.Accounted j) h₀ fun _ _ _ hℓ hm hc =>
        ⟨hc.1.move hm, accounted_move hm hc.1 hc.2 hℓ⟩
    obtain ⟨b, hb, hr⟩ := (hacc ⟨hIv, hstart⟩).2
    change u.fw.obj j = some b at hb
    rw [hj] at hb
    cases hb
    refine hr.resolve_left fun hr => ?_
    rw [(FirmwareJob.isActive_iff job).2 (.inr hr)] at ha
    cases ha
  · have hx' : (w.setTask i .ended).tasks[k]? = some x := (getElem?_setTask_ne hk _).trans hx
    rw [getElem?_setTask_ne hk]
    exact (hs.keeps hIv).slots k x hx'

/-- **An exception inside `execute_job`'s `try`.** -/
theorem survives_lane {v : World} (hI : (w.ledger 0).Inv) (hi : w.tasks[i]? = some t) (htok : t.tokens = {.exec j})
    (hl : t.lane = some l) (hw : raiseTask exc (w.setTask i .ended) t = v.laneFinish l j false)
    (hf : Finalizes Label.basic (w.setTask i .ended) (.exec j ::ₘ 0) v (0 + 0) j)
    (hq : v.queueDown = w.queueDown) : Survives w (w.step (.raise i exc)) i t j := by
  have hIv : ((w.setTask i .ended).ledger (.exec j ::ₘ 0)).Inv := by
    have h := hI
    rw [← ledger_setTask hi .ended 0 |>.trans (congrArg _ (zero_add 0)), htok] at h
    exact h
  have hrun : ∃ job, w.fw.obj j = some job ∧ job.status = .running :=
    @obj_of_holds (w.setTask i .ended) 0 j _ _ (.exec j) hIv
  have hs := laneEnd_sims l false hf
  have hstep := step_raise hi exc
  rw [hw] at hstep
  refine survives_of_section hI hi hstep hrun ?_ ?_ ?_ ?_
  · rw [htok]
    exact hs
  · rw [obj_laneFinish]
    exact hf.ended hIv
  · exact (queueDown_laneFinish v l j false).trans hq
  · intro l' hl' hslot
    rw [hl] at hl'
    cases hl'
    rw [step_resume hslot]
    refine getElem?_setTask_self (t := .ended) ?_ _
    have hreturn : ∀ x : World, (x.laneReturn l).tasks = x.tasks := by
      intro x
      cases l <;> rfl
    exact (congrArg (·[i]?) (hreturn _)).trans (getElem?_setTask_self hslot _)

/-- **An exception of `run_remote_job` under `_drive_remote`.** -/
theorem survives_drive (hI : (w.ledger 0).Inv) {pt : RemotePoint} (hi : w.tasks[i]? = some (.driveRemote j pt)) :
    Survives w (w.step (.raise i exc)) i (.driveRemote j pt) j := by
  have hIv : ((w.setTask i .ended).ledger (.drive j ::ₘ 0)).Inv := by
    have h := hI
    rw [← ledger_setTask hi .ended 0 |>.trans (congrArg _ (zero_add 0))] at h
    exact h
  have hrun : ∃ job, w.fw.obj j = some job ∧ job.status = .running :=
    @obj_of_holds (w.setTask i .ended) 0 j _ _ (.drive j) hIv
  have hs := driveFails_sims (w := w.setTask i .ended) (h := 0) (j := j) exc
  refine survives_of_section hI hi (step_raise hi exc) hrun hs ?_ ?_ nofun
  · have hend := (finalizeFailed_holds (w := w.setTask i .ended) (h := 0) (.drive j) exc).ended hIv
    dsimp only [raiseTask]
    rw [obj_driveFinish]
    exact hend
  · exact (queueDown_driveFinish _ j).trans (queueDown_finalizeFailed _ j exc)

/-! ### An exception that is not -/

/-- A task that went on is at its next await. -/
theorem resumed_slot (hI : (w.ledger 0).Inv) (hi : w.tasks[i]? = some t) (input : Input) :
    (w.step (.resume i input)).tasks[i]? = some (resumeTask input (w.setTask i .ended) t).2 := by
  have hIv : ((w.setTask i .ended).ledger (t.tokens + 0)).Inv := by
    rw [ledger_setTask hi]
    exact (zero_add (0 : Multiset Token)).symm ▸ hI
  have hs := @resumeTask_sims w 0 i input t hi (by simp [Quiet]) _ rfl
  rw [step_resume hi]
  exact getElem?_setTask_self ((hs.keeps hIv).ended (getElem?_setTask_self hi _)) _

theorem running_of_task (hI : (w.ledger 0).Inv) (hi : w.tasks[i]? = some t) {x : Token} {g : Multiset Token}
    (hx : Holds j x g) (hm : x ∈ t.tokens) : ∃ job, w.fw.obj j = some job ∧ job.status = .running := by
  have hle : x ∈ (w.ledger 0).tokens := by
    refine Multiset.mem_add.2 (.inl ?_)
    rw [← tokens_le_of_task hi]
    exact Multiset.mem_add.2 (.inr hm)
  have hstatus : ((w.ledger 0).view j).status = some .running := by
    cases hx with
    | exec => exact ((hI.view j).exec (Multiset.count_pos.2 hle)).1
    | drive => exact ((hI.view j).drive (Multiset.count_pos.2 hle)).1
  obtain ⟨job, hj, hs⟩ := Option.map_eq_some_iff.1 hstatus
  exact ⟨job, hj, hs⟩

/-- What a task's exception leaves in its slot. -/
theorem raised_slot (hi : w.tasks[i]? = some t) (exc : String)
    (hu : (raiseTask exc (w.setTask i .ended) t).1.tasks = (w.setTask i .ended).tasks) :
    (w.step (.raise i exc)).tasks[i]? = some (raiseTask exc (w.setTask i .ended) t).2 := by
  rw [step_raise hi]
  refine getElem?_setTask_self (t := .ended) ?_ _
  rw [hu]
  exact getElem?_setTask_self hi _

theorem laneReturn_tasks (w : World) (l : LaneId) : (w.laneReturn l).tasks = w.tasks := by
  cases l <;> rfl

/-- A run that goes on is not over. -/
theorem laneRemote_ne_ended (l : LaneId) (j : JobId) (r : World × RemoteOutcome) : (laneRemote l j r).2 ≠ .ended := by
  obtain ⟨v, o⟩ := r
  cases o <;> exact nofun

theorem laneRun_ne_ended (w : World) (l : LaneId) (j : JobId) (input : Input) : (w.laneRun l j input).2 ≠ .ended := by
  unfold laneRun
  split
  · exact nofun
  · split
    · exact laneRemote_ne_ended l j _
    · split <;> exact nofun

theorem driveReturn_ne_ended (j : JobId) (r : World × RemoteOutcome) : (driveReturn j r).2 ≠ .ended := by
  obtain ⟨v, o⟩ := r
  cases o <;> exact nofun

/-- The job of a run whose persist of `begin_run` raised is still RUNNING. -/
theorem not_survives (hrun : ∃ job, w.fw.obj j = some job ∧ job.status = .running)
    (hobj : w'.fw.obj = w.fw.obj) : ¬Survives w w' i t j := by
  intro hs
  obtain ⟨a, ha, hr⟩ := hrun
  obtain ⟨b, hb, hterm, -⟩ := hs.ended
  rw [hobj, ha] at hb
  cases hb
  rw [FirmwareJob.isTerminal, hr] at hterm
  cases hterm

end World

/-- **Exceptions in a run.** In every state reached and for every await of a run after its `JOB_STARTED`: an exception
there ends the job, announces it, frees its slot and leaves the runner going, or makes no difference to what the await
returns to, exactly when the await is not the persist of `begin_run` nor, in a lane worker, that of `end_run`. -/
theorem raised_run (h : Reachable any w) (hi : w.tasks[i]? = some t) (hj : t.running = some j) (exc : String) :
    (Survives w (w.step (.raise i exc)) i t j ∨ w.step (.raise i exc) = w.step (.resume i .ok)) ↔
      t.unguarded = false := by
  have hI := inv_reachable h
  cases t with
  | laneBegin l k =>
    cases hj
    have hrun : ∃ job, w.fw.obj j = some job ∧ job.status = .running :=
      World.running_of_task hI hi (.exec j) (Multiset.mem_singleton_self _)
    refine iff_of_false (not_or.2 ⟨World.not_survives hrun ?_, fun he => ?_⟩) nofun
    · rw [World.step_raise hi]
      cases l <;> rfl
    · -- the worker is gone
      have hslot := congrArg (·.tasks[i]?) he
      rw [World.raised_slot hi exc (World.laneReturn_tasks _ l), World.resumed_slot hI hi] at hslot
      exact World.laneRun_ne_ended _ l j _ (Option.some.inj hslot).symm
  | laneLocal l k pt =>
    cases hj
    refine iff_of_true (.inl ?_) rfl
    cases pt with
    | swap removed =>
      exact World.survives_lane hI hi rfl rfl rfl (World.finalizeTerminal_holds (.exec j) rfl none)
        (World.queueDown_finalizeTerminal _ j _ _)
    | _ =>
      exact World.survives_lane hI hi rfl rfl rfl (World.finalizeFailed_holds (.exec j) exc)
        (World.queueDown_finalizeFailed _ j _)
  | laneRemote l k pt =>
    cases hj
    refine iff_of_true (.inl ?_) rfl
    exact World.survives_lane hI hi rfl rfl rfl (World.finalizeFailed_holds (.exec j) exc)
      (World.queueDown_finalizeFailed _ j _)
  | laneEnd l k dying =>
    cases dying with
    | true =>
      refine iff_of_true (.inr ?_) rfl
      rw [World.step_raise hi, World.step_resume hi]
      rfl
    | false =>
      have hgone := World.raised_slot hi exc (World.laneReturn_tasks _ l)
      refine iff_of_false (not_or.2 ⟨fun hs => ?_, fun he => ?_⟩) nofun
      · -- the worker takes no further job
        have hidle := hs.worker l rfl
        rw [World.resumed_slot (inv_step hI _) hgone] at hidle
        cases hidle
      · have hslot := congrArg (·.tasks[i]?) he
        rw [hgone, World.resumed_slot hI hi] at hslot
        cases hslot
  | driveBegin k =>
    cases hj
    have hrun : ∃ job, w.fw.obj j = some job ∧ job.status = .running :=
      World.running_of_task hI hi (.drive j) (Multiset.mem_singleton_self _)
    refine iff_of_false (not_or.2 ⟨World.not_survives hrun ?_, fun he => ?_⟩) nofun
    · rw [World.step_raise hi]
      rfl
    · have hslot := congrArg (·.tasks[i]?) he
      rw [World.raised_slot hi exc rfl, World.resumed_slot hI hi] at hslot
      exact World.driveReturn_ne_ended j _ (Option.some.inj hslot).symm
  | driveRemote k pt =>
    cases hj
    exact iff_of_true (.inl (World.survives_drive hI hi)) rfl
  | driveEnd k =>
    refine iff_of_true (.inr ?_) rfl
    rw [World.step_raise hi, World.step_resume hi]
    rfl
  | _ => cases hj

/-- A compile is started on the local lane. -/
def localCompile : List Action :=
  [.restart [] (fun _ => some {}) none 1, .command (.compile "a.yaml" true), .resume 0 .ok]

/-- The chip check of a run that has begun may raise. -/
theorem raised_run_localCompile :
    Survives (World.run (localCompile ++ [.resume 0 .ok])) (World.run (localCompile ++ [.resume 0 .ok, .raise 0 "boom"]))
      0 (.laneLocal .compile 0 .relPath) 0 := by
  have hrun := reachable_run (localCompile ++ [.resume 0 .ok])
  have hi : (World.run (localCompile ++ [.resume 0 .ok])).tasks[0]? = some (.laneLocal .compile 0 .relPath) := by decide
  have h := ((raised_run hrun hi rfl "boom").2 rfl).resolve_right fun he => ?_
  · exact h
  · have hterm := congrArg (fun w => (w.fw.obj 0).map (·.status)) he
    revert hterm
    decide

/-- **A disk that fails after `JOB_STARTED`** leaves the job RUNNING in its slot, and the lane without a worker. -/
theorem begin_run_raises :
    (World.run localCompile).tasks[0]? = some (.laneBegin .compile 0) ∧
    (World.run (localCompile ++ [.raise 0 "disk full"])).tasks[0]? = some .ended ∧
    (World.run (localCompile ++ [.raise 0 "disk full"])).queueDown = true ∧
    ((World.run (localCompile ++ [.raise 0 "disk full"])).fw.obj 0).map (·.status) = some .running ∧
    (World.run (localCompile ++ [.raise 0 "disk full"])).fw.jobIsOnALane 0 = true := by
  decide

end DeviceBuilder
