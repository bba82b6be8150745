import DeviceBuilder.Queue.FinalizeMoves
import DeviceBuilder.Firmware.Runner

/-!
# Runs as moves

The lane workers and the remote runner as chains of moves. A run holds its job
with one token, and ends it with what is left to do afterwards.

* `Holds`: the tokens of a run, and what is left of them when the job has ended.
* `remoteResume_run`, `localResume_run`: the sections of a run.
* `laneFinish_sims`: the end of a lane's run.
-/

namespace DeviceBuilder

open Runs

variable {ok : Label → Prop} {w w' : World} {h h' : Multiset Token} {j : JobId}
  {job : FirmwareJob}

/-- The token of a run, and what its end leaves. -/
inductive Holds : JobId → Token → Multiset Token → Prop
  | exec (j : JobId) : Holds j (.exec j) 0
  | drive (j : JobId) : Holds j (.drive j) {.settle j}

/-- Code that ends `j`, or at least leaves it ended. -/
structure Finalizes (ok : Label → Prop) (w : World) (h : Multiset Token) (w' : World)
    (h' : Multiset Token) (j : JobId) : Prop where
  sims : Sims ok w h w' h'
  ended : (w.ledger h).Inv → ∃ job, w'.fw.obj j = some job ∧ job.isActive = false

theorem Finalizes.after {v : World} {g : Multiset Token} (hs : Sims ok v g w h)
    (hf : Finalizes ok w h w' h' j) : Finalizes ok v g w' h' j :=
  ⟨hs.trans hf.sims, fun hI => hf.ended (hs.inv hI)⟩

namespace World

/-- **`finalize_terminal`** of a job that a move ends. -/
theorem finalizeTerminal_of_ends {w₀ : World} {h₀ : Multiset Token} {status : JobStatus}
    (hok : ∀ ℓ, ℓ.basic → ok ℓ) (hj : w.fw.obj j = some job) (hs : status.isTerminal = true)
    (error : Option String) (he : Ends ok w₀ h₀ w h j job status) :
    Finalizes ok w₀ h₀ (w.finalizeTerminal j status error) h j := by
  obtain ⟨hsim, hobj⟩ := finalizeWith_sims (w.fw.jobs.length + 1) error hok hj hs (by simp) he
  refine ⟨hsim, fun hI => ?_⟩
  obtain ⟨job', hj', hst⟩ := hobj hI
  exact ⟨job', hj', by simp [FirmwareJob.isActive, hst, hs]⟩

theorem ends_of_holds {t : Token} {g : Multiset Token} (ht : Holds j t g)
    (hj : w.fw.obj j = some job) (status : JobStatus) :
    Ends Label.basic w (t ::ₘ h) w (g + h) j job status := by
  refine ⟨⟨rfl, rfl⟩, .inl rfl, .plain, trivial, nofun, fun job' he hst hdef => ?_⟩
  cases ht with
  | exec =>
    rw [zero_add] at hdef ⊢
    have hm := Move.finishExec (c := w.ledger (.exec j ::ₘ h)) (ledger_tokens_cons ..) hj he hdef
    rw [show taskTokens w.tasks + h + ((w.ledger (.exec j ::ₘ h)).set j job').owes j =
      taskTokens w.tasks + (((w.ledger h).set j job').owes j + h) from tokens_owed _] at hm
    exact hm
  | drive =>
    have hm := Move.finishDrive (c := w.ledger (.drive j ::ₘ h)) (ledger_tokens_cons ..) hj he hdef
    rw [show Token.settle j ::ₘ (taskTokens w.tasks + h +
        ((w.ledger (.drive j ::ₘ h)).set j job').owes j) = taskTokens w.tasks +
          (((w.ledger h).set j job').owes j + ({.settle j} + h)) by
      rw [show taskTokens w.tasks + h + ((w.ledger (.drive j ::ₘ h)).set j job').owes j =
        taskTokens w.tasks + (((w.ledger h).set j job').owes j + h) from tokens_owed _]
      rw [← Multiset.singleton_add, add_left_comm, add_left_comm {Token.settle j}]] at hm
    exact hm

variable {t : Token} {g : Multiset Token}

/-- A held job exists. -/
theorem obj_of_holds (ht : Holds j t g) (hI : (w.ledger (t ::ₘ h)).Inv) :
    ∃ job, w.fw.obj j = some job ∧ job.status = .running := by
  have hst : ((w.ledger (t ::ₘ h)).view j).status = some .running := by
    cases ht with
    | exec => exact ((hI.view j).exec (Multiset.count_pos.2 (by simp [ledger]))).1
    | drive => exact ((hI.view j).drive (Multiset.count_pos.2 (by simp [ledger]))).1
  obtain ⟨job, hj, hs⟩ := Option.map_eq_some_iff.1 hst
  exact ⟨job, hj, hs⟩

theorem finalizeTerminal_holds (ht : Holds j t g) {status : JobStatus}
    (hs : status.isTerminal = true) (error : Option String) :
    Finalizes Label.basic w (t ::ₘ h) (w.finalizeTerminal j status error) (g + h) j := by
  have key : (w.ledger (t ::ₘ h)).Inv →
      Finalizes Label.basic w (t ::ₘ h) (w.finalizeTerminal j status error) (g + h) j := by
    intro hI
    obtain ⟨job, hj, -⟩ := obj_of_holds ht hI
    exact finalizeTerminal_of_ends (fun _ => id) hj hs error (ends_of_holds ht hj status)
  exact ⟨.of_inv fun hI => (key hI).sims, fun hI => (key hI).ended hI⟩

theorem finalizeCancelled_holds (ht : Holds j t g) :
    Finalizes Label.basic w (t ::ₘ h) (w.finalizeCancelled j) (g + h) j := by
  unfold finalizeCancelled
  set v : World := { w with
    fw := { w.fw with cancelRequested := KeyList.drop w.fw.cancelRequested j } }
  have hs : Sims Label.basic w (t ::ₘ h) v (t ::ₘ h) := .of_eq rfl rfl
  exact (finalizeTerminal_holds ht rfl none).after hs

theorem finalizeCancelled_status (ht : Holds j t g) (hI : (w.ledger (t ::ₘ h)).Inv) :
    ∃ job, (w.finalizeCancelled j).fw.obj j = some job ∧ job.status = .cancelled := by
  set v : World := { w with
    fw := { w.fw with cancelRequested := KeyList.drop w.fw.cancelRequested j } }
  have hv : v.ledger (t ::ₘ h) = w.ledger (t ::ₘ h) := rfl
  rw [← hv] at hI
  obtain ⟨job, hj, -⟩ := obj_of_holds ht hI
  exact (finalizeWith_sims (v.fw.jobs.length + 1) none (fun _ => id) hj rfl (by simp)
    (ends_of_holds ht hj .cancelled)).2 hI

theorem finalizeFailed_holds (ht : Holds j t g) (error : String) :
    Finalizes Label.basic w (t ::ₘ h) (w.finalizeFailed j error) (g + h) j := by
  unfold finalizeFailed
  split
  · exact finalizeCancelled_holds ht
  · exact finalizeTerminal_holds ht rfl _

/-- A field of the run is set. -/
theorem modifyJob_sims {f : FirmwareJob → FirmwareJob} (hf : ∀ job : FirmwareJob, job.SameRun (f job)) :
    Sims Label.basic w h (w.modifyJob j f) h := by
  cases hj : w.fw.obj j with
  | none =>
    have hu : Function.update w.fw.obj j ((w.fw.obj j).map f) = w.fw.obj := by
      rw [hj]; exact Function.update_eq_self_iff.2 hj.symm
    have he : w.modifyJob j f = w := by
      unfold modifyJob FirmwareState.modify
      rw [hu]
    rw [he]; exact .refl w h
  | some job =>
    refine .plain (fun _ => ?_) rfl
    rw [modifyJob_ledger hj]
    exact Move.edit (c := w.ledger h) hj (hf job)

theorem exitCode_sims (code : Int) : Sims Label.basic w h (w.exitCode j code) h :=
  modifyJob_sims fun _ => ⟨rfl, rfl, rfl, rfl, rfl⟩

/-! ### The remote runner -/

end World

/-- What a section of `run_remote_job` still holds. -/
def RemoteOutcome.holds (t : Token) (g : Multiset Token) : RemoteOutcome → Multiset Token
  | .returned => g
  | _ => {t}

/-- **A section of `run_remote_job`**: it holds the job until it returns, and the job has ended
when it returns. Only a driver's section raises. -/
structure RemoteRun (retry : Bool) (w : World) (h : Multiset Token) (j : JobId) (t : Token)
    (g : Multiset Token) (r : World × RemoteOutcome) : Prop where
  sims : Sims Label.basic w (t ::ₘ h) r.1 (r.2.holds t g + h)
  ended : (w.ledger (t ::ₘ h)).Inv → r.2 = .returned →
    ∃ job, r.1.fw.obj j = some job ∧ job.isActive = false
  raises : retry = false → (∀ text, r.2 ≠ .serverLost text) ∧
    ∀ text, r.2 ≠ .provisionUnavailable text

namespace RemoteRun

variable {retry : Bool} {t : Token} {g : Multiset Token}

theorem returned (hf : Finalizes Label.basic w (t ::ₘ h) w' (g + h) j) :
    RemoteRun retry w h j t g (w', .returned) :=
  ⟨hf.sims, fun hI _ => hf.ended hI, fun _ => ⟨by simp, by simp⟩⟩

theorem suspended (pt : RemotePoint) : RemoteRun retry w h j t g (w, .suspended pt) :=
  ⟨by simpa [RemoteOutcome.holds] using .refl w (t ::ₘ h), by simp, fun _ => ⟨by simp, by simp⟩⟩

/-- The object of a run is there. -/
theorem of_obj (ht : Holds j t g) {r : World × RemoteOutcome}
    (hr : (w.ledger (t ::ₘ h)).Inv → ∀ job, w.fw.obj j = some job → RemoteRun retry w h j t g r)
    (hn : retry = false → (∀ text, r.2 ≠ .serverLost text) ∧
      ∀ text, r.2 ≠ .provisionUnavailable text) : RemoteRun retry w h j t g r := by
  have key : (w.ledger (t ::ₘ h)).Inv → RemoteRun retry w h j t g r := by
    intro hI
    obtain ⟨job, hj, -⟩ := World.obj_of_holds ht hI
    exact hr hI job hj
  exact ⟨.of_inv fun hI => (key hI).sims, fun hI => (key hI).ended hI, hn⟩

end RemoteRun

namespace World

variable {retry : Bool} {t : Token} {g : Multiset Token}

theorem failLocally_run (ht : Holds j t g) (reason : String) :
    RemoteRun retry w h j t g (w.failLocally j reason, .returned) :=
  .returned (finalizeFailed_holds ht _)

theorem finalizeCancelled_run (ht : Holds j t g) :
    RemoteRun retry w h j t g (w.finalizeCancelled j, .returned) :=
  .returned (finalizeCancelled_holds ht)

theorem finalizeSuccess_run (ht : Holds j t g) (code : Int) :
    RemoteRun retry w h j t g ((w.exitCode j code).finalizeSuccess j, .returned) :=
  .returned ((finalizeTerminal_holds ht rfl none).after (exitCode_sims code))

theorem openClientAndSend_run (ht : Holds j t g) (input : Input) :
    RemoteRun retry w h j t g (w.openClientAndSend j input) := by
  unfold openClientAndSend
  split
  · exact failLocally_run ht _
  · split
    · exact failLocally_run ht _
    · exact .suspended _

theorem sendCancel_run (ht : Holds j t g) : RemoteRun retry w h j t g (w.sendCancel j) := by
  unfold sendCancel
  split
  · exact finalizeCancelled_run ht
  · exact .suspended _

theorem onTerminalFrame_run (ht : Holds j t g) (jobType : JobType) (status : WireStatus)
    (failureReason : JobFailureReason) (errorMessage : String) :
    RemoteRun retry w h j t g
      (w.onTerminalFrame j retry jobType status failureReason errorMessage) := by
  unfold onTerminalFrame finaliseAfterReceiverCompleted
  split
  · exact finalizeCancelled_run ht
  · split
    · exact finalizeCancelled_run ht
    · split
      · rename_i hr
        exact ⟨by simpa [RemoteOutcome.holds] using .refl w (t ::ₘ h), by simp,
          fun hn => by rw [hn] at hr; simp at hr⟩
      · exact failLocally_run ht _
    · split
      · exact finalizeSuccess_run ht 0
      · exact .suspended _

theorem onSessionLost_run (ht : Holds j t g) (text : String) :
    RemoteRun retry w h j t g (w.onSessionLost j retry text) := by
  unfold onSessionLost
  split
  · rename_i hr
    exact ⟨by simpa [RemoteOutcome.holds] using .refl w (t ::ₘ h), by simp,
      fun hn => by rw [hn] at hr; simp at hr⟩
  · exact failLocally_run ht _

theorem finishLocalUpload_run (ht : Holds j t g) (code : Int) :
    RemoteRun retry w h j t g (w.finishLocalUpload j code) := by
  unfold finishLocalUpload
  split
  · exact finalizeCancelled_run ht
  · simp only
    split
    · exact finalizeSuccess_run ht code
    · exact .returned ((finalizeFailed_holds ht _).after (exitCode_sims code))

/-- **The start of `run_remote_job`.** -/
theorem remoteStart_run (ht : Holds j t g) (input : Input) :
    RemoteRun retry w h j t g (w.remoteStart j input) := by
  have key : ∀ job, w.fw.obj j = some job →
      RemoteRun retry w h j t g (w.remoteStart j input) := by
    intro job hj
    unfold remoteStart
    simp only [hj]
    split
    · exact failLocally_run ht _
    · split
      · exact failLocally_run ht _
      · split
        · exact openClientAndSend_run ht input
        · exact .suspended _
  refine .of_obj ht (fun _ => key) fun hn => ?_
  cases hj : w.fw.obj j with
  | none => unfold remoteStart; simp [hj]
  | some job => exact (key job hj).raises hn

/-- **A section of `run_remote_job`.** -/
theorem remoteResume_run (ht : Holds j t g) (pt : RemotePoint) (input : Input) :
    RemoteRun retry w h j t g (w.remoteResume j retry pt input) := by
  have key : ∀ job, w.fw.obj j = some job →
      RemoteRun retry w h j t g (w.remoteResume j retry pt input) := by
    intro job hj
    unfold remoteResume
    simp only [hj]
    cases pt with
    | bundle =>
      simp only
      split
      · exact finalizeCancelled_run ht
      · exact openClientAndSend_run ht input
    | submit =>
      simp only
      split
      · exact failLocally_run ht _
      · split
        · exact sendCancel_run ht
        · exact .suspended _
    | terminal cancelSent =>
      simp only
      split
      · exact onTerminalFrame_run ht ..
      · exact onSessionLost_run ht _
      · split
        · exact sendCancel_run ht
        · exact .suspended _
    | sendCancel =>
      simp only
      split
      · exact finalizeCancelled_run ht
      · exact .suspended _
    | download =>
      simp only
      split
      · exact failLocally_run ht _
      · exact .suspended _
    | materialise =>
      simp only
      split
      · exact failLocally_run ht _
      · split
        · exact finalizeCancelled_run ht
        · split
          · exact finalizeSuccess_run ht 0
          · exact .suspended _
    | relPath | spawn | terminate => exact .suspended _
    | pump =>
      simp only
      split
      · exact finishLocalUpload_run ht _
      · exact .suspended _
  refine .of_obj ht (fun _ => key) fun hn => ?_
  cases hj : w.fw.obj j with
  | none => unfold remoteResume; simp [hj]
  | some job => exact (key job hj).raises hn

/-! ### The lanes -/

theorem jobIsOnALane_setLane_add (fw : FirmwareState) (l : LaneId) (j : JobId) :
    (fw.setLane l { fw.lane l with active := KeyList.add (fw.lane l).active j }).jobIsOnALane =
      Function.update fw.jobIsOnALane j true := by
  funext k
  by_cases hk : k = j
  · subst hk
    cases l <;> simp [FirmwareState.jobIsOnALane, FirmwareState.setLane, FirmwareState.lane]
  · cases l <;>
      simp [FirmwareState.jobIsOnALane, FirmwareState.setLane, FirmwareState.lane, hk] <;> rfl

theorem jobIsOnALane_setLane_drop {fw : FirmwareState} {l : LaneId} {j : JobId}
    (hj : fw.jobIsOnALane j = false) :
    (fw.setLane l { fw.lane l with active := KeyList.drop (fw.lane l).active j }).jobIsOnALane =
      fw.jobIsOnALane := by
  simp only [FirmwareState.jobIsOnALane, Bool.or_eq_false_iff, decide_eq_false_iff_not] at hj
  cases l <;> simp only [FirmwareState.setLane, FirmwareState.lane] <;> funext k
  · rw [KeyList.drop_eq_self hj.1.1]
  · rw [KeyList.drop_eq_self hj.1.2]
  · rw [KeyList.drop_eq_self hj.2]

theorem laneQueued_setLane_active (fw : FirmwareState) (l : LaneId) (active : List JobId) :
    (fw.setLane l { fw.lane l with active := active }).laneQueued = fw.laneQueued := by
  cases l <;> rfl

theorem laneReturn_sims {ok : Label → Prop} (l : LaneId) : Sims ok w h (w.laneReturn l) h := by
  unfold laneReturn
  cases l with
  | compile =>
    refine .of_eq ?_ ?_ <;> unfold RemoteDispatchState.rearmIfPending <;> simp only <;>
      split <;> rfl
  | upload | threadUpload => exact .refl w h

/-- The ledger's fields that a lane has no part in. -/
theorem setLane_fields (fw : FirmwareState) (l : LaneId) (x : Lane) :
    (fw.setLane l x).obj = fw.obj ∧ (fw.setLane l x).fresh = fw.fresh ∧
      (fw.setLane l x).jobs = fw.jobs ∧ (fw.setLane l x).remoteDispatch = fw.remoteDispatch := by
  cases l <;> exact ⟨rfl, rfl, rfl, rfl⟩

/-- **`begin_run`** stamps the job and announces it. -/
theorem beginRun_ledger (hj : w.fw.obj j = some job) :
    (w.beginRun j).ledger h =
      ((w.ledger h).set j job.markRunning).emit (.jobStarted job.markRunning) := by
  have hobj : (w.modifyJob j (·.markRunning)).fw.obj j = some job.markRunning := by
    rw [modifyJob_obj hj]; exact Function.update_self ..
  unfold beginRun fire
  rw [hobj]
  rw [ledger_emit, modifyJob_ledger hj]

theorem beginRun_outer : (w.beginRun j).outer = w.outer := by
  unfold beginRun fire
  split <;> rfl

theorem setLane_outer (l : LaneId) (x : Lane) :
    ({ w with fw := w.fw.setLane l x } : World).outer = w.outer := by
  cases l <;> rfl

/-- The slot of a lane is taken. -/
theorem setLane_add_ledger (l : LaneId) {lane : Lane}
    (hl : lane = { w.fw.lane l with active := KeyList.add (w.fw.lane l).active j }) :
    ({ w with fw := w.fw.setLane l lane } : World).ledger h = (w.ledger h).setActive j true := by
  subst hl
  obtain ⟨h1, h2, h3, h4⟩ := setLane_fields w.fw l
    { w.fw.lane l with active := KeyList.add (w.fw.lane l).active j }
  simp only [ledger, Ledger.setActive, h1, h2, h3, h4, jobIsOnALane_setLane_add,
    laneQueued_setLane_active]

/-- The labels of a lane worker's moves. -/
def Label.lane (ℓ : Label) : Prop := ℓ.basic ∨ ℓ = .start

/-- **`execute_job`** starts a job that was taken. -/
theorem executeJob_sims (l : LaneId) (hj : w.fw.obj j = some job) (hs : job.status ≠ .cancelled) :
    Sims Label.lane w (.taken j ::ₘ h) (w.executeJob l j).1
      ((w.executeJob l j).2.tokens + h) := by
  set lane : Lane := { w.fw.lane l with active := KeyList.add (w.fw.lane l).active j }
  set v : World := { w with fw := w.fw.setLane l lane } with hv
  have hvj : v.fw.obj j = some job := by rw [hv, ← hj]; simp only [(setLane_fields ..).1]
  refine .one (show Label.lane .start from .inr rfl) nofun (fun _ => ?_)
    (beginRun_outer.trans (setLane_outer l lane))
  have hm := Move.startExec (c := w.ledger (.taken j ::ₘ h)) (ledger_tokens_cons ..) hj hs
  have hl : (w.executeJob l j).1.ledger ((w.executeJob l j).2.tokens + h) =
      ((((w.ledger (.taken j ::ₘ h)).set j job.markRunning).setActive j true).emit
        (.jobStarted job.markRunning)).withTokens (.exec j ::ₘ (taskTokens w.tasks + h)) := by
    show (v.beginRun j).ledger (({.exec j} : Multiset Token) + h) = _
    rw [beginRun_ledger hvj, hv, setLane_add_ledger l rfl, Multiset.singleton_add]
    rw [← ledger_tokens_cons]
    rfl
  rw [hl]
  exact hm

/-- **The `finally` of `execute_job`**, when its job has ended. -/
theorem laneFinish_sims (l : LaneId) (dying : Bool) (hj : w.fw.obj j = some job)
    (ha : job.isActive = false) :
    Sims Label.basic w h (w.laneFinish l j dying).1 ((w.laneFinish l j dying).2.tokens + h) := by
  refine .of_inv fun hI => ?_
  have hslot : w.fw.jobIsOnALane j = false := by
    by_contra hne
    have hrun := ((hI.view j).slot (by simpa [Ledger.view, ledger] using hne)).1
    simp only [Ledger.view, ledger, hj, Option.map_some, Option.some.injEq] at hrun
    simp [FirmwareJob.isActive, hrun, JobStatus.isTerminal] at ha
  set lane : Lane := { w.fw.lane l with active := KeyList.drop (w.fw.lane l).active j }
  set v : World := { w with fw := w.fw.setLane l lane } with hv
  obtain ⟨h1, h2, h3, h4⟩ := setLane_fields w.fw l lane
  have h5 : (w.fw.setLane l lane).jobIsOnALane = w.fw.jobIsOnALane :=
    jobIsOnALane_setLane_drop hslot
  have h6 : (w.fw.setLane l lane).laneQueued = w.fw.laneQueued :=
    laneQueued_setLane_active w.fw l _
  have hfree : Sims Label.basic w h v h := by
    refine .of_eq ?_ (setLane_outer l lane)
    simp only [hv, ledger, h1, h2, h3, h4, h5, h6]
  have hend : Sims Label.basic v h (v.endRun j) h := by
    unfold endRun
    split
    · exact pruneHistory_sims
    · exact .refl v h
  have : Sims Label.basic w h (v.endRun j) (0 + h) := by rw [zero_add]; exact hfree.trans hend
  exact this

/-- The end of a lane's run. -/
theorem laneFinish_of_finalizes {ok : Label → Prop} (hok : ∀ ℓ, ℓ.basic → ok ℓ) (l : LaneId)
    (dying : Bool) (hf : Finalizes ok w h w' h' j) :
    Sims ok w h (w'.laneFinish l j dying).1 ((w'.laneFinish l j dying).2.tokens + h') := by
  refine .of_inv fun hI => ?_
  obtain ⟨job, hj, ha⟩ := hf.ended hI
  exact hf.sims.trans ((laneFinish_sims l dying hj ha).mono hok)

theorem skip_sims (hj : w.fw.obj j = some job) (hs : job.status = .cancelled) :
    Sims Label.basic w (.taken j ::ₘ h) w h :=
  .plain (fun _ => Move.skip (ledger_tokens_cons ..) hj hs) rfl

/-- A worker that skips a cancelled job waits for the next. -/
theorem laneSkip_sims (l : LaneId) (hj : w.fw.obj j = some job) (hs : job.status = .cancelled) :
    Sims Label.lane w (.taken j ::ₘ h) (w.laneReturn l) ((Task.laneIdle l).tokens + h) := by
  have hs : Sims Label.lane w (.taken j ::ₘ h) (w.laneReturn l) h :=
    ((skip_sims hj hs).trans (laneReturn_sims l)).mono fun ℓ (hℓ : ℓ.basic) => .inl hℓ
  simpa [Task.tokens] using hs

/-- What was taken exists. -/
theorem obj_of_taken (hI : (w.ledger (.taken j ::ₘ h)).Inv) : ∃ job, w.fw.obj j = some job := by
  cases hj : w.fw.obj j with
  | some job => exact ⟨job, rfl⟩
  | none =>
    have h0 := ((hI.view j).absent (by simp [Ledger.view, ledger, hj])).1
    have hpos : 0 < ((w.ledger (.taken j ::ₘ h)).view j).taken :=
      Multiset.count_pos.2 (by simp [ledger])
    unfold View.track at h0; omega

/-- **`_await_build_gate`** and what follows. -/
theorem laneGate_sims (l : LaneId) :
    Sims Label.lane w (.taken j ::ₘ h) (w.laneGate l j).1 ((w.laneGate l j).2.tokens + h) := by
  refine .of_inv fun hI => ?_
  obtain ⟨job, hj⟩ := obj_of_taken hI
  have hgate : Sims Label.lane w (.taken j ::ₘ h)
      { w with fw := { w.fw with buildGate := false } } (.taken j ::ₘ h) := .of_eq rfl rfl
  unfold laneGate
  simp only [hj]
  split
  · refine hgate.trans ?_
    split
    · exact laneSkip_sims l hj ‹_›
    · split
      · exact .refl _ _
      · exact executeJob_sims l hj ‹_›
  · split
    · exact laneSkip_sims l hj ‹_›
    · exact executeJob_sims l hj ‹_›

/-- **`run_lane`** from its queue. -/
theorem laneTake_sims (l : LaneId) :
    Sims Label.lane w h (w.laneTake l).1 ((w.laneTake l).2.tokens + h) := by
  unfold laneTake
  dsimp only
  split
  · simpa [Task.tokens] using .refl w h
  · rename_i j rest hq
    set v : World := { w with fw := w.fw.setLane l { w.fw.lane l with queue := rest } } with hv
    have htake : Sims Label.lane w h v (.taken j ::ₘ h) := by
      have hqueued : w.fw.laneQueued = j ::ₘ (w.fw.setLane l
          { w.fw.lane l with queue := rest }).laneQueued := by
        cases l <;> simp only [FirmwareState.lane] at hq <;>
          simp only [FirmwareState.laneQueued, FirmwareState.setLane, hq, ← Multiset.cons_coe,
            Multiset.cons_add, Multiset.add_cons]
      refine Sims.one (show Label.lane .plain from .inl trivial) (by simp) (fun _ => ?_)
        (setLane_outer l _)
      have hm := Move.take (c := w.ledger h) hqueued
      obtain ⟨h1, h2, h3, h4⟩ := setLane_fields w.fw l { w.fw.lane l with queue := rest }
      have h5 : (w.fw.setLane l { w.fw.lane l with queue := rest }).jobIsOnALane =
          w.fw.jobIsOnALane := by cases l <;> rfl
      have hl : v.ledger (.taken j ::ₘ h) = { w.ledger h with
          queued := (w.fw.setLane l { w.fw.lane l with queue := rest }).laneQueued
          tokens := .taken j ::ₘ (w.ledger h).tokens } := by
        simp only [hv, ledger, h1, h2, h3, h4, h5, Multiset.add_cons]
      rw [hl]; exact hm
    refine htake.trans (.of_inv fun hI => ?_)
    obtain ⟨job, hj⟩ := obj_of_taken hI
    rw [show (w.fw.setLane l { w.fw.lane l with queue := rest }).obj j = some job from hj]
    dsimp only
    split
    · exact laneSkip_sims l hj ‹_›
    · exact laneGate_sims l

/-- A lane's run ends its job, and its worker goes on. -/
theorem laneEnd_sims (l : LaneId) (dying : Bool)
    (hf : Finalizes Label.basic w (.exec j ::ₘ h) w' (0 + h) j) :
    Sims Label.basic w (.exec j ::ₘ h) (w'.laneFinish l j dying).1
      ((w'.laneFinish l j dying).2.tokens + h) := by
  have := laneFinish_of_finalizes (fun _ => id) l dying hf
  rwa [zero_add] at this

theorem finishLocal_sims (l : LaneId) (job : FirmwareJob) (code : Int)
    (hasErrorInOutput sawNoEsphomeModule : Bool) :
    Sims Label.basic w (.exec j ::ₘ h)
      (w.finishLocal l j job code hasErrorInOutput sawNoEsphomeModule).1
      ((w.finishLocal l j job code hasErrorInOutput sawNoEsphomeModule).2.tokens + h) := by
  have hcode := exitCode_sims (w := w) (h := .exec j ::ₘ h) (j := j) code
  refine hcode.trans ?_
  unfold finishLocal
  dsimp only
  set v := w.exitCode j code
  have wait : ∀ pt, Sims Label.basic v (.exec j ::ₘ h) v ((Task.laneLocal l j pt).tokens + h) :=
    fun pt => by simpa [Task.tokens] using .refl v (.exec j ::ₘ h)
  split
  · exact laneEnd_sims l false (finalizeCancelled_holds (.exec j))
  · split
    · split
      · exact wait _
      · split
        · exact wait _
        · exact laneEnd_sims l false (finalizeTerminal_holds (.exec j) rfl none)
    · split
      · refine (modifyJob_sims ?_).trans
          (laneEnd_sims l false (finalizeTerminal_holds (.exec j) rfl none))
        exact fun _ => ⟨rfl, rfl, rfl, rfl, rfl⟩
      · exact laneEnd_sims l false (finalizeTerminal_holds (.exec j) rfl none)

/-- **A local run from await to await.** -/
theorem localResume_sims (l : LaneId) (pt : LocalPoint) (input : Input) :
    Sims Label.basic w (.exec j ::ₘ h) (w.localResume l j pt input).1
      ((w.localResume l j pt input).2.tokens + h) := by
  refine .of_inv fun hI => ?_
  obtain ⟨job, hj, -⟩ := obj_of_holds (.exec j) hI
  have wait : ∀ pt, Sims Label.basic w (.exec j ::ₘ h) w ((Task.laneLocal l j pt).tokens + h) :=
    fun pt => by simpa [Task.tokens] using .refl w (.exec j ::ₘ h)
  have failed : ∀ exc, Sims Label.basic w (.exec j ::ₘ h)
      ((w.finalizeUnexpectedError j exc).laneFinish l j false).1
      (((w.finalizeUnexpectedError j exc).laneFinish l j false).2.tokens + h) :=
    fun exc => laneEnd_sims l false (finalizeFailed_holds (.exec j) exc)
  unfold localResume
  simp only [hj]
  cases pt with
  | chipStorage => dsimp only; split <;> exact wait _
  | chipProbe =>
    dsimp only
    split
    · exact failed _
    · split
      · exact failed _
      · exact wait _
  | relPath | terminate | spawn => exact wait _
  | esphomeCmd =>
    dsimp only
    split
    · have hreason : Sims Label.basic w (.exec j ::ₘ h)
          (w.modifyJob j ({ · with failureReason := .provision })) (.exec j ::ₘ h) :=
        modifyJob_sims fun _ => ⟨rfl, rfl, rfl, rfl, rfl⟩
      exact hreason.trans (laneEnd_sims l false (finalizeFailed_holds (.exec j) _))
    · exact wait _
  | pump =>
    dsimp only
    split
    · exact finishLocal_sims l job _ _ _
    · exact wait _
  | swap removed | cleanVenvs =>
    exact laneEnd_sims l false (finalizeTerminal_holds (.exec j) rfl none)

/-- A lane's remote run. -/
theorem laneRemote_sims (l : LaneId) {r : World × RemoteOutcome}
    (hr : RemoteRun false w h j (.exec j) 0 r) :
    Sims Label.basic w (.exec j ::ₘ h) (laneRemote l j r).1 ((laneRemote l j r).2.tokens + h) := by
  obtain ⟨hsim, hended, hraises⟩ := hr
  obtain ⟨v, pt | _ | text | text⟩ := r
  · simpa [laneRemote, RemoteOutcome.holds, Task.tokens] using hsim
  · exact laneEnd_sims l false ⟨hsim, fun hI => hended hI rfl⟩
  · exact absurd rfl ((hraises rfl).1 text)
  · exact absurd rfl ((hraises rfl).2 text)

/-- **`execute_job`** after the persist of `begin_run`. -/
theorem laneRun_sims (l : LaneId) (input : Input) :
    Sims Label.basic w (.exec j ::ₘ h) (w.laneRun l j input).1
      ((w.laneRun l j input).2.tokens + h) := by
  refine .of_inv fun hI => ?_
  obtain ⟨job, hj, -⟩ := obj_of_holds (.exec j) hI
  unfold laneRun
  simp only [hj]
  split
  · exact laneRemote_sims l (remoteStart_run (.exec j) input)
  · split <;> simpa [Task.tokens] using .refl w (.exec j ::ₘ h)

end World

end DeviceBuilder
