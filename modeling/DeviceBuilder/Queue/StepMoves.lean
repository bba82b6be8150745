import DeviceBuilder.Queue.CommandMoves
import DeviceBuilder.Queue.DispatchMoves

/-!
# Steps as moves

Every step of a running dashboard is a chain of moves. `Action.Allows` lists the
labels of the moves that a step may make: what a run excludes by a condition on
its steps is a label that none of its moves has.

* `resumeTask_sims`, `raiseTask_sims`, `shutdownTask_sims`: sections of tasks.
* `step_moves`: the steps.
-/

namespace DeviceBuilder

open Runs

variable {ok : Label → Prop} {w w' : World} {h h' : Multiset Token} {j : JobId}
  {job : FirmwareJob} {a : Action}

/-- The step hears from the server of job `j`, driven by the pool, that it cannot provision. -/
def Action.Provisions (w : World) (a : Action) (j : JobId) : Prop :=
  ∃ i cancelSent text, a = .resume i (.frame .failed .provision text) ∧
    w.tasks[i]? = some (.driveRemote j (.terminal cancelSent)) ∧ w.isCancelRequested j = false

/-- The step cancels a lane worker inside `run_remote_job`. -/
def Action.CancelsRemote (w : World) (a : Action) : Prop :=
  ∃ i l j pt, a = .shutdown i ∧ w.tasks[i]? = some (.laneRemote l j pt)

/-- The step resumes a lane worker at its queue, or at the build gate. -/
def Action.RunsLane (w : World) (a : Action) : Prop :=
  ∃ i input l, a = .resume i input ∧
    (w.tasks[i]? = some (.laneIdle l) ∨ ∃ j, w.tasks[i]? = some (.laneGate l j true))

/-- The matcher may send a job of type `t` to the local lane. -/
def World.MayFallBack (w : World) (t : JobType) : Prop :=
  ∀ offloader, w.offloader = some offloader → ∃ busy localBusy,
    pickDispatchTarget { inputsForJobType offloader.snapshot t with
      busyBuildServerPins := busy, localCompileBusy := localBusy } = .local

/-- The labels of the moves that a step may make. -/
def Action.Allows (w : World) (a : Action) : Label → Prop
  | .plain | .sweep _ | .chain | .pool => True
  | .start => a.RunsLane w
  | .lose => ∃ i, a = .shutdown i ∨ ∃ exc, a = .raise i exc
  | .resolve forceLocal jobType source => ∃ v : World, v.offloader = w.offloader ∧
      v.resolveInstallSource forceLocal jobType = .ok source
  | .toLocal t => w.MayFallBack t
  | .provision t => ∃ j job, a.Provisions w j ∧ w.fw.obj j = some job ∧ job.jobType = t
  | .refinish => a.CancelsRemote w
  | .clear => ∃ s : JobStatus, a = .command (.clear (some s)) ∧ s.isTerminal = false

theorem Action.allows_basic {ℓ : Label} (hℓ : ℓ.basic) : a.Allows w ℓ := by
  cases ℓ <;> trivial

theorem Action.commandLabels (a : Action) {v : World} (hv : v.offloader = w.offloader) :
    CommandLabels (a.Allows w) v :=
  ⟨fun _ => allows_basic, trivial, fun u _ _ _ hu hs => ⟨u, hu.trans hv, hs⟩⟩

theorem Action.dispatchLabels (a : Action) {v : World} (hv : v.offloader = w.offloader) :
    World.DispatchLabels (a.Allows w) v :=
  ⟨fun _ => allows_basic, trivial, fun _ ht o ho => ht o (hv.trans ho)⟩

namespace World

/-! ### Sections of tasks -/

theorem queueStops_sims : Sims ok w h w.queueStops h := .of_eq rfl rfl

/-- A command's task. -/
theorem commandTask_sims (hok : ∀ ℓ, ℓ.basic → ok ℓ) (r : Outcome) :
    Sims ok w (r.tokens + h) (w.commandTask r).1 ((w.commandTask r).2.tokens + h) := by
  cases r with
  | suspended fs => exact .refl _ _
  | returned => exact .refl _ _
  | raised e => exact (note_sims _ rfl).mono hok

theorem resumeCommand_sims (hok : CommandLabels ok w) (hh : Quiet h) (fs : List Frame)
    (error : Option Err) :
    Sims ok w (framesTokens fs + h) (w.resumeCommand fs error).1
      ((w.resumeCommand fs error).2.tokens + h) := by
  unfold resumeCommand
  exact (unwind_sims hok hh _ fs).trans (commandTask_sims hok.basic _)

theorem resumeFrames_sims (hok : CommandLabels ok w) (hh : Quiet h) (fs : List Frame)
    (input : Input) :
    Sims ok w (framesTokens fs + h) (w.resumeFrames fs input).1
      ((w.resumeFrames fs input).2.tokens + h) := by
  cases fs with
  | nil => exact .refl _ _
  | cons f fs =>
    have key : ∀ g : Frame, g.tokens = f.tokens → ∀ error, Sims ok w (framesTokens (f :: fs) + h)
        (if w.frameReady g then w.resumeCommand (g :: fs) error else (w, .command (g :: fs))).1
        ((if w.frameReady g then w.resumeCommand (g :: fs) error
          else (w, .command (g :: fs))).2.tokens + h) := by
      intro g hg error
      rw [framesTokens_cons, ← hg, ← framesTokens_cons]
      split
      · exact resumeCommand_sims hok hh _ _
      · exact .refl _ _
    unfold resumeFrames
    simp only
    split
    · -- an address that was resolved is kept in the frame
      exact key (.renameAddress _ _ _ (some _)) rfl _
    · exact key _ rfl _

/-- A section that does not give up on its server. -/
def Stays (r : World × RemoteOutcome) : Prop := ∀ text, r.2 ≠ .provisionUnavailable text

theorem openClientAndSend_stays (input : Input) : Stays (w.openClientAndSend j input) := by
  intro text
  unfold openClientAndSend
  split
  · simp
  · split <;> simp

theorem sendCancel_stays : Stays (w.sendCancel j) := by
  intro text
  unfold sendCancel
  split <;> simp

theorem onSessionLost_stays (retry : Bool) (reason : String) :
    Stays (w.onSessionLost j retry reason) := by
  intro text
  unfold onSessionLost
  split <;> simp

theorem finishLocalUpload_stays (code : Int) : Stays (w.finishLocalUpload j code) := by
  intro text
  unfold finishLocalUpload
  split
  · simp
  · simp only; split <;> simp

theorem remoteStart_stays (input : Input) : Stays (w.remoteStart j input) := by
  intro text
  unfold remoteStart
  split
  · simp
  · split
    · simp
    · split
      · simp
      · split
        · exact openClientAndSend_stays input text
        · simp

/-- Only a driver that heard so from its server gives up on it. -/
theorem onTerminalFrame_provision {retry : Bool} {jobType : JobType} {status : WireStatus}
    {failureReason : JobFailureReason} {message text : String}
    (hr : (w.onTerminalFrame j retry jobType status failureReason message).2 =
      .provisionUnavailable text) :
    (w.onTerminalFrame j retry jobType status failureReason message).1 = w ∧
      w.isCancelRequested j = false ∧ status = .failed ∧ failureReason = .provision := by
  unfold onTerminalFrame at hr ⊢
  split at hr
  · simp at hr
  · rename_i hc
    rw [if_neg hc]
    cases status with
    | cancelled => simp at hr
    | completed =>
      simp only [finaliseAfterReceiverCompleted] at hr
      split at hr <;> simp at hr
    | failed =>
      simp only at hr ⊢
      split at hr
      · rename_i hp
        rw [if_pos hp]
        exact ⟨rfl, by simpa using hc, trivial, hp.1⟩
      · simp at hr

theorem remoteResume_provision {pt : RemotePoint} {input : Input} {text : String}
    (hr : (w.remoteResume j true pt input).2 = .provisionUnavailable text) :
    (w.remoteResume j true pt input).1 = w ∧ w.isCancelRequested j = false ∧
      ∃ cancelSent message, pt = .terminal cancelSent ∧
        input = .frame .failed .provision message := by
  unfold remoteResume at hr ⊢
  cases hj : w.fw.obj j with
  | none => simp [hj] at hr
  | some job =>
    simp only [hj] at hr ⊢
    cases pt with
    | terminal cancelSent =>
      cases input with
      | frame status failureReason message =>
        obtain ⟨hw, hc, rfl, rfl⟩ := onTerminalFrame_provision hr
        exact ⟨hw, hc, _, _, rfl, rfl⟩
      | sessionLost reason => exact (onSessionLost_stays true reason text hr).elim
      | _ =>
        simp only at hr
        split at hr
        · exact (sendCancel_stays text hr).elim
        · simp at hr
    | bundle =>
      simp only at hr
      split at hr
      · simp at hr
      · exact (openClientAndSend_stays input text hr).elim
    | submit =>
      simp only at hr
      split at hr
      · simp at hr
      · split at hr
        · exact (sendCancel_stays text hr).elim
        · simp at hr
    | pump =>
      simp only at hr
      split at hr
      · exact (finishLocalUpload_stays _ text hr).elim
      · simp at hr
    | materialise =>
      simp only at hr
      split at hr
      · simp at hr
      · split at hr
        · simp at hr
        · split at hr <;> simp at hr
    | sendCancel | download =>
      simp only at hr
      split at hr <;> simp at hr
    | relPath | spawn | terminate => simp at hr

/-- **A task goes on.** -/
theorem resumeTask_sims {i : ℕ} {input : Input} {t : Task} (hi : w.tasks[i]? = some t)
    (hh : Quiet h) {v : World} (hv : v = w.setTask i .ended) :
    Sims ((Action.resume i input).Allows w) v (t.tokens + h) (resumeTask input v t).1
      ((resumeTask input v t).2.tokens + h) := by
  have ho : v.offloader = w.offloader := by rw [hv]; rfl
  have hfw : v.fw = w.fw := by rw [hv]; rfl
  have hbasic : ∀ ℓ, ℓ.basic → (Action.resume i input).Allows w ℓ := fun _ => Action.allows_basic
  have holds : ∀ t : Token, ({t} : Multiset Token) + h = t ::ₘ h := fun t =>
    Multiset.singleton_add ..
  cases t with
  | laneIdle l =>
    rw [show (Task.laneIdle l).tokens + h = h from zero_add h]
    refine (laneTake_sims l).mono ?_
    rintro ℓ (hℓ | rfl)
    · exact hbasic ℓ hℓ
    · exact ⟨i, input, l, rfl, .inl hi⟩
  | laneGate l j woken =>
    simp only [resumeTask]
    split
    · rw [show (Task.laneGate l j woken).tokens + h = .taken j ::ₘ h from holds _]
      refine (laneGate_sims l).mono ?_
      rintro ℓ (hℓ | rfl)
      · exact hbasic ℓ hℓ
      · rename_i hwoken
        exact ⟨i, input, l, rfl, .inr ⟨j, hwoken ▸ hi⟩⟩
    · exact .refl _ _
  | laneBegin l j =>
    rw [show (Task.laneBegin l j).tokens + h = .exec j ::ₘ h from holds _]
    exact (laneRun_sims l input).mono hbasic
  | laneLocal l j pt =>
    simp only [resumeTask]
    split
    · exact .refl _ _
    · rw [show (Task.laneLocal l j pt).tokens + h = .exec j ::ₘ h from holds _]
      exact (localResume_sims l pt input).mono hbasic
  | laneRemote l j pt =>
    rw [show (Task.laneRemote l j pt).tokens + h = .exec j ::ₘ h from holds _]
    exact (laneRemote_sims l (remoteResume_run (.exec j) pt input)).mono hbasic
  | laneEnd l j dying =>
    simp only [resumeTask]
    split
    · exact (laneReturn_sims l).trans queueStops_sims
    · exact laneReturn_sims l
  | driveBegin j =>
    rw [show (Task.driveBegin j).tokens + h = .drive j ::ₘ h from holds _]
    exact driveReturn_sims hbasic trivial (remoteStart_run (.drive j) input)
      fun text _ hr => (remoteStart_stays input text hr).elim
  | driveRemote j pt =>
    rw [show (Task.driveRemote j pt).tokens + h = .drive j ::ₘ h from holds _]
    refine driveReturn_sims hbasic trivial (remoteResume_run (.drive j) pt input)
      fun text job hr hj => ?_
    obtain ⟨hw, hc, sent, message, rfl, rfl⟩ := remoteResume_provision hr
    rw [hw, hfw] at hj
    refine ⟨j, job, ⟨i, sent, message, rfl, hi, ?_⟩, hj, rfl⟩
    simpa [isCancelRequested, hfw] using hc
  | dispatchWait =>
    rw [show Task.dispatchWait.tokens + h = h from zero_add h]
    exact dispatchWake_sims (Action.dispatchLabels _ ho)
  | command fs => exact resumeFrames_sims (Action.commandLabels _ ho) hh fs input
  | revertLock j =>
    simp only [resumeTask]
    split
    · exact .refl _ _
    · rw [show (Task.revertLock j).tokens + h = h from zero_add h]
      exact revertLocked_sims
  | revertRemove j removed =>
    simp only [resumeTask]
    split
    · exact .of_eq rfl rfl
    · exact .refl _ _
  | announcePairing pin =>
    refine .of_eq ?_ ?_ <;> simp only [resumeTask, firePoolEvents] <;> split <;> rfl
  | driveEnd _ | dispatchGrace | dispatchPersist | revertReload _ | ended => exact .refl _ _

/-- The executor touches the files only. -/
theorem frameIO_frame (f : Frame) : (w.frameIO f).1.ledger = w.ledger ∧
    (w.frameIO f).1.outer = w.outer ∧ (w.frameIO f).2.tokens = f.tokens := by
  unfold frameIO
  split
  · exact ⟨rfl, rfl, rfl⟩
  · exact ⟨rfl, rfl, rfl⟩
  · split <;> exact ⟨rfl, rfl, rfl⟩
  · exact ⟨rfl, rfl, rfl⟩

theorem ioTask_sims (t : Task) :
    Sims ok w (t.tokens + h) (w.ioTask t).1 ((w.ioTask t).2.tokens + h) := by
  have hfile : ∀ (w' : World) (t' : Task), w'.ledger = w.ledger → w'.outer = w.outer →
      t'.tokens = t.tokens → Sims ok w (t.tokens + h) w' (t'.tokens + h) :=
    fun w' t' hl ho ht => by rw [ht]; exact .of_eq (congrFun hl _) ho
  unfold ioTask
  split
  · split
    · exact .refl _ _
    · exact hfile (w.removeDeviceFiles _) (.laneLocal _ _ (.swap true)) rfl rfl rfl
  · split
    · exact .refl _ _
    · exact hfile (w.removeDeviceFiles _) (.revertRemove _ true) rfl rfl rfl
  · rename_i f fs
    obtain ⟨hl, ho, ht⟩ := frameIO_frame (w := w) f
    refine hfile _ _ hl ho ?_
    show framesTokens _ = framesTokens _
    rw [framesTokens_cons, framesTokens_cons, ht]
  · exact .refl _ _

/-- A dying coroutine drops its job. -/
theorem lose_sims {t : Token} (hok : ok .lose)
    (ht : (∃ j, t = .taken j) ∨ (∃ j, t = .exec j) ∨ (∃ j, t = .drive j)) :
    Sims ok w (t ::ₘ h) w h :=
  .one hok nofun (fun _ => Move.lose (ledger_tokens_cons ..) ht) rfl

/-- A runner task that dies. -/
theorem runnerDies_sims {t : Token} (hok : ok .lose) (l : LaneId)
    (ht : (∃ j, t = .taken j) ∨ (∃ j, t = .exec j) ∨ (∃ j, t = .drive j)) :
    Sims ok w (t ::ₘ h) (w.laneReturn l).queueStops (0 + h) := by
  rw [zero_add]
  exact (lose_sims hok ht).trans ((laneReturn_sims l).trans queueStops_sims)

/-- An exception ends a driver's run. -/
theorem driveFails_sims (exc : String) : Sims Label.basic w (.drive j ::ₘ h)
    ((w.finalizeUnexpectedError j exc).driveFinish j) (0 + h) := by
  rw [zero_add]
  exact driveEnd_sims (finalizeFailed_holds (.drive j) exc)

/-- **A task's await raises.** -/
theorem raiseTask_sims (hok : ∀ ℓ, ℓ.basic → ok ℓ) (hlose : ok .lose) (hcmd : CommandLabels ok w)
    (hh : Quiet h) (exc : String) (t : Task) :
    Sims ok w (t.tokens + h) (raiseTask exc w t).1 ((raiseTask exc w t).2.tokens + h) := by
  have holds : ∀ t : Token, ({t} : Multiset Token) + h = t ::ₘ h := fun t =>
    Multiset.singleton_add ..
  have hexec : ∀ l j, Sims ok w (.exec j ::ₘ h)
      ((w.finalizeUnexpectedError j exc).laneFinish l j false).1
      (((w.finalizeUnexpectedError j exc).laneFinish l j false).2.tokens + h) := fun l j =>
    (laneEnd_sims l false (finalizeFailed_holds (.exec j) exc)).mono hok
  cases t with
  | laneBegin l j =>
    rw [show (Task.laneBegin l j).tokens + h = .exec j ::ₘ h from holds _]
    exact runnerDies_sims hlose l (.inr (.inl ⟨j, rfl⟩))
  | laneLocal l j pt =>
    rw [show (Task.laneLocal l j pt).tokens + h = .exec j ::ₘ h from holds _]
    cases pt with
    | swap removed =>
      exact (laneEnd_sims l false (finalizeTerminal_holds (.exec j) rfl none)).mono hok
    | _ => exact hexec l j
  | laneRemote l j pt =>
    rw [show (Task.laneRemote l j pt).tokens + h = .exec j ::ₘ h from holds _]
    exact hexec l j
  | laneEnd l j dying => exact (laneReturn_sims l).trans queueStops_sims
  | driveBegin j =>
    rw [show (Task.driveBegin j).tokens + h = .drive j ::ₘ h from holds _]
    show Sims ok w (.drive j ::ₘ h) w (0 + h)
    rw [zero_add]
    exact lose_sims hlose (.inr (.inr ⟨j, rfl⟩))
  | driveRemote j pt =>
    rw [show (Task.driveRemote j pt).tokens + h = .drive j ::ₘ h from holds _]
    exact (driveFails_sims exc).mono hok
  | dispatchPersist => exact queueStops_sims
  | command fs =>
    rcases fs with _ | ⟨f, fs⟩
    · exact .refl _ _
    · cases f with
      | stagePersist | stageWrite => exact resumeCommand_sims hcmd hh _ _
      | _ => exact .refl _ _
  | revertRemove j removed => exact .of_eq rfl rfl
  | laneIdle _ | laneGate _ _ _ | driveEnd _ | dispatchGrace | dispatchWait | revertLock _
  | revertReload _ | announcePairing _ | ended => exact .refl _ _

/-- A cancelled job is finalised again. -/
theorem refinish_finalizes (hok : ∀ ℓ, ℓ.basic → ok ℓ) (href : ok .refinish)
    (hj : w.fw.obj j = some job) (hs : job.status = .cancelled) :
    Finalizes ok w h (w.finalizeCancelled j) h j := by
  unfold finalizeCancelled
  set v : World := { w with
    fw := { w.fw with cancelRequested := KeyList.drop w.fw.cancelRequested j } }
  have hdrop : Sims ok w h v h := .of_eq rfl rfl
  have hvj : v.fw.obj j = some job := hj
  have he : Ends ok v h v h j job .cancelled := by
    refine ⟨⟨rfl, rfl⟩, .inl rfl, .refinish, href, nofun, fun job' he hst _ => ?_⟩
    rw [← tokens_owed]
    exact Move.refinish hvj hs he hst
  exact (finalizeTerminal_of_ends hok hvj rfl none he).after hdrop

/-- `run_remote_job` finalises and re-raises, then `execute_job` finalises once more. -/
theorem cancelRemote_sims (hok : ∀ ℓ, ℓ.basic → ok ℓ) (href : ok .refinish) (l : LaneId) :
    Sims ok w (.exec j ::ₘ h)
      (((w.finalizeCancelled j).finalizeCancelled j).laneFinish l j true).1
      ((((w.finalizeCancelled j).finalizeCancelled j).laneFinish l j true).2.tokens + h) := by
  have hfirst := finalizeCancelled_holds (w := w) (h := h) (.exec j)
  rw [zero_add] at hfirst
  refine .of_inv fun hI => ?_
  obtain ⟨job, hj, hs⟩ := finalizeCancelled_status (.exec j) hI
  have hsecond := (refinish_finalizes (h := h) hok href hj hs).after (hfirst.sims.mono hok)
  exact laneFinish_of_finalizes hok l true hsecond

/-- **A task is cancelled.** -/
theorem shutdownTask_sims (hok : ∀ ℓ, ℓ.basic → ok ℓ) (hlose : ok .lose) (t : Task)
    (href : ∀ l j pt, t = .laneRemote l j pt → ok .refinish) :
    Sims ok w (t.tokens + h) (w.shutdownTask t).1 ((w.shutdownTask t).2.tokens + h) := by
  have holds : ∀ t : Token, ({t} : Multiset Token) + h = t ::ₘ h := fun t =>
    Multiset.singleton_add ..
  cases t with
  | laneGate l j woken =>
    rw [show (Task.laneGate l j woken).tokens + h = .taken j ::ₘ h from holds _]
    exact runnerDies_sims hlose l (.inl ⟨j, rfl⟩)
  | laneBegin l j =>
    rw [show (Task.laneBegin l j).tokens + h = .exec j ::ₘ h from holds _]
    exact runnerDies_sims hlose l (.inr (.inl ⟨j, rfl⟩))
  | laneLocal l j pt =>
    rw [show (Task.laneLocal l j pt).tokens + h = .exec j ::ₘ h from holds _]
    exact (laneEnd_sims l true (finalizeCancelled_holds (.exec j))).mono hok
  | laneRemote l j pt =>
    rw [show (Task.laneRemote l j pt).tokens + h = .exec j ::ₘ h from holds _]
    exact cancelRemote_sims hok (href l j pt rfl) l
  | laneEnd l j dying => exact (laneReturn_sims l).trans queueStops_sims
  | driveBegin j =>
    rw [show (Task.driveBegin j).tokens + h = .drive j ::ₘ h from holds _]
    show Sims ok w (.drive j ::ₘ h) w (0 + h)
    rw [zero_add]
    exact lose_sims hlose (.inr (.inr ⟨j, rfl⟩))
  | driveRemote j pt =>
    rw [show (Task.driveRemote j pt).tokens + h = .drive j ::ₘ h from holds _]
    show Sims ok w (.drive j ::ₘ h) ((w.finalizeCancelled j).driveFinish j) (0 + h)
    rw [zero_add]
    exact (driveEnd_sims (finalizeCancelled_holds (.drive j))).mono hok
  | laneIdle _ | dispatchGrace | dispatchWait | dispatchPersist => exact queueStops_sims
  | revertRemove j removed => exact .of_eq rfl rfl
  | driveEnd _ | revertLock _ | revertReload _ | command _ | announcePairing _ | ended =>
    exact .refl _ _

/-! ### Steps -/

theorem setDeviceState_sims (configuration : Configuration) (state : DeviceState) :
    Sims Label.basic w h (w.setDeviceState configuration state) h := by
  have hwake : ∀ v : World, Sims Label.basic v h (v.handleDeviceWake configuration) h := by
    intro v
    unfold handleDeviceWake
    split
    · exact .refl _ _
    · split
      · exact .refl _ _
      · exact dispatchQueuedUpload_sims _
  unfold setDeviceState
  split
  · exact .refl _ _
  · simp only
    split
    · refine Sims.trans ?_ (hwake _)
      exact .of_eq rfl rfl
    · exact .of_eq rfl rfl

/-- A setter of the offloader moves nothing. -/
theorem ledger_changeOffloader (change : OffloaderChange) (h : Multiset Token) :
    (w.changeOffloader change).ledger h = w.ledger h := by
  unfold changeOffloader
  split
  · rfl
  · rename_i o _
    have hfire : ∀ (v : World) events, (v.firePoolEvents events).ledger h = v.ledger h := by
      intro v events
      unfold firePoolEvents
      split <;> rfl
    have hspawn : ∀ (v : World) pin, (v.spawnTask (.announcePairing pin)).ledger h = v.ledger h :=
      fun v pin => by rw [ledger_spawnTask]; exact congrArg _ (zero_add h)
    simp only
    split
    · split
      · rw [hspawn, hfire]; rfl
      · rw [hfire]; rfl
    · rw [hfire]; rfl

theorem losses_changeOffloader (change : OffloaderChange) :
    (w.changeOffloader change).losses = w.losses := by
  unfold changeOffloader
  split
  · rfl
  · have hfire : ∀ (v : World) events, (v.firePoolEvents events).losses = v.losses := by
      intro v events
      unfold firePoolEvents
      split <;> rfl
    simp only
    split
    · split
      · exact hfire _ _
      · exact hfire _ _
    · exact hfire _ _

/-- **Every step of a running dashboard is a chain of entries.** -/
theorem step_entries (hr : ∀ rows devices offloader workers,
      a ≠ .restart rows devices offloader workers) (hI : (w.ledger 0).Inv) :
    Chain Entry (a.Allows w) (w.account 0) ((w.step a).account 0) := by
  have hquiet : Quiet 0 := fun d => Multiset.notMem_zero _
  have hbasic : ∀ ℓ, ℓ.basic → a.Allows w ℓ := fun _ => Action.allows_basic
  cases a with
  | resume i input =>
    exact runTask_entries w 0 (fun t v hi hv => resumeTask_sims hi hquiet hv) hI
  | io i => exact runTask_entries w 0 (fun t v _ _ => ioTask_sims t) hI
  | raise i exc =>
    refine runTask_entries w 0 (fun t v _ hv => ?_) hI
    have ho : v.offloader = w.offloader := by rw [hv]; rfl
    exact raiseTask_sims hbasic ⟨i, .inr ⟨exc, rfl⟩⟩ (Action.commandLabels _ ho) hquiet exc t
  | shutdown i =>
    refine runTask_entries w 0 (fun t v hi _ => ?_) hI
    refine shutdownTask_sims hbasic ⟨i, .inl rfl⟩ t fun l j pt ht => ?_
    exact ⟨i, l, j, pt, rfl, ht ▸ hi⟩
  | command c =>
    have hs := startFrames_sims (w := w) (Action.commandLabels (.command c) rfl) hquiet c
      (fun s hc ha => ⟨s, by rw [hc], ha⟩)
    exact startCommand_entries hbasic hs hI
  | device configuration device => exact .refl _
  | deviceState configuration state =>
    exact ((setDeviceState_sims configuration state).mono hbasic).entries hI
  | changeOffloader change =>
    exact .of_eq (congrArg₂ Account.mk (ledger_changeOffloader change 0)
      (losses_changeOffloader change)).symm
  | teardownOffloader | tick => exact .refl _
  | saveBegin =>
    simp only [step]
    split
    · exact .refl _
    · exact .one (show Action.Allows w _ .plain from trivial)
        (.move (Move.saveBegin (c := w.ledger 0) _ (hI.nodup.filter _)) nofun)
  | save =>
    simp only [step, save]
    split
    · exact .refl _
    · rename_i ids hs
      refine .one (show Action.Allows w _ .plain from trivial)
        (.move (Move.save (c := w.ledger 0) hs fun j => ?_) nofun)
      exact (quiet_tasks w.tasks).add hquiet j
  | restart rows devices offloader workers => exact (hr _ _ _ _ rfl).elim

/-- **Every step of a running dashboard is a chain of moves.** -/
theorem step_moves (hr : ∀ rows devices offloader workers,
      a ≠ .restart rows devices offloader workers) (hI : (w.ledger 0).Inv) :
    Chain Move (a.Allows w) (w.ledger 0) ((w.step a).ledger 0) :=
  entries_moves (step_entries hr hI)

end World

end DeviceBuilder
