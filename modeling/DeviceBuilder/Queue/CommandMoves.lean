import DeviceBuilder.Queue.FinalizeMoves
import DeviceBuilder.Firmware.Controller

/-!
# Commands as moves

`Firmware.Controller` as chains of moves: how commands start, and how their
frames go on.

* `cancelMarked_sims`: the second half of `cancel`.
* `returnTo_sims`, `unwind_sims`: frames.
* `startFrames_sims`: commands.
-/

namespace DeviceBuilder

open Runs

variable {ok : Label → Prop} {w w' : World} {h h' : Multiset Token} {j : JobId}
  {job : FirmwareJob}

/-- No release is owed: between two sections nothing is. -/
def Quiet (h : Multiset Token) : Prop := ∀ d, .owed d ∉ h

theorem quiet_frame (f : Frame) : Quiet f.tokens := by
  intro d
  cases f <;> simp [Frame.tokens]

theorem quiet_frames (fs : List Frame) : Quiet (framesTokens fs) := by
  intro d
  induction fs with
  | nil => simp
  | cons f fs ih => simp [quiet_frame f d, ih]

theorem quiet_tasks (ts : List Task) : Quiet (taskTokens ts) := by
  intro d
  induction ts with
  | nil => simp [taskTokens]
  | cons t ts ih =>
    have ht : .owed d ∉ t.tokens := by
      cases t <;> simp only [Task.tokens] <;> first | simp | exact quiet_frames _ d
    simp [ht, ih]

theorem Quiet.add (h₁ : Quiet h) (h₂ : Quiet h') : Quiet (h + h') := by
  intro d
  rw [Multiset.mem_add]
  rintro (hm | hm)
  · exact h₁ d hm
  · exact h₂ d hm

/-- The labels of commands, with the sources that may be resolved. -/
structure CommandLabels (ok : Label → Prop) (w : World) : Prop where
  basic : ∀ ℓ, ℓ.basic → ok ℓ
  chain : ok .chain
  resolve : ∀ (v : World) forceLocal jobType source, v.offloader = w.offloader →
    v.resolveInstallSource forceLocal jobType = .ok source →
      ok (.resolve forceLocal jobType source)

namespace World

/-! ### `cancel` -/

theorem finalizeTerminal_cancels (j : JobId) :
    Cancels (fun w dep error => w.finalizeTerminal dep .cancelled error) j := by
  intro w h d job error hj hs hd
  exact finalizeWith_sims _ error (fun _ => id) hj rfl (fun _ => by rw [hd]; simp)
    (ends_of_queued hj hs)

/-- The end of `cancel`'s QUEUED branch. -/
theorem cancelTail_sims :
    Sims Label.basic w h (w.cancelTail j).1 ((w.cancelTail j).2.tokens + h) := by
  have hset : ∀ w : World, Sims Label.basic w h w.setGate (0 + h) := by
    intro w
    rw [zero_add]; exact setGate_sims _ _
  refine Sims.trans (onJobTerminal_sims (j := j)) ?_
  unfold cancelTail
  dsimp only
  split
  · exact hset _
  · split
    · exact hset _
    · rename_i job _ p _
      split
      · have hc := cancelStart_sims (w := w.onJobTerminal j) (h := h) (j := p.jobId) (.tail j)
          (.inr (.inl ⟨j, rfl⟩))
        generalize (w.onJobTerminal j).cancelStart p.jobId (.tail j) = r at hc ⊢
        rcases r with ⟨v, fs | _ | e⟩
        · simpa [Outcome.tokens, Frame.tokens] using hc
        · exact Sims.trans (by simpa [Outcome.tokens] using hc) (hset v)
        · simpa [Outcome.tokens] using hc
      · exact hset _

/-- `cancel` after its first persist, up to the end of the cascade. -/
theorem cascade_sims : Sims Label.basic w (.fire j ::ₘ h) ((w.fireTerminal j).releaseDependents j) h := by
  refine .of_inv fun hI => ?_
  have hst := (hI.view j).fired (Multiset.count_pos.2 (by simp [ledger]))
  obtain ⟨job, hj, hs⟩ := Option.map_eq_some_iff.1 hst
  change w.fw.obj j = some job at hj
  set v := w.emit (.jobTerminal job)
  have hfire : w.fireTerminal j = v := by
    unfold fireTerminal handleTerminal
    simp [hj, hs, v]
  rw [hfire]
  set D := (w.ledger (.fire j ::ₘ h)).dependents j
  have hm : Sims Label.basic w (.fire j ::ₘ h) v ((D.map Token.owed : List Token) + h) := by
    refine .plain (fun _ => ?_) rfl
    have hm := Move.fireCancelled (c := w.ledger (.fire j ::ₘ h)) (ledger_tokens_cons ..) hj
    rw [show taskTokens w.tasks + h + (w.ledger (.fire j ::ₘ h)).owes j =
      taskTokens w.tasks + ((D.map Token.owed : List Token) + h) from tokens_owed _] at hm
    exact hm
  have hpay : Sims Label.basic v ((D.map Token.owed : List Token) + h) (v.releaseDependents j) h := by
    refine releaseDependents_sims (finalizeTerminal_cancels j) (w := v) hj (hI.dependents_le j)
      (fun d hd => hd) fun d hd => ?_
    obtain ⟨-, a, ha, hda⟩ := Ledger.mem_dependents.1 hd
    exact ⟨a, ha, hda⟩
  exact hm.trans hpay

/-- **`cancel`** after its first persist: the event, the cascade, and the rest. -/
theorem cancelMarked_sims :
    Sims Label.basic w (.fire j ::ₘ h) (w.cancelMarked j).1
      ((w.cancelMarked j).2.tokens + h) := by
  have hrest : Sims Label.basic w (.fire j ::ₘ h) ((w.fireTerminal j).releaseDependents j) h := cascade_sims
  unfold cancelMarked
  dsimp only
  split
  · simpa [Outcome.tokens, Frame.tokens] using hrest.trans pruneHistory_sims
  · exact hrest.trans cancelTail_sims

/-! ### Submissions -/

/-- A build source is resolved, and held until the job is created. -/
theorem resolve_sims (hok : CommandLabels ok w) {forceLocal : Bool} {jobType : JobType}
    {source : JobBuildSource} (hr : w.resolveInstallSource forceLocal jobType = .ok source) :
    Sims ok w h w (.resolved forceLocal jobType source ::ₘ h) := by
  refine .one (hok.resolve w _ _ _ rfl hr) nofun (fun _ => ?_) rfl
  have hm := Move.resolve (c := w.ledger h) forceLocal jobType source
  rw [show (w.ledger h).tokens = taskTokens w.tasks + h from rfl, ← ledger_tokens_cons] at hm
  exact hm

/-- A job with a resolved source is created. -/
theorem submitJob_sims (job : FirmwareJob) (forceLocal : Bool) (source : JobBuildSource)
    (hq : job.status = .queued) (hr : job.dependencyReleased = false)
    (hd : job.dependsOn = none) :
    Sims Label.basic w (.resolved forceLocal job.jobType source ::ₘ h)
      ((w.submit forceLocal).createJob (job.applyBuildSource source)) (.stage w.fw.fresh ::ₘ h) := by
  refine .plain (fun _ => ?_) rfl
  have ht : (w.ledger (.resolved forceLocal job.jobType source ::ₘ h)).tokens =
      .resolved forceLocal job.jobType source ::ₘ (taskTokens w.tasks + h) := ledger_tokens_cons ..
  have hm := Move.submit { job.applyBuildSource source with
      jobId := w.fw.fresh, createdAt := w.clock } ⟨rfl, hq, hr⟩ hd rfl ht
  have hs : Token.stage w.fw.fresh ::ₘ (taskTokens w.tasks + h) =
      taskTokens w.tasks + (.stage w.fw.fresh ::ₘ h) := (Multiset.add_cons ..).symm
  change Move .plain _ (Ledger.withTokens _ (Token.stage w.fw.fresh ::ₘ (taskTokens w.tasks + h))) at hm
  rw [hs] at hm
  exact hm

/-- A compile with a resolved source is created with the job that depends on it. -/
theorem submitChain_sims {ok : Label → Prop} (hok : ok .chain) (head dependent : FirmwareJob)
    (forceLocal : Bool) (source : JobBuildSource) (hq : head.status = .queued)
    (hr : head.dependencyReleased = false) (hd : head.dependsOn = none)
    (hq' : dependent.status = .queued) (hr' : dependent.dependencyReleased = false)
    (hd' : dependent.dependsOn = some w.fw.fresh) (hs' : dependent.source = .local)
    (ht : head.jobType = .compile) (ht' : dependent.jobType ≠ .compile)
    (hdf : head.isDeferredInstall = false) :
    Sims ok w (.resolved forceLocal .compile source ::ₘ h)
      (((w.submit forceLocal).createJob (head.applyBuildSource source)).createJob dependent)
      (.chain w.fw.fresh (w.fw.fresh + 1) ::ₘ h) := by
  refine .one hok nofun (fun _ => ?_) rfl
  have htok : (w.ledger (.resolved forceLocal .compile source ::ₘ h)).tokens =
      .resolved forceLocal .compile source ::ₘ (taskTokens w.tasks + h) := ledger_tokens_cons ..
  have hm := Move.submitChain
    { head.applyBuildSource source with jobId := w.fw.fresh, createdAt := w.clock }
    { dependent with jobId := w.fw.fresh + 1, createdAt := w.clock }
    ⟨rfl, hq, hr⟩ hd ⟨rfl, hq', hr'⟩ hd' rfl hs' ht ht' hdf htok
  have hs : Token.chain w.fw.fresh (w.fw.fresh + 1) ::ₘ (taskTokens w.tasks + h) =
      taskTokens w.tasks + (.chain w.fw.fresh (w.fw.fresh + 1) ::ₘ h) := (Multiset.add_cons ..).symm
  change Move .chain _ (Ledger.withTokens _
    (Token.chain w.fw.fresh (w.fw.fresh + 1) ::ₘ (taskTokens w.tasks + h))) at hm
  rw [hs] at hm
  exact hm

section Commit

variable {head dependent : JobId}

theorem not_owed (hh : Quiet h) (d : JobId) : .owed d ∉ taskTokens w.tasks + h :=
  (quiet_tasks _).add hh d

/-- A staged chain is there. -/
theorem stagedChain_some (hj : w.fw.obj head = none ∨ w.fw.obj dependent = none) :
    Sims Label.basic w (.chain head dependent ::ₘ h) w' h' := by
  refine .of_inv fun hI => ?_
  obtain ⟨a, b, ha, hb, -⟩ := stagedChain hI
  rcases hj with hj | hj
  · rw [ha] at hj; cases hj
  · rw [hb] at hj; cases hj

/-- A staged chain is rolled back. -/
theorem unstageChain_sims (hh : Quiet h) : Sims Label.basic w (.chain head dependent ::ₘ h)
    ((w.popJob dependent).popJob head) h := by
  refine .plain (fun _ => Move.unstageChain (c := w.ledger (.chain head dependent ::ₘ h))
    (ledger_tokens_cons ..) fun d hm => ?_) rfl
  rw [ledger_tokens_cons, Multiset.mem_cons] at hm
  rcases hm with hm | hm
  · cases hm
  · exact not_owed hh d hm

/-- **`commit_chain`** of two jobs. -/
theorem commitChain_pair_sims (hh : Quiet h) (supersede : Option Configuration) :
    Sims Label.basic w (.chain head dependent ::ₘ h) (w.commitChain head (some dependent) supersede).1
      ((w.commitChain head (some dependent) supersede).2.tokens + h) := by
  unfold commitChain
  split
  · exact stagedChain_some (.inl ‹_›)
  · simp only [Option.toList_some, List.cons_append, List.nil_append, List.foldl_cons, List.foldl_nil]
    split
    · simpa [Outcome.tokens] using unstageChain_sims hh
    · exact commitPlaced_sims (.chain head dependent) supersede

end Commit

theorem enqueueInstallChain_sims (hok : CommandLabels ok w) (hh : Quiet h)
    (configuration : Configuration) (port : String) (forceLocal : Bool) (source : JobBuildSource)
    (flashBootloader : Bool) :
    Sims ok w (.resolved forceLocal .compile source ::ₘ h)
      ((w.submit forceLocal).enqueueInstallChain configuration port source flashBootloader).1
      (((w.submit forceLocal).enqueueInstallChain configuration port source
        flashBootloader).2.tokens + h) := by
  unfold enqueueInstallChain
  dsimp only
  set upload : FirmwareJob :=
    { jobId := 0, configuration := configuration, jobType := .upload, port := port,
      flashBootloader := flashBootloader, dependsOn := some w.fw.fresh } with hu
  set compile : FirmwareJob :=
    { jobId := 0, configuration := configuration, jobType := .compile,
      skipBootloader := isOtaAppFlash port flashBootloader }
  refine Sims.trans (submitChain_sims hok.chain compile upload forceLocal source rfl rfl rfl rfl rfl
    rfl rfl rfl (by simp [hu]) rfl) ?_
  exact (commitChain_pair_sims hh _).mono hok.basic

theorem enqueueCompile_sims (hok : CommandLabels ok w) (configuration : Configuration)
    (forceLocal : Bool) (jobType : JobType) :
    Sims ok w h (w.enqueueCompile configuration forceLocal jobType).1
      ((w.enqueueCompile configuration forceLocal jobType).2.tokens + h) := by
  unfold enqueueCompile
  split
  · simpa [Outcome.tokens] using .refl w h
  · rename_i source hr
    set job : FirmwareJob := { jobId := 0, configuration := configuration, jobType := jobType }
    have hcreate := submitJob_sims (w := w) (h := h) job forceLocal source rfl rfl rfl
    refine ((resolve_sims hok hr).trans (hcreate.mono hok.basic)).trans ?_
    exact (enqueue_sims true).mono hok.basic

theorem enqueueInstallOrDefer_sims (hok : CommandLabels ok w) (hh : Quiet h)
    (configuration : Configuration) (port : String) (forceLocal flashBootloader : Bool) :
    Sims ok w h (w.enqueueInstallOrDefer configuration port forceLocal flashBootloader).1
      ((w.enqueueInstallOrDefer configuration port forceLocal flashBootloader).2.tokens + h) := by
  unfold enqueueInstallOrDefer
  dsimp only
  split
  · simpa [Outcome.tokens] using .refl w h
  · split
    · simpa [Outcome.tokens] using .refl w h
    · rename_i source hr
      refine (resolve_sims hok hr).trans ?_
      split
      · set job : FirmwareJob :=
          { jobId := 0, configuration := configuration, jobType := .compile,
            skipBootloader := true, isDeferredInstall := true }
        have hcreate := submitJob_sims (w := w) (h := h) job forceLocal source rfl rfl rfl
        exact (hcreate.trans (enqueue_sims true)).mono hok.basic
      · exact enqueueInstallChain_sims hok hh ..

/-! ### `clean` and `rename` -/

/-- A clean is created and enqueued. -/
theorem createEnqueue_sims (job : FirmwareJob) (supersede : Bool) (hq : job.status = .queued)
    (hr : job.dependencyReleased = false) (hd : job.dependsOn = none)
    (hs : job.jobType = .compile → job.source = .local) :
    Sims Label.basic w h ((w.createJob job).enqueue w.fw.fresh supersede).1
      (((w.createJob job).enqueue w.fw.fresh supersede).2.tokens + h) :=
  (createJob_sims job hq hr hd hs).trans (enqueue_sims supersede)

theorem cleanLocalStart_sims (configuration : Configuration) :
    Sims Label.basic w h (w.cleanLocalStart configuration).1
      ((w.cleanLocalStart configuration).2.tokens + h) := by
  unfold cleanLocalStart
  dsimp only
  set job : FirmwareJob := { jobId := 0, configuration := configuration, jobType := .clean }
  have hs := createEnqueue_sims (w := w) (h := h) job true rfl rfl rfl (by simp [job])
  generalize (w.createJob job).enqueue w.fw.fresh true = r at hs ⊢
  rcases r with ⟨v, fs | _ | e⟩
  · simpa [Outcome.tokens, Frame.tokens] using hs
  · simpa [Outcome.tokens] using hs
  · simpa [Outcome.tokens] using hs

theorem cleanFanOut_sims (configuration : Configuration) (sources : List JobBuildSource)
    (w : World) :
    Sims Label.basic w h (w.cleanFanOut configuration sources).1
      ((w.cleanFanOut configuration sources).2.tokens + h) := by
  induction sources generalizing w with
  | nil => simpa [cleanFanOut, Outcome.tokens] using .refl w h
  | cons source rest ih =>
    unfold cleanFanOut
    dsimp only
    set job : FirmwareJob := { jobId := 0, configuration := configuration, jobType := .clean }
    have hs := createEnqueue_sims (w := w) (h := h) (job.applyBuildSource source) false rfl rfl rfl
      (by simp [job, FirmwareJob.applyBuildSource])
    generalize (w.createJob (job.applyBuildSource source)).enqueue w.fw.fresh false = r at hs ⊢
    rcases r with ⟨v, fs | _ | e⟩
    · simpa [Outcome.tokens, Frame.tokens] using hs
    · exact Sims.trans (by simpa [Outcome.tokens] using hs) (ih v)
    · simpa [Outcome.tokens] using hs

theorem setRenameLock_sims {ok : Label → Prop} (held : Bool) :
    Sims ok w h (w.setRenameLock held) h := .of_eq rfl rfl

section Rename

variable {head tail : JobId}

/-- A failed rename: its jobs leave the table, the lock is released. -/
theorem renameRollBack_sims (hh : Quiet h) (e : Err) :
    Sims Label.basic w (.chain head tail ::ₘ h) (w.renameRollBack head tail e).1
      ((w.renameRollBack head tail e).2.tokens + h) := by
  simpa [renameRollBack, Outcome.tokens] using
    (unstageChain_sims hh).trans (setRenameLock_sims false)

theorem renameCommitStart_sims (newFilename : Configuration) :
    Sims Label.basic w (.chain head tail ::ₘ h) (w.renameCommitStart head tail newFilename).1
      ((w.renameCommitStart head tail newFilename).2.tokens + h) := by
  have hs := commitPlaced_sims (w := w) (h := h) (.chain head tail) (some newFilename)
  unfold renameCommitStart
  generalize w.commitPlaced [tail, head] (some newFilename) = r at hs ⊢
  rcases r with ⟨v, fs | _ | e⟩
  · simpa [Outcome.tokens, Frame.tokens] using hs
  · exact Sims.trans (by simpa [Outcome.tokens] using hs)
      (by simpa [Outcome.tokens] using setRenameLock_sims false)
  · exact Sims.trans (by simpa [Outcome.tokens] using hs)
      (by simpa [Outcome.tokens] using setRenameLock_sims false)

end Rename

/-- **`begin_rename`** inside the lock. -/
theorem renameInLock_sims (hok : CommandLabels ok w) (hh : Quiet h)
    (configuration : Configuration) (newName : String) (content : Yaml) (port : String)
    (source : JobBuildSource) :
    Sims ok w (.resolved false .compile source ::ₘ h)
      (w.renameInLock configuration newName content port source).1
      ((w.renameInLock configuration newName content port source).2.tokens + h) := by
  set compile : FirmwareJob :=
    { jobId := 0, configuration := newName ++ ".yaml", jobType := .compile, skipBootloader := true }
  set rename : FirmwareJob :=
    { jobId := 0, configuration := configuration, jobType := .rename, newName := newName,
      port := port, dependsOn := some w.fw.fresh } with hr
  have hcreate := submitChain_sims (w := w.setRenameLock true) (h := h) hok.chain compile rename false
    source rfl rfl rfl rfl rfl rfl rfl rfl (by simp [hr]) rfl
  set head := w.fw.fresh
  change Sims ok (w.setRenameLock true) _ _ (.chain head (head + 1) ::ₘ h) at hcreate
  refine (setRenameLock_sims true).trans (hcreate.trans ?_)
  refine Sims.mono ?_ hok.basic
  unfold renameInLock
  dsimp only
  split
  · exact stagedChain_some (.inr ‹_›)
  · split
    · exact renameRollBack_sims hh _
    · set v := (((w.setRenameLock true).submit false).createJob
        (compile.applyBuildSource source)).createJob rename
      have hs : Sims Label.basic v (.chain head (head + 1) ::ₘ h)
          (v.supersedeActiveJobs configuration [head, head + 1]).1
          ((v.supersedeActiveJobs configuration [head, head + 1]).2.tokens +
            (.chain head (head + 1) ::ₘ h)) := startSweep_sims _ _ _ _
      split <;> rename_i heq
      · rw [show v.supersedeActiveJobs configuration [head, head + 1] = _ from heq] at hs
        simpa [Outcome.tokens, Frame.tokens, add_assoc] using hs
      · rw [show v.supersedeActiveJobs configuration [head, head + 1] = _ from heq] at hs
        simpa [Outcome.tokens, Frame.tokens] using hs
      · rw [show v.supersedeActiveJobs configuration [head, head + 1] = _ from heq] at hs
        simp only [Outcome.tokens, zero_add] at hs
        exact hs.trans (renameRollBack_sims hh _)

/-- The source of a rename is resolved, then the lock is taken or waited for. -/
theorem renameResolved_sims (hok : CommandLabels ok w) (hh : Quiet h)
    (configuration : Configuration) (newName : String) (content : Yaml) (port : String) :
    Sims ok w h (w.renameResolved configuration newName content port).1
      ((w.renameResolved configuration newName content port).2.tokens + h) := by
  unfold renameResolved
  split
  · simpa [Outcome.tokens] using .refl w h
  · rename_i source hr
    refine (resolve_sims hok hr).trans ?_
    split
    · exact renameInLock_sims hok hh ..
    · simpa [Outcome.tokens, Frame.tokens] using .refl w (.resolved false .compile source ::ₘ h)

/-! ### Frames -/

theorem commandLabels_of_keeps (hok : CommandLabels ok w) (hk : Keeps w w') : CommandLabels ok w' :=
  ⟨hok.basic, hok.chain, fun v fl t src ho => hok.resolve v fl t src (ho.trans hk.offloader)⟩

/-- **A frame goes on.** -/
theorem returnTo_sims (hok : CommandLabels ok w) (hh : Quiet h) (r : Except Err Unit) (f : Frame) :
    Sims ok w (f.tokens + h) (w.returnTo r f).1 ((w.returnTo r f).2.tokens + h) := by
  have stop : ∀ r : Outcome, r.tokens = 0 → Sims ok w (0 + h) w (r.tokens + h) := by
    intro r hr
    rw [hr]; exact .refl _ _
  have basic : ∀ {v g}, Sims Label.basic w (f.tokens + h) v g → Sims ok w (f.tokens + h) v g :=
    fun hs => hs.mono hok.basic
  cases f with
  | cancelMarked j =>
    refine basic ?_
    rw [show Frame.tokens (.cancelMarked j) + h = .fire j ::ₘ h from Multiset.singleton_add ..]
    exact cancelMarked_sims
  | renameLock configuration newName content port source =>
    rw [show Frame.tokens (.renameLock configuration newName content port source) + h =
      .resolved false .compile source ::ₘ h from Multiset.singleton_add ..]
    exact renameInLock_sims hok hh ..
  | sweep rest cause =>
    refine basic ?_
    cases r with
    | ok _ => exact runSweep_sims cause rest w h
    | error e =>
      simp only [returnTo]
      split
      · exact runSweep_sims cause rest w h
      · simpa [Outcome.tokens, Frame.tokens] using endSweeps_sims cause rest w h
  | resetSweep j =>
    refine basic ?_
    rw [show Frame.tokens (.resetSweep j) + h = .stage j ::ₘ h from Multiset.singleton_add ..]
    cases r with
    | ok _ => exact enqueue_sims true
    | error e => simpa [returnTo, Outcome.tokens] using rollBack_sims
  | stageSupersede head tail content | stagePersist head tail content =>
    refine basic ?_
    rw [show Frame.tokens _ + h = .chain head tail ::ₘ h from Multiset.singleton_add ..]
    cases r with
    | ok _ => simpa [returnTo, Outcome.tokens, Frame.tokens] using .refl w (.chain head tail ::ₘ h)
    | error e => exact renameRollBack_sims hh e
  | stageWrite head tail content written =>
    refine basic ?_
    rw [show Frame.tokens (.stageWrite head tail content written) + h = .chain head tail ::ₘ h from
      Multiset.singleton_add ..]
    cases r with
    | ok _ => exact renameCommitStart_sims _
    | error e => exact renameRollBack_sims hh e
  | renameCommit =>
    refine basic ?_
    cases r <;> exact .of_eq rfl rfl
  | cancelReleased j =>
    cases r with
    | ok _ =>
      rw [show Frame.tokens (.cancelReleased j) + h = h from zero_add h]
      exact cancelTail_sims.mono hok.basic
    | error e => exact stop (.raised e) rfl
  | cancelPrereq =>
    cases r with
    | ok _ => exact setGate_sims _ _
    | error e => exact stop (.raised e) rfl
  | commitSupersede =>
    cases r with
    | ok _ => exact stop (.suspended [.commitPersist]) rfl
    | error e => exact stop (.raised e) rfl
  | cleanValidate configuration =>
    cases r with
    | ok _ =>
      rw [show Frame.tokens (.cleanValidate configuration) + h = h from zero_add h]
      exact (cleanLocalStart_sims configuration).mono hok.basic
    | error e => exact stop (.raised e) rfl
  | cleanLocal configuration =>
    cases r with
    | ok _ =>
      rw [show Frame.tokens (.cleanLocal configuration) + h = h from zero_add h]
      simp only [returnTo]
      split
      · simpa [Outcome.tokens] using .refl w h
      · exact (cleanFanOut_sims configuration _ w).mono hok.basic
    | error e => exact stop (.raised e) rfl
  | cleanFanOut configuration rest =>
    cases r with
    | ok _ =>
      rw [show Frame.tokens (.cleanFanOut configuration rest) + h = h from zero_add h]
      exact (cleanFanOut_sims configuration rest w).mono hok.basic
    | error e => exact stop (.raised e) rfl
  | renameExists configuration newName found =>
    rcases r with e | _
    · exact stop (.raised e) rfl
    · cases found with
      | none => exact stop .returned rfl
      | some found =>
        simp only [returnTo, renameChecked]
        split
        · exact stop (.raised .invalidArgs) rfl
        · exact stop (.suspended [.renameRead configuration newName none]) rfl
  | renameRead configuration newName content =>
    rcases r with e | _
    · exact stop (.raised e) rfl
    · rcases content with _ | _ | content
      · exact stop .returned rfl
      · exact stop (.raised .notFound) rfl
      · exact stop (.suspended [.renameAddress configuration newName content none]) rfl
  | renameAddress configuration newName content address =>
    rcases r with e | _
    · exact stop (.raised e) rfl
    · cases address with
      | none => exact stop .returned rfl
      | some address =>
        rw [show Frame.tokens (.renameAddress configuration newName content (some address)) + h = h
          from zero_add h]
        exact renameResolved_sims hok hh ..
  | cancelTerminate | commitPersist | clearPersist =>
    rcases r with e | _
    · exact stop (.raised e) rfl
    · exact stop .returned rfl

/-- **Frames unwind.** -/
theorem unwind_sims (hok : CommandLabels ok w) (hh : Quiet h) (r : Except Err Unit)
    (fs : List Frame) :
    Sims ok w (framesTokens fs + h) (w.unwind r fs).1 ((w.unwind r fs).2.tokens + h) := by
  induction fs generalizing w r with
  | nil =>
    cases r <;> simpa [unwind, Outcome.tokens] using .refl w h
  | cons f fs ih =>
    have hf := returnTo_sims hok ((quiet_frames fs).add hh) r f
    rw [framesTokens_cons, add_assoc]
    unfold unwind
    generalize w.returnTo r f = out at hf ⊢
    rcases out with ⟨v, gs | _ | e⟩
    · simpa [Outcome.tokens, add_assoc] using hf
    · rw [show Outcome.returned.tokens + (framesTokens fs + h) = framesTokens fs + h from
        zero_add _] at hf
      exact .of_inv fun hI => hf.trans (ih (commandLabels_of_keeps hok (hf.keeps hI)) _)
    · rw [show (Outcome.raised e).tokens + (framesTokens fs + h) = framesTokens fs + h from
        zero_add _] at hf
      exact .of_inv fun hI => hf.trans (ih (commandLabels_of_keeps hok (hf.keeps hI)) _)

/-! ### Commands -/

/-- `clear` drops rows of the table; without a status, or with a terminal one, rows of jobs that
have ended. -/
theorem clear_sims {ok : Label → Prop} (hok : ∀ ℓ, ℓ.basic → ok ℓ) (hh : Quiet h)
    (status : Option JobStatus)
    (hclear : ∀ s, status = some s → s.isTerminal = false → ok .clear) :
    Sims ok w h (w.clear status) h := by
  by_cases hs : ∃ s, status = some s ∧ s.isTerminal = false
  · obtain ⟨s, rfl, ha⟩ := hs
    refine .one (hclear s rfl ha) nofun (fun hI => ?_) rfl
    refine Move.clear (c := w.ledger h) _ ?_ ?_ (not_owed hh)
    · exact hI.nodup.filter _
    · exact fun j hj => (List.mem_filter.1 hj).1
  · refine .one (hok .plain trivial) nofun (fun hI => ?_) rfl
    refine Move.prune (c := w.ledger h) _ ?_ ?_ ?_
    · exact hI.nodup.filter _
    · exact fun j hj => (List.mem_filter.1 hj).1
    · intro j hj job hjob ha
      refine List.mem_filter.2 ⟨hj, ?_⟩
      change w.fw.obj j = some job at hjob
      simp only [hjob]
      cases status with
      | none => exact ha
      | some s =>
        rw [decide_eq_true_eq]
        rintro rfl
        exact hs ⟨_, rfl, by simpa [FirmwareJob.isActive] using ha⟩

/-- **A command starts.** -/
theorem startFrames_sims (hok : CommandLabels ok w) (hh : Quiet h) (c : Command)
    (hclear : ∀ s, c = .clear (some s) → s.isTerminal = false → ok .clear) :
    Sims ok w h (w.startFrames c).1 ((w.startFrames c).2.tokens + h) := by
  have stop : ∀ r : Outcome, r.tokens = 0 → Sims ok w h w (r.tokens + h) := by
    intro r hr
    rw [hr, zero_add]; exact .refl _ _
  cases c with
  | compile configuration forceLocal => exact enqueueCompile_sims hok ..
  | analyzeMemory configuration => exact enqueueCompile_sims hok ..
  | upload configuration port bootloader =>
    exact (createEnqueue_sims _ true rfl rfl rfl (by simp)).mono hok.basic
  | install configuration port forceLocal bootloader => exact enqueueInstallOrDefer_sims hok hh ..
  | clean configuration =>
    simpa [startFrames, Outcome.tokens, Frame.tokens] using setQueuedUpdate_sims configuration false
  | resetBuildEnv =>
    refine Sims.mono ?_ hok.basic
    set j := w.fw.fresh
    set job : FirmwareJob := { jobId := 0, configuration := "", jobType := .resetBuildEnv }
    set v := w.disarmAllQueuedUpdates.createJob job
    have hdisarm : Sims Label.basic w h w.disarmAllQueuedUpdates h := .of_eq rfl rfl
    have hcreate : Sims Label.basic w h v (.stage j ::ₘ h) :=
      hdisarm.trans (createJob_sims job rfl rfl rfl (by simp [job]))
    have hs : Sims Label.basic v (.stage j ::ₘ h) (v.cancelAllActiveJobs j).1
        ((v.cancelAllActiveJobs j).2.tokens + (.stage j ::ₘ h)) := startSweep_sims _ _ _ _
    refine hcreate.trans ?_
    unfold startFrames
    dsimp only
    split <;> rename_i heq
    · rw [show v.cancelAllActiveJobs j = _ from heq] at hs
      have hj : w.disarmAllQueuedUpdates.fw.fresh = j := rfl
      simpa [Outcome.tokens, Frame.tokens, add_assoc, hj] using hs
    · rw [show v.cancelAllActiveJobs j = _ from heq] at hs
      simp only [Outcome.tokens, zero_add] at hs
      exact hs.trans (enqueue_sims true)
    · rw [show v.cancelAllActiveJobs j = _ from heq] at hs
      simp only [Outcome.tokens, zero_add] at hs
      refine hs.trans ?_
      show Sims Label.basic _ _ _ (0 + h)
      rw [zero_add]
      exact rollBack_sims
  | rename configuration newName =>
    simp only [startFrames]
    split
    · exact stop (.raised .invalidArgs) rfl
    · exact stop (.suspended [.renameExists configuration newName none]) rfl
  | cancel j => exact (cancelStart_sims .user (.inl rfl)).mono hok.basic
  | clear status =>
    simpa [startFrames, Outcome.tokens, Frame.tokens] using
      clear_sims hok.basic hh status fun s hs ha => hclear s (by rw [hs]) ha
  | clearQueuedUpdate configuration =>
    simpa [startFrames, Outcome.tokens] using setQueuedUpdate_sims configuration false
  | resetPeerBuildEnv pin =>
    simp only [startFrames]
    split
    · exact stop (.raised .notFound) rfl
    · split
      · exact stop (.raised .notFound) rfl
      · exact (createEnqueue_sims _ false rfl rfl rfl
        (by simp [FirmwareJob.applyBuildSource])).mono hok.basic
  | peerSubmit peer configuration jobType skipBootloader =>
    simp only [startFrames]
    split
    · exact stop (.raised .invalidArgs) rfl
    · exact (createEnqueue_sims _ true rfl rfl rfl (by simp)).mono hok.basic
  | peerReset peer =>
    simp only [startFrames]
    split
    · exact stop (.raised .invalidArgs) rfl
    · have hdisarm : Sims ok w h w.disarmAllQueuedUpdates h := .of_eq rfl rfl
      exact hdisarm.trans ((createEnqueue_sims _ false rfl rfl rfl (by simp)).mono hok.basic)

end World

end DeviceBuilder
