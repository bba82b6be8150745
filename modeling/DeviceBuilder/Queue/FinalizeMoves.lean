import DeviceBuilder.Queue.CancelMoves

/-!
# Finalisation as moves

`Firmware.Lifecycle` as chains of moves: the listeners of a terminal event, the
release of dependents, and `finalize_terminal`. A finalisation starts with one
of the moves that end a job, which differ in what held the job; all of them owe
the dependents their release, and the rest of the finalisation pays.

* `handleTerminal_sims`: the listeners.
* `releaseDependents_sims`: the release pays what is owed.
* `finalizeTerminal_sims`: a finalisation, after the move that ends the job.
-/

namespace DeviceBuilder

open Runs

variable {ok : Label → Prop} {w w' : World} {h h' : Multiset Token} {j : JobId}
  {job : FirmwareJob}

namespace World

/-! ### Listeners -/

theorem dispatchQueuedUpload_sims (configuration : Configuration) :
    Sims Label.basic w h (w.dispatchQueuedUpload configuration) h := by
  unfold dispatchQueuedUpload
  set job : FirmwareJob :=
    { jobId := 0, configuration := configuration, jobType := .upload, port := otaPort }
  refine startCommand_sims (fun _ => id) ?_ (enqueue_plain _ _ true)
  have hnew := createJob_sims (w := w) (h := h) job rfl rfl rfl (by simp [job])
  exact (hnew.trans (note_sims _ rfl)).trans (enqueue_sims true)

theorem setQueuedUpdate_sims {ok : Label → Prop} (configuration : Configuration) (b : Bool) :
    Sims ok w h (w.setQueuedUpdate configuration b) h :=
  .of_eq rfl rfl

/-- **The listeners** of a terminal event. -/
theorem handleTerminal_sims (job : FirmwareJob) : Sims Label.basic w h (w.handleTerminal job) h := by
  have harm : ∀ w : World, Sims Label.basic w h (w.armQueuedUpdateIfFlagged job) h := by
    intro w
    unfold armQueuedUpdateIfFlagged
    split
    · exact setQueuedUpdate_sims _ _
    · exact .refl _ _
  have hdefer : ∀ w : World, Sims Label.basic w h (w.handleDeferredCompileCompletion job) h := by
    intro w
    unfold handleDeferredCompileCompletion
    split
    · exact dispatchQueuedUpload_sims _
    · exact .refl _ _
  unfold handleTerminal
  split
  · refine (harm w).trans ?_
    refine (hdefer _).trans ?_
    unfold handleOtaUploadCompletion
    split
    · exact setQueuedUpdate_sims _ _
    · exact .refl _ _
  · exact harm w
  · exact .refl _ _

theorem revertLocked_sims {ok : Label → Prop} :
    Sims ok w h (w.revertLocked j).1 ((w.revertLocked j).2.tokens + h) := by
  have hnone : Sims ok w h w (0 + h) := by rw [zero_add]; exact .refl w h
  unfold revertLocked
  split
  · exact hnone
  · split
    · exact hnone
    · exact .of_eq (by simp [Task.tokens]) rfl

theorem revertLocked_spawned (w : World) (j : JobId) : (w.revertLocked j).2.IsSpawned := by
  unfold revertLocked
  split
  · trivial
  split <;> trivial

theorem startRevert_sims {ok : Label → Prop} : Sims ok w h (w.startRevert j) h := by
  unfold startRevert
  split
  · exact revertLocked_sims.trans (spawnTask_sims _ _ (revertLocked_spawned w j) rfl)
  · exact spawnTask_sims _ _ (show Task.IsSpawned (.revertLock j) from trivial) (zero_add h).symm

theorem onJobTerminal_sims {ok : Label → Prop} : Sims ok w h (w.onJobTerminal j) h := by
  unfold onJobTerminal
  split
  · exact .refl _ _
  · split
    · exact startRevert_sims
    · exact .refl _ _

/-! ### The end of a job -/

theorem modifyJob_ledger (hj : w.fw.obj j = some job) (f : FirmwareJob → FirmwareJob)
    (g : Multiset Token) : (w.modifyJob j f).ledger g = (w.ledger g).set j (f job) := by
  unfold modifyJob; rw [FirmwareState.modify_of_some hj]; rfl

theorem modifyJob_obj (hj : w.fw.obj j = some job) (f : FirmwareJob → FirmwareJob) :
    (w.modifyJob j f).fw.obj = Function.update w.fw.obj j (some (f job)) := by
  unfold modifyJob; rw [FirmwareState.modify_of_some hj]

theorem jobIsOnALane_releaseLaneSlot (fw : FirmwareState) (j : JobId) :
    (fw.releaseLaneSlot j).jobIsOnALane = Function.update fw.jobIsOnALane j false := by
  funext k
  by_cases hk : k = j
  · subst hk; simp [FirmwareState.jobIsOnALane, FirmwareState.releaseLaneSlot]
  · simp [FirmwareState.jobIsOnALane, FirmwareState.releaseLaneSlot, hk]

/-- `_defer_install_if_target_offline` flags a completed job only for a dependent it holds. -/
theorem deferInstall_cases (hj : w.fw.obj j = some job) :
    w.deferInstallIfTargetOffline j = w ∨
      w.deferInstallIfTargetOffline j = w.modifyJob j ({ · with isDeferredInstall := true }) ∧
        (job.status = .completed → w.fw.dependents j ≠ []) := by
  unfold deferInstallIfTargetOffline
  simp only [hj]
  generalize hb : (!job.isDeferredInstall && _ && w.targetIsOffline job.configuration) = b
  cases b
  · exact .inl rfl
  · refine .inr ⟨rfl, fun hs hn => ?_⟩
    simp [hs, hn] at hb

/-- The rows that depend on `j` are its dependents in the ledger. -/
theorem dependents_map_id (hI : (w.ledger h).Inv) :
    (w.fw.dependents j).map (·.jobId) = (w.ledger h).dependents j := by
  have hrow : ∀ l : List JobId, (∀ k ∈ l, ∃ job, w.fw.obj k = some job ∧ job.jobId = k) →
      ((l.filterMap w.fw.obj).filter (fun d => d.dependsOn = some j)).map (·.jobId) =
        l.filter fun d => ((w.fw.obj d).map (fun job => decide (job.dependsOn = some j))).getD
          false := by
    intro l
    induction l with
    | nil => intro _; rfl
    | cons k l ih =>
      intro hl
      obtain ⟨job, hjob, hid⟩ := hl k List.mem_cons_self
      have ih := ih fun k hk => hl k (List.mem_cons_of_mem _ hk)
      by_cases hd : job.dependsOn = some j <;> simp [hjob, hd, hid, ih]
  refine hrow _ fun k hk => ?_
  obtain ⟨job, hjob⟩ := hI.rows (j := k) hk
  exact ⟨job, hjob, (hI.ids hjob).1⟩

/-- A stamped job has the dependents it had. -/
theorem dependents_modifyJob_ne_nil (hj : w.fw.obj j = some job) {f : FirmwareJob → FirmwareJob}
    (hf : (f job).dependsOn = job.dependsOn) (hne : (w.modifyJob j f).fw.dependents j ≠ []) :
    (w.ledger h).dependents j ≠ [] := by
  obtain ⟨row, hrow⟩ := List.exists_mem_of_ne_nil _ hne
  obtain ⟨hmem, hd⟩ := List.mem_filter.1 hrow
  obtain ⟨k, hk, hobj⟩ := FirmwareState.mem_rows.1 hmem
  have hdep : k ∈ (w.ledger h).dependents j := by
    refine Ledger.mem_dependents.2 ⟨hk, ?_⟩
    rw [modifyJob_obj hj] at hobj
    by_cases hkj : k = j
    · subst hkj
      rw [Function.update_self] at hobj; cases hobj
      exact ⟨job, hj, by simpa [hf] using hd⟩
    · rw [Function.update_of_ne hkj] at hobj
      exact ⟨row, hobj, by simpa using hd⟩
  exact List.ne_nil_of_mem hdep

/-- **How `finalize_terminal` stamps a job.** -/
theorem stampTerminal_ledger (hj : w.fw.obj j = some job) {status : JobStatus}
    (hs : status.isTerminal = true) (error : Option String) :
    ∃ job', (w.stampTerminal j status error).fw.obj j = some job' ∧ job.EndsAs job' ∧
      job'.status = status ∧ (w.ledger h).DefersFor j job job' ∧
      (w.stampTerminal j status error).outer = w.outer ∧
      ∀ g, (w.stampTerminal j status error).ledger g =
        ((w.ledger g).set j job').setActive j false := by
  set job₁ := job.markTerminal status error
  set w₁ := w.modifyJob j (·.markTerminal status error) with hw₁
  have hobj : w₁.fw.obj j = some job₁ := by
    rw [hw₁, modifyJob_obj hj]; exact Function.update_self ..
  have hends : job.EndsAs job₁ := ⟨rfl, by simp [FirmwareJob.isActive, job₁, hs], rfl, rfl, id⟩
  have hslot : ∀ (v : World) g, ({ v with fw := v.fw.releaseLaneSlot j } : World).ledger g =
      (v.ledger g).setActive j false := by
    intro v g
    simp only [ledger, Ledger.setActive, jobIsOnALane_releaseLaneSlot]
    rfl
  unfold stampTerminal
  simp only [hslot]
  -- the job is stamped, and then perhaps deferred
  rcases deferInstall_cases hobj with he | ⟨he, hdep⟩ <;> rw [← hw₁, he]
  · refine ⟨job₁, hobj, hends, rfl, fun hd _ => .inl hd, rfl, fun g => ?_⟩
    rw [hw₁, modifyJob_ledger hj]
  · refine ⟨{ job₁ with isDeferredInstall := true }, ?_, ⟨rfl, hends.2.1, rfl, rfl, fun _ => rfl⟩,
      rfl, fun _ hst => .inr ?_, rfl, fun g => ?_⟩
    · show (w₁.modifyJob j _).fw.obj j = _
      rw [modifyJob_obj hobj]; exact Function.update_self ..
    · exact dependents_modifyJob_ne_nil hj rfl (hdep hst)
    · rw [modifyJob_ledger hobj, hw₁, modifyJob_ledger hj]
      simp [Ledger.set, job₁]

/-- From `w₀`, a move ends `job` with `status`, and owes its dependents their release; the code
that follows runs on `w`, where its counter may be another, and holds `h`. -/
def Ends (ok : Label → Prop) (w₀ : World) (h₀ : Multiset Token) (w : World) (h : Multiset Token)
    (j : JobId) (job : FirmwareJob) (status : JobStatus) : Prop :=
  (w.tasks = w₀.tasks ∧ w.offloader = w₀.offloader) ∧
    (w.losses = w₀.losses ∨ ∃ n, w.losses = Function.update w₀.losses j n ∧
      (n = 0 ∨ status = .failed)) ∧
    ∃ ℓ, ok ℓ ∧ ℓ ≠ .pool ∧ ∀ job', job.EndsAs job' → job'.status = status →
    (w.ledger h).DefersFor j job job' →
      Move ℓ (w₀.ledger h₀) (((w.ledger h).finish j job').withTokens
        (taskTokens w.tasks + (((w.ledger h).set j job').owes j + h)))

/-- The stamp and the fire of a finalisation. -/
theorem finish_sims (hj : w.fw.obj j = some job) {w₀ : World} {h₀ : Multiset Token}
    {status : JobStatus} (hs : status.isTerminal = true) (error : Option String)
    (he : Ends ok w₀ h₀ w h j job status) :
    ∃ job' O v, v = (w.stampTerminal j status error).emit (.jobTerminal job') ∧
      (w.stampTerminal j status error).fw.obj j = some job' ∧ job'.status = status ∧
      job'.identity = job.identity ∧ O = (v.ledger (O + h)).owes j ∧ Sims ok w₀ h₀ v (O + h) := by
  obtain ⟨job', hobj, hends, hst, hdef, htasks, hl⟩ := stampTerminal_ledger (h := h) hj hs error
  obtain ⟨⟨ht, ho⟩, hloss, ℓ, hok, hp, hm⟩ := he
  have hsame : (w.stampTerminal j status error).losses = w.losses := congrArg (·.2.2) htasks
  refine ⟨job', ((w.ledger h).set j job').owes j, _, rfl, hobj, hst, hends.1, ?_,
    .forgets hok hp (fun _ => ?_) (.of_tasks ((congrArg (·.1) htasks).trans ht)
      ((congrArg (·.2.1) htasks).trans ho)) ?_⟩
  · rw [ledger_emit, hl]; rfl
  · have := hm job' hends hst hdef
    rw [ledger_emit, hl]
    exact this
  · refine hloss.imp hsame.trans fun ⟨n, hn, hzero⟩ => ⟨j, n, hsame.trans hn, fun hI => ?_⟩
    rcases hzero with rfl | hfailed
    · exact Ledger.spent_of_ended hI hobj hends.2.1
    · exact Ledger.spent_of_failed hI hobj (hst.trans hfailed) n

theorem dropOwed_sims {d : JobId} (hj : w.fw.obj d = some job) (hs : job.status ≠ .queued) :
    Sims Label.basic w (.owed d ::ₘ h) w h :=
  .plain (fun _ => Move.dropOwed (ledger_tokens_cons ..) hj hs) rfl

/-- What the finaliser of a cancelled dependent does. -/
def Cancels (finalize : World → JobId → Option String → World) (j : JobId) : Prop :=
  ∀ w h d job error, w.fw.obj d = some job → job.status = .queued → job.dependsOn = some j →
    Sims Label.basic w h (finalize w d error) h ∧
      ((w.ledger h).Inv → ∃ job', (finalize w d error).fw.obj d = some job' ∧
        job'.status = .cancelled)

/-- One dependent is released. -/
theorem releaseDependent_sims {finalize : World → JobId → Option String → World}
    (hfin : Cancels finalize j) {prereq : FirmwareJob} (hp : w.fw.obj j = some prereq) {d : JobId}
    (hj : w.fw.obj d = some job) (hd : job.dependsOn = some j) :
    Sims Label.basic w (.owed d ::ₘ h) (releaseDependent finalize prereq w d) h := by
  have hcancel : ∀ error, job.status = .queued →
      Sims Label.basic w (.owed d ::ₘ h) (finalize w d error) h := by
    intro error hs
    refine .of_inv fun hI => ?_
    obtain ⟨hsim, hobj⟩ := hfin w (.owed d ::ₘ h) d job error hj hs hd
    obtain ⟨job', hj', hs'⟩ := hobj hI
    exact hsim.trans (dropOwed_sims hj' (by rw [hs']; simp))
  unfold releaseDependent
  simp only [hj]
  split
  · exact dropOwed_sims hj ‹_›
  · rename_i hs
    have hs : job.status = .queued := not_not.1 hs
    split
    · exact hcancel _ hs
    · rename_i hps
      split
      · exact hcancel _ hs
      · rename_i hpd
        refine .forgets (show Label.basic .plain from trivial) nofun (fun _ => ?_)
          placeOnLane_keeps (.of_lane (placeOnLane_losses hj))
        rw [placeOnLane_ledger hj]
        exact Move.placeOwed (c := w.ledger (.owed d ::ₘ h)) (ledger_tokens_cons ..) hj hd hp
          (not_not.1 hps) (by simpa using hpd) hs

/-- **`release_dependents` pays what is owed.** -/
theorem releaseDependents_sims {finalize : World → JobId → Option String → World}
    (hfin : Cancels finalize j) {prereq : FirmwareJob} (hp : w.fw.obj j = some prereq)
    {D : List JobId} (hD : D = [] ∨ ∃ d, D = [d])
    (hsub : ∀ d ∈ (w.ledger h).dependents j, d ∈ D)
    (hdep : ∀ d ∈ D, ∃ job, w.fw.obj d = some job ∧ job.dependsOn = some j) :
    Sims Label.basic w ((D.map Token.owed : List Token) + h)
      (w.releaseDependentsWith finalize j) h := by
  refine .of_inv fun hI => ?_
  have hrows := dependents_map_id (j := j) hI
  change _ = (w.ledger h).dependents j at hrows
  unfold releaseDependentsWith
  simp only [hp, hrows]
  rcases hD with rfl | ⟨d, rfl⟩
  · have hnil : (w.ledger h).dependents j = [] :=
      List.eq_nil_iff_forall_not_mem.2 fun d hd => by simpa using hsub d hd
    rw [hnil]
    simpa using .refl w h
  · obtain ⟨job, hj, hd⟩ := hdep d (List.mem_singleton_self d)
    have hcons : (([d].map Token.owed : List Token) : Multiset Token) + h = .owed d ::ₘ h := by
      simp
    rw [hcons] at hI ⊢
    by_cases hmem : d ∈ (w.ledger h).dependents j
    · have hone : (w.ledger h).dependents j = [d] := by
        have hle : (w.ledger h).dependents j = [] ∨ ∃ x, (w.ledger h).dependents j = [x] :=
          hI.dependents_le j
        rcases hle with hl | ⟨x, hl⟩ <;> rw [hl] at hmem ⊢
        · cases hmem
        · rw [List.mem_singleton] at hmem; rw [hmem]
      rw [hone]
      exact releaseDependent_sims hfin hp hj hd
    · -- the dependent has left the table, so it is over
      have hnil : (w.ledger h).dependents j = [] := by
        refine List.eq_nil_iff_forall_not_mem.2 fun x hx => ?_
        have := List.mem_singleton.1 (hsub x hx)
        exact hmem (this ▸ hx)
      rw [hnil]
      refine dropOwed_sims hj fun hs => hmem ?_
      have howed : .owed d ∈ (w.ledger (.owed d ::ₘ h)).tokens := by simp [ledger]
      have hrow := hI.owedRow howed job hj (by simp [FirmwareJob.isActive_iff, hs])
      exact Ledger.mem_dependents.2 ⟨hrow, job, hj, hd⟩

/-- The tokens before what is owed, in the order of the ledger. -/
theorem tokens_owed (O : Multiset Token) :
    (w.ledger h).tokens + O = taskTokens w.tasks + (O + h) := by
  simp only [ledger, add_assoc, add_comm h]

theorem ends_of_queued (hj : w.fw.obj j = some job) (hs : job.status = .queued) :
    Ends Label.basic w h w h j job .cancelled := by
  refine ⟨⟨rfl, rfl⟩, .inl rfl, .plain, trivial, nofun, fun job' he hst hdef => ?_⟩
  rw [← tokens_owed]
  exact Move.finishQueued hj hs he hst

/-- A job that depends on another holds none itself. -/
theorem dependents_nil (hI : (w.ledger h).Inv) (hj : w.fw.obj j = some job)
    (hd : job.dependsOn ≠ none) : (w.ledger h).dependents j = [] := by
  refine List.eq_nil_iff_forall_not_mem.2 fun d hmem => hd ?_
  obtain ⟨-, a, ha, hda⟩ := Ledger.mem_dependents.1 hmem
  exact hI.deps.depth ha hda hj

/-- **A finalisation**, from the move that ends the job to its last line. -/
theorem finalizeWith_sims (depth : ℕ) : ∀ {ok : Label → Prop} {w₀ w : World}
    {h₀ h : Multiset Token} {j : JobId} {job : FirmwareJob} {status : JobStatus}
    (error : Option String),
    (∀ ℓ, ℓ.basic → ok ℓ) → w.fw.obj j = some job → status.isTerminal = true →
    (depth = 0 → job.dependsOn ≠ none) → Ends ok w₀ h₀ w h j job status →
    Sims ok w₀ h₀ (finalizeWith depth w j status error) h ∧
      ((w₀.ledger h₀).Inv → ∃ job', (finalizeWith depth w j status error).fw.obj j = some job' ∧
        job'.status = status) := by
  induction depth with
  | zero =>
    intro ok w₀ w h₀ h j job status error hok hj hs hd he
    obtain ⟨job', O, v, hv, hobj, hst, hid, hO, hsim⟩ := finish_sims hj hs error he
    have hfire : finalizeWith 0 w j status error = v.handleTerminal job' := by
      rw [finalizeWith, fireTerminal, hobj, hv]
    have hvobj : v.fw.obj j = some job' := by rw [hv]; exact hobj
    have hact : job'.isActive = false := by simp [FirmwareJob.isActive, hst, hs]
    rw [hfire]
    have hlisten := handleTerminal_sims (w := v) (h := h) job'
    have hzero : (w₀.ledger h₀).Inv → O = 0 := by
      intro hI
      have hnil := dependents_nil (hsim.inv hI) hvobj
        (by rw [Ledger.dependsOn_of_identity hid]; exact hd rfl)
      rw [hO, Ledger.owes, hnil]; rfl
    constructor
    · refine .of_inv fun hI => ?_
      have hsim' : Sims ok w₀ h₀ v h := by rw [hzero hI, zero_add] at hsim; exact hsim
      exact hsim'.trans (hlisten.mono hok)
    · intro hI
      have hsim' : Sims ok w₀ h₀ v h := by rw [hzero hI, zero_add] at hsim; exact hsim
      obtain ⟨b, hb, -, hbs⟩ := Ledger.chain_ended (hsim'.inv hI) (hlisten.chain (hsim'.inv hI))
        hvobj hact
      exact ⟨b, hb, hbs.trans hst⟩
  | succ depth ih =>
    intro ok w₀ w h₀ h j job status error hok hj hs hd he
    obtain ⟨job', O, v, hv, hobj, hst, hid, hO, hsim⟩ := finish_sims hj hs error he
    have hvobj : v.fw.obj j = some job' := by rw [hv]; exact hobj
    have hact : job'.isActive = false := by simp [FirmwareJob.isActive, hst, hs]
    have hcancels : Cancels (fun w dep error => finalizeWith depth w dep .cancelled error) j := by
      intro w h d job error hj hs hd
      exact ih error (fun _ => id) hj rfl (fun _ => by rw [hd]; simp) (ends_of_queued hj hs)
    set v₁ := v.handleTerminal job' with hv₁
    have hlisten : Sims Label.basic v (O + h) v₁ (O + h) := handleTerminal_sims job'
    have hfinal : finalizeWith (depth + 1) w j status error =
        ((v₁.releaseDependentsWith (fun w dep error => finalizeWith depth w dep .cancelled error)
          j).onJobTerminal j).setGate := by
      rw [finalizeWith]
      rw [show (w.stampTerminal j status error).fireTerminal j = v₁ by
        rw [fireTerminal, hobj, hv₁, hv]]
    -- the rest of the finalisation, from the fire on
    have hrest : Sims Label.basic v (O + h) (finalizeWith (depth + 1) w j status error) h := by
      rw [hfinal]
      refine .of_inv fun hI => hlisten.trans ?_
      have hc := hlisten.chain hI
      obtain ⟨b, hb, -⟩ := Ledger.chain_identity hI hc hvobj
      have hpay : Sims Label.basic v₁ (O + h) (v₁.releaseDependentsWith
          (fun w dep error => finalizeWith depth w dep .cancelled error) j) h := by
        rw [hO]
        refine releaseDependents_sims hcancels hb (hI.dependents_le j) ?_ ?_
        · intro d hmem
          exact Ledger.chain_dependents hI hc id hmem
        · intro d hmem
          obtain ⟨-, a, ha, hda⟩ := Ledger.mem_dependents.1 hmem
          obtain ⟨b', hb', hid⟩ := Ledger.chain_identity hI hc ha
          exact ⟨b', hb', by rw [Ledger.dependsOn_of_identity hid]; exact hda⟩
      exact (hpay.trans onJobTerminal_sims).trans (setGate_sims _ _)
    refine ⟨hsim.trans (hrest.mono hok), fun hI => ?_⟩
    obtain ⟨b, hb, -, hbs⟩ := Ledger.chain_ended (hsim.inv hI) (hrest.chain (hsim.inv hI))
      hvobj hact
    exact ⟨b, hb, hbs.trans hst⟩

end World

end DeviceBuilder
