import DeviceBuilder.Queue.RunMoves
import DeviceBuilder.Firmware.RemoteDispatch

/-!
# The pool as moves

The dispatch loop and the drivers of `Firmware.RemoteDispatch`.

* `dispatchPass_sims`: a pass of the matcher.
* `driveReturn_sims`: how a driver ends or re-routes its job.
-/

namespace DeviceBuilder

open Runs

variable {ok : Label → Prop} {w w' : World} {h h' : Multiset Token} {j : JobId}
  {job : FirmwareJob}

namespace World

/-! ### The matcher -/

theorem fallbackToLocal_ledger (hj : w.fw.obj j = some job) :
    (w.fallbackToLocal j).ledger h =
      (w.ledger h).route j (job.applyBuildSource localJobBuildSource) := by
  have hobj : (w.modifyJob j (·.applyBuildSource localJobBuildSource)).fw.obj j =
      some (job.applyBuildSource localJobBuildSource) := by
    rw [modifyJob_obj hj]; exact Function.update_self ..
  unfold fallbackToLocal
  rw [placeOnLane_ledger hobj, modifyJob_ledger hj]
  simp [Ledger.route, Ledger.set]

/-- The local lane has no counters. -/
theorem fallbackToLocal_losses (hj : w.fw.obj j = some job) :
    (w.fallbackToLocal j).losses = w.losses ∨
      (w.fallbackToLocal j).losses = Function.update w.losses j 0 ∧
        j ∈ (w.fallbackToLocal j).fw.laneQueued := by
  have hobj : (w.modifyJob j (·.applyBuildSource localJobBuildSource)).fw.obj j =
      some (job.applyBuildSource localJobBuildSource) := by
    rw [modifyJob_obj hj]; exact Function.update_self ..
  exact placeOnLane_losses hobj

/-- A waiting job goes to the local lane. -/
theorem fallbackToLocal_sims (hj : w.fw.obj j = some job) (hp : j ∈ w.fw.remoteDispatch.pending) :
    Sims (fun ℓ => ℓ = .toLocal job.jobType) w h (w.fallbackToLocal j) h := by
  refine .forgets rfl nofun (fun _ => ?_) (.of_tasks rfl rfl)
    (.of_lane (fallbackToLocal_losses hj))
  rw [fallbackToLocal_ledger hj]
  exact Move.toLocal (c := w.ledger h) hp hj

theorem unpend_sims (hj : w.fw.obj j = some job) (hs : job.status ≠ .queued)
    (hd : .drive j ∉ (w.ledger h).tokens) : Sims Label.basic w h (w.modifyPool (·.drop j)) h :=
  .forgets (show Label.basic .plain from trivial) nofun
    (fun _ => Move.unpend (c := w.ledger h) hj hs) (.of_tasks rfl rfl)
    (.inr ⟨j, 0, rfl, fun _ => ⟨⟨job, hj, fun _ => hs⟩, hd, .inl rfl⟩⟩)

/-- A waiting job that no server can build fails. -/
theorem failNoCompatiblePeer_sims (hj : w.fw.obj j = some job) (hs : job.status = .queued)
    (hp : j ∈ w.fw.remoteDispatch.pending) (message : String) :
    Sims Label.basic w h (w.failNoCompatiblePeer j message) h := by
  set v := w.modifyPool (·.drop j)
  have hends : Ends Label.basic w h v h j job .failed := by
    refine ⟨⟨rfl, rfl⟩, .inr ⟨0, rfl, .inl rfl⟩, .plain, trivial, nofun,
      fun job' he hst hdef => ?_⟩
    rw [← tokens_owed]
    exact Move.failPending (c := w.ledger h) hp hj hs he hst
  have hv : v.fw.obj j = some job := hj
  have hfin := finalizeTerminal_of_ends (fun _ => id) hv rfl (some message) hends
  exact hfin.sims

theorem rearm_sims {ok : Label → Prop} (b : Bool) :
    Sims ok w h (w.modifyPool ({ · with wake := b })) h := .of_eq rfl rfl

/-- What `_dispatch_to_server` does, when the server is still paired. -/
theorem dispatchToServer_ledger (offloader : OffloaderState) {pin : Pin}
    (hj : w.fw.obj j = some job) (hs : job.status = .queued) :
    (w.dispatchToServer offloader j pin).ledger h = w.ledger h ∨
      ∃ source : JobBuildSource, source.source = .remote ∧ source.sourcePin = pin ∧
        (w.dispatchToServer offloader j pin).ledger h =
          ((((w.ledger h).set j (job.applyBuildSource source).markRunning).emit
            (.jobStarted (job.applyBuildSource source).markRunning)).bind j pin).withTokens
              (.drive j ::ₘ (w.ledger h).tokens) := by
  unfold dispatchToServer
  split
  · exact .inl rfl
  · rename_i pairing hfind
    set source := buildSourceForPairing pairing offloader.esphomeVersion
    set v := w.modifyJob j (·.applyBuildSource source)
    have hobj : v.fw.obj j = some (job.applyBuildSource source) := by
      rw [modifyJob_obj hj]; exact Function.update_self ..
    have hdrive : v.driveRemote j = (v.beginRun j).spawnTask (.driveBegin j) := by
      unfold driveRemote
      rw [hobj]
      simp [FirmwareJob.isTerminal, hs, JobStatus.isTerminal]
    have hpin : pairing.pin = pin := by simpa using List.find?_some hfind
    refine .inr ⟨source, rfl, hpin, ?_⟩
    rw [hdrive]
    show (((v.beginRun j).spawnTask (.driveBegin j)).ledger h).bind j pin = _
    rw [ledger_spawnTask, beginRun_ledger hobj, modifyJob_ledger hj]
    show (((((w.ledger (({.drive j} : Multiset Token) + h)).set j _).set j _).emit _).bind j pin) = _
    rw [Multiset.singleton_add]
    simp [ledger]

theorem dispatchToServer_keeps (offloader : OffloaderState) {pin : Pin} :
    Keeps w (w.dispatchToServer offloader j pin) := by
  unfold dispatchToServer
  split
  · exact .of_eq rfl
  · unfold driveRemote
    split
    · exact .of_eq rfl
    · split
      · exact .of_eq rfl
      · refine Keeps.trans ?_ ((spawnTask_keeps _ (t := .driveBegin j) trivial).trans (.of_eq rfl))
        exact .of_eq beginRun_outer

theorem dispatchToServer_losses (offloader : OffloaderState) {pin : Pin} :
    (w.dispatchToServer offloader j pin).losses = w.losses := by
  unfold dispatchToServer
  split
  · rfl
  · unfold driveRemote
    split
    · rfl
    · split
      · rfl
      · exact congrArg (·.2.2) (beginRun_outer (w := w.modifyJob j _))

/-- **A waiting job starts on a server** that drives no other. -/
theorem dispatchToServer_sims (offloader : OffloaderState) {pin : Pin}
    (hj : w.fw.obj j = some job) (hs : job.status = .queued)
    (hp : j ∈ w.fw.remoteDispatch.pending) (hpin : pin ∉ w.fw.remoteDispatch.busyPins) :
    Sims (fun ℓ => ℓ = .pool) w h (w.dispatchToServer offloader j pin) h := by
  refine ⟨fun _ => ?_, fun _ => dispatchToServer_keeps offloader⟩
  unfold account
  rw [dispatchToServer_losses]
  rcases dispatchToServer_ledger (h := h) offloader hj hs with he | ⟨source, hsrc, hsp, he⟩ <;>
    rw [he]
  exact .one rfl (Entry.startDrive (c := w.ledger h) hj hp hs hpin hsrc hsp)

theorem pooledOrGone_congr {c c' : Ledger} {k : JobId} (hobj : c'.obj k = c.obj k)
    (hp : k ∈ c.pending → k ∈ c'.pending) (hk : c.PooledOrGone k) : c'.PooledOrGone k := by
  obtain ⟨job, hj, hq⟩ := hk
  exact ⟨job, hobj.trans hj, fun hs => hp (hq hs)⟩

/-- What a pass knows of a job that it has still to come to. -/
def Untouched (c : Ledger) (k : JobId) : Prop := c.PooledOrGone k ∧ .drive k ∉ c.tokens

theorem untouched_congr {c c' : Ledger} {k : JobId} (hobj : c'.obj k = c.obj k)
    (hp : k ∈ c.pending → k ∈ c'.pending) (ht : .drive k ∈ c'.tokens → .drive k ∈ c.tokens)
    (hk : Untouched c k) : Untouched c' k :=
  ⟨pooledOrGone_congr hobj hp hk.1, fun hd => hk.2 (ht hd)⟩

theorem untouched_chain {c c' : Ledger} {k : JobId} (hI : c.Inv)
    (hc : Chain Move Label.basic c c') (hk : Untouched c k) : Untouched c' k := by
  refine ⟨Ledger.chain_pooledOrGone hI hc id (fun _ => id) (fun _ => id) hk.1, ?_⟩
  refine hc.invariant (I := fun c => .drive k ∉ c.tokens) hk.2 fun ℓ c c' hℓ hm hd h => hd ?_
  exact Ledger.driven_move hm (by rintro rfl; exact hℓ) h

/-- The labels of the dispatch loop: `toLocal` for the job types that it may send to the local
lane. -/
structure DispatchLabels (ok : Label → Prop) (w : World) : Prop where
  basic : ∀ ℓ, ℓ.basic → ok ℓ
  pool : ok .pool
  toLocal : ∀ t, (∀ offloader, w.offloader = some offloader → ∃ busy localBusy,
    pickDispatchTarget { inputsForJobType offloader.snapshot t with
      busyBuildServerPins := busy, localCompileBusy := localBusy } = .local) → ok (.toLocal t)

/-- One decision of the matcher: what else waits still waits, or is over. -/
theorem dispatchOne_sims {offloader : OffloaderState} {v : World} (hok : DispatchLabels ok v)
    (ho : v.offloader = some offloader) (s : World × Bool)
    (hj : Untouched (s.1.ledger h) j) :
    Sims ok s.1 h (dispatchOne offloader s j).1 h ∧
      ((s.1.ledger h).Inv → ∀ k, k ≠ j → Untouched (s.1.ledger h) k →
        Untouched ((dispatchOne offloader s j).1.ledger h) k) := by
  obtain ⟨⟨job, hobj, hq⟩, hundriven⟩ := hj
  change s.1.fw.obj j = some job at hobj
  have quiet : ∀ {v : World}, Sims Label.basic s.1 h v h → Sims ok s.1 h v h ∧
      ((s.1.ledger h).Inv → ∀ k, k ≠ j → Untouched (s.1.ledger h) k →
        Untouched (v.ledger h) k) := by
    intro v hv
    exact ⟨hv.mono hok.basic, fun hI k _ hk => untouched_chain hI (hv.chain hI) hk⟩
  unfold dispatchOne
  simp only [hobj]
  split
  · exact quiet (unpend_sims hobj ‹_› hundriven)
  · rename_i hs
    have hs : job.status = .queued := not_not.1 hs
    have hp : j ∈ s.1.fw.remoteDispatch.pending := hq hs
    split
    · rename_i pin hpick
      obtain ⟨p, -, rfl, -, hbusy⟩ := pickDispatchTarget_remote hpick
      refine ⟨(dispatchToServer_sims offloader hobj hs hp hbusy).mono
        (by rintro _ rfl; exact hok.pool), fun hI k hk => ?_⟩
      change _ → Untouched ((s.1.dispatchToServer offloader j p.pin).ledger h) k
      rcases dispatchToServer_ledger (h := h) offloader hobj hs with he | ⟨source, -, -, he⟩ <;>
        rw [he]
      · exact id
      · exact untouched_congr (by simp [hk]) (by simp [hk]) (by simp [hk])
    · rename_i hpick
      have hlocal : ok (.toLocal job.jobType) := by
        refine hok.toLocal _ fun o ho' => ?_
        rw [ho] at ho'; cases ho'
        exact ⟨_, _, hpick⟩
      refine ⟨(fallbackToLocal_sims hobj hp).mono (by rintro _ rfl; exact hlocal),
        fun hI k hk => ?_⟩
      change _ → Untouched ((s.1.fallbackToLocal j).ledger h) k
      rw [fallbackToLocal_ledger hobj]
      refine untouched_congr (by simp [hk]) ?_ id
      simp only [Ledger.route]
      split <;> simp [hk]
    · exact quiet (failNoCompatiblePeer_sims hobj hs hp _)
    · exact quiet (.refl _ _)

/-- The loop of a pass, over a snapshot of the pool. -/
theorem dispatchAll_sims {offloader : OffloaderState} {v : World} (hok : DispatchLabels ok v)
    (ho : v.offloader = some offloader) (js : List JobId) (s : World × Bool)
    (hn : js.Nodup) (hp : ∀ j ∈ js, Untouched (s.1.ledger h) j) :
    Sims ok s.1 h (js.foldl (dispatchOne offloader) s).1 h := by
  induction js generalizing s with
  | nil => exact .refl _ _
  | cons j js ih =>
    obtain ⟨hj, hn⟩ := List.nodup_cons.1 hn
    obtain ⟨hsim, hkeep⟩ := dispatchOne_sims hok ho s (hp j List.mem_cons_self)
    refine .of_inv fun hI => hsim.trans (ih _ hn fun k hk => ?_)
    exact hkeep hI k (fun he => hj (he ▸ hk)) (hp k (List.mem_cons_of_mem _ hk))

theorem pooledOrGone_of_pending (hI : (w.ledger h).Inv) (hp : j ∈ w.fw.remoteDispatch.pending) :
    (w.ledger h).PooledOrGone j := by
  have hpos : 0 < ((w.ledger h).view j).pending := List.count_pos_iff.2 hp
  have hw := (hI.view j).pending hpos
  simp only [View.Waiting, Ledger.view] at hw
  cases hj : (w.ledger h).obj j with
  | none => simp [hj] at hw
  | some job => exact ⟨job, hj, fun _ => hp⟩

/-- What waits in the pool is driven by no server. -/
theorem untouched_of_pending (hI : (w.ledger h).Inv) (hp : j ∈ w.fw.remoteDispatch.pending) :
    Untouched (w.ledger h) j := by
  refine ⟨pooledOrGone_of_pending hI hp, fun hd => ?_⟩
  have hpos : 0 < ((w.ledger h).view j).pending := List.count_pos_iff.2 hp
  have hnone := (hI.view j).elsewhere.2.2.1 (Multiset.count_pos.2 hd)
  omega

/-- The flush of the pool to the local lane. -/
theorem flush_sims (hok : ∀ t, ok (.toLocal t)) (js : List JobId) (w : World) (hn : js.Nodup)
    (hp : ∀ j ∈ js, j ∈ w.fw.remoteDispatch.pending ∧ ∃ job, w.fw.obj j = some job) :
    Sims ok w h (js.foldl fallbackToLocal w) h := by
  induction js generalizing w with
  | nil => exact .refl _ _
  | cons j js ih =>
    obtain ⟨hj, hn⟩ := List.nodup_cons.1 hn
    obtain ⟨hmem, job, hobj⟩ := hp j List.mem_cons_self
    have hfirst := (fallbackToLocal_sims (h := h) hobj hmem).mono
      (show ∀ ℓ, ℓ = .toLocal job.jobType → ok ℓ by rintro _ rfl; exact hok _)
    refine hfirst.trans (ih _ hn fun k hk => ?_)
    obtain ⟨hkm, a, ha⟩ := hp k (List.mem_cons_of_mem _ hk)
    have hne : k ≠ j := fun he => hj (he ▸ hk)
    have hl := fallbackToLocal_ledger (h := h) hobj
    have hpend : (w.fallbackToLocal j).fw.remoteDispatch.pending =
        ((w.ledger h).route j (job.applyBuildSource localJobBuildSource)).pending :=
      congrArg Ledger.pending hl
    have hobjk : (w.fallbackToLocal j).fw.obj k =
        ((w.ledger h).route j (job.applyBuildSource localJobBuildSource)).obj k :=
      congrFun (congrArg Ledger.obj hl) k
    refine ⟨?_, a, ?_⟩
    · rw [hpend]
      simp only [Ledger.route]
      split <;> simp [hne, ledger, hkm]
    · rw [hobjk]
      simp [hne, ledger, ha]

/-- **A pass of the matcher.** -/
theorem dispatchPass_sims (hok : DispatchLabels ok w) :
    Sims ok w h w.dispatchPass.1 (w.dispatchPass.2.tokens + h) := by
  refine .of_inv fun hI => ?_
  have hn : w.fw.remoteDispatch.pending.Nodup := hI.pendingNodup
  unfold dispatchPass
  dsimp only
  split
  · rename_i ho
    have hflush := flush_sims (h := h) (fun t => hok.toLocal t (by simp [ho])) _ w hn fun j hj => ⟨hj, by
      obtain ⟨job, hobj, -⟩ := pooledOrGone_of_pending hI hj
      exact ⟨job, hobj⟩⟩
    split <;> simpa [Task.tokens] using hflush
  · rename_i offloader ho
    have hall := dispatchAll_sims (h := h) hok ho _ (w, false) hn
      fun j hj => untouched_of_pending hI hj
    split <;> simpa [Task.tokens] using hall

theorem dispatchWake_sims (hok : DispatchLabels ok w) :
    Sims ok w h w.dispatchWake.1 (w.dispatchWake.2.tokens + h) := by
  unfold dispatchWake
  split
  · exact (rearm_sims false).trans (dispatchPass_sims ⟨hok.basic, hok.pool, hok.toLocal⟩)
  · simpa [Task.tokens] using .refl w h

/-! ### The drivers -/

theorem endRun_sims : Sims Label.basic w h (w.endRun j) h := by
  unfold endRun
  split
  · exact pruneHistory_sims
  · exact .refl w h

/-- A job that has ended needs no counter. -/
theorem forgetLosses_sims {ok : Label → Prop} (hok : ∀ ℓ, ℓ.basic → ok ℓ)
    (hj : w.fw.obj j = some job) (ha : job.isActive = false) :
    Sims ok w h (w.modifyPool (·.forgetLosses j)) h :=
  ⟨fun hI => .one (hok .plain trivial) (.forget (Ledger.spent_of_ended hI hj ha)),
    fun _ => .of_tasks rfl rfl⟩

/-- The tail of a driver, after its server is released. -/
theorem driveFinish_of_released {ok : Label → Prop} (hok : ∀ ℓ, ℓ.basic → ok ℓ) {v : World}
    {g : Multiset Token} (hr : Sims ok v g (w.modifyPool (·.release j)) h) :
    Sims ok v g (w.driveFinish j) h := by
  refine hr.trans ?_
  unfold driveFinish
  dsimp only
  split
  · rename_i hterm
    cases hj : w.fw.obj j with
    | none =>
      rw [show (w.modifyPool (·.release j)).fw.obj j = none from hj] at hterm
      cases hterm
    | some job =>
      rw [show (w.modifyPool (·.release j)).fw.obj j = some job from hj] at hterm
      have ha : job.isActive = false := by
        simpa [FirmwareJob.isActive, FirmwareJob.isTerminal] using hterm
      exact (forgetLosses_sims hok (w := w.modifyPool (·.release j)) hj ha).trans
        (endRun_sims.mono hok)
  · exact endRun_sims.mono hok

/-- **The `finally` of `_drive_remote`**, when its job has ended. -/
theorem driveFinish_sims : Sims Label.basic w (.settle j ::ₘ h) (w.driveFinish j) h :=
  driveFinish_of_released (fun _ => id)
    (.plain (fun _ => Move.release (c := w.ledger (.settle j ::ₘ h)) (ledger_tokens_cons ..)) rfl)

theorem driveEnd_sims (hf : Finalizes Label.basic w (.drive j ::ₘ h) w' ({.settle j} + h) j) :
    Sims Label.basic w (.drive j ::ₘ h) (w'.driveFinish j) h := by
  refine hf.sims.trans ?_
  rw [Multiset.singleton_add]
  exact driveFinish_sims

/-- The last loss is counted, and then the job fails. -/
theorem ends_of_loss (hj : w.fw.obj j = some job) :
    Ends Label.basic w (.drive j ::ₘ h) (w.modifyPool (·.recordLoss j)) ({.settle j} + h) j job
      .failed := by
  obtain ⟨hout, -, ℓ, hok, hp, hm⟩ := ends_of_holds (w := w) (h := h) (.drive j) hj .failed
  exact ⟨hout, .inr ⟨_, rfl, .inr rfl⟩, ℓ, hok, hp, hm⟩

/-- **A lost server**: the job goes back to the pool, or fails for good. -/
theorem requeueAfterServerLoss_sims (reason : String) :
    Sims (fun ℓ => ℓ.basic ∨ ℓ = .pool) w (.drive j ::ₘ h)
      ((w.requeueAfterServerLoss j reason).driveFinish j) h := by
  refine .of_inv fun hI => ?_
  obtain ⟨job, hj, -⟩ := obj_of_holds (.drive j) hI
  have hcount : (w.modifyPool (·.recordLoss j)).fw.remoteDispatch.retries j = w.losses j + 1 :=
    Function.update_self ..
  unfold requeueAfterServerLoss
  dsimp only
  split
  · rename_i hmax
    set v := w.modifyPool (·.recordLoss j)
    have hend := finalizeTerminal_of_ends (fun _ => id) (show v.fw.obj j = some job from hj) rfl
      (some ("remote build: server lost mid-build " ++ toString (v.fw.remoteDispatch.retries j) ++
        "x (" ++ reason ++ ")")) (ends_of_loss (h := h) hj)
    rw [Multiset.singleton_add] at hend
    obtain ⟨b, hb, ha⟩ := hend.ended hI
    exact ((hend.sims.trans (forgetLosses_sims (fun _ => id) hb ha)).trans
      driveFinish_sims).mono fun _ => .inl
  · rename_i hmax
    set v := w.modifyPool (·.recordLoss j)
    have hobj : (v.modifyJob j (·.revertToPendingRemote)).fw.obj j =
        some job.revertToPendingRemote := by
      rw [modifyJob_obj (show v.fw.obj j = some job from hj)]; exact Function.update_self ..
    have hl : ((((v.modifyJob j (·.revertToPendingRemote)).placeOnLane j).modifyPool
        (·.release j)).ledger h) = (((w.ledger (.drive j ::ₘ h)).route j
          job.revertToPendingRemote).release j).withTokens (taskTokens w.tasks + h) := by
      show ((((v.modifyJob j (·.revertToPendingRemote)).placeOnLane j).ledger h).release j) = _
      rw [placeOnLane_ledger hobj, modifyJob_ledger (show v.fw.obj j = some job from hj)]
      simp only [Ledger.route, Ledger.set, Ledger.release, Ledger.withTokens, ledger,
        Function.update_idem]
      rfl
    refine driveFinish_of_released (fun _ => .inl) ?_
    refine .entry (r := v.losses) (.inr rfl) (fun _ => ?_)
      (.of_tasks rfl rfl) (.of_lane (placeOnLane_losses hobj))
    rw [hl]
    exact Entry.reroute (c := w.ledger (.drive j ::ₘ h)) (ledger_tokens_cons ..) hj (by omega)

/-- **A server that cannot build it**: the job goes to the local lane. -/
theorem requeueAfterProvisionFailure_sims (hok : ∀ ℓ, ℓ.basic → ok ℓ)
    (hprov : ∀ job, w.fw.obj j = some job → ok (.provision job.jobType)) :
    Sims ok w (.drive j ::ₘ h) ((w.requeueAfterProvisionFailure j).driveFinish j) h := by
  refine .of_inv fun hI => ?_
  obtain ⟨job, hj, -⟩ := obj_of_holds (.drive j) hI
  refine driveFinish_of_released hok ?_
  have hobj : (w.modifyJob j (·.clearRunState)).fw.obj j = some job.clearRunState := by
    rw [modifyJob_obj hj]; exact Function.update_self ..
  refine .forgets (hprov job hj) nofun (fun _ => ?_) (.of_tasks rfl rfl)
    (.of_lane (fallbackToLocal_losses hobj))
  have hm := Move.provision (c := w.ledger (.drive j ::ₘ h)) (ledger_tokens_cons ..) hj
  show Move (.provision job.jobType) _ ((((w.modifyJob j (·.clearRunState)).fallbackToLocal j).ledger h).release j)
  rw [fallbackToLocal_ledger hobj, modifyJob_ledger hj]
  simpa [Ledger.route, Ledger.set, ledger] using hm

/-- **`_drive_remote`** around a section of its run. -/
theorem driveReturn_sims {ok : Label → Prop} (hok : ∀ ℓ, ℓ.basic → ok ℓ) (hpool : ok .pool)
    {r : World × RemoteOutcome} (hr : RemoteRun true w h j (.drive j) {.settle j} r)
    (hprov : ∀ text job, r.2 = .provisionUnavailable text → r.1.fw.obj j = some job →
      ok (.provision job.jobType)) :
    Sims ok w (.drive j ::ₘ h) (driveReturn j r).1 ((driveReturn j r).2.tokens + h) := by
  obtain ⟨hsim, hended, -⟩ := hr
  obtain ⟨v, pt | _ | text | text⟩ := r
  · simpa [driveReturn, RemoteOutcome.holds, Task.tokens] using hsim.mono hok
  · have := driveEnd_sims ⟨hsim, fun hI => hended hI rfl⟩
    simpa [driveReturn, Task.tokens] using this.mono hok
  · simp only [RemoteOutcome.holds, Multiset.singleton_add] at hsim
    have hloss : Sims ok v (.drive j ::ₘ h) ((v.requeueAfterServerLoss j text).driveFinish j) h :=
      (requeueAfterServerLoss_sims text).mono
        (by rintro ℓ (hℓ | rfl); exacts [hok ℓ hℓ, hpool])
    simpa [driveReturn, Task.tokens] using (hsim.mono hok).trans hloss
  · simp only [RemoteOutcome.holds, Multiset.singleton_add] at hsim
    have hfail := requeueAfterProvisionFailure_sims (h := h) hok fun job hj => hprov text job rfl hj
    simpa [driveReturn, Task.tokens] using (hsim.mono hok).trans hfail

end World

end DeviceBuilder
