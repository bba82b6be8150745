import DeviceBuilder.Properties.GateStacks
import DeviceBuilder.Queue.Attempts

/-!
# Steps at the build gate

The sections of the tasks, one by one: who falls asleep at the gate is blocked, and
who ends what blocks it wakes it, or still has to.

* `Settled`: what a section leaves in its task's slot.
* `Rested`: nobody asleep is forgotten, and every stack may go on.
* `Rested.step`: every step keeps it, but for a `clear` that takes the last job away that
  blocks a sleeper, and for a reset that is rolled back under one.
-/

namespace DeviceBuilder

open Runs Ledger World

variable {c c' : Ledger} {ℓ : Label} {w w' v : World} {a : Action} {i j k : JobId} {l : LaneId}
  {job other : FirmwareJob} {fs gs : List Frame} {h : Multiset Token}

namespace World

/-! ### Stacks without a reset -/

/-- A stack without a reset goes on, from a mark or from an error. -/
theorem unwind_top (hh : Quiet h) (r : Except Err Unit) (hI : (w.ledger (framesTokens fs + h)).Inv)
    (hfit : ∀ f ∈ fs, w.Fits f) (ht : TopMarked fs) (hn : ∀ j, Frame.resetSweep j ∉ fs)
    (hr : ∀ f ∈ fs, ∀ k, f.Marks k → r = .ok ()) (ha : w.Awake fs) : Good (w.unwind r fs) := by
  cases fs with
  | nil => cases r <;> exact .ends ha rfl
  | cons f fs =>
    have hne : ∀ j, f ≠ .resetSweep j := by
      rintro j rfl
      exact hn j List.mem_cons_self
    have hn' : ∀ j, Frame.resetSweep j ∉ fs := fun j hj => hn j (List.mem_cons_of_mem _ hj)
    have hc := returnTo_calm w r (hfit f List.mem_cons_self) hne
    have hs := returnTo_sims (commandLabels_unprovisioned w) ((quiet_frames fs).add hh) r f
    rw [framesTokens_cons, add_assoc] at hI
    have hI' := hs.inv hI
    have hfit' : ∀ g ∈ fs, (w.returnTo r f).1.Fits g :=
      fun g hg => fits_sims hs hI (hfit g (List.mem_cons_of_mem _ hg))
    have ha' := returnTo_awake hI (hfit f List.mem_cons_self) hne (hr f List.mem_cons_self) (ha.unmark ht)
    unfold unwind
    generalize w.returnTo r f = out at hc hI' hfit' ha' ⊢
    rcases out with ⟨v, gs | _ | e⟩
    · exact .above hc ha' hfit' ht hn'
    · rw [show Outcome.returned.tokens + (framesTokens fs + h) = framesTokens fs + h from zero_add _] at hI'
      exact unwind_free hh _ fs hI' hfit' ht hn' ha'
    · rw [show (Outcome.raised e).tokens + (framesTokens fs + h) = framesTokens fs + h from zero_add _] at hI'
      exact unwind_free hh _ fs hI' hfit' ht hn' ha'

/-! ### A reset -/

/-- `k` blocks the flash `job`. -/
def Blocks (w : World) (k : JobId) (job : FirmwareJob) : Prop := k ∈ w.fw.jobs ∧ ∃ other, w.fw.obj k = some other ∧
  other.isActive = true ∧ FirmwareState.wipes job.flashConfiguration other = true

theorem uploadBlocked_iff : w.fw.uploadBlocked job = true ↔ job.isNetworkFlash = true ∧ ∃ k, w.Blocks k job := by
  rw [blocked_iff]
  refine and_congr_right fun _ => ⟨?_, ?_⟩
  · rintro ⟨k, hk, h⟩
    exact ⟨k, hk, h⟩
  · rintro ⟨k, hk, h⟩
    exact ⟨k, hk, h⟩

/-- A flash that is not cancelled sleeps at the gate, and at most `j` blocks it. -/
def SleepsFor (w : World) (j : JobId) : Prop := ∃ l i job, w.Asleep l i ∧ w.fw.obj i = some job ∧
  job.status ≠ .cancelled ∧ ∀ k, w.Blocks k job → k = j

/-- **A roll-back wakes nobody in vain** if nobody sleeps for the reset alone. -/
theorem RolledBack.awake {r : World × Outcome} (hr : w.RolledBack h j r) (hI : (w.ledger h).Inv)
    (ha : w.Awake fs) (hs : ¬w.SleepsFor j) : r.1.Awake [] := by
  obtain ⟨u, h', e, rfl, hc, hu, hsim⟩ := hr
  intro l i hz
  obtain ⟨b, hb, hgo⟩ := hu l i hz
  refine ⟨b, hb, fun hmay => ?_⟩
  by_cases hmu : u.MayGo b
  · exact hgo hmu
  -- the reset alone blocks the flash now
  have hq := hc ⟨l, i, hz⟩
  obtain ⟨a, ha', -⟩ := ha l i (hq.asleep l i hz)
  obtain ⟨hid, hlt⟩ := hI.ids ha'
  obtain ⟨b', hb', hab, -⟩ := hq.objs i a hlt ha' hid
  obtain rfl : b = b' := Option.some.inj (hb.symm.trans hb')
  obtain ⟨hflash, hconf⟩ := flash_of_identity hab.1
  have hfree : (u.popJob j).fw.uploadBlocked b = false := hmay.resolve_left fun h => hmu (.inl h)
  have hna : a.status ≠ .cancelled := by
    intro hcan
    have hend : a.isActive = false := by simp [FirmwareJob.isActive, hcan, JobStatus.isTerminal]
    obtain ⟨b'', hb'', -, hst⟩ := chain_ended (c := w.ledger h) hI (hsim.chain hI) ha' hend
    obtain rfl : b = b'' := Option.some.inj (hb.symm.trans hb'')
    exact hmu (.inl (hst.trans hcan))
  -- in the world before, another job blocked it
  obtain ⟨k, ⟨hk, other, hok, hact, hwipe⟩, hkj⟩ : ∃ k, w.Blocks k a ∧ k ≠ j := by
    by_contra hno
    push Not at hno
    exact hs ⟨l, i, a, hq.asleep l i hz, ha', hna, hno⟩
  obtain ⟨hoid, holt⟩ := hI.ids hok
  obtain ⟨other', hok', hoo, -, hstay⟩ := hq.objs k other holt hok hoid
  have hwipe' : FirmwareState.wipes b.flashConfiguration other' = true := by
    rw [hconf]
    exact wipes_succeeds hoo hwipe
  rcases hstay ((Bool.and_eq_true _ _).mp hwipe).1 hact hk with ⟨hact', hk'⟩ | ho
  · -- and it does so still
    exfalso
    have hfl : b.isNetworkFlash = true := by
      by_contra hnf
      refine hmu (.inr ?_)
      simp [FirmwareState.uploadBlocked, Bool.eq_false_iff.2 hnf]
    have := (uploadBlocked_iff (w := u.popJob j)).2 ⟨hfl, k, KeyList.mem_drop.2 ⟨hk', hkj⟩, other', hok', hact', hwipe'⟩
    rw [hfree] at this
    cases this
  · exact ⟨k, ho, .inr ⟨other', hok', hwipe'⟩⟩

/-- **A reset starts**: a roll-back takes no job away that was there before. -/
theorem resetBuildEnv_good (hI : (w.ledger h).Inv) (ha : w.Awake []) : Good (w.startFrames .resetBuildEnv) := by
  unfold startFrames
  simp only
  generalize hv : createJob w.disarmAllQueuedUpdates _ = v
  have hcalm : Calm [] w v := by
    rw [← hv]
    have hd : Calm [] w w.disarmAllQueuedUpdates := .of_eq rfl rfl rfl rfl
    exact hd.trans (createJob_calm _ _)
  have hfit : v.Fits (.resetSweep w.fw.fresh) := by
    rw [← hv]
    exact ⟨_, Function.update_self .., rfl⟩
  rw [show w.disarmAllQueuedUpdates.fw.fresh = w.fw.fresh from rfl]
  unfold cancelAllActiveJobs
  generalize v.toCancel [w.fw.fresh] none = js
  have hc := CalmCall.after hcalm (runSweep_calm (.reset w.fw.fresh) js v)
  have hstack := fun fs => @runSweep_frames fs (.reset w.fw.fresh) js v
  have hfit' : (v.runSweep (.reset w.fw.fresh) js).1.Fits (.resetSweep w.fw.fresh) :=
    hfit.keep fun _ _ ha => runSweep_forward _ _ v ha
  generalize v.runSweep (.reset w.fw.fresh) js = r at hc hstack hfit' ⊢
  rcases r with ⟨u, gs | _ | e⟩
  · obtain ⟨cs, rest, hcs, rfl⟩ := hstack gs rfl
    have hu : u.Awake (cs ++ [.sweep rest (.reset w.fw.fresh)]) := Awake.calm hI hc.calm ha.ofNil
    refine ⟨hu.mono fun _ hf => List.mem_append_left _ hf, fun f hf => ?_, hc.top.wait fun _ => id,
      .inr ⟨rest, _, cs, hcs, List.append_assoc ..⟩⟩
    exact (List.mem_append.1 hf).elim (hc.fits f) fun hf => List.mem_singleton.1 hf ▸ hfit'
  · have he := CalmCall.after hc.calm (resetEnqueue_calm hfit')
    exact ⟨Awake.calm hI he.calm ha.ofNil, he.fits, he.top, .inl he.noReset⟩
  · exact .ends (Awake.calm hI (hc.calm.pop (Nat.le_refl _)) ha) rfl

/-! ### Sections -/

/-- What a section leaves in its task's slot: nobody is forgotten, and who falls asleep is blocked,
or is to be woken. -/
structure Settled (r : World × Task) : Prop where
  awake : r.1.Awake r.2.frames
  fits : ∀ f ∈ r.2.frames, r.1.Fits f
  shaped : Shaped r.2.frames
  gate : ∀ l j, r.2 = .laneGate l j false → ∃ job, r.1.fw.obj j = some job ∧
    (r.1.MayGo job → ∃ k, r.1.Owes [] k ∧ r.1.Concerns k j job)

theorem shaped_nil : Shaped [] := ⟨topMarked_short rfl, .inl fun _ => List.not_mem_nil⟩

theorem CalmRun.settled {r : World × Task} (hr : CalmRun w r) (hI : (w.ledger h).Inv) (ha : w.Awake []) : Settled r := by
  refine ⟨?_, ?_, ?_, fun l j he => absurd he (hr.awake l j)⟩
  · rw [hr.frames]
    exact Awake.calm hI hr.calm ha
  · rw [hr.frames]
    exact fun _ hf => absurd hf List.not_mem_nil
  · rw [hr.frames]
    exact shaped_nil

/-- A worker that falls asleep is blocked. -/
theorem settled_asleep (hI : (w.ledger h).Inv) (hc : Calm [] w v) (ha : w.Awake []) (hj : v.fw.obj j = some job)
    (hs : job.status ≠ .cancelled) (hb : v.fw.uploadBlocked job = true) :
    Settled ({ v with fw := { v.fw with buildGate := false } }, .laneGate l j false) where
  awake := Awake.calm hI (hc.trans (.of_eq rfl rfl rfl rfl)) ha
  fits _ hf := absurd hf List.not_mem_nil
  shaped := shaped_nil
  gate l' j' he := by
    cases he
    refine ⟨job, hj, fun hmay => absurd hmay ?_⟩
    rintro (hcan | hfree)
    · exact hs hcan
    · change v.fw.uploadBlocked job = false at hfree
      rw [hb] at hfree
      cases hfree

/-- A command that waits. -/
theorem settled_command (ha : w.Awake fs) (hf : ∀ f ∈ fs, w.Fits f) (hs : Shaped fs) : Settled (w, .command fs) :=
  ⟨ha, hf, hs, by rintro _ _ ⟨⟩⟩

theorem commandTask_settled {r : World × Outcome} (hg : Good r) : Settled (r.1.commandTask r.2) := by
  obtain ⟨ha, hf, hs⟩ := hg
  rcases r with ⟨v, fs | _ | e⟩
  · exact settled_command ha hf hs
  · exact ⟨ha, hf, hs, by rintro _ _ ⟨⟩⟩
  · exact ⟨ha, hf, hs, by rintro _ _ ⟨⟩⟩

/-! ### The commands -/

/-- A reset of the stack `fs` may be rolled back while a flash sleeps for it alone. -/
def ParksReset (w : World) (fs : List Frame) : Prop :=
  ∃ rest j, Resetting fs rest j ∧ ¬w.ResetInSync fs rest ∧ w.SleepsFor j

/-- **A stack goes on.** -/
theorem resumeCommand_settled (hh : Quiet h) (hI : (w.ledger (framesTokens fs + h)).Inv) (hfit : ∀ f ∈ fs, w.Fits f)
    (hsh : Shaped fs) (ha : w.Awake fs) (hp : ¬w.ParksReset fs) {error : Option Err}
    (he : error = none ∨ (∀ j, Frame.resetSweep j ∉ fs) ∧ ∀ f ∈ fs, ∀ k, ¬f.Marks k) :
    Settled (w.resumeCommand fs error) := by
  unfold resumeCommand
  obtain ⟨ht, hn | ⟨rest, j, hres⟩⟩ := hsh
  · refine commandTask_settled (unwind_top hh _ hI hfit ht hn ?_ ha)
    intro f hf k hk
    rcases he with rfl | ⟨-, hm⟩
    · rfl
    · exact absurd hk (hm f hf k)
  · have herr : error = none := by
      refine he.resolve_right fun hno => hno.1 j ?_
      obtain ⟨cs, -, rfl⟩ := hres
      simp
    subst herr
    rcases unwind_resetting hh hres hI hfit ht ha with hg | ⟨hsync, hr⟩
    · exact commandTask_settled hg
    · -- the reset is rolled back
      have haw : (w.unwind (.ok ()) fs).1.Awake [] :=
        hr.awake hI ha fun hs => hp ⟨rest, j, hres, hsync, hs⟩
      obtain ⟨u, h', e, hu, -⟩ := hr
      refine commandTask_settled (r := w.unwind (.ok ()) fs) ?_
      rw [hu] at haw ⊢
      exact .ends haw rfl

/-- A frame that a command of its own can wait in: it marks nothing, and is no part of a reset. -/
theorem Shaped.plain {f : Frame} (hsh : Shaped (f :: fs)) (hc : ¬f.IsCancel) (hs : ∀ rest c, f ≠ .sweep rest c) (j : JobId) :
    Frame.resetSweep j ∉ f :: fs := by
  rcases hsh.2 with hn | ⟨rest, i, cs, hcs, he⟩
  · exact hn j
  · exfalso
    cases cs with
    | nil =>
      cases he
      exact hs _ _ rfl
    | cons g cs =>
      cases he
      exact hc (hcs f List.mem_cons_self)

theorem isCancel_of_marks {f : Frame} (h : f.Marks k) : f.IsCancel := by
  cases f with
  | cancelMarked | cancelReleased => trivial
  | _ => exact h.elim

/-- The top of such a stack is replaced. -/
theorem settled_top {f g : Frame} (hsh : Shaped (f :: fs)) (hc : ¬f.IsCancel) (hs : ∀ rest c, f ≠ .sweep rest c)
    (hg : ¬g.IsCancel) (hgs : ∀ j, g ≠ .resetSweep j) (ha : w.Awake (f :: fs)) :
    Shaped (g :: fs) ∧ (∀ j, Frame.resetSweep j ∉ g :: fs) ∧ (∀ x ∈ g :: fs, ∀ k, ¬x.Marks k) ∧ w.Awake [] := by
  have hn := fun j hj => hsh.plain hc hs j (List.mem_cons_of_mem _ hj)
  have hng : ∀ j, Frame.resetSweep j ∉ g :: fs := by
    intro j hj
    rcases List.mem_cons.1 hj with hj | hj
    · exact hgs j hj.symm
    · exact hn j hj
  refine ⟨⟨hsh.1, .inl hng⟩, hng, fun x hx k hk => ?_, ?_⟩
  · rcases List.mem_cons.1 hx with rfl | hx
    · exact hg (isCancel_of_marks hk)
    · exact hsh.1 x hx k hk
  · exact (ha.unmark hsh.1).unmark_one fun k hk => hc (isCancel_of_marks hk)

/-- **A command resumes** with what its own await gave. -/
theorem resumeFrames_settled (hh : Quiet h) (hI : (w.ledger (framesTokens fs + h)).Inv) (hfit : ∀ f ∈ fs, w.Fits f)
    (hsh : Shaped fs) (ha : w.Awake fs) (hp : ¬w.ParksReset fs) (input : Input) : Settled (w.resumeFrames fs input) := by
  cases fs with
  | nil => exact ⟨ha, hfit, hsh, by rintro _ _ ⟨⟩⟩
  | cons f fs =>
    -- the top frame may have noted an address
    have key : ∀ (g : Frame) (error : Option Err), g.tokens = f.tokens → (∀ x ∈ g :: fs, w.Fits x) → Shaped (g :: fs) →
        w.Awake (g :: fs) → ¬w.ParksReset (g :: fs) →
        (error = none ∨ (∀ j, Frame.resetSweep j ∉ g :: fs) ∧ ∀ x ∈ g :: fs, ∀ k, ¬x.Marks k) →
        Settled (if w.frameReady g then w.resumeCommand (g :: fs) error else (w, .command (g :: fs))) := by
      intro g error hg hfg hsg hag hpg he
      rw [framesTokens_cons, ← hg, ← framesTokens_cons] at hI
      split
      · exact resumeCommand_settled hh hI hfg hsg hag hpg he
      · exact settled_command hag hfg hsg
    unfold resumeFrames
    simp only
    split
    · next configuration newName content resolved address =>
      obtain ⟨hsg, hn, hm, hag⟩ := settled_top (g := .renameAddress configuration newName content (some address))
        hsh id (by simp) id (by simp) ha
      refine key _ _ rfl (fun x hx => ?_) hsg hag.ofNil ?_ (.inr ⟨hn, hm⟩)
      · rcases List.mem_cons.1 hx with rfl | hx
        · trivial
        · exact hfit x (List.mem_cons_of_mem _ hx)
      · rintro ⟨rest, j, ⟨cs, -, he⟩, -⟩
        exact hn j (by rw [he]; simp)
    · refine key _ _ rfl hfit hsh ha hp ?_
      split
      · next configuration newName content reason _ =>
        obtain ⟨-, hn, hm, -⟩ := settled_top (g := .renameRead configuration newName content)
          hsh id (by simp) id (by simp) ha
        exact .inr ⟨hn, hm⟩
      · exact .inl rfl

/-- The executor touches files only, and notes an answer in the top frame. -/
theorem frameIO_settled {f : Frame} (hfit : ∀ x ∈ f :: fs, w.Fits x) (hsh : Shaped (f :: fs)) (ha : w.Awake (f :: fs)) :
    Settled ((w.frameIO f).1, .command ((w.frameIO f).2 :: fs)) := by
  have hlow : ∀ x ∈ fs, w.Fits x := fun x hx => hfit x (List.mem_cons_of_mem _ hx)
  have htop := hfit f List.mem_cons_self
  unfold frameIO
  split
  · next configuration newName =>
    obtain ⟨hsg, -, -, hag⟩ := settled_top (g := .renameExists configuration newName
      (some (w.yamls (newName ++ ".yaml")).isSome)) hsh id (by simp) id (by simp) ha
    exact settled_command hag.ofNil (List.forall_mem_cons.2 ⟨trivial, hlow⟩) hsg
  · next configuration newName =>
    obtain ⟨hsg, -, -, hag⟩ := settled_top (g := .renameRead configuration newName (some (w.yamls configuration)))
      hsh id (by simp) id (by simp) ha
    exact settled_command hag.ofNil (List.forall_mem_cons.2 ⟨trivial, hlow⟩) hsg
  · next head tail content =>
    obtain ⟨hsg, -, -, hag⟩ := settled_top (g := .stageWrite head tail content true) hsh id (by simp) id (by simp) ha
    split
    · exact settled_command hag.ofNil (List.forall_mem_cons.2 ⟨htop, hlow⟩) hsg
    · exact settled_command (Awake.ofNil (w := w) hag) (List.forall_mem_cons.2 ⟨htop, hlow⟩) hsg
  · exact settled_command ha hfit hsh

/-! ### The pool -/

/-- The loop of a pass, over jobs that wipe nothing. -/
theorem dispatchAll_calm {ok : Label → Prop} {offloader : OffloaderState} (hok : DispatchLabels ok v)
    (ho : v.offloader = some offloader) (js : List JobId) (s : World × Bool) (hn : js.Nodup)
    (hI : (s.1.ledger h).Inv) (hu : ∀ j ∈ js, Untouched (s.1.ledger h) j)
    (ht : ∀ j ∈ js, ∀ a, s.1.fw.obj j = some a → a.jobType ∈ remotePoolJobTypes) :
    Calm fs s.1 (js.foldl (dispatchOne offloader) s).1 := by
  induction js generalizing s with
  | nil => exact .refl _
  | cons j js ih =>
    obtain ⟨hj, hn⟩ := List.nodup_cons.1 hn
    obtain ⟨hsim, hkeep⟩ := dispatchOne_sims hok ho s (hu j List.mem_cons_self)
    have hone : Calm fs s.1 (dispatchOne offloader s j).1 := by
      refine dispatchOne_calm offloader s j fun a ha => ?_
      have hty := ht j List.mem_cons_self a ha
      simp only [remotePoolJobTypes, List.mem_cons, List.not_mem_nil, or_false] at hty
      rcases hty with hty | hty <;> simp [FirmwareJob.wipesLocalBuildTree, hty]
    refine hone.trans (ih _ hn (hsim.inv hI) (fun k hk => ?_) fun k hk b hb => ?_)
    · exact hkeep hI k (fun he => hj (he ▸ hk)) (hu k (List.mem_cons_of_mem _ hk))
    · obtain ⟨a, ha, -⟩ := (hu k (List.mem_cons_of_mem _ hk)).1
      obtain ⟨b', hb', hi⟩ := chain_identity (c := s.1.ledger h) hI (hsim.chain hI) ha
      obtain rfl : b = b' := Option.some.inj (hb.symm.trans hb')
      rw [type_of_identity hi]
      exact ht k (List.mem_cons_of_mem _ hk) a ha

theorem dispatchPass_calm {ok : Label → Prop} (hok : DispatchLabels ok w) (hI : (w.ledger h).Inv)
    (hp : ∀ j ∈ w.fw.remoteDispatch.pending, ∀ a, w.fw.obj j = some a → a.jobType ∈ remotePoolJobTypes) :
    CalmRun w w.dispatchPass := by
  unfold dispatchPass
  simp only
  split
  · split <;> exact ⟨flush_calm _ w, by rintro _ _ ⟨⟩, rfl⟩
  · rename_i offloader ho
    have hall : Calm [] w (w.fw.remoteDispatch.pending.foldl (dispatchOne offloader) (w, false)).1 :=
      dispatchAll_calm hok ho _ (w, false) hI.pendingNodup hI (fun j hj => untouched_of_pending hI hj) hp
    split <;> exact ⟨hall, by rintro _ _ ⟨⟩, rfl⟩

theorem dispatchWake_calm {q : Label → Prop} (hok : DispatchLabels q w) (hI : (w.ledger h).Inv)
    (hp : ∀ j ∈ w.fw.remoteDispatch.pending, ∀ a, w.fw.obj j = some a → a.jobType ∈ remotePoolJobTypes) :
    CalmRun w w.dispatchWake := by
  have hmod : Calm [] w (w.modifyPool ({ · with wake := false })) := modifyPool_calm w _
  unfold dispatchWake
  split
  · have hsim : Sims Label.basic w h (w.modifyPool ({ · with wake := false })) h := rearm_sims false
    have hrun := dispatchPass_calm (w := w.modifyPool ({ · with wake := false })) (h := h)
      ⟨hok.basic, hok.pool, hok.toLocal⟩ (hsim.inv hI) hp
    exact ⟨hmod.trans hrun.calm, hrun.awake, hrun.frames⟩
  · exact ⟨.refl w, by rintro _ _ ⟨⟩, rfl⟩

theorem revertLocked_frames (w : World) (j : JobId) : (w.revertLocked j).2.frames = [] := by
  unfold revertLocked
  split
  · rfl
  split <;> rfl

theorem revertLocked_tasks (w : World) (j : JobId) : (w.revertLocked j).1.tasks = w.tasks := by
  unfold revertLocked
  split
  · rfl
  split <;> rfl

/-! ### Tasks -/

theorem resumeTask_settled {t : Task} (hh : Quiet h) (hI : (w.ledger (t.tokens + h)).Inv) (ha : w.Awake t.frames)
    (hfit : ∀ f ∈ t.frames, w.Fits f) (hsh : Shaped t.frames) (hp : ¬w.ParksReset t.frames)
    (hstay : Settled (w, t)) (hpool : ∀ j ∈ w.fw.remoteDispatch.pending, ∀ a, w.fw.obj j = some a →
      a.jobType ∈ remotePoolJobTypes) (input : Input) : Settled (resumeTask input w t) := by
  have hrun : t.frames = [] → ∀ {r : World × Task}, CalmRun w r → Settled r := by
    intro ht r hr
    rw [ht] at ha
    exact hr.settled hI ha
  have hrest : t.frames = [] → ∀ (v : World) (t' : Task), Calm [] w v → t'.frames = [] →
      (∀ l j, t' ≠ .laneGate l j false) → Settled (v, t') := fun ht v t' hc hf hg => hrun ht ⟨hc, hg, hf⟩
  cases t with
  | laneIdle l =>
    rcases laneTake_calm w l with hr | ⟨v, j, hc, -, ⟨job, hj, hs, hb⟩, he⟩
    · exact hrun rfl hr
    · rw [resumeTask, he]
      exact settled_asleep hI hc ha hj hs hb
  | laneGate l j woken =>
    simp only [resumeTask]
    split
    · rcases laneGate_calm w l j with hr | ⟨job, hj, hs, hb, he⟩
      · exact hrun rfl hr
      · rw [he]
        exact settled_asleep hI (.refl w) ha hj hs hb
    · exact hstay
  | laneBegin l j => exact hrun rfl (laneRun_calm w l j input)
  | laneLocal l j pt =>
    simp only [resumeTask]
    split
    · exact hstay
    · exact hrun rfl (localResume_calm w l j pt input)
  | laneRemote l j pt => exact hrun rfl (laneRemote_calm (remoteResume_calm w j false pt input) l j)
  | laneEnd l j dying =>
    simp only [resumeTask]
    split
    · exact hrest rfl _ _ ((laneReturn_calm w l).trans (.of_eq rfl rfl rfl rfl)) rfl (by simp)
    · exact hrest rfl _ _ (laneReturn_calm w l) rfl (by simp)
  | driveBegin j => exact hrun rfl (driveReturn_calm (remoteStart_calm w j input) j)
  | driveRemote j pt => exact hrun rfl (driveReturn_calm (remoteResume_calm w j true pt input) j)
  | dispatchWait =>
    exact hrun rfl (dispatchWake_calm (q := fun _ => True) ⟨fun _ _ => trivial, trivial, fun _ _ => trivial⟩ hI hpool)
  | command fs => exact resumeFrames_settled hh hI hfit hsh ha hp input
  | revertLock j =>
    simp only [resumeTask]
    split
    · exact hstay
    · exact hrest rfl _ _ (revertLocked_calm w j).1 (revertLocked_frames w j) (revertLocked_calm w j).2
  | revertRemove j removed =>
    simp only [resumeTask]
    split
    · exact hrest rfl _ _ (setRenameLock_calm w false) rfl (by simp)
    · exact hstay
  | announcePairing pin =>
    refine hrest rfl _ _ ?_ rfl (by simp)
    unfold firePoolEvents
    split
    · exact modifyPool_calm w _
    · exact .refl w
  | driveEnd j => exact hrest rfl _ _ (.refl w) rfl (by simp)
  | dispatchGrace => exact hrest rfl _ _ (.refl w) rfl (by simp)
  | dispatchPersist => exact hrest rfl _ _ (.refl w) rfl (by simp)
  | revertReload j => exact hrest rfl _ _ (.refl w) rfl (by simp)
  | ended => exact hrest rfl _ _ (.refl w) rfl (by simp)

theorem ioTask_settled {t : Task} (hI : (w.ledger (t.tokens + h)).Inv) (ha : w.Awake t.frames)
    (hfit : ∀ f ∈ t.frames, w.Fits f) (hsh : Shaped t.frames) (hstay : Settled (w, t)) : Settled (w.ioTask t) := by
  have hfiles : ∀ (configuration : Configuration), Calm [] w (w.removeDeviceFiles configuration) :=
    fun _ => .of_eq rfl rfl rfl rfl
  unfold ioTask
  split
  · split
    · exact hstay
    · exact CalmRun.settled ⟨hfiles _, by simp, rfl⟩ hI ha
  · split
    · exact hstay
    · exact CalmRun.settled ⟨hfiles _, by simp, rfl⟩ hI ha
  · exact frameIO_settled hfit hsh ha
  · exact hstay

theorem raiseTask_settled {t : Task} (hh : Quiet h) (hI : (w.ledger (t.tokens + h)).Inv) (ha : w.Awake t.frames)
    (hfit : ∀ f ∈ t.frames, w.Fits f) (hsh : Shaped t.frames) (hstay : Settled (w, t)) (exc : String) :
    Settled (raiseTask exc w t) := by
  have hstop : ∀ v : World, Calm [] v v.queueStops := fun v => .of_eq rfl rfl rfl rfl
  have hrest : t.frames = [] → ∀ (v : World) (t' : Task), Calm [] w v → t'.frames = [] →
      (∀ l j, t' ≠ .laneGate l j false) → Settled (v, t') := by
    intro ht v t' hc hf hg
    rw [ht] at ha
    exact CalmRun.settled ⟨hc, hg, hf⟩ hI ha
  have hfail : ∀ l j, t.frames = [] → Settled ((w.finalizeUnexpectedError j exc).laneFinish l j false) := by
    intro l j ht
    rw [ht] at ha
    exact (laneFinish_calm (finalizeFailed_calm w w j exc) l j false).settled hI ha
  -- an error of the commit of a rename rolls it back
  have hcommand : ∀ (f : Frame) (fs : List Frame), t = .command (f :: fs) → ¬f.IsCancel →
      (∀ rest c, f ≠ .sweep rest c) → (∀ j, f ≠ .resetSweep j) →
      Settled (w.resumeCommand (f :: fs) (some .osError)) := by
    rintro f fs rfl hc hs hr
    obtain ⟨-, hn, hm, -⟩ := settled_top (g := f) hsh hc hs hc hr ha
    refine resumeCommand_settled hh hI hfit hsh ha ?_ (.inr ⟨hn, hm⟩)
    rintro ⟨rest, j, ⟨cs, -, he⟩, -⟩
    exact hn j (by rw [he]; simp)
  cases t with
  | laneBegin l j => exact hrest rfl _ _ ((laneReturn_calm w l).trans (hstop _)) rfl (by simp)
  | laneLocal l j pt =>
    cases pt with
    | swap removed => exact (laneFinish_calm (finalizeTerminal_calm w w j .completed none) l j false).settled hI ha
    | _ => exact hfail l j rfl
  | laneRemote l j pt => exact hfail l j rfl
  | laneEnd l j dying => exact hrest rfl _ _ ((laneReturn_calm w l).trans (hstop _)) rfl (by simp)
  | driveBegin j => exact hrest rfl _ _ (.refl w) rfl (by simp)
  | driveRemote j pt =>
    exact hrest rfl _ _ ((finalizeFailed_calm w w j exc).trans (driveFinish_calm _ j)) rfl (by simp)
  | driveEnd j => exact hrest rfl _ _ (.refl w) rfl (by simp)
  | dispatchPersist => exact hrest rfl _ _ (hstop w) rfl (by simp)
  | command fs =>
    rcases fs with _ | ⟨f, fs⟩
    · exact hstay
    · cases f with
      | stagePersist => exact hcommand _ _ rfl id (by simp) (by simp)
      | stageWrite => exact hcommand _ _ rfl id (by simp) (by simp)
      | _ => exact hstay
  | revertRemove j removed => exact hrest rfl _ _ (setRenameLock_calm w false) rfl (by simp)
  | _ => exact hstay

theorem shutdownTask_settled {t : Task} (hI : (w.ledger (t.tokens + h)).Inv) (ha : w.Awake t.frames)
    (hstay : Settled (w, t)) : Settled (w.shutdownTask t) := by
  have hstop : ∀ v : World, Calm [] v v.queueStops := fun v => .of_eq rfl rfl rfl rfl
  have hrest : t.frames = [] → ∀ (v : World) (t' : Task), Calm [] w v → t'.frames = [] →
      (∀ l j, t' ≠ .laneGate l j false) → Settled (v, t') := by
    intro ht v t' hc hf hg
    rw [ht] at ha
    exact CalmRun.settled ⟨hc, hg, hf⟩ hI ha
  have hlane : ∀ l, t.frames = [] → Settled ((w.laneReturn l).queueStops, .ended) := fun l ht =>
    hrest ht _ _ ((laneReturn_calm w l).trans (hstop _)) rfl (by simp)
  cases t with
  | laneIdle l => exact hrest rfl _ _ (hstop w) rfl (by simp)
  | laneGate l j woken => exact hlane l rfl
  | laneBegin l j => exact hlane l rfl
  | laneLocal l j pt => exact (laneFinish_calm (finalizeCancelled_calm w w j) l j true).settled hI ha
  | laneRemote l j pt => exact (laneFinish_calm (finalizeCancelled_calm w _ j) l j true).settled hI ha
  | laneEnd l j dying => exact hlane l rfl
  | driveBegin j => exact hrest rfl _ _ (.refl w) rfl (by simp)
  | driveRemote j pt => exact hrest rfl _ _ ((finalizeCancelled_calm w w j).trans (driveFinish_calm _ j)) rfl (by simp)
  | driveEnd j => exact hrest rfl _ _ (.refl w) rfl (by simp)
  | dispatchGrace => exact hrest rfl _ _ (hstop w) rfl (by simp)
  | dispatchWait => exact hrest rfl _ _ (hstop w) rfl (by simp)
  | dispatchPersist => exact hrest rfl _ _ (hstop w) rfl (by simp)
  | revertLock j => exact hrest rfl _ _ (.refl w) rfl (by simp)
  | revertReload j => exact hrest rfl _ _ (.refl w) rfl (by simp)
  | revertRemove j removed => exact hrest rfl _ _ (setRenameLock_calm w false) rfl (by simp)
  | command fs => exact hstay
  | announcePairing pin => exact hstay
  | ended => exact hstay

/-! ### Steps -/

/-- **Nobody asleep at the gate is forgotten**, and every stack may go on. -/
structure Rested (w : World) : Prop where
  awake : w.Awake []
  commands : ∀ fs, Task.command fs ∈ w.tasks → (∀ f ∈ fs, w.Fits f) ∧ Shaped fs

/-- The stacks that were there still fit; new ones are plain. -/
theorem stacks_sims {ok : Label → Prop} {h' : Multiset Token} (hs : Sims ok w h w' h') (hI : (w.ledger h).Inv)
    (hw : ∀ fs, Task.command fs ∈ w.tasks → (∀ f ∈ fs, w.Fits f) ∧ Shaped fs) :
    ∀ fs, Task.command fs ∈ w'.tasks → (∀ f ∈ fs, w'.Fits f) ∧ Shaped fs := by
  intro fs hfs
  obtain ⟨n, hn⟩ := List.getElem?_of_mem hfs
  have hk := hs.keeps hI
  cases ht : w.tasks[n]? with
  | none =>
    have hplain : PlainStack fs := hk.spawned n _ hn ht
    exact ⟨fun f hf => fits_of_plain (hplain.1 f hf), hplain.2, .inl fun j hj => hplain.1 _ hj⟩
  | some t =>
    have hold : t = .command fs := by
      rcases hk.slots n t ht with h | h
      · exact Option.some.inj (h.symm.trans hn)
      · have hw := Option.some.inj (h.symm.trans hn)
        cases t with
        | command gs => exact hw
        | _ => cases hw
    obtain ⟨hfit, hsh⟩ := hw fs (List.mem_of_getElem? (hold ▸ ht))
    exact ⟨fun f hf => fits_sims hs hI (hfit f hf), hsh⟩

theorem Rested.calm {ok : Label → Prop} {h' : Multiset Token} (hR : Rested w) (hI : (w.ledger h).Inv)
    (hc : Calm [] w w') (hs : Sims ok w h w' h') : Rested w' :=
  ⟨Awake.calm hI hc hR.awake, stacks_sims hs hI hR.commands⟩

/-- The slot of a running section owes what its task does. -/
theorem Rested.without {t : Task} (hR : Rested w) (hi : w.tasks[i]? = some t) : (w.setTask i .ended).Awake t.frames := by
  intro l j hz
  have hmem : ∀ u : Task, u ∈ w.tasks → u = t ∨ u ∈ (w.setTask i .ended).tasks := by
    intro u hu
    obtain ⟨n, hn⟩ := List.getElem?_of_mem hu
    by_cases he : n = i
    · subst he
      exact .inl (Option.some.inj (hn.symm.trans hi))
    · refine .inr (List.mem_of_getElem? (i := n) ?_)
      rw [setTask, List.getElem?_set_ne (Ne.symm he)]
      exact hn
  have hz' : w.Asleep l j := by
    rcases List.mem_or_eq_of_mem_set hz with h | h
    · exact h
    · cases h
  obtain ⟨job, hj, hgo⟩ := hR.awake l j hz'
  refine ⟨job, hj, fun hmay => ?_⟩
  obtain ⟨k, ho, hk⟩ := hgo hmay
  refine ⟨k, ?_, hk⟩
  rcases ho with ⟨f, hf, -⟩ | ⟨gs, hg, hgk⟩
  · exact absurd hf List.not_mem_nil
  · rcases hmem _ hg with rfl | hg
    · exact .inl hgk
    · exact .inr ⟨gs, hg, hgk⟩

/-- A task that stays where it is. -/
theorem Rested.stay {t : Task} (hR : Rested w) (hi : w.tasks[i]? = some t) : Settled (w.setTask i .ended, t) := by
  have hmem := List.mem_of_getElem? hi
  refine ⟨hR.without hi, ?_, ?_, ?_⟩
  · cases t with
    | command fs => exact (hR.commands fs hmem).1
    | _ => exact fun _ hf => absurd hf List.not_mem_nil
  · cases t with
    | command fs => exact (hR.commands fs hmem).2
    | _ => exact shaped_nil
  · rintro l j rfl
    obtain ⟨job, hj, hgo⟩ := hR.awake l j hmem
    refine ⟨job, hj, fun hmay => ?_⟩
    obtain ⟨k, ho, hk⟩ := hgo hmay
    refine ⟨k, ?_, hk⟩
    rcases ho with ⟨f, hf, -⟩ | ⟨gs, hg, hgk⟩
    · exact absurd hf List.not_mem_nil
    · refine .inr ⟨gs, ?_, hgk⟩
      obtain ⟨n, hn⟩ := List.getElem?_of_mem hg
      have hne : n ≠ i := by
        rintro rfl
        rw [hi] at hn
        cases hn
      refine List.mem_of_getElem? (i := n) ?_
      rw [setTask, List.getElem?_set_ne (Ne.symm hne)]
      exact hn

/-- **A section that settles its task** forgets nobody. -/
theorem Rested.runTask {q : Label → Prop} {section_ : World → Task → World × Task} (hR : Rested w)
    (hI : (w.ledger 0).Inv)
    (hs : ∀ t v, w.tasks[i]? = some t → v = w.setTask i .ended →
      Sims q v (t.tokens + 0) (section_ v t).1 ((section_ v t).2.tokens + 0))
    (hsec : ∀ t v, w.tasks[i]? = some t → v = w.setTask i .ended → (v.ledger (t.tokens + 0)).Inv →
      v.Awake t.frames → Settled (v, t) → Settled (section_ v t)) : Rested (w.runTask i section_) := by
  unfold World.runTask
  cases hi : w.tasks[i]? with
  | none => exact hR
  | some t =>
    have hlt : i < w.tasks.length := (List.getElem?_eq_some_iff.1 hi).1
    have hset : (w.setTask i .ended).ledger (t.tokens + 0) = w.ledger 0 := by
      rw [ledger_setTask hi]
      exact congrArg _ (zero_add 0)
    have hIv : ((w.setTask i .ended).ledger (t.tokens + 0)).Inv := hset ▸ hI
    have hsim := hs t _ hi rfl
    have hdone := hsec t _ hi rfl hIv (hR.without hi) (hR.stay hi)
    have hslot := (hsim.keeps hIv).ended (i := i) (by simp [setTask, hlt])
    have hstacks := stacks_sims hsim hIv fun fs hfs => by
      rcases List.mem_or_eq_of_mem_set hfs with h | h
      · exact hR.commands fs h
      · cases h
    simp only
    generalize section_ (w.setTask i .ended) t = r at hdone hslot hstacks ⊢
    obtain ⟨u, t'⟩ := r
    have hlt' : i < u.tasks.length := (List.getElem?_eq_some_iff.1 hslot).1
    -- the other commands keep their slots
    have hother : ∀ gs, Task.command gs ∈ u.tasks → Task.command gs ∈ (u.setTask i t').tasks := by
      intro gs hg
      obtain ⟨n, hn⟩ := List.getElem?_of_mem hg
      have hne : n ≠ i := by
        rintro rfl
        rw [hslot] at hn
        cases hn
      refine List.mem_of_getElem? (i := n) ?_
      rw [setTask, List.getElem?_set_ne (Ne.symm hne)]
      exact hn
    have howes : ∀ {k}, u.Owes t'.frames k → (u.setTask i t').Owes [] k := by
      rintro k (hm | ⟨gs, hg, hgk⟩)
      · cases t' with
        | command fs => exact .inr ⟨fs, List.mem_set hlt' _, hm⟩
        | _ =>
          obtain ⟨f, hf, -⟩ := hm
          exact absurd hf List.not_mem_nil
      · exact .inr ⟨gs, hother gs hg, hgk⟩
    have hnil : ∀ {k}, u.Owes [] k → u.Owes t'.frames k :=
      fun ho => ho.mono (fun _ hf => absurd hf List.not_mem_nil) fun _ => id
    refine ⟨fun l j hz => ?_, fun fs hfs => ?_⟩
    · obtain ⟨job, hj, hgo⟩ : ∃ job, u.fw.obj j = some job ∧
          (u.MayGo job → ∃ k, u.Owes t'.frames k ∧ u.Concerns k j job) := by
        rcases List.mem_or_eq_of_mem_set hz with h | h
        · exact hdone.awake l j h
        · obtain ⟨job, hj, hgo⟩ := hdone.gate l j h.symm
          refine ⟨job, hj, fun hmay => ?_⟩
          obtain ⟨k, ho, hk⟩ := hgo hmay
          exact ⟨k, hnil ho, hk⟩
      refine ⟨job, hj, fun hmay => ?_⟩
      obtain ⟨k, ho, hk⟩ := hgo hmay
      exact ⟨k, howes ho, hk⟩
    · rcases List.mem_or_eq_of_mem_set hfs with h | h
      · exact hstacks fs h
      · subst h
        exact ⟨hdone.fits, hdone.shaped⟩

/-- **A command that starts well** forgets nobody. -/
theorem Rested.startCommand {ok : Label → Prop} {r : World × Outcome} (hR : Rested w) (hI : (w.ledger 0).Inv)
    (hs : Sims ok w 0 r.1 (r.2.tokens + 0)) (hg : Good r) : Rested (startCommand r) := by
  have hstacks := stacks_sims hs hI hR.commands
  obtain ⟨ha, hf, hsh⟩ := hg
  rcases r with ⟨v, fs | _ | e⟩
  · refine ⟨fun l j hz => ?_, fun gs hgs => ?_⟩
    · have hz' : v.Asleep l j := by
        rcases List.mem_append.1 hz with h | h
        · exact h
        · cases List.mem_singleton.1 h
      obtain ⟨job, hj, hgo⟩ := ha l j hz'
      refine ⟨job, hj, fun hmay => ?_⟩
      obtain ⟨k, ho, hk⟩ := hgo hmay
      refine ⟨k, ?_, hk⟩
      rcases ho with hm | ⟨gs, hg, hgk⟩
      · exact .inr ⟨fs, List.mem_append_right _ (List.mem_singleton.2 rfl), hm⟩
      · exact .inr ⟨gs, List.mem_append_left _ hg, hgk⟩
    · rcases List.mem_append.1 hgs with h | h
      · exact hstacks gs h
      · cases List.mem_singleton.1 h
        exact ⟨hf, hsh⟩
  · exact ⟨ha, hstacks⟩
  · exact ⟨ha, hstacks⟩

/-- `clear` of status `s` takes every job away that a flash asleep at the gate is blocked by. -/
def ParksClear (w : World) (s : JobStatus) : Prop := ∃ l i job, w.Asleep l i ∧ w.fw.obj i = some job ∧
  job.status ≠ .cancelled ∧ w.fw.uploadBlocked job = true ∧
    ∀ k, w.Blocks k job → ∀ other, w.fw.obj k = some other → other.status = s

/-- **Rows that go** leave a row that blocks, if they are not all that does. -/
theorem clear_awake (status : Option JobStatus) (ha : w.Awake []) (hp : ∀ s, status = some s → ¬w.ParksClear s) :
    (w.clear status).Awake [] := by
  intro l i hz
  obtain ⟨job, hj, hgo⟩ := ha l i hz
  refine ⟨job, hj, fun hmay => hgo ?_⟩
  by_contra hno
  have hs : job.status ≠ .cancelled := fun h => hno (.inl h)
  have hb : w.fw.uploadBlocked job = true := by
    by_contra hb
    exact hno (.inr (Bool.eq_false_iff.2 hb))
  have hfree : (w.clear status).fw.uploadBlocked job = false := hmay.resolve_left hs
  obtain ⟨hflash, k, hk, other, hok, hact, hwipe⟩ := uploadBlocked_iff.1 hb
  -- a row that blocks and stays
  have hstays : ∃ k, w.Blocks k job ∧ ∀ other, w.fw.obj k = some other → other.isActive = true →
      k ∈ (w.clear status).fw.jobs := by
    cases status with
    | none =>
      refine ⟨k, ⟨hk, other, hok, hact, hwipe⟩, fun o ho hao => List.mem_filter.2 ⟨hk, ?_⟩⟩
      simp only [ho]
      exact hao
    | some s =>
      by_contra hnone
      refine hp s rfl ⟨l, i, job, hz, hj, hs, hb, fun k hkb other hok => ?_⟩
      by_contra hst
      refine hnone ⟨k, hkb, fun o ho _ => List.mem_filter.2 ⟨hkb.1, ?_⟩⟩
      obtain rfl := Option.some.inj (hok.symm.trans ho)
      simp only [hok]
      exact decide_eq_true hst
  obtain ⟨k, ⟨-, other, hok, hact, hwipe⟩, hin⟩ := hstays
  have := (uploadBlocked_iff (w := w.clear status)).2 ⟨hflash, k, hin other hok hact, other, hok, hact, hwipe⟩
  rw [hfree] at this
  cases this

theorem startFrames_good {c : Command} (hI : (w.ledger h).Inv) (ha : w.Awake [])
    (hp : ∀ s, c = .clear (some s) → ¬w.ParksClear s) : Good (w.startFrames c) := by
  by_cases hr : c = .resetBuildEnv
  · subst hr
    exact resetBuildEnv_good hI ha
  by_cases hc : ∃ s, c = .clear s
  · obtain ⟨s, rfl⟩ := hc
    refine ⟨(clear_awake s ha fun s' hs => hp s' (by rw [hs])).ofNil, fun f hf => ?_, topMarked_short rfl, .inl fun j => ?_⟩
    · rw [List.mem_singleton.1 hf]
      trivial
    · simp [Outcome.frames, startFrames]
  · have hcalm := startFrames_calm w (fun s hs => hc ⟨s, hs⟩) hr
    exact ⟨Awake.calm hI hcalm.calm ha.ofNil, hcalm.fits, hcalm.top, .inl hcalm.noReset⟩

/-- The same tasks, rows and jobs. -/
theorem Rested.congr (hR : Rested w) (ht : w'.tasks = w.tasks) (hn : w'.fw.fresh = w.fw.fresh)
    (hj : w'.fw.jobs = w.fw.jobs) (ho : w'.fw.obj = w.fw.obj) (hI : (w.ledger h).Inv) : Rested w' := by
  refine ⟨Awake.calm hI (.of_eq ht hn hj ho) hR.awake, fun fs hfs => ?_⟩
  rw [ht] at hfs
  obtain ⟨hfit, hsh⟩ := hR.commands fs hfs
  exact ⟨fun f hf => (hfit f hf).keep fun k a ha => ⟨a, by rw [ho]; exact ha, rfl⟩, hsh⟩

/-! ### A restart -/

/-- Neither a worker at the gate nor a command. -/
def Task.IsOther (t : Task) : Prop := t.frames = [] ∧ ∀ l j, t ≠ .laneGate l j false

theorem rested_of_others (h : ∀ t ∈ w.tasks, Task.IsOther t) : Rested w := by
  refine ⟨fun l j hz => absurd rfl ((h _ hz).2 l j), fun fs hfs => ?_⟩
  have hnil : fs = [] := (h _ hfs).1
  subst hnil
  exact ⟨fun _ hf => absurd hf List.not_mem_nil, shaped_nil⟩

theorem placeOnLane_tasks (w : World) (j : JobId) : (w.placeOnLane j).tasks = w.tasks := rfl

theorem onJobTerminal_others (j : JobId) (h : ∀ t ∈ w.tasks, Task.IsOther t) :
    ∀ t ∈ (w.onJobTerminal j).tasks, Task.IsOther t := by
  have hspawn : ∀ (v : World) t', v.tasks = w.tasks → Task.IsOther t' → ∀ t ∈ (v.spawnTask t').tasks, Task.IsOther t := by
    intro v t' hv ht' t ht
    rcases List.mem_append.1 ht with ht | ht
    · exact h t (hv ▸ ht)
    · exact List.mem_singleton.1 ht ▸ ht'
  unfold onJobTerminal
  split
  · exact h
  split
  · unfold startRevert
    split
    · exact hspawn _ _ (revertLocked_tasks w j) ⟨revertLocked_frames w j, (revertLocked_calm w j).2⟩
    · exact hspawn w _ rfl ⟨rfl, by simp⟩
  · exact h

theorem restoreToLane_others (j : JobId) (h : ∀ t ∈ w.tasks, Task.IsOther t) :
    ∀ t ∈ (w.restoreToLane j).tasks, Task.IsOther t := by
  unfold restoreToLane
  split
  · exact h
  split
  · exact h
  split
  · split
    · exact h
    · exact onJobTerminal_others (w := w.modifyJob j _) j h
  · exact onJobTerminal_others (w := w.modifyJob j _) j h

theorem loadJobs_others (rows : List FirmwareJob) (h : ∀ t ∈ w.tasks, Task.IsOther t) :
    ∀ t ∈ (w.loadJobs rows).tasks, Task.IsOther t := by
  have hloop : ∀ (js : List JobId) (v : World), (∀ t ∈ v.tasks, Task.IsOther t) →
      ∀ t ∈ (js.foldl restoreToLane v).tasks, Task.IsOther t := by
    intro js
    induction js with
    | nil => exact fun _ hv => hv
    | cons j js ih => exact fun v hv => ih _ (restoreToLane_others j hv)
  exact hloop _ _ h

theorem rested_restart (w : World) (rows : List FirmwareJob) (devices : Configuration → Option Device)
    (offloader : Option OffloaderState) (uploadWorkers : ℕ) : Rested (w.restart rows devices offloader uploadWorkers) := by
  refine rested_of_others fun t ht => ?_
  rcases List.mem_append.1 ht with ht | ht
  · exact loadJobs_others rows (fun t ht => absurd ht List.not_mem_nil) t ht
  · have hq : ∀ t ∈ queueTasks uploadWorkers, Task.IsOther t := by
      intro t ht
      simp only [queueTasks, List.cons_append, List.mem_cons, List.mem_append, List.mem_replicate, List.not_mem_nil,
        or_false] at ht
      rcases ht with rfl | ⟨-, rfl⟩ | rfl | rfl <;> exact ⟨rfl, by simp⟩
    exact hq t ht

/-! ### Every step -/

theorem setDeviceState_calm (w : World) (configuration : Configuration) (state : DeviceState) :
    Calm [] w (w.setDeviceState configuration state) := by
  unfold setDeviceState
  split
  · exact .refl w
  · next device _ =>
    have hset : Calm [] w { w with
        devices := Function.update w.devices configuration (some { device with state := state }) } :=
      .of_eq rfl rfl rfl rfl
    simp only
    split
    · refine hset.trans ?_
      unfold handleDeviceWake
      split
      · exact .refl _
      split
      · exact .refl _
      · exact dispatchQueuedUpload_calm _ configuration
    · exact hset

theorem Rested.spawn {t : Task} (hR : Rested w) (hI : (w.ledger h).Inv) (ht : Task.IsOther t) : Rested (w.spawnTask t) := by
  refine ⟨Awake.calm hI (spawnTask_calm w ht.2) hR.awake, fun fs hfs => ?_⟩
  rcases List.mem_append.1 hfs with h | h
  · exact hR.commands fs h
  · have hnil : fs = [] := by
      rw [← List.mem_singleton.1 h] at ht
      exact ht.1
    subst hnil
    exact ⟨fun _ hf => absurd hf List.not_mem_nil, shaped_nil⟩

theorem Rested.changeOffloader (hR : Rested w) (hI : (w.ledger h).Inv) (change : OffloaderChange) :
    Rested (w.changeOffloader change) := by
  unfold World.changeOffloader
  split
  · exact hR
  · next o _ =>
    simp only
    generalize hv : firePoolEvents _ _ = v
    have hset : Rested v ∧ (v.ledger h).Inv := by
      rw [← hv]
      unfold firePoolEvents
      split <;> exact ⟨hR.congr rfl rfl rfl rfl hI, hI⟩
    split
    · split
      · exact hset.1.spawn hset.2 ⟨rfl, by simp⟩
      · exact hset.1
    · exact hset.1

end World

/-- The step may leave a flash asleep at the gate that nothing blocks and nobody wakes: `clear` takes
the last job away that blocks it, or a reset that alone blocks it may be rolled back. -/
def Action.Parks (a : Action) (w : World) : Prop :=
  match a with
  | .command (.clear (some s)) => w.ParksClear s
  | .resume i _ => ∃ fs, w.tasks[i]? = some (.command fs) ∧ w.ParksReset fs
  | _ => False

namespace World

theorem Rested.step (hR : Rested w) (hI : (w.ledger 0).Inv) (a : Action) (hp : ¬a.Parks w)
    (hpool : ∀ j ∈ w.fw.remoteDispatch.pending, ∀ a, w.fw.obj j = some a → a.jobType ∈ remotePoolJobTypes) :
    Rested (w.step a) := by
  have hquiet : Quiet 0 := fun d => Multiset.notMem_zero _
  have hbasic : ∀ ℓ, ℓ.basic → a.Allows w ℓ := fun _ => Action.allows_basic
  cases a with
  | resume i input =>
    refine hR.runTask hI (fun t v hi hv => resumeTask_sims hi hquiet hv) fun t v hi hv hIv ha hstay => ?_
    subst hv
    refine resumeTask_settled hquiet hIv ha hstay.fits hstay.shaped ?_ hstay hpool input
    rintro ⟨rest, j, hres, hsync, l, k, job, hz, hjob⟩
    have hz' : w.Asleep l k := by
      rcases List.mem_or_eq_of_mem_set hz with h | h
      · exact h
      · cases h
    cases t with
    | command fs => exact hp ⟨fs, hi, rest, j, hres, hsync, l, k, job, hz', hjob⟩
    | _ =>
      obtain ⟨cs, -, he⟩ := hres
      have hlen := congrArg List.length he
      simp [Task.frames] at hlen
  | io i =>
    exact hR.runTask hI (q := fun _ => True) (fun t v _ _ => ioTask_sims t) fun t v hi hv hIv ha hstay =>
      ioTask_settled hIv ha hstay.fits hstay.shaped hstay
  | raise i exc =>
    refine hR.runTask hI (q := Action.Allows w (.raise i exc)) (fun t v _ hv => ?_) fun t v hi hv hIv ha hstay =>
      raiseTask_settled hquiet hIv ha hstay.fits hstay.shaped hstay exc
    have ho : v.offloader = w.offloader := by rw [hv]; rfl
    exact raiseTask_sims hbasic ⟨i, .inr ⟨exc, rfl⟩⟩ (Action.commandLabels _ ho) hquiet exc t
  | shutdown i =>
    refine hR.runTask hI (q := Action.Allows w (.shutdown i)) (fun t v hi _ => ?_) fun t v hi hv hIv ha hstay =>
      shutdownTask_settled hIv ha hstay
    refine shutdownTask_sims hbasic ⟨i, .inl rfl⟩ t fun l j pt ht => ?_
    exact ⟨i, l, j, pt, rfl, ht ▸ hi⟩
  | command c =>
    have hs := startFrames_sims (w := w) (Action.commandLabels (.command c) rfl) hquiet c
      (fun s hc ha => ⟨s, by rw [hc], ha⟩)
    refine hR.startCommand hI hs (startFrames_good hI hR.awake ?_)
    rintro s rfl
    exact hp
  | device configuration device => exact hR.congr rfl rfl rfl rfl hI
  | deviceState configuration state =>
    exact hR.calm hI (setDeviceState_calm w configuration state) (setDeviceState_sims configuration state)
  | changeOffloader change => exact hR.changeOffloader hI change
  | teardownOffloader => exact hR.congr rfl rfl rfl rfl hI
  | tick => exact hR.congr rfl rfl rfl rfl hI
  | saveBegin =>
    simp only [World.step]
    split
    · exact hR
    · exact hR.congr rfl rfl rfl rfl hI
  | save =>
    simp only [World.step, save]
    split
    · exact hR
    · exact hR.congr rfl rfl rfl rfl hI
  | restart rows devices offloader workers =>
    simp only [World.step]
    split
    · exact rested_restart w rows devices offloader workers
    · exact hR

end World

end DeviceBuilder
