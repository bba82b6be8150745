import DeviceBuilder.Properties.Running
import DeviceBuilder.Queue.GateMoves

/-!
# Who sleeps at the build gate

A worker that flashes sleeps at the gate while an active job of the table wipes the
tree it reads. Whoever ends such a job sets the gate: the finaliser at its end,
`cancel` at the end of its QUEUED branch, which may come several awaits later.

* `Awake`: a worker asleep at the gate is blocked, or a cancel of its job or of a
  wiping job still has to set the gate.
* `Awake.calm`: calm code keeps it.
* `unwind_resetting`: so does the stack of `reset_build_env`, as long as no job of its
  sweep is out of sync.
-/

namespace DeviceBuilder

open Runs Ledger World

variable {c c' : Ledger} {ℓ : Label} {w w' v : World} {a : Action} {i j k : JobId} {l : LaneId}
  {job other : FirmwareJob} {fs gs : List Frame} {h : Multiset Token}

/-! ### What a flash waits for -/

theorem flash_of_identity {a b : FirmwareJob} (hi : b.identity = a.identity) :
    b.isNetworkFlash = a.isNetworkFlash ∧ b.flashConfiguration = a.flashConfiguration := by
  simp only [FirmwareJob.identity, Prod.mk.injEq] at hi
  obtain ⟨-, hc, ht, hn, hd, -⟩ := hi
  simp [FirmwareJob.isNetworkFlash, FirmwareJob.flashConfiguration, FirmwareJob.isRenameTail,
    FirmwareJob.newFilename, hc, ht, hn, hd]

theorem wipes_succeeds {a b : FirmwareJob} (h : a.Succeeds b) {guarded : Configuration}
    (hw : FirmwareState.wipes guarded a = true) : FirmwareState.wipes guarded b = true := by
  obtain ⟨hi, hb⟩ := h
  have hc : b.configuration = a.configuration := congrArg (·.2.1) hi
  have ht : b.jobType = a.jobType := congrArg (·.2.2.1) hi
  simp only [FirmwareState.wipes, Bool.and_eq_true] at hw ⊢
  rw [hc, ht]
  exact ⟨hb hw.1, hw.2⟩

theorem blocked_iff {fw : FirmwareState} : fw.uploadBlocked job = true ↔ job.isNetworkFlash = true ∧
    ∃ k ∈ fw.jobs, ∃ other, fw.obj k = some other ∧ other.isActive = true ∧
      FirmwareState.wipes job.flashConfiguration other = true := by
  unfold FirmwareState.uploadBlocked
  rw [Bool.and_eq_true, List.any_eq_true]
  refine and_congr Iff.rfl ⟨?_, ?_⟩
  · rintro ⟨other, ho, hw⟩
    obtain ⟨hr, ha⟩ := FirmwareState.mem_activeJobs.1 ho
    obtain ⟨k, hk, hko⟩ := FirmwareState.mem_rows.1 hr
    exact ⟨k, hk, other, hko, ha, hw⟩
  · rintro ⟨k, hk, other, hko, ha, hw⟩
    exact ⟨other, FirmwareState.mem_activeJobs.2 ⟨FirmwareState.mem_rows.2 ⟨k, hk, hko⟩, ha⟩, hw⟩

/-- An error that every sweep swallows. -/
def Err.IsMild (e : Err) : Prop := e = .notFound ∨ e = .invalidArgs

namespace World

/-- The job may go on: it is cancelled, or nothing blocks it. -/
def MayGo (w : World) (job : FirmwareJob) : Prop := job.status = .cancelled ∨ w.fw.uploadBlocked job = false

/-- `k` is the job, or one that wipes the tree it flashes. -/
def Concerns (w : World) (k j : JobId) (job : FirmwareJob) : Prop :=
  k = j ∨ ∃ other, w.fw.obj k = some other ∧ FirmwareState.wipes job.flashConfiguration other = true

/-- **Who sleeps at the gate and may go on is to be woken** by a cancel that concerns its job. -/
def Awake (w : World) (fs : List Frame) : Prop :=
  ∀ l j, w.Asleep l j → ∃ job, w.fw.obj j = some job ∧
    (w.MayGo job → ∃ k, w.Owes fs k ∧ w.Concerns k j job)

theorem Awake.mono (h : w.Awake fs) (hs : ∀ f ∈ fs, f ∈ gs) : w.Awake gs := by
  intro l j hz
  obtain ⟨job, hj, hgo⟩ := h l j hz
  refine ⟨job, hj, fun hm => ?_⟩
  obtain ⟨k, ho, hc⟩ := hgo hm
  exact ⟨k, ho.mono hs fun _ => id, hc⟩

/-- **Calm code keeps the sleepers awake.** -/
theorem Awake.calm (hI : (w.ledger h).Inv) (hc : Calm fs w w') (hw : w.Awake fs) : w'.Awake fs := by
  have hids : ∀ j job, w.fw.obj j = some job → job.jobId = j ∧ j < w.fw.fresh := fun _ _ hj => hI.ids hj
  intro l j hz
  have hq := hc ⟨l, j, hz⟩
  obtain ⟨a, ha, hgo⟩ := hw l j (hq.asleep l j hz)
  obtain ⟨hid, hlt⟩ := hids j a ha
  obtain ⟨b, hb, hab, hcan, -⟩ := hq.objs j a hlt ha hid
  obtain ⟨hflash, hconf⟩ := flash_of_identity hab.1
  -- a cancel that was to wake it still is
  have hlater : ∀ k, w.Owes fs k → w.Concerns k j a → ∃ k, w'.Owes fs k ∧ w'.Concerns k j b := by
    intro k ho hk
    refine ⟨k, ho.mono (fun _ => id) hq.commands, hk.imp_right ?_⟩
    rintro ⟨other, hok, hwipe⟩
    obtain ⟨hoid, holt⟩ := hids k other hok
    obtain ⟨other', hok', hoo, -⟩ := hq.objs k other holt hok hoid
    exact ⟨other', hok', by rw [hconf]; exact wipes_succeeds hoo hwipe⟩
  refine ⟨b, hb, ?_⟩
  rintro (hs | hfree)
  · rcases hcan hs with hs | ho
    · obtain ⟨k, ho, hk⟩ := hgo (.inl hs)
      exact hlater k ho hk
    · exact ⟨j, ho, .inl rfl⟩
  · by_cases hblk : w.fw.uploadBlocked a = true
    · -- what blocked it is blocking still, or is being cancelled
      obtain ⟨hf, k, hk, other, hok, hact, hwipe⟩ := blocked_iff.1 hblk
      obtain ⟨hoid, holt⟩ := hids k other hok
      obtain ⟨other', hok', hoo, -, hstay⟩ := hq.objs k other holt hok hoid
      have hw' : FirmwareState.wipes b.flashConfiguration other' = true := by
        rw [hconf]
        exact wipes_succeeds hoo hwipe
      rcases hstay ((Bool.and_eq_true _ _).mp hwipe).1 hact hk with ⟨hact', hk'⟩ | ho
      · exfalso
        have := blocked_iff.2 ⟨hflash.trans hf, k, hk', other', hok', hact', hw'⟩
        rw [hfree] at this
        cases this
      · exact ⟨k, ho, .inr ⟨other', hok', hw'⟩⟩
    · obtain ⟨k, ho, hk⟩ := hgo (.inr (Bool.eq_false_iff.2 hblk))
      exact hlater k ho hk

/-! ### The end of a cancel -/

/-- A job at the gate waits for no prerequisite. -/
theorem asleep_ready (hI : (w.ledger h).Inv) (hz : w.Asleep l j) {prereq : FirmwareJob} {p : JobId}
    (hj : w.fw.obj j = some job) (hd : job.dependsOn = some p) (hp : w.fw.obj p = some prereq) :
    prereq.isActive = false := by
  by_contra hact
  have hidle := (hI.idle (c := w.ledger h) hj hd hp (Bool.eq_true_of_not_eq_false hact)).1
  have htaken : 0 < ((w.ledger h).view j).taken := by
    obtain ⟨i, hi⟩ := List.getElem?_of_mem hz
    refine Multiset.count_pos.2 (Multiset.mem_add.2 (.inl ?_))
    rw [← tokens_le_of_task hi]
    exact Multiset.mem_add.2 (.inr (Multiset.mem_singleton_self _))
  simp only [View.track] at hidle
  omega

theorem onJobTerminal_obj (w : World) (j : JobId) : (w.onJobTerminal j).fw.obj = w.fw.obj := by
  unfold onJobTerminal
  split
  · rfl
  split
  · unfold startRevert
    split
    · change (w.revertLocked j).1.fw.obj = w.fw.obj
      unfold revertLocked
      split
      · rfl
      split <;> rfl
    · rfl
  · rfl

/-- Where the end of a cancel sets no gate, it cancels the head of a rename. -/
theorem cancelTail_cases (hz : (w.cancelTail k).1.Asleep l j) : ∃ job p, (w.onJobTerminal k).fw.obj k = some job ∧
    job.dependsOn.bind (w.onJobTerminal k).fw.find = some p ∧ job.isRenameTail = true ∧ p.isActive = true ∧
    (w.cancelTail k).1 = ((w.onJobTerminal k).cancelStart p.jobId (.tail k)).1 := by
  unfold cancelTail at hz ⊢
  simp only at hz ⊢
  cases hj : (w.onJobTerminal k).fw.obj k with
  | none =>
    rw [hj] at hz
    exact absurd hz (not_asleep_setGate _ _ _)
  | some job =>
    simp only [hj] at hz ⊢
    cases hp : job.dependsOn.bind (w.onJobTerminal k).fw.find with
    | none =>
      rw [hp] at hz
      exact absurd hz (not_asleep_setGate _ _ _)
    | some p =>
      simp only [hp] at hz ⊢
      by_cases ht : (job.isRenameTail && p.isActive) = true
      · rw [if_pos ht] at hz ⊢
        obtain ⟨htail, hact⟩ := (Bool.and_eq_true _ _).mp ht
        refine ⟨job, p, rfl, hp, htail, hact, ?_⟩
        generalize (w.onJobTerminal k).cancelStart p.jobId (.tail k) = r at hz ⊢
        rcases r with ⟨u, fs | _ | e⟩
        · rfl
        · exact absurd hz (not_asleep_setGate _ _ _)
        · rfl
      · rw [if_neg ht] at hz
        exact absurd hz (not_asleep_setGate _ _ _)

/-- Who is asleep after the end of a cancel does not wait for it: the job is the tail of a rename. -/
theorem cancelTail_drops (hI : (w.ledger h).Inv) (hz : (w.cancelTail k).1.Asleep l j) :
    k ≠ j ∧ ∀ b, (w.cancelTail k).1.fw.obj k = some b → b.wipesLocalBuildTree = false := by
  obtain ⟨job, p, hj, hp, htail, hact, he⟩ := cancelTail_cases hz
  obtain ⟨q, hq, hfind⟩ := Option.bind_eq_some_iff.1 hp
  have hpobj := (FirmwareState.find_some hfind).2
  have hcs := cancelStart_calm (w.onJobTerminal k) p.jobId (.tail k)
  obtain ⟨b, hb, hbi⟩ := cancelStart_forward (w.onJobTerminal k) p.jobId (.tail k) hj
  rw [he] at hz ⊢
  constructor
  · -- asleep after the call is asleep before it
    rintro rfl
    have hz' := (hcs.calm ⟨l, k, hz⟩).asleep l k hz
    have hw := (onJobTerminal_calm w k ⟨l, k, hz'⟩).asleep l k hz'
    rw [onJobTerminal_obj] at hj hpobj
    have := asleep_ready hI hw hj hq hpobj
    rw [hact] at this
    cases this
  · intro b' hb'
    rw [hb] at hb'
    obtain rfl := Option.some.inj hb'
    have ht : job.jobType = .rename := by
      have := (Bool.and_eq_true _ _).mp htail
      exact of_decide_eq_true this.1
    exact wipes_not (.inr ((type_of_identity hbi).trans ht))

/-! ### Jobs in sync -/

/-- Job `k`, if it is in the table and RUNNING, is in a lane slot or in flight. -/
def InSync (w : World) (k : JobId) : Prop := k ∈ w.fw.jobs → ∀ job, w.fw.obj k = some job → job.status = .running →
  w.fw.jobIsOnALane k = true ∨ k ∈ w.fw.remoteDispatch.inFlight

/-- The labels of all but the provision of a remote build. -/
def Unprovisioned (ℓ : Label) : Prop := ∀ t, ℓ ≠ .provision t

theorem basic_unprovisioned (hℓ : ℓ.basic) : Unprovisioned ℓ := by
  rintro t rfl
  exact hℓ

theorem commandLabels_unprovisioned (w : World) : CommandLabels Unprovisioned w where
  basic _ hℓ := basic_unprovisioned hℓ
  chain t h := by cases h
  resolve _ _ _ _ _ _ t h := by cases h

theorem inSync_sims {h' : Multiset Token} (hs : Sims Unprovisioned w h w' h') (hI : (w.ledger h).Inv)
    (hw : w.InSync k) : w'.InSync k := by
  have key : (w'.ledger h').Inv ∧ (k ∈ (w'.ledger h').table → (w'.ledger h').Tracked k) := by
    have h₀ : (w.ledger h).Inv ∧ (k ∈ (w.ledger h).table → (w.ledger h).Tracked k) := ⟨hI, hw⟩
    refine (hs.chain hI).invariant (I := fun c => c.Inv ∧ (k ∈ c.table → c.Tracked k)) h₀ ?_
    rintro ℓ c c' hℓ hm ⟨hI, ht⟩
    refine ⟨hI.move hm, fun hk => tracked_move hm hI ?_ hℓ⟩
    rcases (move_table hI hm).2.1 k hk with hk | ⟨hfresh, -⟩
    · exact ht hk
    · intro job hjob
      exact absurd (hI.ids hjob).2 (Nat.not_lt.2 hfresh)
  exact key.2

theorem cancelStart_raises {cause : CancelCause} {e : Err} (he : (w.cancelStart k cause).2 = .raised e) :
    e.IsMild ∨ e = .stateOutOfSync := by
  unfold cancelStart at he
  simp only at he
  split at he
  · cases he
    exact .inl (.inl rfl)
  split at he
  · cases he
  · split at he
    · cases he
    split at he
    · cases he
      exact .inr rfl
    · split at he <;> cases he
  all_goals
    cases he
    exact .inl (.inr rfl)

/-- A cancel of a job in sync raises nothing that a sweep would not swallow. -/
theorem cancelStart_mild (hk : w.InSync k) {cause : CancelCause} {e : Err}
    (he : (w.cancelStart k cause).2 = .raised e) : e.IsMild := by
  rcases cancelStart_raises he with hm | rfl
  · exact hm
  · exfalso
    by_cases hin : k ∈ w.fw.jobs
    · exact cancelStart_inSync (w := w) (h := 0) (hk hin) cause he
    · have hfind : (w.emit (.cancelCalled k cause)).fw.find k = none := if_neg hin
      unfold cancelStart at he
      simp only [hfind] at he
      cases he

theorem sweepSwallows_mild {cause : CancelCause} {e : Err} (he : e.IsMild) : sweepSwallows cause e = true := by
  rcases he with rfl | rfl <;> rfl

end World

/-- The frame is one of a `cancel`. -/
def Frame.IsCancel : Frame → Prop
  | .cancelMarked _ | .cancelReleased _ | .cancelPrereq | .cancelTerminate => True
  | _ => False

theorem Frame.IsCancel.plain {f : Frame} (h : f.IsCancel) : f.IsPlain := by
  cases f <;> first | exact h.elim | trivial

namespace World

theorem cancelStart_frames (w : World) (k : JobId) (cause : CancelCause) :
    ∀ f ∈ (w.cancelStart k cause).2.frames, f.IsCancel := by
  have hnil : ∀ f ∈ ([] : List Frame), f.IsCancel := fun _ hf => absurd hf List.not_mem_nil
  have hone : ∀ {f : Frame}, f.IsCancel → ∀ g ∈ [f], g.IsCancel := fun h _ hg => List.mem_singleton.1 hg ▸ h
  unfold cancelStart
  simp only
  split
  · exact hnil
  split
  · exact hone trivial
  · split
    · exact hnil
    split
    · exact hnil
    · split
      · exact hone trivial
      · exact hnil
  · exact hnil
  · exact hnil
  · exact hnil

/-- A sweep that is suspended waits for one cancel. -/
theorem runSweep_frames (cause : CancelCause) (js : List JobId) (w : World)
    (hf : (w.runSweep cause js).2 = .suspended fs) :
    ∃ cs rest, (∀ f ∈ cs, f.IsCancel) ∧ fs = cs ++ [.sweep rest cause] := by
  induction js generalizing w with
  | nil => cases hf
  | cons j rest ih =>
    have hframes := cancelStart_frames w j cause
    unfold runSweep at hf
    generalize w.cancelStart j cause = r at hframes hf
    rcases r with ⟨v, gs | _ | e⟩
    · cases hf
      exact ⟨gs, rest, hframes, rfl⟩
    · exact ih v hf
    · simp only at hf
      split at hf
      · exact ih v hf
      · cases hf

/-- **The sweep of jobs in sync** raises nothing. -/
theorem runSweep_inSync (cause : CancelCause) (js : List JobId) (w : World) (h : Multiset Token)
    (hI : (w.ledger ((js.map (Token.sweep · cause) : List Token) + h)).Inv) (hjs : ∀ k ∈ js, w.InSync k) (e : Err) :
    (w.runSweep cause js).2 ≠ .raised e := by
  induction js generalizing w with
  | nil => simp [runSweep]
  | cons j rest ih =>
    have hmild : ∀ e, (w.cancelStart j cause).2 = .raised e → e.IsMild :=
      fun e he => cancelStart_mild (hjs j List.mem_cons_self) he
    set sweeps : Multiset Token := ((rest.map (Token.sweep · cause) : List Token) : Multiset Token) with hsw
    have hcons : (((j :: rest).map (Token.sweep · cause) : List Token) : Multiset Token) + h =
        .sweep j cause ::ₘ (sweeps + h) := by
      rw [List.map_cons, ← Multiset.cons_coe, Multiset.cons_add]
    rw [hcons] at hI
    have hstart : Sims Label.basic w (.sweep j cause ::ₘ (sweeps + h)) (w.cancelStart j cause).1
        ((w.cancelStart j cause).2.tokens + (.sweep j cause ::ₘ (sweeps + h))) :=
      cancelStart_sims cause (.inr (.inr (by simp)))
    have hnext : Sims Label.basic w (.sweep j cause ::ₘ (sweeps + h)) (w.cancelStart j cause).1
        ((w.cancelStart j cause).2.tokens + (sweeps + h)) := by
      refine hstart.trans ?_
      rw [Multiset.add_cons]
      exact endSweep_sims cause _ _
    have hrest : ∀ k ∈ rest, (w.cancelStart j cause).1.InSync k :=
      fun k hk => inSync_sims (hnext.mono fun _ => basic_unprovisioned) hI (hjs k (List.mem_cons_of_mem _ hk))
    have hI' := hnext.inv hI
    unfold runSweep
    generalize w.cancelStart j cause = r at hmild hrest hI' ⊢
    rcases r with ⟨v, fs | _ | e'⟩
    · simp
    · have hz : Outcome.returned.tokens + (sweeps + h) = sweeps + h := zero_add _
      rw [hz] at hI'
      exact ih v hI' hrest
    · have hz : (Outcome.raised e').tokens + (sweeps + h) = sweeps + h := zero_add _
      rw [hz] at hI'
      simp only [sweepSwallows_mild (hmild e' rfl), if_true]
      exact ih v hI' hrest

/-! ### Stacks -/

/-- The stack of a `reset_build_env` that waits for the cancels of its sweep. -/
def Resetting (fs : List Frame) (rest : List JobId) (j : JobId) : Prop :=
  ∃ cs : List Frame, (∀ f ∈ cs, f.IsCancel) ∧ fs = cs ++ [.sweep rest (.reset j), .resetSweep j]

/-- A stack of the commands: a mark is on top, and a reset waits for its sweep. -/
def Shaped (fs : List Frame) : Prop :=
  TopMarked fs ∧ ((∀ j, Frame.resetSweep j ∉ fs) ∨ ∃ rest j, Resetting fs rest j)

/-- What a call that goes on leaves: nobody forgotten, a stack that fits. -/
structure Good (r : World × Outcome) : Prop where
  awake : r.1.Awake r.2.frames
  fits : ∀ f ∈ r.2.frames, r.1.Fits f
  shaped : Shaped r.2.frames

/-- A frame fits as long as its jobs stay the same jobs. -/
theorem Fits.keep {f : Frame} (hf : w.Fits f)
    (hid : ∀ j a, w.fw.obj j = some a → ∃ b, v.fw.obj j = some b ∧ b.identity = a.identity) : v.Fits f := by
  have htype : ∀ {j t}, (∃ a, w.fw.obj j = some a ∧ a.jobType = t) → ∃ b, v.fw.obj j = some b ∧ b.jobType = t := by
    rintro j t ⟨a, ha, hat⟩
    obtain ⟨b, hb, hi⟩ := hid j a ha
    exact ⟨b, hb, (type_of_identity hi).trans hat⟩
  cases f with
  | resetSweep j =>
    obtain ⟨a, ha, hn⟩ := hf
    obtain ⟨b, hb, hi⟩ := hid j a ha
    refine ⟨b, hb, ?_⟩
    simp only [FirmwareJob.identity, Prod.mk.injEq] at hi
    obtain ⟨-, hc, ht, hname, -⟩ := hi
    rw [← hn]
    simp only [namesTouchedByJob, FirmwareJob.newFilename, hc, ht, hname]
  | stageSupersede | stagePersist | stageWrite => exact ⟨htype hf.1, htype hf.2⟩
  | _ => trivial

theorem fits_sims {ok : Label → Prop} {h' : Multiset Token} (hs : Sims ok w h w' h') (hI : (w.ledger h).Inv) {f : Frame}
    (hf : w.Fits f) : w'.Fits f :=
  hf.keep fun _ _ ha => chain_identity (c := w.ledger h) hI (hs.chain hI) ha

/-- Frames that mark nothing owe nothing. -/
theorem Awake.unmark {f : Frame} (ha : w.Awake (f :: fs)) (hm : ∀ g ∈ fs, ∀ k, ¬g.Marks k) : w.Awake [f] := by
  intro l j hz
  obtain ⟨job, hj, hgo⟩ := ha l j hz
  refine ⟨job, hj, fun hmay => ?_⟩
  obtain ⟨k, ho, hk⟩ := hgo hmay
  refine ⟨k, ?_, hk⟩
  rcases ho with ⟨g, hg, hgk⟩ | ho
  · rcases List.mem_cons.1 hg with rfl | hg
    · exact .inl ⟨g, List.mem_singleton.2 rfl, hgk⟩
    · exact absurd hgk (hm g hg k)
  · exact .inr ho

theorem Awake.unmark_one {f : Frame} (ha : w.Awake [f]) (hm : ∀ k, ¬f.Marks k) : w.Awake [] := by
  intro l j hz
  obtain ⟨job, hj, hgo⟩ := ha l j hz
  refine ⟨job, hj, fun hmay => ?_⟩
  obtain ⟨k, ho, hk⟩ := hgo hmay
  refine ⟨k, ?_, hk⟩
  rcases ho with ⟨g, hg, hgk⟩ | ho
  · rw [List.mem_singleton.1 hg] at hgk
    exact absurd hgk (hm k)
  · exact .inr ho

theorem Awake.ofNil (ha : w.Awake []) : w.Awake fs := ha.mono fun _ hf => absurd hf List.not_mem_nil

/-- The end of a cancel settles what it owes. -/
theorem cancelTail_awake (hI : (w.ledger h).Inv) {f : Frame} (hf : ∀ i, f.Marks i → i = k) (ha : w.Awake [f]) :
    (w.cancelTail k).1.Awake (w.cancelTail k).2.frames := by
  have hcalm : Calm (f :: (w.cancelTail k).2.frames) w (w.cancelTail k).1 :=
    (cancelTail_calm w k).calm.mono fun _ hg => List.mem_cons_of_mem _ hg
  have hw := Awake.calm hI hcalm (ha.mono fun _ hg => List.mem_singleton.1 hg ▸ List.mem_cons_self)
  intro l j hz
  obtain ⟨hne, hwipe⟩ := cancelTail_drops hI hz
  obtain ⟨job, hj, hgo⟩ := hw l j hz
  refine ⟨job, hj, fun hmay => ?_⟩
  obtain ⟨i, ho, hi⟩ := hgo hmay
  refine ⟨i, ?_, hi⟩
  rcases ho with ⟨g, hg, hgi⟩ | ho
  · rcases List.mem_cons.1 hg with rfl | hg
    · -- the cancel that has ended: its job is not the sleeper's, and wipes nothing
      exfalso
      obtain rfl := hf i hgi
      rcases hi with rfl | ⟨other, hother, hw⟩
      · exact hne rfl
      · have hno := hwipe other hother
        simp only [FirmwareState.wipes, hno, Bool.false_and] at hw
        cases hw
    · exact .inl ⟨g, hg, hgi⟩
  · exact .inr ho

/-- **A frame goes on**, and the sleepers stay awake. -/
theorem returnTo_awake {r : Except Err Unit} {f : Frame} (hI : (w.ledger (f.tokens + h)).Inv) (hf : w.Fits f)
    (hn : ∀ j, f ≠ .resetSweep j) (hr : ∀ k, f.Marks k → r = .ok ()) (ha : w.Awake [f]) :
    (w.returnTo r f).1.Awake (w.returnTo r f).2.frames := by
  have hplain : (∀ k, ¬f.Marks k) → (w.returnTo r f).1.Awake (w.returnTo r f).2.frames := fun hm =>
    Awake.calm hI (returnTo_calm w r hf hn).calm (ha.unmark_one hm).ofNil
  cases f with
  | cancelMarked k =>
    have hcas : Sims Label.basic w (.fire k ::ₘ h) ((w.fireTerminal k).releaseDependents k) h := cascade_sims
    rw [show Frame.tokens (.cancelMarked k) + h = .fire k ::ₘ h from Multiset.singleton_add ..] at hI
    have hfire : Calm [.cancelMarked k] w ((w.fireTerminal k).releaseDependents k) :=
      Calm.of_nil ((fireTerminal_calm w k).trans (releaseDependents_calm _ k))
    have hv := Awake.calm hI hfire ha
    have hIv := hcas.inv hI
    simp only [returnTo, cancelMarked]
    split
    · -- the second persist of the cancel owes what the first did
      have hp : Calm [.cancelMarked k] ((w.fireTerminal k).releaseDependents k)
          { (w.fireTerminal k).releaseDependents k with
            fw := ((w.fireTerminal k).releaseDependents k).fw.pruneHistory } := prune_calm _
      have hvp := Awake.calm hIv hp hv
      intro l j hz
      obtain ⟨job, hj, hgo⟩ := hvp l j hz
      refine ⟨job, hj, fun hmay => ?_⟩
      obtain ⟨i, ho, hi⟩ := hgo hmay
      refine ⟨i, ho.imp_left ?_, hi⟩
      rintro ⟨g, hg, hgi⟩
      rw [List.mem_singleton.1 hg] at hgi
      exact ⟨.cancelReleased k, List.mem_singleton.2 rfl, hgi⟩
    · exact cancelTail_awake hIv (f := .cancelMarked k) (fun i hi => Eq.symm hi) hv
  | cancelReleased k =>
    rw [hr k rfl]
    exact cancelTail_awake hI (f := .cancelReleased k) (fun i hi => Eq.symm hi) ha
  | _ => exact hplain fun _ => id

/-! ### Unwinding -/

/-- A call is suspended above its callers. -/
theorem Good.above (hc : CalmCall w (v, .suspended gs)) (ha : v.Awake gs) (hfit : ∀ f ∈ fs, v.Fits f)
    (hm : ∀ f ∈ fs, ∀ k, ¬f.Marks k) (hn : ∀ j, Frame.resetSweep j ∉ fs) : Good (v, .suspended (gs ++ fs)) where
  awake := ha.mono fun _ hf => List.mem_append_left _ hf
  fits f hf := by
    rcases List.mem_append.1 hf with hf | hf
    · exact hc.fits f hf
    · exact hfit f hf
  shaped := by
    refine ⟨hc.top.append hm, .inl fun j hj => ?_⟩
    rcases List.mem_append.1 hj with hj | hj
    · exact hc.noReset j hj
    · exact hn j hj

theorem Good.ends (ha : w.Awake []) {r : Outcome} (hr : r.frames = []) : Good (w, r) := by
  refine ⟨?_, ?_, ?_⟩
  · rw [hr]
    exact ha
  · rw [hr]
    exact fun _ hf => absurd hf List.not_mem_nil
  · rw [hr]
    exact ⟨topMarked_short rfl, .inl fun _ => List.not_mem_nil⟩

/-- The callers below a call that ended: none marks a job, none is a reset. -/
theorem unwind_free (hh : Quiet h) (r : Except Err Unit) (fs : List Frame)
    (hI : (w.ledger (framesTokens fs + h)).Inv) (hfit : ∀ f ∈ fs, w.Fits f) (hm : ∀ f ∈ fs, ∀ k, ¬f.Marks k)
    (hn : ∀ j, Frame.resetSweep j ∉ fs) (ha : w.Awake []) : Good (w.unwind r fs) := by
  induction fs generalizing w r with
  | nil => cases r <;> exact .ends ha rfl
  | cons f fs ih =>
    have hne : ∀ j, f ≠ .resetSweep j := by
      rintro j rfl
      exact hn j List.mem_cons_self
    have hc := returnTo_calm w r (hfit f List.mem_cons_self) hne
    have hs := returnTo_sims (commandLabels_unprovisioned w) ((quiet_frames fs).add hh) r f
    rw [framesTokens_cons, add_assoc] at hI
    have hI' := hs.inv hI
    have hfit' : ∀ g ∈ fs, (w.returnTo r f).1.Fits g :=
      fun g hg => fits_sims hs hI (hfit g (List.mem_cons_of_mem _ hg))
    have ha' : (w.returnTo r f).1.Awake (w.returnTo r f).2.frames := Awake.calm hI hc.calm ha.ofNil
    have hm' : ∀ g ∈ fs, ∀ k, ¬g.Marks k := fun g hg => hm g (List.mem_cons_of_mem _ hg)
    have hn' : ∀ j, Frame.resetSweep j ∉ fs := fun j hj => hn j (List.mem_cons_of_mem _ hj)
    unfold unwind
    generalize w.returnTo r f = out at hc hI' hfit' ha' ⊢
    rcases out with ⟨v, gs | _ | e⟩
    · exact .above hc ha' hfit' hm' hn'
    · rw [show Outcome.returned.tokens + (framesTokens fs + h) = framesTokens fs + h from zero_add _] at hI'
      exact ih _ hI' hfit' hm' hn' ha'
    · rw [show (Outcome.raised e).tokens + (framesTokens fs + h) = framesTokens fs + h from zero_add _] at hI'
      exact ih _ hI' hfit' hm' hn' ha'

/-- A result that a sweep goes on from. -/
def Mild (r : Except Err Unit) : Prop := ∀ e, r = .error e → e.IsMild

/-- A reset whose sweep is over is committed. -/
theorem resetEnqueue_calm {j : JobId} (hf : w.Fits (.resetSweep j)) : CalmCall w (w.enqueue j) := by
  obtain ⟨a, ha, hn⟩ := hf
  unfold enqueue commitChain
  simp only [ha]
  have hfree : w.renameLocked a [] = false := by
    unfold renameLocked
    rw [hn]
    simp
  rw [hfree]
  exact commitPlaced_calm w _ _

/-- The roll-back of reset `j`: calm code, and the job leaves the table. -/
def RolledBack (w : World) (h : Multiset Token) (j : JobId) (r : World × Outcome) : Prop :=
  ∃ u h' e, r = (u.popJob j, .raised e) ∧ Calm [] w u ∧ u.Awake [] ∧ Sims Unprovisioned w h u h'

theorem RolledBack.after {r : World × Outcome} {h' : Multiset Token} (hc : Calm [] w v)
    (hs : Sims Unprovisioned w h v h') (hr : v.RolledBack h' j r) : w.RolledBack h j r := by
  obtain ⟨u, h'', e, he, hu, ha, hsu⟩ := hr
  exact ⟨u, h'', e, he, hc.trans hu, ha, hs.trans hsu⟩

/-- **The sweep of a reset goes on**; it is rolled back only if a job of its is out of sync. -/
theorem unwind_sweep (r : Except Err Unit) (rest : List JobId) (j : JobId)
    (hI : (w.ledger (framesTokens [.sweep rest (.reset j), .resetSweep j] + h)).Inv) (hf : w.Fits (.resetSweep j))
    (ha : w.Awake []) :
    Good (w.unwind r [.sweep rest (.reset j), .resetSweep j]) ∨
      ¬(Mild r ∧ ∀ k ∈ rest, w.InSync k) ∧
        w.RolledBack (framesTokens [.sweep rest (.reset j), .resetSweep j] + h) j
          (w.unwind r [.sweep rest (.reset j), .resetSweep j]) := by
  by_cases hsw : ∃ e, r = .error e ∧ sweepSwallows (.reset j) e = false
  · -- the error goes through the sweep
    obtain ⟨e, rfl, he⟩ := hsw
    refine .inr ⟨fun hm => ?_, w, _, e, ?_, .refl w, ha, .refl w _⟩
    · rw [sweepSwallows_mild (hm.1 e rfl)] at he
      cases he
    · simp only [unwind, returnTo, he, Bool.false_eq_true, if_false]
  have hgo : w.returnTo r (.sweep rest (.reset j)) = w.runSweep (.reset j) rest := by
    cases r with
    | ok _ => rfl
    | error e =>
      have he : sweepSwallows (.reset j) e = true := by
        by_contra hne
        exact hsw ⟨e, rfl, Bool.eq_false_iff.2 hne⟩
      simp only [returnTo, he, if_true]
  rw [framesTokens_cons, framesTokens_cons, framesTokens_nil, add_zero, add_assoc] at hI ⊢
  have hc := runSweep_calm (.reset j) rest w
  have hs := runSweep_sims (.reset j) rest w (Frame.tokens (.resetSweep j) + h)
  have hstack := fun fs => @runSweep_frames fs (.reset j) rest w
  have hno := fun hjs => runSweep_inSync (.reset j) rest w _ hI hjs
  have hI' := hs.inv hI
  have hf' := fits_sims hs hI hf
  have ha' : (w.runSweep (.reset j) rest).1.Awake (w.runSweep (.reset j) rest).2.frames :=
    Awake.calm hI hc.calm ha.ofNil
  unfold unwind
  rw [hgo]
  generalize w.runSweep (.reset j) rest = out at hc hs hno hstack hI' hf' ha' ⊢
  rcases out with ⟨v, gs | _ | e⟩
  · obtain ⟨cs, left, hcs, rfl⟩ := hstack gs rfl
    refine .inl ⟨ha'.mono fun _ hg => List.mem_append_left _ hg, fun g hg => ?_, ?_,
      .inr ⟨left, j, cs, hcs, List.append_assoc ..⟩⟩
    · rcases List.mem_append.1 hg with hg | hg
      · exact hc.fits g hg
      · exact List.mem_singleton.1 hg ▸ hf'
    · exact hc.top.wait fun _ => id
  · -- the sweep is over: the reset is committed
    have he := resetEnqueue_calm hf'
    have hsim : Sims Label.basic v (.stage j ::ₘ h) (v.enqueue j).1 ((v.enqueue j).2.tokens + h) := enqueue_sims true
    have hIv : (v.ledger (.stage j ::ₘ h)).Inv := by
      have hz : Outcome.returned.tokens + (Frame.tokens (.resetSweep j) + h) = .stage j ::ₘ h :=
        (zero_add _).trans (Multiset.singleton_add ..)
      rw [hz] at hI'
      exact hI'
    have hav : (v.enqueue j).1.Awake (v.enqueue j).2.frames := Awake.calm hIv he.calm (Awake.ofNil ha')
    refine .inl ?_
    have hret : v.returnTo (.ok ()) (.resetSweep j) = v.enqueue j := rfl
    unfold unwind
    simp only [hret]
    generalize v.enqueue j = out at he hav ⊢
    rcases out with ⟨u, gs | _ | e⟩
    · exact .above he hav (fun _ hg => absurd hg List.not_mem_nil) (fun _ hg => absurd hg List.not_mem_nil)
        fun _ => List.not_mem_nil
    · exact .ends hav rfl
    · exact .ends hav rfl
  · exact .inr ⟨fun hm => hno hm.2 e rfl, v, _, e, rfl, hc.calm, ha', hs.mono fun _ => basic_unprovisioned⟩

/-- Cancels that wait for other cancels: they set the gate, or pass an error on. -/
theorem unwind_cancels {P : World → Prop} {R : Except Err Unit → Prop} (hP : ∀ v, P v → P v.setGate)
    (hR : R (.ok ())) {s : List Frame} {Q : World × Outcome → Prop}
    (hQ : ∀ v r, P v → R r → Q (v.unwind r s)) (cs : List Frame) {r : Except Err Unit} (hr : R r) (hw : P w)
    (hcs : ∀ f ∈ cs, f.IsCancel ∧ ∀ k, ¬f.Marks k) : Q (w.unwind r (cs ++ s)) := by
  induction cs generalizing w r with
  | nil => exact hQ w r hw hr
  | cons f cs ih =>
    have hnext : ∀ {v r'}, R r' → P v → Q (v.unwind r' (cs ++ s)) :=
      fun h' hv => ih h' hv fun g hg => hcs g (List.mem_cons_of_mem _ hg)
    obtain ⟨hf, hm⟩ := hcs f List.mem_cons_self
    cases f with
    | cancelMarked k => exact absurd rfl (hm k)
    | cancelReleased k => exact absurd rfl (hm k)
    | cancelPrereq =>
      cases r with
      | ok _ => exact hnext hR (hP w hw)
      | error e => exact hnext hr hw
    | cancelTerminate =>
      cases r with
      | ok _ => exact hnext hR hw
      | error e => exact hnext hr hw
    | _ => exact hf.elim

/-- Job `k` is the head of a rename whose tail a cancel among `fs` has marked. -/
def Heads (w : World) (fs : List Frame) (k : JobId) : Prop :=
  ∃ t job, Marks fs t ∧ w.fw.obj t = some job ∧ job.dependsOn = some k

theorem isCancel_nil : ∀ f ∈ ([] : List Frame), f.IsCancel := fun _ hf => absurd hf List.not_mem_nil

/-- The end of a cancel suspends cancels only. -/
theorem cancelTail_frames (w : World) (k : JobId) : ∀ f ∈ (w.cancelTail k).2.frames, f.IsCancel := by
  unfold cancelTail
  simp only
  split
  · exact isCancel_nil
  split
  · exact isCancel_nil
  next p _ =>
    split
    · have hframes := cancelStart_frames (w.onJobTerminal k) p.jobId (.tail k)
      generalize (w.onJobTerminal k).cancelStart p.jobId (.tail k) = r at hframes ⊢
      rcases r with ⟨v, fs | _ | e⟩
      · intro f hf
        rcases List.mem_append.1 hf with hf | hf
        · exact hframes f hf
        · rw [List.mem_singleton.1 hf]
          trivial
      · exact isCancel_nil
      · exact isCancel_nil
    · exact isCancel_nil

/-- It cancels the head of a rename, which raises nothing bad if that is in sync. -/
theorem cancelTail_mild (hI : (w.ledger h).Inv)
    (hk : ∀ job p, w.fw.obj k = some job → job.dependsOn = some p → w.InSync p) {e : Err}
    (he : (w.cancelTail k).2 = .raised e) : e.IsMild := by
  have hterm : Sims Label.basic w h (w.onJobTerminal k) h := onJobTerminal_sims
  unfold cancelTail at he
  simp only at he
  split at he
  · cases he
  next job hj =>
    split at he
    · cases he
    next p hp =>
      split at he
      · obtain ⟨q, hq, hfind⟩ := Option.bind_eq_some_iff.1 hp
        have hpq : p.jobId = q := ((hterm.inv hI).ids (FirmwareState.find_some hfind).2).1
        have hsync : (w.onJobTerminal k).InSync p.jobId := by
          rw [hpq]
          rw [onJobTerminal_obj] at hj
          exact inSync_sims (hterm.mono fun _ => basic_unprovisioned) hI (hk job q hj hq)
        have hmild : ∀ e, ((w.onJobTerminal k).cancelStart p.jobId (.tail k)).2 = .raised e → e.IsMild :=
          fun e he => cancelStart_mild hsync he
        generalize (w.onJobTerminal k).cancelStart p.jobId (.tail k) = r at hmild he
        rcases r with ⟨v, fs | _ | e'⟩
        · cases he
        · cases he
        · cases he
          exact hmild _ rfl
      · cases he

/-- A cancel goes on with cancels. -/
theorem returnTo_frames {f : Frame} (hf : f.IsCancel) : ∀ g ∈ (w.returnTo (.ok ()) f).2.frames, g.IsCancel := by
  cases f with
  | cancelMarked k =>
    simp only [returnTo, cancelMarked]
    split
    · intro g hg
      rw [List.mem_singleton.1 hg]
      trivial
    · exact cancelTail_frames _ k
  | cancelReleased k => exact cancelTail_frames w k
  | cancelPrereq => exact isCancel_nil
  | cancelTerminate => exact isCancel_nil
  | _ => exact hf.elim

/-- A cancel goes on to an error that a sweep swallows, if what it cancels is in sync. -/
theorem returnTo_mild {f : Frame} (hf : f.IsCancel) (hI : (w.ledger (f.tokens + h)).Inv)
    (hk : ∀ k, w.Heads [f] k → w.InSync k) {e : Err} (he : (w.returnTo (.ok ()) f).2 = .raised e) : e.IsMild := by
  cases f with
  | cancelMarked k =>
    rw [show Frame.tokens (.cancelMarked k) + h = .fire k ::ₘ h from Multiset.singleton_add ..] at hI
    have hcas : Sims Label.basic w (.fire k ::ₘ h) ((w.fireTerminal k).releaseDependents k) h := cascade_sims
    simp only [returnTo, cancelMarked] at he
    split at he
    · cases he
    · refine cancelTail_mild (hcas.inv hI) (fun job p hj hp => ?_) he
      -- the tail is the job it was when it was marked
      obtain ⟨a, ha, -⟩ := Option.map_eq_some_iff.1 ((hI.view k).fired (Multiset.count_pos.2 (by simp [ledger])))
      obtain ⟨b, hb, hi⟩ := chain_identity (c := w.ledger (.fire k ::ₘ h)) hI (hcas.chain hI) ha
      change ((w.fireTerminal k).releaseDependents k).fw.obj k = some b at hb
      rw [hj] at hb
      cases hb
      simp only [FirmwareJob.identity, Prod.mk.injEq] at hi
      refine inSync_sims (hcas.mono fun _ => basic_unprovisioned) hI
        (hk p ⟨k, a, ⟨_, List.mem_singleton.2 rfl, rfl⟩, ha, ?_⟩)
      rw [← hp]
      exact hi.2.2.2.2.1.symm
  | cancelReleased k =>
    exact cancelTail_mild hI (fun job p hj hp => hk p ⟨k, job, ⟨_, List.mem_singleton.2 rfl, rfl⟩, hj, hp⟩) he
  | cancelPrereq => cases he
  | cancelTerminate => cases he
  | _ => exact hf.elim

/-- Cancels that wait for cancels hold nothing. -/
theorem cancels_tokens {cs : List Frame} (hcs : ∀ f ∈ cs, f.IsCancel ∧ ∀ k, ¬f.Marks k) : framesTokens cs = 0 := by
  induction cs with
  | nil => rfl
  | cons f cs ih =>
    rw [framesTokens_cons, ih fun g hg => hcs g (List.mem_cons_of_mem _ hg), add_zero]
    obtain ⟨hf, hm⟩ := hcs f List.mem_cons_self
    cases f with
    | cancelMarked k => exact absurd rfl (hm k)
    | cancelPrereq | cancelReleased _ | cancelTerminate => rfl
    | _ => exact hf.elim

/-- The jobs that a reset's stack still cancels are in sync. -/
def ResetInSync (w : World) (fs : List Frame) (rest : List JobId) : Prop :=
  ∀ k, k ∈ rest ∨ w.Heads fs k → w.InSync k

theorem awake_setGate (w : World) (fs : List Frame) : w.setGate.Awake fs :=
  fun l j hz => absurd hz (not_asleep_setGate w l j)

/-- **The stack of a reset goes on**; it is rolled back only if a job it cancels is out of sync. -/
theorem unwind_resetting (hh : Quiet h) {rest : List JobId} {j : JobId} (hres : Resetting fs rest j)
    (hI : (w.ledger (framesTokens fs + h)).Inv) (hfit : ∀ f ∈ fs, w.Fits f) (ht : TopMarked fs) (ha : w.Awake fs) :
    Good (w.unwind (.ok ()) fs) ∨
      ¬w.ResetInSync fs rest ∧ w.RolledBack (framesTokens fs + h) j (w.unwind (.ok ()) fs) := by
  obtain ⟨cs, hcs, rfl⟩ := hres
  have hmild : Mild (.ok ()) := by
    intro e he
    cases he
  have hreset : w.Fits (.resetSweep j) := hfit _ (List.mem_append_right _ (by simp))
  set tl : List Frame := [.sweep rest (.reset j), .resetSweep j] with htl
  have htlm : ∀ f ∈ tl, ∀ k, ¬f.Marks k := by
    intro f hf k
    simp only [htl, List.mem_cons, List.not_mem_nil, or_false] at hf
    rcases hf with rfl | rfl <;> exact id
  cases cs with
  | nil =>
    refine (unwind_sweep (.ok ()) rest j hI hreset ?_).imp_right fun h => ⟨fun hs => h.1 ⟨hmild, ?_⟩, h.2⟩
    · exact (ha.unmark fun f hf => htlm f (List.mem_cons_of_mem _ hf)).unmark_one fun _ => id
    · exact fun k hk => hs k (.inl hk)
  | cons c cs =>
    -- the top cancel, then those that wait for it, then the sweep
    have hlow : ∀ f ∈ cs ++ tl, ∀ k, ¬f.Marks k := fun f hf => ht f hf
    have hcs' : ∀ f ∈ cs, f.IsCancel ∧ ∀ k, ¬f.Marks k :=
      fun f hf => ⟨hcs f (List.mem_cons_of_mem _ hf), hlow f (List.mem_append_left _ hf)⟩
    have hcancel := hcs c List.mem_cons_self
    have hne : ∀ i, c ≠ .resetSweep i := by
      rintro i rfl
      exact hcancel
    rw [List.cons_append, framesTokens_cons, framesTokens_append, cancels_tokens hcs', zero_add, add_assoc] at hI ⊢
    have hc := returnTo_calm w (.ok ()) (hfit c (by simp)) hne
    have hs := returnTo_sims (commandLabels_unprovisioned w) ((quiet_frames tl).add hh) (.ok ()) c
    have ha' := returnTo_awake (r := .ok ()) hI (hfit c (by simp)) hne (fun _ _ => rfl) (ha.unmark hlow)
    have hframes := returnTo_frames (w := w) hcancel
    have hcan : w.ResetInSync (c :: (cs ++ tl)) rest → ∀ e, (w.returnTo (.ok ()) c).2 = .raised e → e.IsMild := by
      refine fun hsync e => returnTo_mild hcancel hI fun k hk => hsync k (.inr ?_)
      obtain ⟨t, job, ⟨g, hg, hgt⟩, hjob⟩ := hk
      exact ⟨t, job, ⟨g, List.mem_singleton.1 hg ▸ List.mem_cons_self, hgt⟩, hjob⟩
    have hfit' : ∀ g ∈ cs ++ tl, (w.returnTo (.ok ()) c).1.Fits g :=
      fun g hg => fits_sims hs hI (hfit g (List.mem_cons_of_mem _ hg))
    -- once the top cancel is over, the others end too
    have hgo : ∀ v r, Calm [] w v → v.Awake [] →
        Sims Unprovisioned w (c.tokens + (framesTokens tl + h)) v (framesTokens tl + h) →
        (w.ResetInSync (c :: (cs ++ tl)) rest → Mild r) →
        Good (v.unwind r (cs ++ tl)) ∨ ¬w.ResetInSync (c :: (cs ++ tl)) rest ∧
          w.RolledBack (c.tokens + (framesTokens tl + h)) j (v.unwind r (cs ++ tl)) := by
      intro v r hcv hav hsv hrv
      refine unwind_cancels
        (P := fun v => Calm [] w v ∧ v.Awake [] ∧
          Sims Unprovisioned w (c.tokens + (framesTokens tl + h)) v (framesTokens tl + h))
        (R := fun r => w.ResetInSync (c :: (cs ++ tl)) rest → Mild r) ?_ (fun _ => hmild) (s := tl)
        (Q := fun r => Good r ∨ ¬w.ResetInSync (c :: (cs ++ tl)) rest ∧
          w.RolledBack (c.tokens + (framesTokens tl + h)) j r) ?_ cs hrv ⟨hcv, hav, hsv⟩ hcs'
      · rintro u ⟨-, -, hsu⟩
        exact ⟨calm_setGate w u, awake_setGate u [], hsu.trans (setGate_sims _ _)⟩
      · rintro u r ⟨hcu, hau, hsu⟩ hr
        refine (unwind_sweep r rest j (hsu.inv hI) (fits_sims hsu hI hreset) hau).imp_right fun h' => ⟨fun hs => ?_, ?_⟩
        · exact h'.1 ⟨hr hs, fun k hk => inSync_sims hsu hI (hs k (.inl hk))⟩
        · exact h'.2.after hcu hsu
    unfold unwind
    generalize w.returnTo (.ok ()) c = out at hc hs hfit' ha' hframes hcan ⊢
    rcases out with ⟨v, gs | _ | e⟩
    · refine .inl ⟨ha'.mono fun _ hf => List.mem_append_left _ hf, fun f hf => ?_, hc.top.append hlow,
        .inr ⟨rest, j, gs ++ cs, fun f hf => ?_, (List.append_assoc ..).symm⟩⟩
      · exact (List.mem_append.1 hf).elim (hc.fits f) (hfit' f)
      · exact (List.mem_append.1 hf).elim (hframes f) fun hf => hcs f (List.mem_cons_of_mem _ hf)
    · have hz : Outcome.returned.tokens + (framesTokens tl + h) = framesTokens tl + h := zero_add _
      rw [hz] at hs
      exact hgo v _ hc.calm ha' hs fun _ => hmild
    · have hz : (Outcome.raised e).tokens + (framesTokens tl + h) = framesTokens tl + h := zero_add _
      rw [hz] at hs
      refine hgo v _ hc.calm ha' hs fun hsync e' he => ?_
      cases he
      exact hcan hsync e rfl

end World

end DeviceBuilder
