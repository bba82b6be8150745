import DeviceBuilder.Queue.StepMoves

/-!
# What the queue's sections do to the waiters of the build gate

A section that sets the gate leaves nobody asleep at it. One that does not keeps
every wiping job active and every job from being cancelled, but for the jobs whose
cancel it suspends or spawns: that cancel sets the gate at its end.

* `Calm`: a piece of code of either kind.
* `Calm.trans`: pieces in a row.
* one lemma for each section of the commands, the lanes and the pool.
-/

namespace DeviceBuilder

def Marks (fs : List Frame) (k : JobId) : Prop := ∃ f ∈ fs, f.Marks k

theorem Marks.mono {fs gs : List Frame} {k : JobId} (h : Marks fs k) (hs : ∀ f ∈ fs, f ∈ gs) : Marks gs k := by
  obtain ⟨f, hf, hk⟩ := h
  exact ⟨f, hs f hf, hk⟩

/-- A job is another version of `a`: the same job, wiping if `a` was. -/
def FirmwareJob.Succeeds (a b : FirmwareJob) : Prop :=
  b.identity = a.identity ∧ (a.wipesLocalBuildTree = true → b.wipesLocalBuildTree = true)

theorem FirmwareJob.Succeeds.refl (a : FirmwareJob) : a.Succeeds a := ⟨rfl, id⟩

theorem FirmwareJob.Succeeds.trans {a b c : FirmwareJob} (h : a.Succeeds b) (h' : b.Succeeds c) : a.Succeeds c :=
  ⟨h'.1.trans h.1, fun hw => h'.2 (h.2 hw)⟩

/-- With its source kept, or set to one of this dashboard, a job wipes what it did. -/
theorem FirmwareJob.succeeds_of {a b : FirmwareJob} (hi : b.identity = a.identity)
    (hs : b.source = a.source ∨ b.source ≠ .remote) : a.Succeeds b := by
  refine ⟨hi, fun hw => ?_⟩
  have ht : b.jobType = a.jobType := congrArg (·.2.2.1) hi
  simp only [FirmwareJob.wipesLocalBuildTree, Bool.and_eq_true, decide_eq_true_eq, ht] at hw ⊢
  refine ⟨hw.1, ?_⟩
  rcases hs with hs | hs
  · rw [hs]
    exact hw.2
  · exact hs

/-- The frames of a command's task. -/
def Task.frames : Task → List Frame
  | .command fs => fs
  | _ => []

namespace World

variable {w w' w'' v : World} {fs gs : List Frame} {j k : JobId} {l : LaneId} {job : FirmwareJob}

/-- A worker waits at the gate with `j`, and nothing has resolved its waiter. -/
def Asleep (w : World) (l : LaneId) (j : JobId) : Prop := Task.laneGate l j false ∈ w.tasks

/-- A cancel of `k` that is to set the gate is suspended, or among `fs`. -/
def Owes (w : World) (fs : List Frame) (k : JobId) : Prop :=
  Marks fs k ∨ ∃ gs, Task.command gs ∈ w.tasks ∧ Marks gs k

theorem Owes.mono (h : w.Owes fs k) (hs : ∀ f ∈ fs, f ∈ gs)
    (hc : ∀ fs, Task.command fs ∈ w.tasks → Task.command fs ∈ w'.tasks) : w'.Owes gs k := by
  rcases h with h | ⟨hs', hin, hm⟩
  · exact .inl (h.mono hs)
  · exact .inr ⟨hs', hc hs' hin, hm⟩

/-- From `w` to `w'`, a job is cancelled, or a wiping job of the table ends or leaves it, only if its
cancel is among `fs` or suspended. -/
structure Quietly (fs : List Frame) (w w' : World) : Prop where
  asleep : ∀ l j, w'.Asleep l j → w.Asleep l j
  commands : ∀ gs, Task.command gs ∈ w.tasks → Task.command gs ∈ w'.tasks
  fresh : w.fw.fresh ≤ w'.fw.fresh
  objs : ∀ k a, k < w.fw.fresh → w.fw.obj k = some a → a.jobId = k → ∃ b, w'.fw.obj k = some b ∧ a.Succeeds b ∧
    (b.status = .cancelled → a.status = .cancelled ∨ w'.Owes fs k) ∧
    (a.wipesLocalBuildTree = true → a.isActive = true → k ∈ w.fw.jobs →
      b.isActive = true ∧ k ∈ w'.fw.jobs ∨ w'.Owes fs k)

/-- **A piece of code** leaves nobody asleep, or works quietly. -/
def Calm (fs : List Frame) (w w' : World) : Prop := (∃ l j, w'.Asleep l j) → Quietly fs w w'

theorem Quietly.refl (w : World) : Quietly fs w w where
  asleep _ _ := id
  commands _ := id
  fresh := Nat.le_refl _
  objs _ a _ ha _ := ⟨a, ha, .refl a, .inl, fun _ h h' => .inl ⟨h, h'⟩⟩

theorem Calm.refl (w : World) : Calm fs w w := fun _ => .refl w

theorem Quietly.mono (h : Quietly fs w w') (hs : ∀ f ∈ fs, f ∈ gs) : Quietly gs w w' := by
  refine { h with objs := fun k a hk ha hid => ?_ }
  have hmono : w'.Owes fs k → w'.Owes gs k := fun ho => ho.mono hs fun _ => id
  obtain ⟨b, hb, hab, hc, hact⟩ := h.objs k a hk ha hid
  exact ⟨b, hb, hab, fun hs => (hc hs).imp_right hmono, fun hw ha hj => (hact hw ha hj).imp_right hmono⟩

theorem Calm.mono (h : Calm fs w w') (hs : ∀ f ∈ fs, f ∈ gs) : Calm gs w w' := fun hz => (h hz).mono hs

theorem Calm.of_nil (h : Calm [] w w') : Calm fs w w' := h.mono fun _ hf => absurd hf List.not_mem_nil

theorem Quietly.trans (h : Quietly fs w w') (h' : Quietly fs w' w'') : Quietly fs w w'' where
  asleep l j hz := h.asleep l j (h'.asleep l j hz)
  commands gs hg := h'.commands gs (h.commands gs hg)
  fresh := Nat.le_trans h.fresh h'.fresh
  objs := by
    intro k a hk ha hid
    obtain ⟨b, hb, hab, hcb, hactb⟩ := h.objs k a hk ha hid
    have hbid : b.jobId = k := (congrArg (·.1) hab.1).trans hid
    obtain ⟨c, hc, hbc, hcc, hactc⟩ := h'.objs k b (Nat.lt_of_lt_of_le hk h.fresh) hb hbid
    have hlater : w'.Owes fs k → w''.Owes fs k := fun ho => ho.mono (fun _ => id) h'.commands
    refine ⟨c, hc, hab.trans hbc, fun hs => ?_, fun hw hact hj => ?_⟩
    · rcases hcc hs with hs | ho
      · exact (hcb hs).imp_right hlater
      · exact .inr ho
    · rcases hactb hw hact hj with ⟨hb', hj'⟩ | ho
      · exact hactc (hab.2 hw) hb' hj'
      · exact .inr (hlater ho)

theorem Calm.trans (h : Calm fs w w') (h' : Calm fs w' w'') : Calm fs w w'' := by
  rintro ⟨l, j, hz⟩
  have hq := h' ⟨l, j, hz⟩
  exact (h ⟨l, j, hq.asleep l j hz⟩).trans hq

/-- A calm piece, then one that suspends a cancel. -/
theorem Calm.andThen (h : Calm [] w w') (h' : Calm fs w' w'') : Calm fs w w'' := h.of_nil.trans h'

/-- With the gate set, nobody is asleep. -/
theorem not_asleep_setGate (w : World) (l : LaneId) (j : JobId) : ¬w.setGate.Asleep l j := by
  intro h
  obtain ⟨t, -, ht⟩ := List.mem_map.1 h
  cases t <;> cases ht

theorem calm_setGate (w w' : World) : Calm fs w w'.setGate := fun ⟨l, j, h⟩ => absurd h (not_asleep_setGate w' l j)

/-! ### Small pieces -/

/-- The tasks and the table stay, and each object is the same job with the same status. -/
theorem Calm.of_objs (ht : w'.tasks = w.tasks) (hn : w'.fw.fresh = w.fw.fresh) (hj : w'.fw.jobs = w.fw.jobs)
    (ho : ∀ k a, w.fw.obj k = some a → ∃ b, w'.fw.obj k = some b ∧ a.Succeeds b ∧
      (b.status = .cancelled → a.status = .cancelled) ∧ (a.isActive = true → b.isActive = true)) : Calm fs w w' := by
  refine fun _ => ⟨fun l j => ?_, fun gs => ?_, hn.ge, fun k a _ ha _ => ?_⟩
  · unfold Asleep
    rw [ht]
    exact id
  · rw [ht]
    exact id
  · obtain ⟨b, hb, hab, hc, hact⟩ := ho k a ha
    exact ⟨b, hb, hab, fun hs => .inl (hc hs), fun _ h h' => .inl ⟨hact h, by rw [hj]; exact h'⟩⟩

theorem Calm.of_eq (ht : w'.tasks = w.tasks) (hn : w'.fw.fresh = w.fw.fresh) (hj : w'.fw.jobs = w.fw.jobs)
    (ho : w'.fw.obj = w.fw.obj) : Calm fs w w' :=
  .of_objs ht hn hj fun k a ha => ⟨a, by rw [ho]; exact ha, .refl a, id, id⟩

theorem emit_calm (w : World) (e : Ev) : Calm fs w (w.emit e) := .of_eq rfl rfl rfl rfl

theorem setRenameLock_calm (w : World) (held : Bool) : Calm fs w (w.setRenameLock held) := .of_eq rfl rfl rfl rfl

theorem modifyPool_calm (w : World) (f : RemoteDispatchState → RemoteDispatchState) : Calm fs w (w.modifyPool f) :=
  .of_eq rfl rfl rfl rfl

theorem setQueuedUpdate_calm (w : World) (configuration : Configuration) (isQueued : Bool) :
    Calm fs w (w.setQueuedUpdate configuration isQueued) := .of_eq rfl rfl rfl rfl

/-- A job changes in place, and stays as active as it was. -/
theorem modifyJob_calm (w : World) (j : JobId) {f : FirmwareJob → FirmwareJob}
    (hf : ∀ a, w.fw.obj j = some a → a.Succeeds (f a) ∧ ((f a).status = .cancelled → a.status = .cancelled) ∧
      (a.isActive = true → (f a).isActive = true)) : Calm fs w (w.modifyJob j f) := by
  refine .of_objs rfl rfl rfl fun k a ha => ?_
  by_cases hk : k = j
  · subst hk
    refine ⟨f a, ?_, hf a ha⟩
    simp only [modifyJob, FirmwareState.modify, Function.update_self, ha, Option.map_some]
  · refine ⟨a, ?_, .refl a, id, id⟩
    simp only [modifyJob, FirmwareState.modify, Function.update_of_ne hk]
    exact ha

/-- A job changes in place, but neither its kind, its source nor its status. -/
theorem note_calm (w : World) (j : JobId) {f : FirmwareJob → FirmwareJob}
    (hf : ∀ a, (f a).identity = a.identity ∧ (f a).source = a.source ∧ (f a).status = a.status) :
    Calm fs w (w.modifyJob j f) := by
  refine modifyJob_calm w j fun a _ => ?_
  obtain ⟨hi, hsrc, hs⟩ := hf a
  refine ⟨FirmwareJob.succeeds_of hi (.inl hsrc), fun h => hs ▸ h, fun h => ?_⟩
  rw [Ledger.isActive_congr hs]
  exact h

theorem spawnTask_calm (w : World) {t : Task} (ht : ∀ l j, t ≠ .laneGate l j false) : Calm fs w (w.spawnTask t) := by
  refine fun _ => ⟨fun l j hz => ?_, fun gs hg => List.mem_append_left _ hg, Nat.le_refl _,
    fun k a _ ha _ => ⟨a, ha, .refl a, .inl, fun _ h h' => .inl ⟨h, h'⟩⟩⟩
  rcases List.mem_append.1 hz with hz | hz
  · exact hz
  · exact absurd (List.mem_singleton.1 hz).symm (ht l j)

/-- A command that runs on as a task of its own takes its cancels with it. -/
theorem startCommand_calm {r : World × Outcome} (h : Calm r.2.frames w r.1) : Calm [] w (startCommand r) := by
  rcases r with ⟨w', fs | _ | e⟩
  · rintro ⟨l, j, hz⟩
    have hz' : w'.Asleep l j := by
      rcases List.mem_append.1 hz with hz | hz
      · exact hz
      · cases List.mem_singleton.1 hz
    have hq := h ⟨l, j, hz'⟩
    have hspawn : Calm [] w' (w'.spawnTask (.command fs)) := spawnTask_calm w' nofun
    have hsp := hspawn ⟨l, j, hz⟩
    have howes : ∀ {k}, w'.Owes fs k → (w'.spawnTask (.command fs)).Owes [] k := by
      intro k ho
      rcases ho with hm | ⟨gs, hg, hm⟩
      · exact .inr ⟨fs, List.mem_append_right _ (List.mem_singleton.2 rfl), hm⟩
      · exact .inr ⟨gs, List.mem_append_left _ hg, hm⟩
    refine ⟨fun l j hz => hq.asleep l j (hsp.asleep l j hz), fun gs hg => hsp.commands gs (hq.commands gs hg),
      hq.fresh, fun k a hk ha hid => ?_⟩
    obtain ⟨b, hb, hab, hc, hact⟩ := hq.objs k a hk ha hid
    exact ⟨b, hb, hab, fun hs => (hc hs).imp_right howes, fun hw h' hj => (hact hw h' hj).imp_right howes⟩
  · exact h
  · exact Calm.trans h (emit_calm w' _)

theorem createJob_calm (w : World) (job : FirmwareJob) : Calm fs w (w.createJob job) := by
  refine fun _ => ⟨fun _ _ => id, fun _ => id, Nat.le_succ _, fun k a hk ha _ =>
    ⟨a, ?_, .refl a, .inl, fun _ h h' => .inl ⟨h, List.mem_append_left _ h'⟩⟩⟩
  simp only [createJob, Function.update_of_ne (Nat.ne_of_lt hk)]
  exact ha

/-- A job that was created since `w` leaves the table. -/
theorem Calm.pop (h : Calm fs w v) (hj : w.fw.fresh ≤ j) : Calm fs w (v.popJob j) := by
  rintro ⟨l, i, hz⟩
  have hq := h ⟨l, i, hz⟩
  refine ⟨hq.asleep, hq.commands, hq.fresh, fun k a hk ha hid => ?_⟩
  obtain ⟨b, hb, hab, hc, hact⟩ := hq.objs k a hk ha hid
  refine ⟨b, hb, hab, hc, fun hw h hin => (hact hw h hin).imp_left fun ⟨hb', hin'⟩ => ⟨hb', ?_⟩⟩
  exact KeyList.mem_drop.2 ⟨hin', Nat.ne_of_lt (Nat.lt_of_lt_of_le hk hj)⟩

/-- Pruning keeps the active jobs. -/
theorem prune_calm (w : World) : Calm fs w { w with fw := w.fw.pruneHistory } := by
  refine fun _ => ⟨fun _ _ => id, fun _ => id, Nat.le_refl _, fun k a _ ha hid =>
    ⟨a, ha, .refl a, .inl, fun _ h hin => .inl ⟨h, ?_⟩⟩⟩
  have hrow : a ∈ w.fw.activeJobs :=
    FirmwareState.mem_activeJobs.2 ⟨FirmwareState.mem_rows.2 ⟨k, hin, ha⟩, h⟩
  exact List.mem_map.2 ⟨a, FirmwareState.mem_prunedRows.2 hrow, hid⟩

theorem endRun_calm (w : World) (j : JobId) : Calm fs w (w.endRun j) := by
  unfold endRun
  split
  · exact prune_calm w
  · exact .refl w

theorem placeOnLane_calm (w : World) (j : JobId) : Calm fs w (w.placeOnLane j) := by
  unfold placeOnLane
  refine Calm.trans ?_ (emit_calm _ _)
  unfold FirmwareState.placeOnLane
  cases hj : w.fw.obj j with
  | none => exact .of_eq rfl rfl rfl rfl
  | some job =>
    -- the latch, then the route
    have hroute : ∀ v : World, Calm fs w v → Calm fs w { v with fw :=
        (if FirmwareState.pooled job then { v.fw with remoteDispatch := v.fw.remoteDispatch.hold j }
          else { v.fw with remoteDispatch := v.fw.remoteDispatch.drop j }.enqueueOn
            (FirmwareState.laneFor w.isThread job) j) } := by
      intro v hv
      refine hv.trans ?_
      split
      · exact .of_eq rfl rfl rfl rfl
      · unfold FirmwareState.enqueueOn FirmwareState.setLane
        split <;> exact .of_eq rfl rfl rfl rfl
    by_cases hd : job.dependsOn.isSome = true
    · have hlatch : Calm fs w (w.modifyJob j ({ · with dependencyReleased := true })) :=
        note_calm w j fun _ => ⟨rfl, rfl, rfl⟩
      simp only [if_pos hd]
      exact hroute _ hlatch
    · simp only [if_neg hd]
      exact hroute _ (.refl w)

/-! ### Calls -/

/-- The jobs that a frame may roll back wipe nothing, or cannot be locked out by a rename. -/
def Fits (w : World) : Frame → Prop
  | .resetSweep j => ∃ a, w.fw.obj j = some a ∧ namesTouchedByJob a = []
  | .stageSupersede head tail _ | .stagePersist head tail _ | .stageWrite head tail _ _ =>
    (∃ a, w.fw.obj head = some a ∧ a.jobType = .compile) ∧ ∃ a, w.fw.obj tail = some a ∧ a.jobType = .rename
  | _ => True

theorem fits_of_plain {f : Frame} (h : f.IsPlain) : w.Fits f := by
  cases f <;> trivial

/-- A call works calmly, up to the cancel it suspends, and it suspends no reset. -/
structure CalmCall (w : World) (r : World × Outcome) : Prop where
  calm : Calm r.2.frames w r.1
  noReset : ∀ j, Frame.resetSweep j ∉ r.2.frames
  fits : ∀ f ∈ r.2.frames, r.1.Fits f
  top : TopMarked r.2.frames

namespace CalmCall

theorem returned (h : Calm [] w w') : CalmCall w (w', .returned) :=
  ⟨h, fun _ => List.not_mem_nil, fun _ hf => absurd hf List.not_mem_nil, topMarked_short rfl⟩

theorem raised (h : Calm [] w w') (e : Err) : CalmCall w (w', .raised e) :=
  ⟨h, fun _ => List.not_mem_nil, fun _ hf => absurd hf List.not_mem_nil, topMarked_short rfl⟩

theorem suspended (h : Calm fs w w') (hn : PlainStack fs) : CalmCall w (w', .suspended fs) :=
  ⟨h, fun _ hj => hn.1 _ hj, fun f hf => fits_of_plain (hn.1 f hf), hn.2⟩

/-- The caller waits for a call that is suspended. -/
theorem wait (h : CalmCall w (w', .suspended fs)) {f : Frame} (hf : w'.Fits f) (hr : ∀ j, f ≠ .resetSweep j)
    (hm : ∀ k, ¬f.Marks k) : CalmCall w (w', .suspended (fs ++ [f])) where
  calm := h.calm.mono fun _ hg => List.mem_append_left _ hg
  noReset j hj := by
    rcases List.mem_append.1 hj with hj | hj
    · exact h.noReset j hj
    · exact hr j (List.mem_singleton.1 hj).symm
  fits g hg := by
    rcases List.mem_append.1 hg with hg | hg
    · exact h.fits g hg
    · exact List.mem_singleton.1 hg ▸ hf
  top := h.top.wait hm

theorem after {r : World × Outcome} (h : Calm [] w w') (h' : CalmCall w' r) : CalmCall w r :=
  { h' with calm := h.andThen h'.calm }

end CalmCall

/-! ### Cancels and sweeps -/

theorem cancelStart_calm (w : World) (j : JobId) (cause : CancelCause) : CalmCall w (w.cancelStart j cause) := by
  have hcall : Calm [] w (w.emit (.cancelCalled j cause)) := emit_calm w _
  unfold cancelStart
  simp only
  split
  · exact .raised hcall _
  next job hfind =>
    split
    · -- the mark: nothing else of the table ends
      refine .suspended (hcall.andThen ?_) (plainStack_one trivial)
      generalize w.emit (.cancelCalled j cause) = v
      have hmark : Calm [.cancelMarked j] v { v with fw :=
          { v.fw with remoteDispatch := v.fw.remoteDispatch.discard j }.modify j (·.markTerminal .cancelled) } := by
        refine fun _ => ⟨fun _ _ => id, fun _ => id, Nat.le_refl _, fun k a hk ha hid => ?_⟩
        by_cases he : k = j
        · subst he
          have howes : ∀ u : World, u.Owes [.cancelMarked k] k := fun u => .inl ⟨_, List.mem_singleton.2 rfl, rfl⟩
          refine ⟨a.markTerminal .cancelled, ?_, FirmwareJob.succeeds_of rfl (.inl rfl), fun _ => .inr (howes _),
            fun _ _ _ => .inr (howes _)⟩
          simp only [FirmwareState.modify, Function.update_self, ha, Option.map_some]
        · refine ⟨a, ?_, .refl a, .inl, fun _ h h' => .inl ⟨h, h'⟩⟩
          simp only [FirmwareState.modify, Function.update_of_ne he]
          exact ha
      exact hmark.trans (prune_calm _)
    · split
      · exact .returned (hcall.trans (.of_eq rfl rfl rfl rfl))
      split
      · exact .raised hcall _
      · have hreq : Calm [] w { w.emit (.cancelCalled j cause) with
            fw := (w.emit (.cancelCalled j cause)).fw.requestCancel j } := hcall.trans (.of_eq rfl rfl rfl rfl)
        split
        · exact .suspended hreq.of_nil (plainStack_one trivial)
        · exact .returned hreq
    · exact .raised hcall _
    · exact .raised hcall _
    · exact .raised hcall _

theorem runSweep_calm (cause : CancelCause) (js : List JobId) (w : World) : CalmCall w (w.runSweep cause js) := by
  induction js generalizing w with
  | nil => exact .returned (.refl w)
  | cons j js ih =>
    have hc := cancelStart_calm w j cause
    unfold runSweep
    generalize w.cancelStart j cause = r at hc ⊢
    rcases r with ⟨w', fs | _ | e⟩
    · exact hc.wait trivial (fun _ h => by cases h) fun _ => id
    · exact .after hc.calm (ih w')
    · simp only
      split
      · exact .after hc.calm (ih w')
      · exact .raised hc.calm e

/-! ### Commits -/

theorem placeAndAnnounce_calm (w : World) (j : JobId) : Calm fs w (w.placeAndAnnounce j) := by
  unfold placeAndAnnounce
  cases w.fw.obj j with
  | none => exact .refl w
  | some job =>
    simp only
    have hplace : Calm fs w (if w.fw.dependencySatisfied job then w.placeOnLane j else w) := by
      split
      · exact placeOnLane_calm w j
      · exact .refl w
    split
    · exact hplace
    · exact hplace.trans (emit_calm _ _)

theorem placeAll_calm (js : List JobId) (w : World) : Calm fs w (js.foldl placeAndAnnounce w) := by
  induction js generalizing w with
  | nil => exact .refl w
  | cons j js ih => exact (placeAndAnnounce_calm w j).trans (ih _)

theorem commitPlaced_calm (w : World) (jobs : List JobId) (supersede : Option Configuration) :
    CalmCall w (w.commitPlaced jobs supersede) := by
  have hplace : Calm [] w (jobs.foldl placeAndAnnounce w) := placeAll_calm jobs w
  have hpersist : CalmCall w (jobs.foldl placeAndAnnounce w, .suspended [.commitPersist]) :=
    .suspended hplace.of_nil (plainStack_one trivial)
  unfold commitPlaced
  generalize jobs.foldl placeAndAnnounce w = v at hplace hpersist ⊢
  simp only
  split
  · exact hpersist
  · exact hpersist
  · next configuration _ =>
    have hs : CalmCall v (v.supersedeActiveJobs configuration jobs) := runSweep_calm _ _ v
    generalize v.supersedeActiveJobs configuration jobs = r at hs ⊢
    have hr := CalmCall.after hplace hs
    rcases r with ⟨w', fs | _ | e⟩
    · exact hr.wait trivial nofun fun _ => id
    · exact .suspended (Calm.of_nil hr.calm) (plainStack_one trivial)
    · exact hr

/-- Jobs created since `w` leave the table. -/
theorem popAll_calm {js : List JobId} (h : Calm fs w v) (hj : ∀ j ∈ js, w.fw.fresh ≤ j) :
    Calm fs w (js.foldl popJob v) := by
  induction js generalizing v with
  | nil => exact h
  | cons j js ih =>
    exact ih (h.pop (hj j List.mem_cons_self)) fun i hi => hj i (List.mem_cons_of_mem j hi)

theorem commitChain_calm (h : Calm [] w v) {head : JobId} {dependent : Option JobId} (hh : w.fw.fresh ≤ head)
    (hd : ∀ d ∈ dependent, w.fw.fresh ≤ d) (supersede : Option Configuration) :
    CalmCall w (v.commitChain head dependent supersede) := by
  unfold commitChain
  simp only
  split
  · exact .returned h
  split
  · refine .raised (popAll_calm h fun j hj => ?_) _
    rcases List.mem_append.1 hj with hj | hj
    · exact hd j (Option.mem_toList.1 hj)
    · rw [List.mem_singleton.1 hj]
      exact hh
  · exact .after h (commitPlaced_calm v _ supersede)

theorem enqueue_calm (h : Calm [] w v) (hj : w.fw.fresh ≤ j) (supersede : Bool) :
    CalmCall w (v.enqueue j supersede) := by
  unfold enqueue
  split
  · exact .returned h
  · exact commitChain_calm h hj (fun d hd => by cases hd) _

/-- A job is created and enqueued. -/
theorem createEnqueue_calm (h : Calm [] w v) (job : FirmwareJob) (supersede : Bool) (hv : w.fw.fresh ≤ v.fw.fresh) :
    CalmCall w ((v.createJob job).enqueue v.fw.fresh supersede) :=
  enqueue_calm (h.trans (createJob_calm v job)) hv supersede

theorem enqueueCompile_calm (w : World) (configuration : Configuration) (forceLocal : Bool) (jobType : JobType) :
    CalmCall w (w.enqueueCompile configuration forceLocal jobType) := by
  unfold enqueueCompile
  split
  · exact .raised (.refl w) _
  · exact createEnqueue_calm (v := w.submit forceLocal) (emit_calm w _) _ true (Nat.le_refl _)

theorem enqueueInstallChain_calm (h : Calm [] w v) (hv : w.fw.fresh ≤ v.fw.fresh) (configuration : Configuration)
    (port : String) (source : JobBuildSource) (flashBootloader : Bool) :
    CalmCall w (v.enqueueInstallChain configuration port source flashBootloader) := by
  unfold enqueueInstallChain
  refine commitChain_calm ((h.trans (createJob_calm v _)).trans (createJob_calm _ _)) hv (fun d hd => ?_) _
  obtain rfl : v.fw.fresh + 1 = d := Option.some.inj hd
  exact Nat.le_succ_of_le hv

theorem enqueueInstallOrDefer_calm (w : World) (configuration : Configuration) (port : String)
    (forceLocal flashBootloader : Bool) :
    CalmCall w (w.enqueueInstallOrDefer configuration port forceLocal flashBootloader) := by
  unfold enqueueInstallOrDefer
  simp only
  split
  · exact .raised (.refl w) _
  split
  · exact .raised (.refl w) _
  split
  · exact createEnqueue_calm (v := w.submit forceLocal) (emit_calm w _) _ true (Nat.le_refl _)
  · exact enqueueInstallChain_calm (v := w.submit forceLocal) (emit_calm w _) (Nat.le_refl _) configuration port _ _

/-! ### Ends -/

theorem dispatchQueuedUpload_calm (w : World) (configuration : Configuration) :
    Calm [] w (w.dispatchQueuedUpload configuration) := by
  unfold dispatchQueuedUpload
  refine startCommand_calm (CalmCall.calm (enqueue_calm ?_ (Nat.le_refl _) true))
  exact (createJob_calm w _).trans (emit_calm _ _)

theorem handleTerminal_calm (w : World) (job : FirmwareJob) : Calm [] w (w.handleTerminal job) := by
  have harm : Calm [] w (w.armQueuedUpdateIfFlagged job) := by
    unfold armQueuedUpdateIfFlagged
    split
    · exact setQueuedUpdate_calm w _ _
    · exact .refl w
  unfold handleTerminal
  split
  · refine harm.trans ?_
    generalize w.armQueuedUpdateIfFlagged job = v
    have hdefer : Calm [] v (v.handleDeferredCompileCompletion job) := by
      unfold handleDeferredCompileCompletion
      split
      · exact dispatchQueuedUpload_calm v _
      · exact .refl v
    refine hdefer.trans ?_
    unfold handleOtaUploadCompletion
    split
    · exact setQueuedUpdate_calm _ _ _
    · exact .refl _
  · exact harm
  · exact .refl w

theorem fireTerminal_calm (w : World) (j : JobId) : Calm [] w (w.fireTerminal j) := by
  unfold fireTerminal
  split
  · exact .refl w
  · exact (emit_calm w _).trans (handleTerminal_calm _ _)

theorem revertLocked_calm (w : World) (j : JobId) :
    Calm [] w (w.revertLocked j).1 ∧ ∀ l i, (w.revertLocked j).2 ≠ .laneGate l i false := by
  unfold revertLocked
  split
  · exact ⟨.refl w, nofun⟩
  split
  · exact ⟨.refl w, nofun⟩
  · exact ⟨setRenameLock_calm w true, nofun⟩

theorem onJobTerminal_calm (w : World) (j : JobId) : Calm [] w (w.onJobTerminal j) := by
  unfold onJobTerminal
  split
  · exact .refl w
  split
  · unfold startRevert
    split
    · obtain ⟨hc, hn⟩ := revertLocked_calm w j
      exact hc.trans (spawnTask_calm _ hn)
    · exact spawnTask_calm w nofun
  · exact .refl w

/-- **A finalised job** leaves nobody asleep. -/
theorem finalizeTerminal_calm (w v : World) (j : JobId) (status : JobStatus) (error : Option String) :
    Calm fs w (v.finalizeTerminal j status error) := calm_setGate w _

theorem finalizeCancelled_calm (w v : World) (j : JobId) : Calm fs w (v.finalizeCancelled j) := calm_setGate w _

theorem finalizeFailed_calm (w v : World) (j : JobId) (error : String) : Calm fs w (v.finalizeFailed j error) := by
  unfold finalizeFailed
  split
  · exact finalizeCancelled_calm w v j
  · exact finalizeTerminal_calm w v j _ _

theorem releaseDependents_calm (w : World) (j : JobId) : Calm [] w (w.releaseDependents j) := by
  unfold releaseDependents releaseDependentsWith
  split
  · exact .refl w
  next prereq hj =>
    clear hj
    generalize (w.fw.dependents j).map (·.jobId) = ds
    induction ds generalizing w with
    | nil => exact .refl w
    | cons d ds ih =>
      refine Calm.trans ?_ (ih _)
      unfold releaseDependent
      split
      · exact .refl w
      split
      · exact .refl w
      split
      · exact finalizeTerminal_calm w w d _ _
      split
      · exact finalizeTerminal_calm w w d _ _
      · exact placeOnLane_calm w d

/-- The end of a cancel: the gate is set, or the tail of a rename takes its head with it. -/
theorem cancelTail_calm (w : World) (j : JobId) : CalmCall w (w.cancelTail j) := by
  have hgate : ∀ v : World, CalmCall w (v.setGate, .returned) := fun v => .returned (calm_setGate w v)
  have hterm := onJobTerminal_calm w j
  unfold cancelTail
  simp only
  split
  · exact hgate _
  split
  · exact hgate _
  next job _ p _ =>
    split
    · have hc := cancelStart_calm (w.onJobTerminal j) p.jobId (.tail j)
      generalize (w.onJobTerminal j).cancelStart p.jobId (.tail j) = r at hc ⊢
      have hr := CalmCall.after hterm hc
      rcases r with ⟨v, fs | _ | e⟩
      · exact hr.wait trivial nofun fun _ => id
      · exact hgate v
      · exact hr
    · exact hgate _

theorem cancelMarked_calm (w : World) (j : JobId) : CalmCall w (w.cancelMarked j) := by
  have hfire : Calm [] w ((w.fireTerminal j).releaseDependents j) :=
    (fireTerminal_calm w j).trans (releaseDependents_calm _ j)
  unfold cancelMarked
  simp only
  split
  · exact .suspended (hfire.of_nil.trans (prune_calm _)) (plainStack_one trivial)
  · exact .after hfire (cancelTail_calm _ j)

/-! ### `clean` and `rename` -/

theorem cleanLocalStart_calm (w : World) (configuration : Configuration) :
    CalmCall w (w.cleanLocalStart configuration) := by
  unfold cleanLocalStart
  have hc := createEnqueue_calm (.refl w) { jobId := 0, configuration := configuration, jobType := .clean } true
    (Nat.le_refl _)
  simp only
  generalize enqueue _ _ = r at hc ⊢
  rcases r with ⟨v, fs | _ | e⟩
  · exact hc.wait trivial nofun fun _ => id
  · exact hc
  · exact hc

theorem cleanFanOut_calm (configuration : Configuration) (sources : List JobBuildSource) (w : World) :
    CalmCall w (w.cleanFanOut configuration sources) := by
  induction sources generalizing w with
  | nil => exact .returned (.refl w)
  | cons source rest ih =>
    unfold cleanFanOut
    simp only
    have hc := createEnqueue_calm (.refl w)
      (FirmwareJob.applyBuildSource { jobId := 0, configuration := configuration, jobType := .clean } source) false
      (Nat.le_refl _)
    generalize enqueue _ _ _ = r at hc ⊢
    rcases r with ⟨v, fs | _ | e⟩
    · exact hc.wait trivial nofun fun _ => id
    · exact .after hc.calm (ih v)
    · exact hc

theorem renameCommitStart_calm (w : World) (head tail : JobId) (newFilename : Configuration) :
    CalmCall w (w.renameCommitStart head tail newFilename) := by
  unfold renameCommitStart
  have hc := commitPlaced_calm w [tail, head] (some newFilename)
  generalize w.commitPlaced [tail, head] (some newFilename) = r at hc ⊢
  rcases r with ⟨v, fs | _ | e⟩
  · exact hc.wait trivial nofun fun _ => id
  · exact .returned (Calm.trans hc.calm (setRenameLock_calm v false))
  · exact .raised (Calm.trans hc.calm (setRenameLock_calm v false)) e

/-- A job that wipes nothing leaves the table. -/
theorem popJob_calm (w : World) (j : JobId) (hj : ∀ a, w.fw.obj j = some a → a.wipesLocalBuildTree = false) :
    Calm fs w (w.popJob j) := by
  refine fun _ => ⟨fun _ _ => id, fun _ => id, Nat.le_refl _, fun k a _ ha _ =>
    ⟨a, ha, .refl a, .inl, fun hw h hin => .inl ⟨h, KeyList.mem_drop.2 ⟨hin, ?_⟩⟩⟩⟩
  rintro rfl
  rw [hj a ha] at hw
  cases hw

theorem wipes_not {a : FirmwareJob} (h : a.jobType = .compile ∨ a.jobType = .rename) : a.wipesLocalBuildTree = false := by
  rcases h with h | h <;> simp [FirmwareJob.wipesLocalBuildTree, h]

theorem renameRollBack_calm (w : World) (head tail : JobId) (e : Err)
    (hh : ∃ a, w.fw.obj head = some a ∧ a.jobType = .compile) (ht : ∃ a, w.fw.obj tail = some a ∧ a.jobType = .rename) :
    CalmCall w (w.renameRollBack head tail e) := by
  obtain ⟨a, ha, hat⟩ := hh
  obtain ⟨b, hb, hbt⟩ := ht
  have htail : Calm [] w (w.popJob tail) := by
    refine popJob_calm w tail fun c hc => wipes_not (.inr ?_)
    rw [hb] at hc
    exact Option.some.inj hc ▸ hbt
  have hhead : Calm [] (w.popJob tail) ((w.popJob tail).popJob head) := by
    refine popJob_calm _ head fun c hc => wipes_not (.inl ?_)
    change w.fw.obj head = some c at hc
    rw [ha] at hc
    exact Option.some.inj hc ▸ hat
  exact .raised ((htail.trans hhead).trans (setRenameLock_calm _ false)) e

/-- A cancel leaves every job the one it was. -/
theorem cancelStart_forward (w : World) (i : JobId) (cause : CancelCause) {a : FirmwareJob} (ha : w.fw.obj k = some a) :
    ∃ b, (w.cancelStart i cause).1.fw.obj k = some b ∧ b.identity = a.identity := by
  have hself : ∃ b, w.fw.obj k = some b ∧ b.identity = a.identity := ⟨a, ha, rfl⟩
  unfold cancelStart
  simp only
  split
  · exact hself
  split
  · by_cases hk : k = i
    · subst hk
      refine ⟨a.markTerminal .cancelled, ?_, rfl⟩
      simp only [FirmwareState.pruneHistory, FirmwareState.modify, Function.update_self]
      change Option.map _ (w.fw.obj k) = _
      rw [ha]
      rfl
    · refine ⟨a, ?_, rfl⟩
      simp only [FirmwareState.pruneHistory, FirmwareState.modify, Function.update_of_ne hk]
      exact ha
  · split
    · exact hself
    split
    · exact hself
    · split <;> exact hself
  · exact hself
  · exact hself
  · exact hself

theorem runSweep_forward (cause : CancelCause) (js : List JobId) (w : World) {a : FirmwareJob}
    (ha : w.fw.obj k = some a) : ∃ b, (w.runSweep cause js).1.fw.obj k = some b ∧ b.identity = a.identity := by
  induction js generalizing w a with
  | nil => exact ⟨a, ha, rfl⟩
  | cons j js ih =>
    obtain ⟨b, hb, hi⟩ := cancelStart_forward w j cause ha
    unfold runSweep
    generalize w.cancelStart j cause = r at hb ⊢
    have hnext : ∃ c, (r.1.runSweep cause js).1.fw.obj k = some c ∧ c.identity = a.identity := by
      obtain ⟨c, hc, hci⟩ := ih r.1 hb
      exact ⟨c, hc, hci.trans hi⟩
    rcases r with ⟨v, fs | _ | e⟩
    · exact ⟨b, hb, hi⟩
    · exact hnext
    · simp only
      split
      · exact hnext
      · exact ⟨b, hb, hi⟩

theorem type_of_identity {a b : FirmwareJob} (h : b.identity = a.identity) : b.jobType = a.jobType := congrArg (·.2.2.1) h

theorem renameInLock_calm (w : World) (configuration : Configuration) (newName : String) (content : Yaml)
    (port : String) (source : JobBuildSource) :
    CalmCall w (w.renameInLock configuration newName content port source) := by
  have hcreate : ∀ head tail : FirmwareJob, Calm [] w
      (((w.setRenameLock true).emit (.submitted w.fw.fresh false)).createJob head |>.createJob tail) :=
    fun head tail => (((setRenameLock_calm w true).trans (emit_calm _ _)).trans (createJob_calm _ _)).trans
      (createJob_calm _ _)
  unfold renameInLock
  simp only
  generalize hv : createJob (createJob _ _) _ = v
  have hcalm : Calm [] w v := by
    rw [← hv]
    exact hcreate _ _
  have hhead : ∃ a, v.fw.obj w.fw.fresh = some a ∧ a.jobType = .compile := by
    rw [← hv]
    simp [createJob, setRenameLock, emit, FirmwareJob.applyBuildSource]
  have htail : ∃ a, v.fw.obj (w.fw.fresh + 1) = some a ∧ a.jobType = .rename := by
    rw [← hv]
    simp [createJob, setRenameLock, emit]
  split
  · exact .returned hcalm
  split
  · exact .after hcalm (renameRollBack_calm v _ _ _ hhead htail)
  · have hs : CalmCall v (v.supersedeActiveJobs configuration [w.fw.fresh, w.fw.fresh + 1]) := runSweep_calm _ _ v
    have hfwd : ∀ {k t}, (∃ a, v.fw.obj k = some a ∧ a.jobType = t) →
        ∃ a, (v.supersedeActiveJobs configuration [w.fw.fresh, w.fw.fresh + 1]).1.fw.obj k = some a ∧
          a.jobType = t := by
      rintro k t ⟨a, ha, hat⟩
      obtain ⟨b, hb, hi⟩ := runSweep_forward _ _ v ha
      exact ⟨b, hb, (type_of_identity hi).trans hat⟩
    have hh := hfwd hhead
    have ht := hfwd htail
    generalize v.supersedeActiveJobs configuration [w.fw.fresh, w.fw.fresh + 1] = r at hs hh ht ⊢
    have hr := CalmCall.after hcalm hs
    rcases r with ⟨u, fs | _ | e⟩
    · exact hr.wait (f := .stageSupersede w.fw.fresh (w.fw.fresh + 1) content) ⟨hh, ht⟩ (fun _ h => by cases h) fun _ => id
    · have hnil : CalmCall w (u, .suspended []) := .suspended hr.calm plainStack_nil
      exact hnil.wait (f := .stagePersist w.fw.fresh (w.fw.fresh + 1) content) ⟨hh, ht⟩ (fun _ h => by cases h) fun _ => id
    · exact .after hr.calm (renameRollBack_calm u _ _ e hh ht)

theorem renameResolved_calm (w : World) (configuration : Configuration) (newName : String) (content : Yaml)
    (port : String) : CalmCall w (w.renameResolved configuration newName content port) := by
  unfold renameResolved
  split
  · exact .raised (.refl w) _
  split
  · exact renameInLock_calm w _ _ _ _ _
  · exact .suspended (.refl w) (plainStack_one trivial)

/-! ### Frames -/

/-- **A frame goes on**, unless it is that of a reset. -/
theorem returnTo_calm (w : World) (r : Except Err Unit) {f : Frame} (hf : w.Fits f) (hn : ∀ j, f ≠ .resetSweep j) :
    CalmCall w (w.returnTo r f) := by
  have hret : CalmCall w (w, .returned) := .returned (.refl w)
  have hraise : ∀ e, CalmCall w (w, .raised e) := .raised (.refl w)
  have hone : ∀ {f : Frame}, f.IsPlain → CalmCall w (w, .suspended [f]) := fun h => .suspended (.refl w) (plainStack_one h)
  cases f with
  | cancelMarked j => exact cancelMarked_calm w j
  | renameLock configuration newName content port source => exact renameInLock_calm w _ _ _ _ _
  | sweep rest cause =>
    cases r with
    | ok _ => exact runSweep_calm cause rest w
    | error e =>
      simp only [returnTo]
      split
      · exact runSweep_calm cause rest w
      · exact hraise e
  | resetSweep j => exact absurd rfl (hn j)
  | stageSupersede head tail content =>
    cases r with
    | ok _ =>
      have hnil : CalmCall w (w, .suspended []) := .suspended (.refl w) plainStack_nil
      exact hnil.wait (f := .stagePersist head tail content) hf (fun _ h => by cases h) fun _ => id
    | error e => exact renameRollBack_calm w head tail e hf.1 hf.2
  | stagePersist head tail content =>
    cases r with
    | ok _ =>
      have hnil : CalmCall w (w, .suspended []) := .suspended (.refl w) plainStack_nil
      exact hnil.wait (f := .stageWrite head tail content false) hf (fun _ h => by cases h) fun _ => id
    | error e => exact renameRollBack_calm w head tail e hf.1 hf.2
  | stageWrite head tail content written =>
    cases r with
    | ok _ => exact renameCommitStart_calm w head tail _
    | error e => exact renameRollBack_calm w head tail e hf.1 hf.2
  | renameCommit =>
    cases r with
    | ok _ => exact .returned (setRenameLock_calm w false)
    | error e => exact .raised (setRenameLock_calm w false) e
  | cancelReleased j =>
    cases r with
    | ok _ => exact cancelTail_calm w j
    | error e => exact hraise e
  | cancelPrereq =>
    cases r with
    | ok _ => exact .returned (calm_setGate w w)
    | error e => exact hraise e
  | commitSupersede =>
    cases r with
    | ok _ => exact hone trivial
    | error e => exact hraise e
  | cleanValidate configuration =>
    cases r with
    | ok _ => exact cleanLocalStart_calm w configuration
    | error e => exact hraise e
  | cleanLocal configuration =>
    cases r with
    | ok _ =>
      simp only [returnTo]
      split
      · exact hret
      · exact cleanFanOut_calm configuration _ w
    | error e => exact hraise e
  | cleanFanOut configuration rest =>
    cases r with
    | ok _ => exact cleanFanOut_calm configuration rest w
    | error e => exact hraise e
  | renameExists configuration newName found =>
    rcases r with e | _
    · exact hraise e
    · cases found with
      | none => exact hret
      | some found =>
        simp only [returnTo, renameChecked]
        split
        · exact hraise _
        · exact hone trivial
  | renameRead configuration newName content =>
    rcases r with e | _
    · exact hraise e
    · rcases content with _ | _ | content
      · exact hret
      · exact hraise _
      · exact hone trivial
  | renameAddress configuration newName content address =>
    rcases r with e | _
    · exact hraise e
    · cases address with
      | none => exact hret
      | some address => exact renameResolved_calm w configuration newName content address
  | cancelTerminate | commitPersist | clearPersist =>
    rcases r with e | _
    · exact hraise e
    · exact hret

/-! ### Runs -/

/-- A piece of a run: calm, and neither a waiter at the gate nor a command comes of it. -/
structure CalmRun (w : World) (r : World × Task) : Prop where
  calm : Calm [] w r.1
  awake : ∀ l j, r.2 ≠ .laneGate l j false
  frames : r.2.frames = []

theorem failLocally_calm (w v : World) (j : JobId) (reason : String) : Calm fs w (v.failLocally j reason) :=
  finalizeFailed_calm w v j _

theorem exitCode_calm (w : World) (j : JobId) (code : Int) : Calm fs w (w.exitCode j code) :=
  note_calm w j fun _ => ⟨rfl, rfl, rfl⟩

theorem beginRun_calm (w : World) (j : JobId) : Calm fs w (w.beginRun j) := by
  have hmark : Calm fs w (w.modifyJob j (·.markRunning)) := by
    refine modifyJob_calm w j fun a _ => ⟨FirmwareJob.succeeds_of rfl (.inl rfl), nofun, fun _ => rfl⟩
  unfold beginRun fire
  split
  · exact hmark
  · exact hmark.trans (emit_calm _ _)

theorem openClientAndSend_calm (w : World) (j : JobId) (input : Input) : Calm [] w (w.openClientAndSend j input).1 := by
  unfold openClientAndSend
  split
  · exact failLocally_calm w w j _
  · split
    · exact failLocally_calm w w j _
    · exact .refl w

theorem remoteStart_calm (w : World) (j : JobId) (input : Input) : Calm [] w (w.remoteStart j input).1 := by
  unfold remoteStart
  split
  · exact .refl w
  split
  · exact failLocally_calm w w j _
  split
  · exact failLocally_calm w w j _
  split
  · exact openClientAndSend_calm w j input
  · exact .refl w

theorem sendCancel_calm (w : World) (j : JobId) : Calm [] w (w.sendCancel j).1 := by
  unfold sendCancel
  split
  · exact finalizeCancelled_calm w w j
  · exact .refl w

theorem onTerminalFrame_calm (w : World) (j : JobId) (retry : Bool) (jobType : JobType) (status : WireStatus)
    (failureReason : JobFailureReason) (errorMessage : String) :
    Calm [] w (w.onTerminalFrame j retry jobType status failureReason errorMessage).1 := by
  unfold onTerminalFrame
  split
  · exact finalizeCancelled_calm w w j
  split
  · exact finalizeCancelled_calm w w j
  · split
    · exact .refl w
    · exact failLocally_calm w w j _
  · unfold finaliseAfterReceiverCompleted
    split
    · exact finalizeTerminal_calm w _ j _ _
    · exact .refl w

theorem onSessionLost_calm (w : World) (j : JobId) (retry : Bool) (text : String) :
    Calm [] w (w.onSessionLost j retry text).1 := by
  unfold onSessionLost
  split
  · exact .refl w
  · exact failLocally_calm w w j _

theorem finishLocalUpload_calm (w : World) (j : JobId) (code : Int) : Calm [] w (w.finishLocalUpload j code).1 := by
  unfold finishLocalUpload
  split
  · exact finalizeCancelled_calm w w j
  · simp only
    split
    · exact finalizeTerminal_calm w _ j _ _
    · exact failLocally_calm w _ j _

theorem remoteResume_calm (w : World) (j : JobId) (retry : Bool) (pt : RemotePoint) (input : Input) :
    Calm [] w (w.remoteResume j retry pt input).1 := by
  unfold remoteResume
  split
  · exact .refl w
  next job _ =>
    cases pt with
    | bundle =>
      simp only
      split
      · exact finalizeCancelled_calm w w j
      · exact openClientAndSend_calm w j input
    | submit =>
      simp only
      split
      · exact failLocally_calm w w j _
      · split
        · exact sendCancel_calm w j
        · exact .refl w
    | terminal cancelSent =>
      simp only
      split
      · exact onTerminalFrame_calm w j retry _ _ _ _
      · exact onSessionLost_calm w j retry _
      · split
        · exact sendCancel_calm w j
        · exact .refl w
    | sendCancel =>
      simp only
      split
      · exact finalizeCancelled_calm w w j
      · exact .refl w
    | download =>
      simp only
      split
      · exact failLocally_calm w w j _
      · exact .refl w
    | materialise =>
      simp only
      split
      · exact failLocally_calm w w j _
      · split
        · exact finalizeCancelled_calm w w j
        · split
          · exact finalizeTerminal_calm w _ j _ _
          · exact .refl w
    | pump =>
      simp only
      split
      · exact finishLocalUpload_calm w j _
      · exact .refl w
    | relPath | spawn | terminate => exact .refl w

/-! ### Lanes -/

theorem setLane_calm (w : World) (l : LaneId) (x : Lane) : Calm fs w { w with fw := w.fw.setLane l x } := by
  cases l <;> exact .of_eq rfl rfl rfl rfl

theorem laneReturn_calm (w : World) (l : LaneId) : Calm fs w (w.laneReturn l) := by
  cases l <;> exact .of_eq rfl rfl rfl rfl

theorem laneFinish_calm (h : Calm [] w v) (l : LaneId) (j : JobId) (dying : Bool) : CalmRun w (v.laneFinish l j dying) :=
  ⟨(h.trans (setLane_calm v l _)).trans (endRun_calm _ j), nofun, rfl⟩

theorem executeJob_calm (w : World) (l : LaneId) (j : JobId) : CalmRun w (w.executeJob l j) :=
  ⟨(setLane_calm w l _).trans (beginRun_calm _ j), nofun, rfl⟩

theorem laneRemote_calm {r : World × RemoteOutcome} (h : Calm [] w r.1) (l : LaneId) (j : JobId) :
    CalmRun w (laneRemote l j r) := by
  rcases r with ⟨v, pt | _ | text | text⟩
  · exact ⟨h, nofun, rfl⟩
  · exact laneFinish_calm h l j false
  · exact laneFinish_calm h l j false
  · exact laneFinish_calm h l j false

theorem laneRun_calm (w : World) (l : LaneId) (j : JobId) (input : Input) : CalmRun w (w.laneRun l j input) := by
  unfold laneRun
  split
  · exact laneFinish_calm (.refl w) l j false
  split
  · exact laneRemote_calm (remoteStart_calm w j input) l j
  split
  · exact ⟨.refl w, nofun, rfl⟩
  · exact ⟨.refl w, nofun, rfl⟩

theorem finishLocal_calm (w : World) (l : LaneId) (j : JobId) (job : FirmwareJob) (code : Int)
    (hasErrorInOutput sawNoEsphomeModule : Bool) :
    CalmRun w (w.finishLocal l j job code hasErrorInOutput sawNoEsphomeModule) := by
  have hexit : Calm [] w (w.exitCode j code) := exitCode_calm w j code
  have hend : ∀ (v : World) status, CalmRun w ((v.finalizeTerminal j status).laneFinish l j false) :=
    fun v status => laneFinish_calm (finalizeTerminal_calm w v j status _) l j false
  unfold finishLocal
  simp only
  split
  · exact laneFinish_calm (finalizeCancelled_calm w _ j) l j false
  split
  · split
    · exact ⟨hexit, nofun, rfl⟩
    split
    · exact ⟨hexit, nofun, rfl⟩
    · exact hend _ _
  · exact hend _ _

theorem localResume_calm (w : World) (l : LaneId) (j : JobId) (pt : LocalPoint) (input : Input) :
    CalmRun w (w.localResume l j pt input) := by
  have hstay : ∀ pt, CalmRun w (w, .laneLocal l j pt) := fun pt => ⟨.refl w, nofun, rfl⟩
  have herror : ∀ (v : World) exc, CalmRun w ((v.finalizeUnexpectedError j exc).laneFinish l j false) :=
    fun v exc => laneFinish_calm (finalizeFailed_calm w v j exc) l j false
  have hend : CalmRun w ((w.finalizeTerminal j .completed).laneFinish l j false) :=
    laneFinish_calm (finalizeTerminal_calm w w j _ _) l j false
  unfold localResume
  split
  · exact laneFinish_calm (.refl w) l j false
  next job _ =>
    cases pt with
    | chipStorage =>
      simp only
      split <;> exact hstay _
    | chipProbe =>
      simp only
      split
      · exact herror w _
      · split
        · exact herror w _
        · exact hstay _
    | esphomeCmd =>
      simp only
      split
      · exact herror _ _
      · exact hstay _
    | pump =>
      simp only
      split
      · exact finishLocal_calm w l j job _ _ _
      · exact hstay _
    | swap removed => exact hend
    | cleanVenvs => exact hend
    | relPath | spawn | terminate => exact hstay _

/-! ### The pool -/

theorem fallbackToLocal_calm (w : World) (j : JobId) : Calm fs w (w.fallbackToLocal j) := by
  refine Calm.trans ?_ (placeOnLane_calm _ j)
  exact modifyJob_calm w j fun a _ => ⟨FirmwareJob.succeeds_of rfl (.inr nofun), id, id⟩

theorem flush_calm (js : List JobId) (w : World) : Calm fs w (js.foldl fallbackToLocal w) := by
  induction js generalizing w with
  | nil => exact .refl w
  | cons j js ih => exact (fallbackToLocal_calm w j).trans (ih _)

theorem driveRemote_calm (w : World) (j : JobId) : Calm fs w (w.driveRemote j) := by
  unfold driveRemote
  split
  · exact .refl w
  split
  · exact modifyPool_calm w _
  · exact (beginRun_calm w j).trans (spawnTask_calm _ nofun)

/-- A job that wipes nothing here is sent to a server. -/
theorem dispatchToServer_calm (w : World) (offloader : OffloaderState) (j : JobId) (pin : Pin)
    (hj : ∀ a, w.fw.obj j = some a → a.wipesLocalBuildTree = false) :
    Calm fs w (w.dispatchToServer offloader j pin) := by
  unfold dispatchToServer
  split
  · exact modifyPool_calm w _
  · refine Calm.trans ?_ (modifyPool_calm _ _)
    refine Calm.trans ?_ (driveRemote_calm _ j)
    refine modifyJob_calm w j fun a ha => ⟨⟨rfl, fun hw => ?_⟩, id, id⟩
    rw [hj a ha] at hw
    cases hw

theorem dispatchOne_calm (offloader : OffloaderState) (s : World × Bool) (j : JobId)
    (hj : ∀ a, s.1.fw.obj j = some a → a.wipesLocalBuildTree = false) :
    Calm fs s.1 (dispatchOne offloader s j).1 := by
  unfold dispatchOne
  simp only
  split
  · exact .refl _
  split
  · exact modifyPool_calm _ _
  split
  · exact dispatchToServer_calm _ offloader j _ hj
  · exact fallbackToLocal_calm _ j
  · exact finalizeTerminal_calm _ _ j _ _
  · exact .refl _

theorem driveFinish_calm (w : World) (j : JobId) : Calm fs w (w.driveFinish j) := by
  unfold driveFinish
  simp only
  refine Calm.trans (modifyPool_calm w (·.release j)) ?_
  split
  · exact (modifyPool_calm _ (·.forgetLosses j)).trans (endRun_calm _ j)
  · exact endRun_calm _ j

theorem requeueAfterServerLoss_calm (w : World) (j : JobId) (reason : String) :
    Calm fs w (w.requeueAfterServerLoss j reason) := by
  unfold requeueAfterServerLoss
  simp only
  split
  · exact Calm.trans (finalizeTerminal_calm w _ j _ _) (modifyPool_calm _ (·.forgetLosses j))
  · refine Calm.trans (modifyPool_calm w (·.recordLoss j)) (Calm.trans ?_ (placeOnLane_calm _ j))
    exact modifyJob_calm _ j fun a _ => ⟨FirmwareJob.succeeds_of rfl (.inr nofun), nofun, fun _ => rfl⟩

theorem driveReturn_calm {r : World × RemoteOutcome} (h : Calm [] w r.1) (j : JobId) : CalmRun w (driveReturn j r) := by
  rcases r with ⟨v, pt | _ | reason | text⟩
  · exact ⟨h, nofun, rfl⟩
  · exact ⟨Calm.trans h (driveFinish_calm v j), nofun, rfl⟩
  · exact ⟨(Calm.trans h (requeueAfterServerLoss_calm v j reason)).trans (driveFinish_calm _ j), nofun, rfl⟩
  · refine ⟨(Calm.trans h ?_).trans (driveFinish_calm _ j), nofun, rfl⟩
    exact Calm.trans (note_calm v j (f := FirmwareJob.clearRunState) fun _ => ⟨rfl, rfl, rfl⟩)
      (fallbackToLocal_calm _ j)

/-! ### The gate, and the commands -/

/-- A worker at the gate goes on, or falls asleep with a job that is blocked. -/
theorem laneGate_calm (w : World) (l : LaneId) (j : JobId) : CalmRun w (w.laneGate l j) ∨
    ∃ job, w.fw.obj j = some job ∧ job.status ≠ .cancelled ∧ w.fw.uploadBlocked job = true ∧
      w.laneGate l j = ({ w with fw := { w.fw with buildGate := false } }, .laneGate l j false) := by
  have hskip : ∀ v : World, Calm [] w v → CalmRun w (v.laneReturn l, .laneIdle l) :=
    fun v hv => ⟨hv.trans (laneReturn_calm v l), nofun, rfl⟩
  have hexec : ∀ v : World, Calm [] w v → CalmRun w (v.executeJob l j) :=
    fun v hv => ⟨hv.trans (executeJob_calm v l j).calm, nofun, rfl⟩
  have hclear : Calm [] w { w with fw := { w.fw with buildGate := false } } := .of_eq rfl rfl rfl rfl
  unfold laneGate
  cases hj : w.fw.obj j with
  | none => exact .inl (hskip w (.refl w))
  | some job =>
    simp only
    by_cases hf : job.isNetworkFlash = true
    · rw [if_pos hf]
      by_cases hs : job.status = .cancelled
      · rw [if_pos hs]
        exact .inl (hskip _ hclear)
      · rw [if_neg hs]
        by_cases hb : ({ w.fw with buildGate := false } : FirmwareState).uploadBlocked job = true
        · rw [if_pos hb]
          exact .inr ⟨job, rfl, hs, hb, rfl⟩
        · rw [if_neg hb]
          exact .inl (hexec _ hclear)
    · rw [if_neg hf]
      by_cases hs : job.status = .cancelled
      · rw [if_pos hs]
        exact .inl (hskip w (.refl w))
      · rw [if_neg hs]
        exact .inl (hexec w (.refl w))

theorem laneTake_calm (w : World) (l : LaneId) : CalmRun w (w.laneTake l) ∨
    ∃ v j, Calm [] w v ∧ v.tasks = w.tasks ∧ (∃ job, v.fw.obj j = some job ∧ job.status ≠ .cancelled ∧
      v.fw.uploadBlocked job = true) ∧
      w.laneTake l = ({ v with fw := { v.fw with buildGate := false } }, .laneGate l j false) := by
  unfold laneTake
  simp only
  split
  · exact .inl ⟨.refl w, nofun, rfl⟩
  next j rest _ =>
    have htake : Calm [] w { w with fw := w.fw.setLane l { w.fw.lane l with queue := rest } } :=
      setLane_calm w l { w.fw.lane l with queue := rest }
    have hskip : CalmRun w (World.laneReturn { w with fw := w.fw.setLane l { w.fw.lane l with queue := rest } } l,
        .laneIdle l) := ⟨htake.trans (laneReturn_calm _ l), nofun, rfl⟩
    split
    · exact .inl hskip
    split
    · exact .inl hskip
    · rcases laneGate_calm { w with fw := w.fw.setLane l { w.fw.lane l with queue := rest } } l j with
        h | ⟨job, hj, hs, hb, he⟩
      · exact .inl ⟨htake.trans h.calm, h.awake, h.frames⟩
      · exact .inr ⟨_, j, htake, rfl, ⟨job, hj, hs, hb⟩, he⟩

/-- **A command starts**, but for `clear` and `reset_build_env`. -/
theorem startFrames_calm (w : World) {c : Command} (hc : ∀ s, c ≠ .clear s) (hr : c ≠ .resetBuildEnv) :
    CalmCall w (w.startFrames c) := by
  have hcreate : ∀ (job : FirmwareJob) supersede, CalmCall w ((w.createJob job).enqueue w.fw.fresh supersede) :=
    fun job supersede => createEnqueue_calm (.refl w) job supersede (Nat.le_refl _)
  cases c with
  | compile configuration forceLocal => exact enqueueCompile_calm w _ _ _
  | analyzeMemory configuration => exact enqueueCompile_calm w _ _ _
  | upload configuration port bootloader => exact hcreate _ true
  | install configuration port forceLocal bootloader => exact enqueueInstallOrDefer_calm w _ _ _ _
  | clean configuration => exact .suspended (setQueuedUpdate_calm w _ _) (plainStack_one trivial)
  | resetBuildEnv => exact absurd rfl hr
  | rename configuration newName =>
    simp only [startFrames]
    split
    · exact .raised (.refl w) _
    · exact .suspended (.refl w) (plainStack_one trivial)
  | cancel j => exact cancelStart_calm w j .user
  | clear status => exact absurd rfl (hc status)
  | clearQueuedUpdate configuration => exact .returned (setQueuedUpdate_calm w _ _)
  | resetPeerBuildEnv pin =>
    simp only [startFrames]
    split
    · exact .raised (.refl w) _
    split
    · exact .raised (.refl w) _
    · exact hcreate _ false
  | peerSubmit peer configuration jobType skipBootloader =>
    simp only [startFrames]
    split
    · exact .raised (.refl w) _
    · exact hcreate _ true
  | peerReset peer =>
    simp only [startFrames]
    split
    · exact .raised (.refl w) _
    · have hd : Calm [] w w.disarmAllQueuedUpdates := .of_eq rfl rfl rfl rfl
      exact createEnqueue_calm hd _ false (Nat.le_refl _)

end World

end DeviceBuilder
