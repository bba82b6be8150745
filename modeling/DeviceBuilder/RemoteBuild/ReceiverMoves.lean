import DeviceBuilder.RemoteBuild.PairingMoves
import DeviceBuilder.RemoteBuild.ReceiverStep

/-!
# What a step of the receiver leaves alone

Handlers touch one session, one upload and the firmware queue; the registry
changes in three places only. `Handled o n d w w'` is what every other code path
of session `n` with dashboard id `d` respects, and it composes.

* `Handled`: registry, pairings and other uploads are left alone, and all work
  is for session `n`.
* `step_cases`: a step is `Handled`, or registers, announces or unregisters a
  session, or is a step of the pair flow.
-/

namespace DeviceBuilder

/-- Whom a coroutine of a connection serves: a dialler, or a session. -/
inductive Client
  | dialler (d : DashboardId)
  | session (n : SessionId)
  deriving DecidableEq

/-- The client of a coroutine that reads frames, or will. -/
def ReceiverTask.client : ReceiverTask → Option Client
  | .handshake d _ => some (.dialler d)
  | .session _ .finish => none
  | .session n _ => some (.session n)
  | _ => none

/-- The awaited call returns. -/
def AwaitResult.returns : AwaitResult → Bool
  | .ok | .locked => true
  | _ => false

/-- An event that is no registry event and no work for another session than `n`. -/
def ReceiverEvent.Quiet (n : SessionId) : ReceiverEvent → Prop
  | .opened .. | .closed _ => False
  | .work m => m = n
  | _ => True

namespace ReceiverWorld

variable {cfg : PairingSettings} {w w' w'' : ReceiverWorld} {i : ℕ} {n m : SessionId}
  {d : DashboardId} {e : ReceiverEvent} {t : ReceiverTask} {o : Prop}

/-- The header passes the checks of `handle_submit_job` that follow the path check. -/
structure Records (w : ReceiverWorld) (lib : Library) (d : DashboardId) (f : SubmitJobFrame) : Prop where
  free : w.inflight.get? d = none
  fresh : w.extractIndex.get? (d, f.jobId) = none
  target : f.target ≠ "upload"
  jobType : targetToJobType f.target ≠ none
  assembler : ∃ a, BundleAssembler.create f.totalBundleBytes f.numChunks
    (lib.lower f.bundleSha256) bundleMaxTotalBytes = .ok a

/-- What the code of session `n` for `d` respects. It records an upload only if `o`. -/
structure Handled (o : Prop) (n : SessionId) (d : DashboardId) (w w' : ReceiverWorld) : Prop where
  slots : w'.peerLinkSessions = w.peerLinkSessions
  ids : ∀ m, w'.dashboardId m = w.dashboardId m
  unregistered : ∀ m, w'.isUnregistered m = w.isUnregistered m
  count : w'.sessions.length = w.sessions.length
  pairing : w'.pairing = w.pairing
  uploads : ∀ d' u', w'.inflight.get? d' = some u' →
    (∃ u, w.inflight.get? d' = some u ∧ u.openedBy = u'.openedBy) ∨ o ∧ d' = d ∧ u'.openedBy = n
  log : ∃ es, w'.log = w.log ++ es ∧ ∀ e ∈ es, e.Quiet n
  clients : ∀ t' ∈ w'.tasks, ∀ c, t'.client = some c →
    c = .session n ∨ ∃ t ∈ w.tasks, t.client = some c

namespace Handled

theorem refl (o : Prop) (n : SessionId) (d : DashboardId) (w : ReceiverWorld) : Handled o n d w w where
  slots := rfl
  ids := fun _ => rfl
  unregistered := fun _ => rfl
  count := rfl
  pairing := rfl
  uploads := fun _ u h => .inl ⟨u, h, rfl⟩
  log := ⟨[], (List.append_nil _).symm, nofun⟩
  clients := fun t ht _ hc => .inr ⟨t, ht, hc⟩

theorem trans (h : Handled o n d w w') (h' : Handled o n d w' w'') : Handled o n d w w'' where
  slots := h'.slots.trans h.slots
  ids := fun m => (h'.ids m).trans (h.ids m)
  unregistered := fun m => (h'.unregistered m).trans (h.unregistered m)
  count := h'.count.trans h.count
  pairing := h'.pairing.trans h.pairing
  uploads := by
    intro d' u'' hu
    rcases h'.uploads d' u'' hu with ⟨u', hu', ho'⟩ | hn
    · rcases h.uploads d' u' hu' with ⟨u, hu, ho⟩ | ⟨hp, hd, ho⟩
      · exact .inl ⟨u, hu, ho.trans ho'⟩
      · exact .inr ⟨hp, hd, ho'.symm.trans ho⟩
    · exact .inr hn
  log := by
    obtain ⟨es, hes, hq⟩ := h.log
    obtain ⟨es', hes', hq'⟩ := h'.log
    refine ⟨es ++ es', by rw [hes', hes, List.append_assoc], fun e he => ?_⟩
    rcases List.mem_append.1 he with he | he
    · exact hq e he
    · exact hq' e he
  clients := by
    intro t'' ht c hc
    rcases h'.clients t'' ht c hc with hn | ⟨t', ht', hc'⟩
    · exact .inl hn
    · exact h.clients t' ht' c hc'

/-- A change of fields the relation does not look at. -/
theorem fields (h₁ : w'.peerLinkSessions = w.peerLinkSessions) (h₂ : w'.sessions = w.sessions)
    (h₃ : w'.pairing = w.pairing) (h₄ : w'.inflight = w.inflight) (h₅ : w'.log = w.log)
    (h₆ : w'.tasks = w.tasks) : Handled o n d w w' where
  slots := h₁
  ids := fun m => by unfold dashboardId; rw [h₂]
  unregistered := fun m => by unfold isUnregistered; rw [h₂]
  count := by rw [h₂]
  pairing := h₃
  uploads := fun _ u h => .inl ⟨u, h₄ ▸ h, rfl⟩
  log := ⟨[], by rw [h₅, List.append_nil], nofun⟩
  clients := fun t ht _ hc => .inr ⟨t, h₆ ▸ ht, hc⟩

theorem emit (h : Handled o n d w w') (he : e.Quiet n) : Handled o n d w (w'.emit e) :=
  h.trans { refl o n d w' with
    log := ⟨[e], rfl, fun e' he' => by rw [List.mem_singleton.1 he']; exact he⟩ }

theorem setTask (h : Handled o n d w w') (ht : ∀ c, t.client = some c → c = .session n) :
    Handled o n d w (w'.setTask i t) :=
  h.trans { refl o n d w' with
    clients := by
      intro t' ht' c hc
      rcases List.mem_or_eq_of_mem_set ht' with ht' | rfl
      · exact .inr ⟨t', ht', hc⟩
      · exact .inl (ht c hc) }

theorem spawn (h : Handled o n d w w') (ht : t.client = none) : Handled o n d w (w'.spawn t) :=
  h.trans { refl o n d w' with
    clients := by
      intro t' ht' c hc
      rcases List.mem_append.1 ht' with ht' | ht'
      · exact .inr ⟨t', ht', hc⟩
      · rw [List.mem_singleton.1 ht', ht] at hc
        cases hc }

theorem session (h : Handled o n d w w') (a : SessionAwait) : Handled o n d w (w'.setTask i (.session n a)) :=
  h.setTask fun c hc => by
    cases a with
    | finish => cases hc
    | _ => exact (Option.some.inj hc).symm

theorem setClosing (h : Handled o n d w w') : Handled o n d w (w'.setClosing m) :=
  h.trans { refl o n d w' with
    ids := fun k => by
      simp only [dashboardId, ReceiverWorld.setClosing, List.getElem?_modify]
      cases w'.sessions[k]? with
      | none => rfl
      | some s => by_cases hk : m = k <;> simp [hk]
    unregistered := fun k => by
      simp only [isUnregistered, ReceiverWorld.setClosing, List.getElem?_modify]
      cases w'.sessions[k]? with
      | none => rfl
      | some s => by_cases hk : m = k <;> simp [hk]
    count := by simp [ReceiverWorld.setClosing] }

theorem terminate (h : Handled o n d w w') : Handled o n d w (w'.terminate m).2 := by
  unfold ReceiverWorld.terminate
  split
  · exact h
  · exact h.setClosing

theorem sendAppFrame (h : Handled o n d w w') (he : e.Quiet n) : Handled o n d w (w'.sendAppFrame m e) := by
  unfold ReceiverWorld.sendAppFrame
  split
  · exact h
  · exact h.emit he

theorem dropUpload (h : Handled o n d w w') (d' : DashboardId) :
    Handled o n d w { w' with inflight := w'.inflight.erase d' } :=
  h.trans { refl o n d w' with uploads := fun _ u hu => .inl ⟨u, (Dict.of_get?_erase hu).2, rfl⟩ }

/-! ### Handlers -/

theorem reject (h : Handled o n d w w') (jobId reason : String) (drop term : Bool) :
    Handled o n d w (w'.reject i n d jobId reason drop term) := by
  unfold ReceiverWorld.reject
  apply session
  refine sendAppFrame ?_ trivial
  cases drop with
  | true => exact h.dropUpload d
  | false => exact h

theorem handleSubmitJob (lib : Library) (h : Handled o n d w w') (safe : String) (f : Option SubmitJobFrame) :
    Handled o n d w (w'.handleSubmitJob lib i n d safe f) := by
  unfold ReceiverWorld.handleSubmitJob
  split
  · exact h.reject ..
  · split
    · exact h.reject ..
    · exact h.session _

/-- The upload a header registers is the session's own. -/
theorem openUpload (h : Handled o n d w w') (hp : o) {u : PendingSubmit} (hu : u.openedBy = n) :
    Handled o n d w { w' with inflight := w'.inflight.set d u } :=
  h.trans { refl o n d w' with
    uploads := by
      intro d' u' hd
      rw [Dict.get?_set] at hd
      split at hd
      next he =>
        obtain rfl : u = u' := Option.some.inj hd
        exact .inr ⟨hp, by simpa using he, hu⟩
      next => exact .inl ⟨u', hd, rfl⟩ }

theorem registerUpload (lib : Library) (h : Handled o n d w w') (f : SubmitJobFrame) (stem : String)
    (esc : Bool) (ho : esc = false → w'.Records lib d f → o) :
    Handled o n d w (w'.registerUpload lib i n d f stem esc) := by
  unfold ReceiverWorld.registerUpload
  simp only
  split
  · exact h.reject ..
  split
  · exact h.reject ..
  split
  · exact h.reject ..
  split
  · exact h.reject ..
  split
  · exact h.reject ..
  next he hd hu ht _ a ha =>
    rw [not_or, Option.not_isSome_iff_eq_none, Option.not_isSome_iff_eq_none] at hd
    have hp : o := ho (eq_false_of_ne_true he) ⟨hd.1, hd.2, hu, ht, a, ha⟩
    exact ((h.openUpload hp rfl).emit (show ReceiverEvent.Quiet n (.work n) from rfl)).session _

theorem rejectAssembler (h : Handled o n d w w') (jobId : String) (code : BundleAssemblerErrorCode) :
    Handled o n d w (w'.rejectAssembler i n d jobId code) := h.reject ..

theorem finaliseAndQueue (lib : Library) (h : Handled o n d w w') (u : PendingSubmit) :
    Handled o n d w (w'.finaliseAndQueue lib i n d u) := by
  have hd : Handled o n d w { w' with inflight := w'.inflight.erase d } := h.dropUpload d
  unfold ReceiverWorld.finaliseAndQueue
  simp only
  split
  · exact hd.session _
  split
  · exact hd.rejectAssembler ..
  · exact (hd.sendAppFrame (by exact trivial)).session _

/-- Feeding an assembler leaves its upload to the session that opened it. -/
theorem feedUpload (h : Handled o n d w w') {u u' : PendingSubmit} (hu : w'.inflight.get? d = some u)
    (ho : u'.openedBy = u.openedBy) :
    Handled o n d w { w' with inflight := w'.inflight.adjust d fun _ => u' } :=
  h.trans { refl o n d w' with
    uploads := by
      intro d' v hv
      rw [Dict.get?_adjust] at hv
      split at hv
      next he =>
        obtain rfl : d' = d := by simpa using he
        rw [hu] at hv
        obtain rfl : u' = v := Option.some.inj hv
        exact .inl ⟨u, hu, ho.symm⟩
      next => exact .inl ⟨v, hv, rfl⟩ }

theorem handleSubmitJobChunk (lib : Library) (h : Handled o n d w w') (safe : String)
    (f : Option SubmitJobChunkFrame) : Handled o n d w (w'.handleSubmitJobChunk lib i n d safe f) := by
  unfold ReceiverWorld.handleSubmitJobChunk
  split
  · exact h.reject ..
  split
  · exact h.reject ..
  next u hu =>
  split
  · exact h.reject ..
  split
  · exact h.reject ..
  next frame _ _ _ raw _ =>
  have hf : Handled o n d w { w' with
      inflight := w'.inflight.adjust d fun _ =>
        { u with assembler := (u.assembler.feed frame.chunkIndex raw frame.isLast).2 } } :=
    h.feedUpload hu rfl
  simp only
  split
  · exact hf.rejectAssembler ..
  split
  · exact (hf.emit (by exact rfl)).finaliseAndQueue ..
  · exact (hf.emit (by exact rfl)).session _

theorem spawnExtract (h : Handled o n d w w') (u : PendingSubmit) : Handled o n d w (w'.spawnExtract n d u) := by
  unfold ReceiverWorld.spawnExtract
  simp only
  split
  · exact h
  · have hx : Handled o n d w
        { w' with extractIndex := w'.extractIndex.set (d, u.jobId) w'.tasks.length } :=
      h.trans (fields rfl rfl rfl rfl rfl rfl)
    exact (hx.emit (show ReceiverEvent.Quiet n (.work n) from rfl)).spawn rfl

/-! ### Jobs -/

theorem enqueueJob (h : Handled o n d w w') (key : ExtractKey) (jt : JobType) :
    Handled o n d w (w'.enqueueJob key jt).2 := by
  unfold ReceiverWorld.enqueueJob
  refine emit ?_ trivial
  exact h.trans (fields rfl rfl rfl rfl rfl rfl)

theorem cancelFirmware (h : Handled o n d w w') (job : JobId) : Handled o n d w (w'.cancelFirmware job).2 := by
  unfold ReceiverWorld.cancelFirmware
  split
  · exact h
  split
  all_goals first | exact h | exact h.trans (fields rfl rfl rfl rfl rfl rfl)

theorem cancelFirmwareDone (h : Handled o n d w w') (job : JobId) : Handled o n d w (w'.cancelFirmwareDone job) := by
  unfold ReceiverWorld.cancelFirmwareDone
  split
  · exact h
  split
  · exact h.trans (fields rfl rfl rfl rfl rfl rfl)
  · exact h

theorem cancelExtract (h : Handled o n d w w') (key : ExtractKey) : Handled o n d w (w'.cancelExtract key).2 := by
  unfold ReceiverWorld.cancelExtract
  split
  · exact h
  split
  · exact h
  · exact h.trans (fields rfl rfl rfl rfl rfl rfl)

theorem handleCancelJob (h : Handled o n d w w') (jobId : Option String) :
    Handled o n d w (w'.handleCancelJob i n d jobId) := by
  cases jobId with
  | none => exact h.session _
  | some jobId =>
    unfold ReceiverWorld.handleCancelJob
    simp only
    split
    · have hx := h.cancelExtract (d, jobId)
      split
      next heq => rw [heq] at hx; exact (hx.emit (by exact rfl)).session _
      next heq => rw [heq] at hx; exact hx.session _
    · next job _ =>
      have hx := h.cancelFirmware job
      split
      next heq => rw [heq] at hx; exact (hx.emit (by exact rfl)).session _
      next heq => rw [heq] at hx; exact hx.session _

theorem ended (h : Handled o n d w w') (k : ℕ) : Handled o n d w (w'.setTask k .ended) := h.setTask nofun

/-- The handler's own `terminate`. -/
theorem stop (h : Handled o n d w w') : Handled o n d w (match w'.terminate n with
    | (true, w) => w.setTask i (.session n (.terminate false))
    | (false, w) => w.setTask i (.session n .receive)) := by
  have hx := h.terminate (m := n)
  split
  next heq => rw [heq] at hx; exact hx.session _
  next heq => rw [heq] at hx; exact hx.session _

theorem leaveLoop (h : Handled o n d w w') : Handled o n d w (w'.leaveLoop i n) := h.session _

theorem handleDownloadArtifacts (h : Handled o n d w w') (lj : LocalJobs) (jobId : Option String) :
    Handled o n d w (w'.handleDownloadArtifacts i n d lj jobId) := by
  cases jobId with
  | none => exact h.stop
  | some jobId =>
    unfold ReceiverWorld.handleDownloadArtifacts
    simp only
    split
    · exact h.session _
    split
    · exact h.session _
    split
    · exact h.session _
    split
    · exact h.session _
    split
    · exact h.session _
    · have hx : Handled o n d w { w' with downloads := w'.downloads.set d w'.tasks.length } :=
        h.trans (fields rfl rfl rfl rfl rfl rfl)
      exact ((hx.emit (show ReceiverEvent.Quiet n (.work n) from rfl)).session _).spawn rfl

theorem handleResetBuildEnv (h : Handled o n d w w') (lj : LocalJobs) (jobId : Option String) :
    Handled o n d w (w'.handleResetBuildEnv i n d lj jobId) := by
  cases jobId with
  | none => exact h.session _
  | some jobId =>
    unfold ReceiverWorld.handleResetBuildEnv
    simp only
    split
    · exact h.session _
    · exact ((h.enqueueJob _ _).emit (show ReceiverEvent.Quiet n (.work n) from rfl)).session _

/-- **Frames.** What session `n` receives changes nothing of the registry. -/
theorem receiveFrame (cfg : PairingSettings) (h : Handled o n d w w') (lj : LocalJobs) (f : AppFrame) :
    Handled o n d w (w'.receiveFrame cfg i n d lj f) := by
  unfold ReceiverWorld.receiveFrame
  split
  · have hx := h.terminate (m := n)
    split
    next heq => rw [heq] at hx; exact hx.session _
    next heq => rw [heq] at hx; exact hx.leaveLoop
  · exact h
  · exact h
  · exact h.session _
  · exact h.setClosing.leaveLoop
  · exact h.handleSubmitJob ..
  · exact h.handleSubmitJobChunk ..
  · exact h.handleCancelJob _
  · exact h.handleDownloadArtifacts ..
  · exact h.handleResetBuildEnv ..

/-- **Sessions.** A session that runs on changes nothing of the registry, but at the end of its
registration and at its own end. -/
theorem resumeSession (cfg : PairingSettings) (h : Handled o n d w w') {a : SessionAwait} {r : AwaitResult}
    (ho : ∀ f stem, a = .resolve f stem → r.returns = true → w'.Records cfg.lib d f → o)
    (hr : ¬(a = .register ∧ r.returns = true)) (hf : a ≠ .finish) :
    Handled o n d w (w'.resumeSession cfg i n d a r) := by
  unfold ReceiverWorld.resumeSession
  split
  · exact absurd ⟨rfl, rfl⟩ hr
  · exact absurd ⟨rfl, rfl⟩ hr
  · exact h.ended i
  · exact absurd rfl hf
  · exact h
  · exact h
  · exact h.registerUpload _ _ _ _ fun _ => ho _ _ rfl rfl
  · exact h.registerUpload _ _ _ _ fun _ => ho _ _ rfl rfl
  · exact h.registerUpload _ _ _ _ nofun
  · exact h.session _
  · exact h.session _
  · exact h.stop
  · exact h.stop
  · exact (h.spawnExtract _).session _
  · exact (h.spawnExtract _).session _
  · exact h.leaveLoop
  · exact h.leaveLoop
  · exact h.session _
  · exact h.session _
  · exact (h.cancelFirmwareDone _).session _
  · exact (h.cancelFirmwareDone _).session _
  · exact h.session _
  · exact h.session _
  · apply session
    exact h.trans (fields rfl rfl rfl rfl rfl rfl)
  · apply session
    exact h.trans (fields rfl rfl rfl rfl rfl rfl)
  · exact h.leaveLoop

/-! ### The post-ack task -/

variable {key : ExtractKey} {u : PendingSubmit}

theorem extractTask (h : Handled o n d w w') (k : ℕ) (m : SessionId) (a : ExtractAwait) :
    Handled o n d w (w'.setTask k (.extract key m u a)) :=
  h.setTask nofun

theorem consume (h : Handled o n d w w') (key : ExtractKey) : Handled o n d w (w'.consume key).2 :=
  h.trans (fields rfl rfl rfl rfl rfl rfl)

theorem releaseLock (h : Handled o n d w w') (k : ℕ) (d' : DashboardId) :
    Handled o n d w (w'.releaseLock k d') := h.trans (fields rfl rfl rfl rfl rfl rfl)

theorem handoff (h : Handled o n d w w') (key : ExtractKey) : Handled o n d w (w'.handoff key) :=
  h.trans (fields rfl rfl rfl rfl rfl rfl)

theorem endExtract (h : Handled o n d w w') : Handled o n d w (w'.endExtract i key) :=
  (h.consume key).ended i

theorem reportTerminal (h : Handled o n d w w') (status : JobStatus) :
    Handled o n d w (w'.reportTerminal i key m u status) := by
  unfold ReceiverWorld.reportTerminal
  apply extractTask
  exact sendAppFrame h trivial

theorem giveUp (h : Handled o n d w w') (status : JobStatus) :
    Handled o n d w (w'.giveUp i key m u status) := (h.releaseLock i key.1).reportTerminal status

theorem extractAndQueue (h : Handled o n d w w') : Handled o n d w (w'.extractAndQueue i key m u) := by
  have hx := h.consume key
  unfold ReceiverWorld.extractAndQueue
  split
  next heq => rw [heq] at hx; exact hx.giveUp _
  next heq => rw [heq] at hx; exact hx.extractTask ..

theorem runPostAckExtract (h : Handled o n d w w') : Handled o n d w (w'.runPostAckExtract i key m u) := by
  have hx := h.consume key
  unfold ReceiverWorld.runPostAckExtract
  split
  next heq => rw [heq] at hx; exact hx.reportTerminal _
  next w₁ heq =>
    rw [heq] at hx
    have hl : Handled o n d w { w₁ with extractLocks := w₁.extractLocks.set key.1 (w₁.lockQueue key.1 ++ [i]) } :=
      hx.trans (fields rfl rfl rfl rfl rfl rfl)
    simp only
    split
    · exact hl.extractAndQueue
    · exact hl.extractTask ..

theorem queueExtracted (h : Handled o n d w w') (locked : Bool) :
    Handled o n d w (w'.queueExtracted i key m u locked) := by
  have hx := h.consume key
  unfold ReceiverWorld.queueExtracted
  split
  next heq => rw [heq] at hx; exact hx.giveUp _
  next heq =>
    rw [heq] at hx
    split
    · exact hx.giveUp _
    split
    · exact hx.giveUp _
    · exact (hx.enqueueJob _ _).extractTask ..

theorem handOver (h : Handled o n d w w') (job : JobId) : Handled o n d w (w'.handOver i key m u job) := by
  have hx := ((h.releaseLock i key.1).handoff key).consume key
  unfold ReceiverWorld.handOver
  split
  next heq => rw [heq] at hx; exact hx.ended i
  next heq =>
    rw [heq] at hx
    have hc := hx.cancelFirmware job
    split
    next heq => rw [heq] at hc; exact hc.extractTask ..
    next heq => rw [heq] at hc; exact hc.ended i
    next heq => rw [heq] at hc; exact hc.reportTerminal _

/-- **The post-ack task** changes nothing of the registry. -/
theorem resumeExtract (h : Handled o n d w w') (a : ExtractAwait) (r : AwaitResult) :
    Handled o n d w (w'.resumeExtract i key m u a r) := by
  unfold ReceiverWorld.resumeExtract
  split
  · exact h.ended i
  · exact h.runPostAckExtract
  · exact (h.releaseLock ..).endExtract
  · split
    · exact h.extractAndQueue
    · exact h
  · exact (h.releaseLock ..).endExtract
  · exact h.giveUp _
  · exact h.extractTask ..
  · exact (h.releaseLock ..).endExtract
  · exact h.giveUp _
  · exact h.giveUp _
  · exact h.queueExtracted _
  · exact (h.releaseLock ..).endExtract
  · exact h.giveUp _
  · exact h.handOver _
  · exact (h.cancelFirmwareDone _).endExtract
  · exact h.endExtract
  · exact h.endExtract

end Handled

/-! ### Steps -/

/-- What a step does: run code that leaves the registry alone, for a session or for none; register,
announce or unregister a session; or a step of the pair flow, which may accept a dialler. -/
inductive Stepped (cfg : PairingSettings) (w : ReceiverWorld) (a : ReceiverAction) (w' : ReceiverWorld) : Prop
  | idle (h : ∀ n d, Handled False n d w w')
  | serve (i : ℕ) (n : SessionId) (d : DashboardId) (await : SessionAwait)
      (ht : w.tasks[i]? = some (.session n await)) (hf : await ≠ .finish) (hd : w.dashboardId n = some d)
      (h : Handled (∃ r f stem, a = .resume i r ∧ await = .resolve f stem ∧ r.returns = true ∧
        w.Records cfg.lib d f) n d w w')
  | register (i : ℕ) (r : AwaitResult) (d : DashboardId) (identity : SessionIdentity) (ha : a = .resume i r)
      (hr : r.returns = true) (ht : w.tasks[i]? = some (.handshake d identity)) (h : w' = w.registerPeerLinkSession i d identity)
  | announce (i : ℕ) (r : AwaitResult) (n : SessionId) (d : DashboardId) (ha : a = .resume i r)
      (hr : r.returns = true) (ht : w.tasks[i]? = some (.session n .register))
      (hd : w.dashboardId n = some d) (h : w' = w.announceSession i n)
  | unregister (i : ℕ) (n : SessionId) (d : DashboardId) (ht : w.tasks[i]? = some (.session n .finish))
      (hd : w.dashboardId n = some d) (h : w' = (w.unregisterPeerLinkSession n).setTask i .ended)
  | pairing (a' : PairAction) (ha : a = .pairing a')
      (h : w' = { w with pairing := w.pairing.step cfg a' })
  | handshake (d : DashboardId) (pub : PublicKey) (identity : SessionIdentity) (ha : a = .handshake d pub identity)
      (h : w' = w.step cfg a)

theorem step_resume (cfg : PairingSettings) {r : AwaitResult} (ht : w.tasks[i]? = some t) :
    w.step cfg (.resume i r) = w.resumeTask cfg i r t := by
  simp only [step, ht]

theorem step_resume_none (cfg : PairingSettings) {r : AwaitResult} (ht : w.tasks[i]? = none) :
    w.step cfg (.resume i r) = w := by
  simp only [step, ht]

theorem resume_cases (cfg : PairingSettings) (w : ReceiverWorld) (i : ℕ) (r : AwaitResult) :
    Stepped cfg w (.resume i r) (w.step cfg (.resume i r)) := by
  cases ht : w.tasks[i]? with
  | none =>
    rw [step_resume_none cfg ht]
    exact .idle fun n d => .refl ..
  | some t =>
    rw [step_resume cfg ht]
    cases t with
    | handshake d identity =>
      cases r
      all_goals first
        | exact .register i _ d identity rfl rfl ht rfl
        | exact .idle fun n d => (Handled.refl ..).ended i
    | session n await =>
      unfold resumeTask
      simp only
      cases hd : w.dashboardId n with
      | none => exact .idle fun n d => .refl ..
      | some d =>
        simp only
        by_cases hr : await = .register ∧ r.returns = true
        · obtain ⟨rfl, hr⟩ := hr
          refine .announce i r n d rfl hr ht hd ?_
          cases r with
          | ok => rfl
          | locked => rfl
          | _ => cases hr
        by_cases hf : await = .finish
        · subst hf
          refine .unregister i n d ht hd ?_
          cases r <;> rfl
        · refine .serve i n d await ht hf hd ((Handled.refl ..).resumeSession cfg ?_ hr hf)
          exact fun f stem ha hr hrec => ⟨r, f, stem, rfl, ha, hr, hrec⟩
    | extract key n u await => exact .idle fun _ _ => (Handled.refl ..).resumeExtract await r
    | download d =>
      refine .idle fun _ _ => Handled.ended ?_ i
      split
      · exact .fields rfl rfl rfl rfl rfl rfl
      · exact .refl ..
    | ended => exact .idle fun n d => .refl ..

/-- **Every step** is of one of these kinds. -/
theorem step_cases (cfg : PairingSettings) (w : ReceiverWorld) (a : ReceiverAction) :
    Stepped cfg w a (w.step cfg a) := by
  have served {i : ℕ} (f : SessionId → DashboardId → ReceiverWorld)
      (hf : ∀ n d o, Handled o n d w (f n d)) : Stepped cfg w a (w.atReceive i f) := by
    unfold atReceive
    split
    next n ht =>
      split
      next d hd => exact .serve i n d .receive ht nofun hd (hf ..)
      next => exact .idle fun n d => .refl ..
    next => exact .idle fun n d => .refl ..
  cases a with
  | pairing a' => exact .pairing a' rfl rfl
  | handshake d pub identity => exact .handshake d pub identity rfl rfl
  | frame i f lj => exact served _ fun n d o => (Handled.refl ..).receiveFrame cfg lj f
  | wsClosed i => exact served _ fun n d o => (Handled.refl ..).leaveLoop
  | heartbeatDead i =>
    simp only [step]
    split
    · split
      · exact .idle fun n d => .refl ..
      · exact .idle fun n d => (Handled.refl ..).terminate
    · exact .idle fun n d => .refl ..
  | resume i r => exact resume_cases cfg w i r
  | dropIndex i =>
    simp only [step]
    split
    · exact .idle fun n d => .fields rfl rfl rfl rfl rfl rfl
    · exact .idle fun n d => .refl ..
  | stopExtracts => exact .idle fun n d => .fields rfl rfl rfl rfl rfl rfl
  | jobStart job => exact .idle fun n d => .fields rfl rfl rfl rfl rfl rfl
  | jobFinish job status =>
    simp only [step]
    split
    · exact .idle fun n d => .refl ..
    · split
      · exact .idle fun n d => .fields rfl rfl rfl rfl rfl rfl
      · exact .idle fun n d => .refl ..
  | jobRemove job =>
    simp only [step]
    split
    · exact .idle fun n d => .refl ..
    · split
      · exact .idle fun n d => .refl ..
      · exact .idle fun n d => .fields rfl rfl rfl rfl rfl rfl

/-! ### The registry -/

/-- The session is built and holds the slot; it has not announced itself. -/
def install (w : ReceiverWorld) (d : DashboardId) (identity : SessionIdentity) : ReceiverWorld :=
  { w with
    sessions := w.sessions ++ [{ dashboardId := d, identity := identity }]
    peerLinkSessions := w.peerLinkSessions.set d w.sessions.length }

theorem install_dashboardId (d : DashboardId) (identity : SessionIdentity) (m : SessionId) :
    (w.install d identity).dashboardId m = if m = w.sessions.length then some d else w.dashboardId m := by
  unfold dashboardId install
  rcases Nat.lt_trichotomy m w.sessions.length with hm | hm | hm
  · rw [List.getElem?_append_left hm, if_neg (Nat.ne_of_lt hm)]
  · rw [if_pos hm, hm, List.getElem?_concat_length]
    rfl
  · rw [if_neg (Nat.ne_of_gt hm), List.getElem?_eq_none (by simp; omega), List.getElem?_eq_none (by omega)]

theorem install_unregistered (d : DashboardId) (identity : SessionIdentity) (m : SessionId) :
    (w.install d identity).isUnregistered m = w.isUnregistered m := by
  unfold isUnregistered install
  rcases Nat.lt_trichotomy m w.sessions.length with hm | hm | hm
  · rw [List.getElem?_append_left hm]
  · rw [hm, List.getElem?_concat_length, List.getElem?_eq_none (by omega)]
    rfl
  · rw [List.getElem?_eq_none (by simp; omega), List.getElem?_eq_none (by omega)]

/-- What announcing a session does. -/
structure Announced (i : ℕ) (n : SessionId) (d : DashboardId) (w w' : ReceiverWorld) : Prop where
  slots : w'.peerLinkSessions = w.peerLinkSessions
  sessions : w'.sessions = w.sessions
  inflight : w'.inflight = w.inflight
  extractIndex : w'.extractIndex = w.extractIndex
  tasks : w'.tasks = w.tasks.set i (.session n .receive)
  log : ∃ name addon, w'.log = w.log ++ [.opened d name addon]
  pairing : ∃ identity, w'.pairing = w.pairing.refreshPeerDisplayIdentity d identity

theorem announced (hd : w.dashboardId n = some d) : Announced i n d w (w.announceSession i n) := by
  unfold dashboardId at hd
  obtain ⟨s, hs, rfl⟩ := Option.map_eq_some_iff.1 hd
  unfold announceSession
  rw [hs]
  exact ⟨rfl, rfl, rfl, rfl, rfl, ⟨_, _, rfl⟩, ⟨_, rfl⟩⟩

/-- **Registering**: the session is installed; it announces itself at once, or the session in its slot
is told to close first. -/
theorem register_cases (w : ReceiverWorld) (i : ℕ) (d : DashboardId) (identity : SessionIdentity) :
    let n := w.sessions.length
    let w₁ := w.install d identity
    Announced i n d w₁ (w.registerPeerLinkSession i d identity) ∨
    (w.peerLinkSessions.get? d).isSome ∧ (w.registerPeerLinkSession i d identity).log = w.log ∧
      ∀ o, Handled o n d w₁ (w.registerPeerLinkSession i d identity) := by
  intro n w₁
  have hn : w₁.dashboardId n = some d := by rw [install_dashboardId, if_pos rfl]
  unfold registerPeerLinkSession
  simp only
  split
  · exact .inl (announced hn)
  next m hm =>
    unfold terminate
    split
    next h =>
      split at h
      · cases h
      · obtain ⟨-, rfl⟩ := Prod.mk.inj h
        exact .inr ⟨by rw [hm]; rfl, rfl, fun o => (Handled.refl ..).setClosing.session _⟩
    next h =>
      split at h
      · obtain ⟨-, rfl⟩ := Prod.mk.inj h
        exact .inl (announced hn)
      · cases h

/-- What `unregister_peer_link_session` does, to the registry and to the uploads. -/
structure Unregistered (n : SessionId) (d : DashboardId) (w w' : ReceiverWorld) : Prop where
  ids : ∀ m, w'.dashboardId m = w.dashboardId m
  flags : ∀ m, w'.isUnregistered m = (decide (m = n) && (w.dashboardId m).isSome || w.isUnregistered m)
  pairing : w'.pairing = w.pairing
  clients : ∀ t' ∈ w'.tasks, ∀ c, t'.client = some c → ∃ t ∈ w.tasks, t.client = some c
  effect : w.peerLinkSessions.get? d = some n ∧ w'.peerLinkSessions = w.peerLinkSessions.erase d ∧
      w'.inflight = w.inflight.erase d ∧ w'.log = w.log ++ [.closed d] ∨
    w.peerLinkSessions.get? d ≠ some n ∧ w'.peerLinkSessions = w.peerLinkSessions ∧
      w'.inflight = w.inflight ∧ w'.log = w.log

theorem mark_dashboardId (m : SessionId) : dashboardId { w with
    sessions := w.sessions.modify n fun s => { s with unregistered := true } } m = w.dashboardId m := by
  simp only [dashboardId, List.getElem?_modify]
  cases w.sessions[m]? with
  | none => rfl
  | some s => by_cases hk : n = m <;> simp [hk]

theorem mark_unregistered (m : SessionId) : isUnregistered { w with
    sessions := w.sessions.modify n fun s => { s with unregistered := true } } m =
      (decide (m = n) && (w.dashboardId m).isSome || w.isUnregistered m) := by
  simp only [isUnregistered, dashboardId, List.getElem?_modify]
  cases w.sessions[m]? with
  | none => simp
  | some s =>
    by_cases hk : n = m
    · simp [hk]
    · simp [hk, Ne.symm hk]

theorem ended_clients {w : ReceiverWorld} {t' : ReceiverTask} (ht : t' ∈ (w.setTask i .ended).tasks) {c : Client}
    (hc : t'.client = some c) : ∃ t ∈ w.tasks, t.client = some c := by
  rcases List.mem_or_eq_of_mem_set ht with ht | rfl
  · exact ⟨t', ht, hc⟩
  · cases hc

theorem unregistered (hd : w.dashboardId n = some d) :
    Unregistered n d w (w.unregisterPeerLinkSession n) := by
  have hd' := hd
  unfold dashboardId at hd'
  obtain ⟨s, hs, rfl⟩ := Option.map_eq_some_iff.1 hd'
  unfold unregisterPeerLinkSession
  rw [hs]
  simp only
  split
  next hslot =>
    unfold discardDownload
    split
    · exact ⟨mark_dashboardId, mark_unregistered, rfl, fun t ht c hc => ⟨t, ht, hc⟩,
        .inl ⟨hslot, rfl, rfl, rfl⟩⟩
    · exact ⟨mark_dashboardId, mark_unregistered, rfl, fun t ht c hc => ended_clients ht hc,
        .inl ⟨hslot, rfl, rfl, rfl⟩⟩
  next hslot =>
    exact ⟨mark_dashboardId, mark_unregistered, rfl, fun t ht c hc => ⟨t, ht, hc⟩,
      .inr ⟨hslot, rfl, rfl, rfl⟩⟩

end ReceiverWorld

end DeviceBuilder
