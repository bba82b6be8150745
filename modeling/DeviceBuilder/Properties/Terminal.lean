import DeviceBuilder.Properties.Running

/-!
# One terminal event for each job

A job's end is announced once, and its status is final. The exception is a
cancelled lane worker inside `run_remote_job`: it finalises the job and
re-raises, and `execute_job` finalises it again.

* `Ledger.Once`: the invariant.
* `terminal_once`: runs that cancel no such worker.
-/

namespace DeviceBuilder

open Runs Ledger

variable {c c' : Ledger} {ℓ : Label} {w : World} {j : JobId} {job job' : FirmwareJob}

/-- Is the event the terminal event of `j`? -/
def Ev.terminalOf (j : JobId) : Ev → Bool
  | .jobTerminal job => job.jobId = j
  | _ => false

/-- How often the log announces the end of `j`. -/
def terminals (log : List Ev) (j : JobId) : ℕ := log.countP (Ev.terminalOf j)

@[simp] theorem terminals_append (log log' : List Ev) (j : JobId) :
    terminals (log ++ log') j = terminals log j + terminals log' j :=
  List.countP_append

/-- **What the log says of the jobs that ended.** -/
structure Ledger.Once (c : Ledger) : Prop where
  /-- An end is announced once, or is going to be. -/
  once : ∀ j, terminals c.log j + c.tokens.count (.fire j) ≤ 1
  /-- The status that was announced is the job's status. -/
  final : ∀ job, .jobTerminal job ∈ c.log → ∃ b, c.obj job.jobId = some b ∧
    b.status = job.status ∧ b.isActive = false

/-- Nothing was announced of an active job. -/
theorem Ledger.Once.active (ho : c.Once) (hj : c.obj j = some job) (ha : job.isActive = true) :
    terminals c.log j = 0 := by
  refine List.countP_eq_zero.2 fun ev hm hterm => ?_
  cases ev with
  | jobTerminal a =>
    obtain ⟨b, hb, -, hact⟩ := ho.final a hm
    rw [show a.jobId = j by simpa [Ev.terminalOf] using hterm, hj] at hb
    cases hb
    rw [ha] at hact; cases hact
  | _ => cases hterm

/-- An active job is not marked cancelled. -/
theorem Ledger.Inv.not_fired (hI : c.Inv) (hj : c.obj j = some job) (ha : job.isActive = true) :
    c.tokens.count (.fire j) = 0 := by
  by_contra h
  have hf := (hI.view j).fired (Nat.pos_of_ne_zero h)
  have hs : job.status = .cancelled := by simpa [Ledger.view, hj] using hf
  simp [FirmwareJob.isActive, hs, JobStatus.isTerminal] at ha

/-- What was announced stays true. -/
theorem final_kept (hm : Move ℓ c c') (hI : c.Inv) (ho : c.Once) (h : .jobTerminal job ∈ c.log) :
    ∃ b, c'.obj job.jobId = some b ∧ b.status = job.status ∧ b.isActive = false := by
  obtain ⟨a, ha, hs, hact⟩ := ho.final job h
  obtain ⟨b, hb, hk⟩ := (move_objects hI hm).1 _ a ha
  have hst : b.status = a.status := hk.2.resolve_right (by simp [hact])
  exact ⟨b, hb, hst.trans hs, by rw [isActive_congr hst, hact]⟩

/-- A move that announces no end. -/
theorem once_quiet {evs : List Ev} (hm : Move ℓ c c') (hI : c.Inv) (ho : c.Once)
    (hlog : c'.log = c.log ++ evs) (hevs : ∀ job, .jobTerminal job ∉ evs)
    (hfire : ∀ k, c'.tokens.count (.fire k) ≤ c.tokens.count (.fire k)) : c'.Once := by
  have hzero : ∀ k, terminals evs k = 0 := by
    intro k
    refine List.countP_eq_zero.2 fun ev hev hterm => ?_
    cases ev with
    | jobTerminal a => exact hevs a hev
    | _ => cases hterm
  refine ⟨fun k => ?_, fun job hjob => ?_⟩
  · rw [hlog, terminals_append, hzero]
    have := ho.once k
    have := hfire k
    omega
  · rw [hlog, List.mem_append] at hjob
    exact final_kept hm hI ho (hjob.resolve_right (hevs job))

/-- A move that ends `j`, whose end was not announced. -/
theorem once_ends (hm : Move ℓ c c') (hI : c.Inv) (ho : c.Once)
    (hlog : c'.log = c.log ++ [.jobTerminal job']) (hj' : c'.obj j = some job')
    (hid : job'.jobId = j) (ha : job'.isActive = false)
    (hself : terminals c.log j + c'.tokens.count (.fire j) = 0)
    (hfire : ∀ k, k ≠ j → c'.tokens.count (.fire k) ≤ c.tokens.count (.fire k)) : c'.Once := by
  refine ⟨fun k => ?_, fun job hjob => ?_⟩
  · rw [hlog, terminals_append]
    by_cases hk : k = j
    · subst hk
      have : terminals [Ev.jobTerminal job'] k = 1 := by simp [terminals, Ev.terminalOf, hid]
      omega
    · have : terminals [Ev.jobTerminal job'] k = 0 := by
        simp [terminals, Ev.terminalOf, hid, Ne.symm hk]
      have := ho.once k
      have := hfire k hk
      omega
  · rw [hlog, List.mem_append, List.mem_singleton] at hjob
    rcases hjob with hjob | hjob
    · exact final_kept hm hI ho hjob
    · cases hjob
      exact ⟨_, hid ▸ hj', rfl, ha⟩

theorem once_move (hm : Move ℓ c c') (hI : c.Inv) (ho : c.Once) (hℓ : ℓ ≠ .refinish) : c'.Once := by
  have quiet : ∀ evs, c'.log = c.log ++ evs → (∀ job, .jobTerminal job ∉ evs) →
      (∀ k, c'.tokens.count (.fire k) ≤ c.tokens.count (.fire k)) → c'.Once :=
    fun evs => once_quiet hm hI ho
  have silent : c'.log = c.log → (∀ k, c'.tokens.count (.fire k) ≤ c.tokens.count (.fire k)) →
      c'.Once :=
    fun hlog => quiet [] (by simpa using hlog) (by simp)
  -- the end of an active job
  have ends : ∀ {j : JobId} {job job' : FirmwareJob}, c.obj j = some job → job.isActive = true →
      job.EndsAs job' → c'.log = c.log ++ [.jobTerminal job'] → c'.obj j = some job' →
      (∀ k, c'.tokens.count (.fire k) = c.tokens.count (.fire k)) → c'.Once := by
    intro j job job' hj ha he hlog hj' hfire
    refine once_ends hm hI ho hlog hj' ((jobId_of_identity he.1).trans (hI.ids hj).1) he.2.1 ?_
      fun k _ => (hfire k).le
    rw [hfire, ho.active hj ha, hI.not_fired hj ha]
  have running : ∀ {job : FirmwareJob}, job.status = .running → job.isActive = true :=
    fun h => (FirmwareJob.isActive_iff _).2 (.inr h)
  have queued : ∀ {job : FirmwareJob}, job.status = .queued → job.isActive = true :=
    fun h => (FirmwareJob.isActive_iff _).2 (.inl h)
  cases hm with
  | note ev hn =>
    refine quiet [ev] rfl (fun job hjob => ?_) fun k => le_rfl
    rw [List.mem_singleton] at hjob
    subst hjob; cases hn
  | edit | prune | clear | saveBegin | save | toLocal | unpend =>
    first
      | exact silent rfl fun k => le_rfl
      | exact quiet [_] rfl (by simp) fun k => le_rfl
  | resolve | create | take | beginSweep =>
    exact silent rfl fun k => by simp
  | unstage ht | unstageChain ht | skip ht | release ht | endSweep ht | dropOwed ht | lose ht =>
    refine silent rfl fun k => ?_
    simp only [Ledger.withTokens, Ledger.release, ht]
    exact Multiset.count_le_count_cons ..
  | submit _ _ _ _ ht | submitChain _ _ _ _ _ _ _ _ _ _ _ ht =>
    exact quiet [_] rfl (by simp) fun k => by simp [ht]
  | place hj ht | placeChain hj ht | placeOwed ht | startExec ht | reroute ht | provision ht =>
    exact quiet [_] rfl (by simp) fun k => by simp [ht]
  | startDrive | callCancel => exact quiet [_] rfl (by simp) fun k => by simp
  | finishExec ht hj he =>
    have hs := hI.active_of_exec hj (by rw [ht]; simp)
    exact ends hj (running hs) he rfl (Function.update_self ..) fun k => by simp [ht]
  | finishDrive ht hj he =>
    have hs := hI.active_of_drive hj (by rw [ht]; simp)
    exact ends hj (running hs) he rfl (Function.update_self ..) fun k => by simp [ht]
  | failPending hp hj hs he =>
    exact ends hj (queued hs) he rfl (Function.update_self ..) fun k => by simp
  | finishQueued hj hs he =>
    exact ends hj (queued hs) he rfl (Function.update_self ..) fun k => by simp
  | refinish => exact absurd rfl hℓ
  | @cancelMark _ j job hj hs hr =>
    refine ⟨fun k => ?_, fun a ha => final_kept (.cancelMark hj hs hr) hI ho ha⟩
    by_cases hk : k = j
    · subst hk
      have h1 := ho.active hj (queued hs)
      have h2 := hI.not_fired hj (queued hs)
      simp [h1, h2]
    · have := ho.once k
      simpa [hk] using this
  | @fireCancelled _ j job ts ht hj =>
    have hs : job.status = .cancelled := by
      simpa [Ledger.view, hj] using (hI.view j).fired (by simp [Ledger.view, ht])
    have hone : terminals c.log j + (ts.count (.fire j) + 1) ≤ 1 := by
      simpa [ht] using ho.once j
    refine once_ends (j := j) (.fireCancelled ht hj) hI ho rfl hj (hI.ids hj).1 ?_ ?_ fun k hk => ?_
    · simp [FirmwareJob.isActive, hs, JobStatus.isTerminal]
    · have hlog : terminals c.log j = 0 := by omega
      have hts : ts.count (.fire j) = 0 := by omega
      simp [hlog, hts]
    · simp [ht, hk]

theorem once_loaded (table : List JobId) : (c.loaded table).Once := by
  refine ⟨fun j => ?_, fun job h => ?_⟩
  · simp [Ledger.loaded, terminals]
  · simp [Ledger.loaded] at h

theorem once_round (hj : c.obj j = some job)
    (hs : job.status = .queued) (hround : World.Routed c j job c') (ho : c.Once) : c'.Once := by
  have ha : job.isActive = true := (FirmwareJob.isActive_iff _).2 (.inl hs)
  -- the job of this round was not announced, so no announced job is touched
  have hquiet : terminals c.log j = 0 := ho.active hj ha
  have hother : ∀ a, .jobTerminal a ∈ c.log → a.jobId ≠ j := by
    intro a hm heq
    obtain ⟨b, hb, -, hact⟩ := ho.final a hm
    rw [heq, hj] at hb
    cases hb
    rw [ha] at hact; cases hact
  cases hround with
  | held => exact ho
  | placed h =>
    refine ⟨fun k => ?_, fun a hm => ?_⟩
    · have := ho.once k
      simpa [terminals, Ev.terminalOf] using this
    · have hm' : .jobTerminal a ∈ c.log := by simpa using hm
      obtain ⟨b, hb, hs', hact⟩ := ho.final a hm'
      exact ⟨b, (Function.update_of_ne (hother a hm') ..).trans hb, hs', hact⟩
  | cancelled =>
    refine ⟨ho.once, fun a hm => ?_⟩
    obtain ⟨b, hb, hs', hact⟩ := ho.final a hm
    exact ⟨b, (Function.update_of_ne (hother a hm) ..).trans hb, hs', hact⟩

/-- **Each job's end is announced once and is final**, in runs that cancel no lane worker inside
`run_remote_job`. -/
theorem terminal_once (h : Reachable (fun w a => ¬ a.CancelsRemote w) w) :
    (∀ j, terminals w.log j ≤ 1) ∧
    ∀ job, .jobTerminal job ∈ w.log → ∃ b, w.fw.obj job.jobId = some b ∧
      b.status = job.status ∧ b.isTerminal = true := by
  have ho : (w.ledger 0).Once := by
    refine side_reachable (L := (· ≠ .refinish)) h ?_ ?_
      (fun _ _ _ hℓ hm hI ho => once_move hm hI ho hℓ) (fun _ _ _ _ _ => once_loaded _)
      fun _ _ hj hs hround ho => once_round hj hs hround ho
    · rintro w a ℓ hno - hℓ rfl
      exact hno hℓ
    · exact ⟨fun j => by simp [World.ledger, terminals, taskTokens], fun job hm => by
        simp [World.ledger] at hm⟩
  refine ⟨fun j => (Nat.le_add_right _ _).trans (ho.once j), fun job hm => ?_⟩
  obtain ⟨b, hb, hs, ha⟩ := ho.final job hm
  exact ⟨b, hb, hs, by simpa [FirmwareJob.isActive, FirmwareJob.isTerminal] using ha⟩

/-- The reset of a server's build environment runs on a lane; the runner is shut down meanwhile. -/
def resetShutDown : List Action :=
  [.restart [] (fun _ => some {}) (some oneServer) 1, .command (.resetPeerBuildEnv "p"),
    .resume 0 .ok, .resume 0 .ok, .shutdown 0]

/-- A lane worker that is cancelled inside `run_remote_job` announces the end of its job twice. -/
theorem terminal_twice :
    ¬ ∀ w, Reachable any w → (∀ j, terminals w.log j ≤ 1) ∧
      ∀ job, .jobTerminal job ∈ w.log → ∃ b, w.fw.obj job.jobId = some b ∧
        b.status = job.status ∧ b.isTerminal = true := by
  intro hclaim
  have hw := (hclaim _ (reachable_run resetShutDown)).1 0
  revert hw
  decide

/-- A task is cancelled. -/
def Action.isShutdown : Action → Bool
  | .shutdown _ => true
  | _ => false

theorem Action.not_cancelsRemote {as : List Action} (h : as.all (fun a => !a.isShutdown) = true) :
    ∀ a ∈ as, ∀ w : World, ¬ a.CancelsRemote w := by
  rintro a ha w ⟨i, l, j, pt, rfl, -⟩
  have := List.all_eq_true.1 h _ ha
  cases this

/-- Of the two compiles, the one that waits is cancelled. -/
def waitingCancelled : List Action := twoCompiles ++ [.command (.cancel 1), .resume 7 .ok]

theorem terminal_once_waitingCancelled :
    terminals (World.run waitingCancelled).log 1 = 1 ∧
      ∀ j, terminals (World.run waitingCancelled).log j ≤ 1 :=
  ⟨by decide, (terminal_once (reachable_run_of waitingCancelled
    (Action.not_cancelsRemote (by decide)))).1⟩

end DeviceBuilder
