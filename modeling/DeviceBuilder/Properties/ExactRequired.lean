import DeviceBuilder.Properties.Running
import DeviceBuilder.Queue.Compiles

/-!
# EXACT_REQUIRED

With the policy EXACT_REQUIRED and an intended server, no compile that was
submitted without `force_local` is built on this machine. The exception is a
compile whose server could not provision: it is sent to the local lane.

* `Ledger.Remote`: the invariant.
* `exactRequired_remote`: runs without a provision failure.
-/

namespace DeviceBuilder

open Runs Ledger

variable {c c' : Ledger} {ℓ : Label} {w : World} {j k : JobId} {job a b : FirmwareJob}

/-- The compile was submitted without `force_local`, in this run or before a restart. -/
def Ledger.Submitted (c : Ledger) (j : JobId) : Prop := .submitted j false ∈ c.past ++ c.log

/-- **What was submitted for a server is for a server.** -/
structure Ledger.Remote (c : Ledger) : Prop where
  known : ∀ {j}, c.Submitted j → j < c.fresh
  object : ∀ {j job}, c.Submitted j → c.obj j = some job → job.jobType = .compile →
    job.source ≠ .local
  saved : ∀ {row}, row ∈ c.disk → c.Submitted row.jobId → row.jobType = .compile →
    row.source ≠ .local
  resolved : ∀ {source}, .resolved false .compile source ∈ c.tokens → source.source ≠ .local

/-- The moves that send no such compile to the local lane. -/
def Label.remote : Label → Prop
  | .resolve false .compile source => source.source ≠ .local
  | .toLocal .compile => False
  | .provision .compile => False
  | _ => True

/-- What a move logs of submissions: a new compile, with the source its token carries. -/
theorem submitted_move (hm : Move ℓ c c') (h : c'.Submitted k) :
    c.Submitted k ∨ k = c.fresh ∧ c.fresh < c'.fresh ∧ ∃ job source, c'.obj k = some job ∧
      job.source = source.source ∧ .resolved false job.jobType source ∈ c.tokens := by
  have keep : ∀ {ev : Ev}, (∀ j, ev ≠ .submitted j false) →
      .submitted k false ∈ c.past ++ (c.log ++ [ev]) → .submitted k false ∈ c.past ++ c.log := by
    intro ev hev hmem
    rw [← List.append_assoc, List.mem_append, List.mem_singleton] at hmem
    exact hmem.resolve_right fun he => hev k he.symm
  have new : ∀ {fl : Bool} {j : JobId}, .submitted k false ∈ c.past ++ (c.log ++ [.submitted j fl]) →
      .submitted k false ∈ c.past ++ c.log ∨ k = j ∧ fl = false := by
    intro fl j hmem
    rw [← List.append_assoc, List.mem_append, List.mem_singleton] at hmem
    exact hmem.imp_right fun he => by cases he; exact ⟨rfl, rfl⟩
  unfold Ledger.Submitted at h ⊢
  cases hm with
  | submit job hn hd hs ht =>
    rcases new h with h | ⟨rfl, rfl⟩
    · exact .inl h
    · refine .inr ⟨rfl, Nat.lt_succ_self _, job, _, Function.update_self .., hs, ?_⟩
      rw [ht]; exact Multiset.mem_cons_self ..
  | submitChain head dep hh hhd hd hdd hs hds hht hdt hdf ht =>
    rcases new h with h | ⟨rfl, rfl⟩
    · exact .inl h
    · refine .inr ⟨rfl, Nat.lt_succ_of_lt (Nat.lt_succ_self _), head, _, ?_, hs, ?_⟩
      · simp
      · rw [ht, hht]; exact Multiset.mem_cons_self ..
  | note ev hev => exact .inl (keep (by rintro j rfl; cases hev) h)
  | place | placeChain | placeOwed | toLocal | reroute | provision | startExec | startDrive
  | finishExec | finishDrive | failPending | finishQueued | refinish | callCancel
  | fireCancelled => exact .inl (keep (by simp) h)
  | _ => exact .inl h

/-- A move makes no compile local. -/
theorem source_move (hm : Move ℓ c c') (hℓ : ℓ.remote) (hk : k < c.fresh)
    (hb : c'.obj k = some b) (ht : b.jobType = .compile) :
    ∃ a, c.obj k = some a ∧ a.jobType = .compile ∧ (b.source = .local → a.source = .local) := by
  have upd : ∀ {j : JobId} {x y : FirmwareJob}, c.obj j = some x → y.identity = x.identity →
      (y.source = .local → x.jobType = .compile → x.source = .local) →
      Function.update c.obj j (some y) k = some b →
      ∃ a, c.obj k = some a ∧ a.jobType = .compile ∧ (b.source = .local → a.source = .local) := by
    intro j x y hj hid hs hb
    by_cases he : k = j
    · subst he
      rw [Function.update_self] at hb; cases hb
      have hx : x.jobType = .compile := (congrArg (·.2.2.1) hid).symm.trans ht
      exact ⟨x, hj, hx, fun h => hs h hx⟩
    · rw [Function.update_of_ne he] at hb
      exact ⟨b, hb, ht, id⟩
  have new : ∀ {y : FirmwareJob} {f : JobId → Option FirmwareJob} {i : JobId}, k < i →
      Function.update f i (some y) k = some b → f k = some b := by
    intro y f i hi hb
    rwa [Function.update_of_ne (Nat.ne_of_lt hi)] at hb
  have latch : ∀ {x : FirmwareJob}, (latched x).identity = x.identity ∧
      (latched x).source = x.source := by
    intro x; unfold latched; split <;> exact ⟨rfl, rfl⟩
  have origin : ∀ {x y : FirmwareJob}, y.origin = x.origin → y.source = x.source :=
    fun h => congrArg Prod.fst h
  cases hm with
  | create | submit => exact ⟨b, new hk hb, ht, id⟩
  | submitChain => exact ⟨b, new hk (new (Nat.lt_succ_of_lt hk) hb), ht, id⟩
  | edit hj h => exact upd hj h.1 (fun hs _ => origin h.2.2.2.1 ▸ hs) hb
  | place hj | placeChain hj | placeOwed _ hj =>
    exact upd hj latch.1 (fun hs _ => latch.2 ▸ hs) hb
  | @startExec _ j a _ _ hj => exact upd (y := a.markRunning) hj rfl (fun hs _ => hs) hb
  | finishExec _ hj he | finishDrive _ hj he | failPending _ hj _ he | finishQueued hj _ he
  | refinish hj _ he => exact upd hj he.1 (fun hs _ => origin he.2.2.2.1 ▸ hs) hb
  | @startDrive _ j a pin source hj _ _ _ hsrc =>
    refine upd (y := (a.applyBuildSource source).markRunning) hj rfl (fun hs _ => ?_) hb
    rw [show source.source = .local from hs] at hsrc
    cases hsrc
  | @cancelMark _ j a hj =>
    exact upd (y := a.markTerminal .cancelled) hj rfl (fun hs _ => hs) hb
  | @reroute _ j a _ _ hj =>
    refine upd (y := latched a.revertToPendingRemote) hj latch.1 (fun hs _ => ?_) hb
    rw [latch.2] at hs; cases hs
  | @provision _ j a _ _ hj =>
    refine upd (y := latched (a.clearRunState.applyBuildSource localJobBuildSource)) hj latch.1
      (fun _ hx => ?_) hb
    rw [hx] at hℓ; exact hℓ.elim
  | @toLocal _ j a _ hj =>
    refine upd (y := latched (a.applyBuildSource localJobBuildSource)) hj latch.1
      (fun _ hx => ?_) hb
    rw [hx] at hℓ; exact hℓ.elim
  | _ => exact ⟨b, hb, ht, id⟩

theorem resolved_move (hm : Move ℓ c c') {source : JobBuildSource}
    (h : .resolved false .compile source ∈ c'.tokens) :
    .resolved false .compile source ∈ c.tokens ∨ ℓ = .resolve false .compile source := by
  cases hm with
  | resolve fl t src =>
    rcases Multiset.mem_cons.1 h with h | h
    · cases h; exact .inr rfl
    · exact .inl h
  | place _ ht | placeChain _ ht | unstage ht | unstageChain ht | skip ht | startExec ht
  | finishExec ht | finishDrive ht | release ht | reroute ht | provision ht | endSweep ht
  | fireCancelled ht | placeOwed ht | dropOwed ht | lose ht =>
    left; simp [ht, owes] at h ⊢; tauto
  | submit _ _ _ _ ht | submitChain _ _ _ _ _ _ _ _ _ _ _ ht =>
    left; simp [ht] at h ⊢; exact .inr h
  | _ => left; simpa [owes] using h

theorem remote_move (hm : Move ℓ c c') (hI : c.Inv) (hr : c.Remote) (hℓ : ℓ.remote) :
    c'.Remote := by
  have hfresh : c.fresh ≤ c'.fresh := move_fresh hm
  -- a job submitted by now
  have hobj : ∀ {k b}, c'.Submitted k → c'.obj k = some b → b.jobType = .compile →
      b.source ≠ .local := by
    intro k b hs hb ht
    rcases submitted_move hm hs with h | ⟨-, -, job, source, hj, hsrc, htok⟩
    · obtain ⟨a, ha, hta, hback⟩ := source_move hm hℓ (hr.known h) hb ht
      exact fun hl => hr.object h ha hta (hback hl)
    · rw [hj] at hb; cases hb
      rw [hsrc]
      exact hr.resolved (ht ▸ htok)
  constructor
  · intro k hs
    rcases submitted_move hm hs with h | ⟨rfl, hlt, -⟩
    · exact (hr.known h).trans_le hfresh
    · exact hlt
  · exact hobj
  · have old : ∀ {row}, row ∈ c.disk → c'.Submitted row.jobId → row.jobType = .compile →
        row.source ≠ .local := by
      intro row hrow hs ht
      rcases submitted_move hm hs with h | ⟨he, -⟩
      · exact hr.saved hrow h ht
      · exact absurd he (Nat.ne_of_lt (hI.diskIds row hrow))
    intro row hrow hs ht
    cases hm with
    | save =>
      obtain ⟨j, -, hj⟩ := List.mem_filterMap.1 hrow
      exact hobj ((hI.ids hj).1 ▸ hs) hj ht
    | _ => exact old hrow hs ht
  · intro source hmem
    rcases resolved_move hm hmem with h | rfl
    · exact hr.resolved h
    · exact hℓ

/-- A restored row is built where it was. -/
theorem restore_local {row : FirmwareJob} (h : row.restore.source = .local)
    (ht : row.jobType = .compile) : row.source = .local := by
  unfold FirmwareJob.restore at h
  split at h
  · rw [restoreForRequeue_source, ht] at h
    split at h
    · cases h
    · exact h
  · exact h

theorem remote_loaded (hr : c.Remote) (table : List JobId) :
    (c.loaded table).Remote := by
  have hsub : ∀ {j}, (c.loaded table).Submitted j → c.Submitted j := by
    intro j h
    simpa [Ledger.Submitted, Ledger.loaded] using h
  refine ⟨fun h => hr.known (hsub h), fun {j job} h hj ht => ?_,
    fun hrow h ht => hr.saved hrow (hsub h) ht, fun h => ?_⟩
  · obtain ⟨row, hrow, rfl⟩ := Option.map_eq_some_iff.1 hj
    obtain ⟨hmem, rfl⟩ := lookup_some hrow
    have htr : row.jobType = .compile :=
      (congrArg (·.2.2.1) row.restore_identity : row.restore.jobType = row.jobType) ▸ ht
    exact fun hl => hr.saved hmem (hsub h) htr (restore_local hl htr)
  · exact absurd h (Multiset.notMem_zero _)

theorem remote_round (hj : c.obj j = some job) (hround : World.Routed c j job c') (hr : c.Remote) :
    c'.Remote := by
  have upd : ∀ {y : FirmwareJob} {log : List Ev}, y.identity = job.identity →
      y.source = job.source → (∀ k, .submitted k false ∈ c.past ++ log → c.Submitted k) →
      ∀ {k b}, .submitted k false ∈ c.past ++ log →
        Function.update c.obj j (some y) k = some b → b.jobType = .compile → b.source ≠ .local := by
    intro y log hid hs hlog k b hsub hb ht
    by_cases he : k = j
    · subst he
      rw [Function.update_self] at hb; cases hb
      rw [hs]
      exact hr.object (hlog _ hsub) hj ((congrArg (·.2.2.1) hid).symm.trans ht)
    · rw [Function.update_of_ne he] at hb
      exact hr.object (hlog _ hsub) hb ht
  cases hround with
  | held => exact hr
  | placed h =>
    have hlog : ∀ k, .submitted k false ∈ c.past ++ (c.log ++ [.placed j job.dependsOn]) →
        c.Submitted k := by
      intro k hmem
      simpa [Ledger.Submitted] using hmem
    refine ⟨fun h => hr.known (hlog _ h), fun h hb ht => ?_,
      fun hrow h ht => hr.saved hrow (hlog _ h) ht, hr.resolved⟩
    have hl : (latched job).source = job.source := by unfold latched; split <;> rfl
    exact upd latched_identity hl hlog h hb ht
  | cancelled =>
    refine ⟨hr.known, fun h hb ht => ?_, hr.saved, hr.resolved⟩
    exact upd (y := job.markTerminal .cancelled (some prerequisiteFailedError)) rfl rfl
      (fun _ => id) h hb ht

/-- EXACT_REQUIRED with an intended server, remote builds on, and no local builds in the pool. -/
def World.Exact (w : World) : Prop :=
  ∃ o, w.offloader = some o ∧ o.remoteBuildsEnabled = true ∧ o.includeLocalInPool = false ∧
    o.versionMatchPolicy = .exactRequired ∧ ∃ p ∈ o.pairings, p.status = .approved ∧ p.enabled = true

/-- The settings hold whenever the dashboard takes a step, but the first of a process. -/
def World.StaysExact (w : World) (a : Action) : Prop :=
  w.Exact ∨ ∃ rows devices offloader workers, a = .restart rows devices offloader workers

/-- The step re-routes a compile whose server could not provision. -/
def Action.ProvisionsCompile (w : World) (a : Action) : Prop :=
  ∃ j job, a.Provisions w j ∧ w.fw.obj j = some job ∧ job.jobType = .compile

theorem exact_labels {a : Action} (hx : w.Exact) (hp : ¬ a.ProvisionsCompile w) (hℓ : a.Allows w ℓ) :
    ℓ.remote := by
  obtain ⟨o, ho, hen, hloc, hpol, p, hpo, hst, hpe⟩ := hx
  have hin : ∀ t : JobType, t = .compile → inputsForJobType o.snapshot t = o.snapshot := by
    rintro t rfl; rfl
  unfold Label.remote
  split
  · rename_i source
    obtain ⟨v, hv, hres⟩ := hℓ
    unfold World.resolveInstallSource at hres
    rw [if_neg (by simp), hv, ho] at hres
    dsimp only at hres
    rw [hin _ rfl] at hres
    split at hres
    · cases hres
    · rename_i d hd
      have := pickBuildPath_exactRequired (i := o.snapshot) hen hpol ⟨p, hpo, hst, hpe⟩ hd
      rw [if_pos this] at hres
      cases hres
      simp [remotePendingJobBuildSource]
  · obtain ⟨busy, localBusy, hpick⟩ := hℓ o ho
    exact pickDispatchTarget_exactRequired (i := { inputsForJobType o.snapshot .compile with
      busyBuildServerPins := busy, localCompileBusy := localBusy }) hen hloc hpol
      ⟨p, hpo, hst, hpe⟩ hpick
  · exact hp hℓ
  · trivial

/-- A lane worker executes `j`. -/
def Task.executes (j : JobId) : Task → Prop
  | .laneBegin _ k | .laneLocal _ k _ | .laneRemote _ k _ => k = j
  | _ => False

/-- **EXACT_REQUIRED compiles are never built locally**, in runs in which no server of the pool
says of a compile that it cannot provision. -/
theorem exactRequired_remote
    (h : Reachable (fun w a => w.StaysExact a ∧ ¬ a.ProvisionsCompile w) w)
    (hs : .submitted j false ∈ w.past ++ w.log) (hj : w.fw.obj j = some job)
    (ht : job.jobType = .compile) :
    (∀ l, j ∉ (w.fw.lane l).queue) ∧ ∀ t ∈ w.tasks, ¬ t.executes j := by
  have hr : (w.ledger 0).Remote := by
    refine side_reachable (L := Label.remote) h ?_ ?_
      (fun _ _ _ hℓ hm hI hr => remote_move hm hI hr hℓ) (fun _ _ _ _ hr => remote_loaded hr _)
      fun _ _ hj _ hround hr => remote_round hj hround hr
    · rintro w a ℓ ⟨hx, hp⟩ hrun hℓ
      rcases hx with hx | ⟨rows, devices, offloader, workers, rfl⟩
      · exact exact_labels hx hp hℓ
      · exact (hrun _ _ _ _ rfl).elim
    · constructor <;> intros <;> simp_all [World.ledger, Ledger.Submitted, taskTokens]
  -- what is not local is on no lane
  have hlane := ((apart_reachable h).placed hj ht).2 (hr.object hs hj ht)
  unfold Ledger.onLane at hlane
  constructor
  · intro l hq
    have := Multiset.count_pos.2 (mem_laneQueued hq)
    have hzero : (w.ledger 0).queued.count j = 0 := by omega
    exact absurd hzero (Nat.ne_of_gt this)
  · intro t hmem hex
    obtain ⟨i, hi⟩ := List.getElem?_of_mem hmem
    have htok : t.tokens = {.exec j} := by
      cases t <;> simp_all [Task.executes, Task.tokens]
    have hle : t.tokens ≤ (w.ledger 0).tokens := by
      rw [show (w.ledger 0).tokens = taskTokens w.tasks from add_zero _, ← tokens_le_of_task hi]
      exact Multiset.le_add_left ..
    have := Multiset.count_le_of_le (.exec j) hle
    rw [htok, Multiset.count_singleton_self] at this
    omega

/-- One server that satisfies the policy. -/
def exactServer : OffloaderState :=
  { oneServer with
    versionMatchPolicy := .exactRequired
    pairings := [{ pin := "p", esphomeVersion := "2026.1.0" }] }

/-- A compile on the server, which cannot provision. -/
def exactProvision : List Action :=
  [.restart [] (fun _ => some {}) (some exactServer) 1, .command (.compile "a.yaml" false),
    .resume 3 .ok, .resume 3 .ok, .resume 5 .ok, .resume 5 .ok, .resume 5 .ok,
    .resume 5 (.frame .failed .provision "no toolchain"), .resume 0 .ok]

/-- The test of `World.Exact`. -/
def World.isExact (w : World) : Bool :=
  (w.offloader.map fun o => o.remoteBuildsEnabled && !o.includeLocalInPool &&
    o.versionMatchPolicy = .exactRequired &&
    o.pairings.any fun p => p.status = .approved && p.enabled).getD false

def Action.isRestart : Action → Bool
  | .restart .. => true
  | _ => false

theorem exact_of_test {a : Action} (h : (w.isExact || a.isRestart) = true) : w.StaysExact a := by
  rcases Bool.or_eq_true _ _ ▸ h with h | h
  · left
    cases ho : w.offloader with
    | none => simp [World.isExact, ho] at h
    | some o =>
      simp [World.isExact, ho] at h
      obtain ⟨⟨⟨h1, h2⟩, h3⟩, p, hp, h4, h5⟩ := h
      exact ⟨o, ho, h1, h2, h3, p, hp, h4, h5⟩
  · right
    cases a <;> simp [Action.isRestart] at h
    exact ⟨_, _, _, _, rfl⟩

/-- After the provision failure the compile is executed on this machine. -/
theorem exactRequired_local :
    ¬ ∀ w, Reachable (fun w a => w.StaysExact a) w → ∀ j job, .submitted j false ∈ w.past ++ w.log →
      w.fw.obj j = some job → job.jobType = .compile →
      (∀ l, j ∉ (w.fw.lane l).queue) ∧ ∀ t ∈ w.tasks, ¬ t.executes j := by
  intro hclaim
  have h := (hclaim _ (reachable_checks (fun _ _ => exact_of_test) exactProvision (by decide)) 0 _
    (by decide) rfl (by decide)).2 (.laneBegin .compile 0) (by decide)
  exact h rfl

/-- While the server builds it, the compile is not on the local compile lane. -/
theorem exactRequired_remote_driven :
    0 ∉ ((World.run (exactProvision.take 7)).fw.lane .compile).queue := by
  have hr : Reachable (fun w a => w.StaysExact a ∧ ¬ a.ProvisionsCompile w)
      (World.run (exactProvision.take 7)) := by
    refine reachable_checks (p := fun w a => (w.isExact || a.isRestart) && !a.provisionFrame)
      (fun w a h => ?_) _ (by decide)
    obtain ⟨h1, h2⟩ := (Bool.and_eq_true _ _).mp h
    refine ⟨exact_of_test h1, ?_⟩
    rintro ⟨j, job, ⟨i, sent, text, rfl, -⟩, -⟩
    cases h2
  exact (exactRequired_remote hr (by decide) rfl (by decide)).1 .compile

end DeviceBuilder
