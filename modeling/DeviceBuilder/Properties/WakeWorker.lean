import DeviceBuilder.Devices.WakeWorker
import Mathlib.Tactic.SplitIfs
import Mathlib.Data.Finset.Lattice.Lemmas

/-!
# The worker drops no request

An item that is requested is in `pending` with the wake event set, or in the set of
the running pass, until its processing begins (`Kept`). A pass that ends, returns,
raises or is cancelled puts back what it has left. Idle is set, but for `stop`,
when nothing is left and no pass runs.

* `Kept.step`: one action.
* `worker_drops_nothing`: what follows for every run.
-/

namespace DeviceBuilder.Scan

open Runs

variable {T : Type*} [DecidableEq T] {w w' : Worker T} {a : Action T} {x pick : T}

/-- Nothing is requested or being processed. -/
structure Quiet (w : Worker T) : Prop where
  owed : w.owed = ∅
  pending : w.pending = ∅
  draining : w.draining = ∅
  pass : w.inPass = false

/-- **The invariant.** -/
structure Kept (w : Worker T) : Prop where
  owed : ∀ {x}, x ∈ w.owed → x ∈ w.pending ∨ x ∈ w.draining
  pass : w.inPass = false → w.draining = ∅
  wake : w.pending ≠ ∅ → w.wake = true
  released : w.task = some (.waiting false) → w.wake = false
  idle : w.idle = true → w.task = none ∨ w.pending = ∅ ∧ w.inPass = false

omit [DecidableEq T] in
theorem Kept.quiet (h : Kept w) (hp : w.pending = ∅) (hn : w.inPass = false) : Quiet w := by
  have hd := h.pass hn
  refine ⟨Finset.eq_empty_of_forall_notMem fun x hx => ?_, hp, hd, hn⟩
  rcases h.owed hx with hm | hm
  · rw [hp] at hm
    exact absurd hm (Finset.notMem_empty x)
  · rw [hd] at hm
    exact absurd hm (Finset.notMem_empty x)

theorem Kept.request (h : Kept w) : Kept (w.request x) := by
  unfold Worker.request
  split_ifs with hx
  · refine ⟨fun {y} hy => ?_, h.pass, h.wake, h.released, h.idle⟩
    rcases Finset.mem_insert.1 hy with rfl | hy
    · exact .inr hx
    · exact h.owed hy
  · have hpass : ({ w with
        pending := insert x w.pending
        idle := false
        owed := insert x w.owed }.setWake).inPass = w.inPass := by
      unfold Worker.setWake Worker.inPass
      rcases w.task with _ | _ | _ | _ | _ | _ <;> rfl
    refine ⟨fun {y} hy => ?_, fun hn => h.pass (hpass.symm.trans hn), fun _ => rfl, fun ht => ?_,
      nofun⟩
    · rcases Finset.mem_insert.1 hy with rfl | hy
      · exact .inl (Finset.mem_insert_self y _)
      · exact (h.owed hy).imp_left Finset.mem_insert_of_mem
    · unfold Worker.setWake at ht
      dsimp only at ht
      split at ht
      · cases ht
      · rename_i hne
        exact absurd ht (hne false)

/-- **A pass that ends** leaves its items with the pending ones, and a wake for them. -/
theorem finishCycle_kept (howed : ∀ {x}, x ∈ w.owed → x ∈ w.pending ∨ x ∈ w.draining)
    (hidle : w.pending ∪ w.draining ≠ ∅ → w.idle = false) {task : Option (Phase T)}
    (ht : ({ w.finishCycle with task } : Worker T).inPass = false)
    (hr : task = some (.waiting false) → w.finishCycle.wake = false) :
    Kept { w.finishCycle with task } := by
  unfold Worker.finishCycle at ht hr ⊢
  dsimp only at ht hr ⊢
  by_cases hp : w.pending ∪ w.draining = ∅
  · simp only [if_pos hp] at ht hr ⊢
    refine ⟨fun {y} hy => ?_, fun _ => rfl, fun hne => absurd hp hne, hr, fun _ => .inr ⟨hp, ht⟩⟩
    exact .inl (Finset.mem_union.2 (howed hy))
  · simp only [if_neg hp] at ht hr ⊢
    refine ⟨fun {y} hy => ?_, fun _ => rfl, fun _ => rfl, hr, fun hi => ?_⟩
    · exact .inl (Finset.mem_union.2 (howed hy))
    · have hi' : w.idle = true := hi
      rw [hidle hp] at hi'
      cases hi'

omit [DecidableEq T] in
/-- Idle, while the worker has a task: nothing is pending. -/
theorem Kept.settled (h : Kept w) (hi : w.idle = true) (ht : w.task ≠ none) : w.pending = ∅ :=
  ((h.idle hi).resolve_left ht).1

omit [DecidableEq T] in
/-- Not idle during a pass. -/
theorem Kept.busy (h : Kept w) (hp : w.inPass = true) : w.idle = false := by
  cases hi : w.idle with
  | false => rfl
  | true =>
    rcases h.idle hi with hn | ⟨_, hn⟩
    · rw [Worker.inPass, hn] at hp
      cases hp
    · rw [hp] at hn
      cases hn

theorem finishCycle_loopHead (howed : ∀ {x}, x ∈ w.owed → x ∈ w.pending ∨ x ∈ w.draining)
    (hidle : w.pending ∪ w.draining ≠ ∅ → w.idle = false) : Kept w.finishCycle.loopHead := by
  apply finishCycle_kept howed hidle
  · rfl
  · intro hr
    cases hw : w.finishCycle.wake with
    | false => rfl
    | true =>
      rw [hw] at hr
      cases hr

/-- **The next item of a pass**, or its end. -/
theorem next_kept (howed : ∀ {x}, x ∈ w.owed → x ∈ w.pending ∨ x ∈ w.draining)
    (hwake : w.pending ≠ ∅ → w.wake = true)
    (hidle : w.pending ∪ w.draining ≠ ∅ → w.idle = false) : Kept (w.next pick) := by
  unfold Worker.next
  by_cases hd : w.draining = ∅
  · rw [if_pos hd]
    exact finishCycle_loopHead howed hidle
  · rw [if_neg hd]
    refine ⟨fun {y} hy => ?_, nofun, hwake, nofun, fun hi => ?_⟩
    · obtain ⟨hne, hy⟩ := Finset.mem_erase.1 hy
      exact (howed hy).imp_right fun hm => Finset.mem_erase.2 ⟨hne, hm⟩
    · have hi' : w.idle = true := hi
      rw [hidle fun he => hd (Finset.subset_empty.1 (he ▸ Finset.subset_union_right))] at hi'
      cases hi'

omit [DecidableEq T] in
/-- The task moves on, with nothing else changed, and is in no pass before or after. -/
theorem Kept.task (h : Kept w) (hn : w.inPass = false) {phase : Phase T}
    (hp : ∀ item, phase ≠ .processing item) (hr : phase = .waiting false → w.wake = false)
    (hi : w.idle = true → w.pending = ∅) : Kept { w with task := some phase } := by
  have hpass : ({ w with task := some phase } : Worker T).inPass = false := by
    unfold Worker.inPass
    cases phase with
    | processing item => exact absurd rfl (hp item)
    | _ => rfl
  exact ⟨h.owed, fun _ => h.pass hn, h.wake, fun ht => hr (Option.some.inj ht),
    fun hi' => .inr ⟨hi hi', hpass⟩⟩

/-- **One action** keeps every requested item. -/
theorem Kept.step (h : Kept w) : Kept (w.step a) := by
  cases a with
  | request item => exact h.request
  | start =>
    unfold Worker.step Worker.start
    dsimp only
    split_ifs
    · exact h
    · split
      · rename_i ht
        refine ⟨h.owed, fun _ => h.pass ?_, h.wake, nofun, nofun⟩
        unfold Worker.inPass
        rw [ht]
      · rename_i ht
        refine ⟨h.owed, fun _ => h.pass ?_, h.wake, nofun, nofun⟩
        unfold Worker.inPass
        rw [ht]
      · exact h
  | stop =>
    unfold Worker.step
    dsimp only
    split_ifs
    · exact h
    · split
      · exact h
      · exact ⟨h.owed, h.pass, h.wake, h.released, h.idle⟩
  | boot =>
    unfold Worker.step
    dsimp only
    split_ifs
    · exact h
    · split
      · rename_i ht
        have hn : w.inPass = false := by rw [Worker.inPass, ht]
        exact h.task hn nofun nofun fun hi => h.settled hi (by rw [ht]; nofun)
      · exact h
  | booted =>
    unfold Worker.step Worker.loopHead
    dsimp only
    split_ifs with _ hp
    · exact h
    · split
      · rename_i ht
        have hn : w.inPass = false := by rw [Worker.inPass, ht]
        exact ⟨h.owed, fun _ => h.pass hn, fun hne => absurd hp hne,
          fun hr => Phase.waiting.inj (Option.some.inj hr), fun _ => .inr ⟨hp, rfl⟩⟩
      · exact h
    · split
      · rename_i ht
        have hn : w.inPass = false := by rw [Worker.inPass, ht]
        exact h.task hn nofun (fun hr => Phase.waiting.inj hr) fun hi =>
          h.settled hi (by rw [ht]; nofun)
      · exact h
  | turn pick =>
    unfold Worker.step
    dsimp only
    by_cases hs : w.stopping = true
    · rw [if_pos hs]
      exact h
    rw [if_neg hs]
    split
    · rename_i ht
      have hn : w.inPass = false := by rw [Worker.inPass, ht]
      split
      · refine next_kept (fun {y} hy => .inr ?_) (fun hne => absurd rfl hne) fun hne => ?_
        · rcases h.owed hy with hm | hm
          · exact hm
          · rw [h.pass hn] at hm
            exact absurd hm (Finset.notMem_empty y)
        · cases hi : w.idle with
          | false => rfl
          | true =>
            refine absurd ?_ hne
            simp [Worker.swapPending, h.settled hi (by rw [ht]; nofun)]
      · exact h
    · rename_i item ht
      have hin : w.inPass = true := by rw [Worker.inPass, ht]
      split
      · exact next_kept h.owed h.wake fun _ => h.busy hin
      · exact h
    · exact h
  | fail =>
    unfold Worker.step
    dsimp only
    split_ifs
    · exact h
    · split
      · rename_i item ht
        have hin : w.inPass = true := by rw [Worker.inPass, ht]
        exact finishCycle_loopHead h.owed fun _ => h.busy hin
      · exact h
  | cancelled =>
    unfold Worker.step
    dsimp only
    split_ifs
    · split
      · rename_i item ht
        have hin : w.inPass = true := by rw [Worker.inPass, ht]
        exact finishCycle_kept h.owed (fun _ => h.busy hin) rfl nofun
      · rename_i ht
        have hn : w.inPass = false := by rw [Worker.inPass, ht]
        exact h.task hn nofun nofun fun hi => h.settled hi (by rw [ht]; nofun)
      · rename_i ht
        have hn : w.inPass = false := by rw [Worker.inPass, ht]
        exact h.task hn nofun nofun fun hi => h.settled hi (by rw [ht]; nofun)
      · rename_i ht
        have hn : w.inPass = false := by rw [Worker.inPass, ht]
        exact h.task hn nofun nofun fun hi => h.settled hi (by rw [ht]; nofun)
      · exact h
    · exact h
  | stopped =>
    unfold Worker.step
    dsimp only
    split_ifs
    · split
      · rename_i ht
        have hn : w.inPass = false := by rw [Worker.inPass, ht]
        exact ⟨h.owed, fun _ => h.pass hn, h.wake, nofun, fun _ => .inl rfl⟩
      · exact h
    · exact h

theorem next_task : (w.next pick).task ≠ none := by
  unfold Worker.next
  split_ifs
  · exact nofun
  · exact nofun

/-- Only `stop` lets go of the task. -/
theorem task_of_step (ha : a ≠ .stopped) (ht : (w.step a).task = none) : w.task = none := by
  cases a with
  | stopped => exact absurd rfl ha
  | request item =>
    unfold Worker.step Worker.request Worker.setWake at ht
    dsimp only at ht
    split_ifs at ht
    · exact ht
    · dsimp only at ht
      split at ht
      · cases ht
      · exact ht
  | start =>
    unfold Worker.step Worker.start at ht
    dsimp only at ht
    split_ifs at ht
    · exact ht
    · split at ht
      · cases ht
      · cases ht
      · exact ht
  | stop =>
    unfold Worker.step at ht
    dsimp only at ht
    split_ifs at ht
    · exact ht
    · split at ht
      · exact ht
      · exact ht
  | boot =>
    unfold Worker.step at ht
    dsimp only at ht
    split_ifs at ht
    · exact ht
    · split at ht
      · cases ht
      · exact ht
  | booted =>
    unfold Worker.step Worker.loopHead at ht
    dsimp only at ht
    by_cases hs : w.stopping = true
    · rwa [if_pos hs] at ht
    rw [if_neg hs] at ht
    split at ht
    · cases ht
    · exact ht
  | turn pick =>
    unfold Worker.step at ht
    dsimp only at ht
    by_cases hs : w.stopping = true
    · rwa [if_pos hs] at ht
    rw [if_neg hs] at ht
    split at ht
    · split at ht
      · exact absurd ht next_task
      · exact ht
    · split at ht
      · exact absurd ht next_task
      · exact ht
    · exact ht
  | fail =>
    unfold Worker.step at ht
    dsimp only at ht
    split_ifs at ht
    · exact ht
    · split at ht
      · cases ht
      · exact ht
  | cancelled =>
    unfold Worker.step at ht
    dsimp only at ht
    split_ifs at ht
    · split at ht
      · cases ht
      · cases ht
      · cases ht
      · cases ht
      · exact ht
    · exact ht

/-- Without a task, only `stop` sets idle. -/
theorem idle_of_taskless (ht : w.task = none) (ht' : (w.step a).task = none)
    (hi : (w.step a).idle = true) : w.idle = true := by
  cases a with
  | request item =>
    unfold Worker.step Worker.request Worker.setWake at hi
    dsimp only at hi
    split_ifs at hi
    exact hi
  | start =>
    by_cases hs : w.stopping = true
    · simpa [Worker.step, hs] using hi
    · simp [Worker.step, Worker.start, hs, ht] at ht'
  | _ => simpa [Worker.step, ht] using hi

/-- **The worker drops no request**, in every run. A requested item whose processing has not begun
since is in the set of the running pass, or pending with the wake event set, for which the task does
not sleep. Idle, but for `stop`, is set only when nothing is requested and no pass runs, and while a
task runs it is set only then. An exception in a pass ends neither the loop nor a request. -/
theorem worker_drops_nothing (w : Worker T) (h : Reaches Worker.step any {} w) :
    (∀ x ∈ w.owed, x ∈ w.draining ∧ w.inPass = true ∨
      x ∈ w.pending ∧ w.wake = true ∧ w.task ≠ some (.waiting false)) ∧
    (∀ a, a ≠ .stopped → w.idle = false → (w.step a).idle = true → Quiet (w.step a)) ∧
    (w.idle = true → w.task ≠ none → Quiet w) ∧
    (w.inPass = true → w.stopping = false →
      (∃ released, (w.step .fail).task = some (.waiting released)) ∧
        (w.step .fail).owed = w.owed) := by
  have hk : Kept w := by
    refine h.invariant (I := Kept) ?_ fun _ _ _ hk => hk.step
    exact ⟨fun {x} hx => absurd hx (Finset.notMem_empty x), fun _ => rfl, fun hne => absurd rfl hne,
      nofun, fun _ => .inl rfl⟩
  refine ⟨fun x hx => ?_, fun a ha hi hi' => ?_, fun hi ht => ?_, fun hin hs => ?_⟩
  · rcases hk.owed hx with hm | hm
    · have hwake := hk.wake (Finset.ne_empty_of_mem hm)
      refine .inr ⟨hm, hwake, fun ht => ?_⟩
      rw [hk.released ht] at hwake
      cases hwake
    · refine .inl ⟨hm, ?_⟩
      by_contra hn
      rw [hk.pass (by simpa using hn)] at hm
      exact absurd hm (Finset.notMem_empty x)
  · have hk' : Kept (w.step a) := hk.step
    rcases hk'.idle hi' with ht | ⟨hp, hn⟩
    · rw [idle_of_taskless (task_of_step ha ht) ht hi'] at hi
      cases hi
    · exact hk'.quiet hp hn
  · obtain ⟨hp, hn⟩ := (hk.idle hi).resolve_left ht
    exact hk.quiet hp hn
  · have ht : ∃ item, w.task = some (.processing item) := by
      unfold Worker.inPass at hin
      split at hin
      · rename_i item ht
        exact ⟨item, ht⟩
      · cases hin
    obtain ⟨item, ht⟩ := ht
    have hstep : w.step .fail = w.finishCycle.loopHead := by
      simp [Worker.step, hs, ht]
    rw [hstep]
    refine ⟨⟨_, rfl⟩, ?_⟩
    unfold Worker.loopHead Worker.finishCycle
    dsimp only
    split_ifs <;> rfl

/-- A reload requested during a pass, which then fails: it is pending, with the wake event set. -/
theorem worker_drops_nothing_failed_pass :
    let w := [Action.start, .boot, .booted, .request 1, .turn 1, .request 2, .fail].foldl
      Worker.step ({} : Worker ℕ)
    2 ∈ w.draining ∧ w.inPass = true ∨
      2 ∈ w.pending ∧ w.wake = true ∧ w.task ≠ some (.waiting false) :=
  (worker_drops_nothing _ (Reaches.foldl [Action.start, .boot, .booted, .request 1, .turn 1,
    .request 2, .fail] ({} : Worker ℕ))).1 2 (by decide)

end DeviceBuilder.Scan
