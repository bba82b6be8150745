import DeviceBuilder.Helpers.StorageOrder

/-!
# What the store still owes

The latest value is on disk, on its way there, or lost to a write that failed
(`Store.Durable`). Only the cancellation of a caller of `async_save_now` can break
this: it drops a queued write, or leaves what it took over from the timer to nobody.

* `durable_step`: every step that is no such cancel keeps it.
* `Durable.quiet`: so a store at rest whose last write succeeded is up to date.
-/

namespace DeviceBuilder.Storage

open Runs

variable {V P : Type*} {encode : V → P} {s : Store V P} {i j k t g : ℕ} {pt q : Point} {job : WriteJob V}

namespace Store

/-- A cancelled caller has no write under way, and what it would write is somebody else's too. -/
def Covered (s : Store V P) : StoreAction V → Prop
  | .cancel i => s.KeepsWrites (.cancel i) ∧ (s.dataFunc = true → s.delayHandle.isSome = true ∨
      ∃ j pt, s.victim i j = false ∧ s.point j = some pt ∧ pt.flushes = true)
  | _ => True

/-- The latest value is on disk, on its way, or lost to a failed write. -/
def Kept (encode : V → P) (s : Store V P) : Prop :=
  s.gen = 0 ∧ s.lastWrite = none ∨ (∃ k job, s.Unfinished k job ∧ job.snapshot.gen = s.gen) ∨
    s.file = some (s.gen, encode s.ram) ∨ s.lastWrite = some false ∧ s.gen ∈ s.failed

/-- **The order of the writes, and what is still owed.** -/
structure Durable (encode : V → P) (s : Store V P) : Prop extends Ordered s where
  values : ∀ (k : ℕ) (job : WriteJob V), s.jobs[k]? = some job → job.snapshot.gen = s.gen → job.snapshot.value = s.ram
  kept : s.dataFunc = false → s.Kept encode
  owed : s.dataFunc = true → s.delayHandle.isSome = true ∨ ∃ j pt, s.point j = some pt ∧ pt.flushes = true

theorem durable_mutate (h : Durable encode s) (value : V) (delay : ℕ) :
    Durable encode (asyncDelaySave { s with ram := value, gen := s.gen + 1 } delay) := by
  have ho := ordered_mutate h.toOrdered value delay
  obtain ⟨due, next, he⟩ := asyncDelaySave_eq { s with ram := value, gen := s.gen + 1 } delay
  rw [he] at ho ⊢
  refine { ho with
    values := fun k job hk hg => ?_
    kept := nofun
    owed := fun _ => .inl rfl }
  have := h.ram k job hk
  simp only at hg
  omega

/-- One coroutine moves, into no write and out of none. -/
theorem Durable.shift (h : Durable encode s) {ts : List StoreTask} {w : List ℕ} {due inflight : Option ℕ}
    (hp : Store.point { s with tasks := ts, waiters := w, delayHandle := due, inflight := inflight } =
      Function.update s.point i (some pt))
    (ho : Ordered { s with tasks := ts, waiters := w, delayHandle := due, inflight := inflight })
    (howed : s.dataFunc = true → due.isSome = true ∨ ∃ j q, Function.update s.point i (some pt) j = some q ∧ q.flushes = true) :
    Durable encode { s with tasks := ts, waiters := w, delayHandle := due, inflight := inflight } :=
  { ho with
    values := h.values
    kept := h.kept
    owed := fun hd => by rw [hp]; exact howed hd }

/-- A task that will look at `_data_func` is created. -/
theorem durable_spawn (h : Durable encode s) {t : StoreTask} (ht : t.point.flushes = true) (hne : t.point ≠ .acquire)
    (inflight : Option ℕ) :
    Durable encode { s with delayHandle := none, inflight := inflight, tasks := s.tasks ++ [t] } :=
  h.shift (i := s.tasks.length) (w := s.waiters) (point_append t) (ordered_spawn h.toOrdered ht hne inflight)
    fun _ => .inr ⟨s.tasks.length, t.point, Function.update_self .., ht⟩

/-- A coroutine that is there moves. -/
theorem durable_setPoint (h : Durable encode s) {ws : List ℕ} (hi : s.point i = some q)
    (ho : Ordered (setPoint { s with waiters := ws } i pt))
    (howed : s.dataFunc = true → s.delayHandle.isSome = true ∨
      ∃ j q, Function.update s.point i (some pt) j = some q ∧ q.flushes = true) :
    Durable encode (setPoint { s with waiters := ws } i pt) :=
  h.shift (i := i) (point_setPoint hi pt) ho howed

/-- A task that waited goes on: the inflight write is done, or the lock is its. -/
theorem durable_start (h : Durable encode s) {w : List ℕ} (hi : s.point i = some (.awaitInflight t) ∧ w = s.waiters ∨
    s.point i = some .acquire ∧ s.waiters = i :: w) : Durable encode (setPoint { s with waiters := w } i .start) := by
  have ho := ordered_start h.toOrdered hi
  have howed : ∃ j q, Function.update s.point i (some .start) j = some q ∧ q.flushes = true :=
    ⟨i, .start, Function.update_self .., rfl⟩
  rcases hi with ⟨hi, -⟩ | ⟨hi, -⟩
  · exact durable_setPoint h hi ho fun _ => .inr howed
  · exact durable_setPoint h hi ho fun _ => .inr howed

/-- A flush finds nothing to write. -/
theorem durable_nothing (h : Durable encode s) (hi : s.point i = some .start) (hd : s.dataFunc = false) :
    Durable encode (s.setPoint i .returned) := by
  refine durable_setPoint h hi (ordered_nothing h.toOrdered hi) fun hd' => ?_
  rw [hd] at hd'
  cases hd'

/-- A flush waits for the lock. -/
theorem durable_wait (h : Durable encode s) (hi : s.point i = some .start) :
    Durable encode (setPoint { s with waiters := s.waiters ++ [i] } i .acquire) :=
  durable_setPoint h hi (ordered_wait h.toOrdered hi) fun _ => .inr ⟨i, .acquire, Function.update_self .., rfl⟩

theorem durable_submitted (h : Durable encode s) (hi : s.point i = some .start) (hh : s.holder = none) :
    Durable encode (s.submitted i) := by
  have hlast : (s.submitted i).Unfinished s.jobs.length { snapshot := ⟨s.gen, s.ram⟩ } :=
    ⟨List.getElem?_concat_length .., rfl⟩
  refine { ordered_submitted h.toOrdered hi hh with
    values := fun k job hk hg => ?_
    kept := fun _ => .inr (.inl ⟨_, _, hlast, rfl⟩)
    owed := nofun }
  rcases getElem?_submitted hk with ⟨-, hk⟩ | ⟨-, rfl⟩
  · exact h.values k job hk hg
  · rfl

theorem durable_writeLocked (h : Durable encode s) (hi : s.point i = some .start) (hh : s.holder = none) :
    Durable encode (s.writeLocked i) := by
  unfold writeLocked
  by_cases hd : s.dataFunc = true
  · rw [if_pos hd]
    exact durable_submitted h hi hh
  · rw [if_neg hd, free_holder hh]
    exact durable_nothing h hi (Bool.eq_false_iff.2 hd)

theorem durable_handleWrite (h : Durable encode s) (hi : s.point i = some .start) : Durable encode (s.handleWrite i) := by
  unfold handleWrite
  split
  · rename_i hfree
    exact durable_writeLocked h hi hfree.1
  · exact durable_wait h hi

theorem durable_flush (h : Durable encode s) (hi : s.point i = some .start) : Durable encode (s.flush i) := by
  unfold flush
  by_cases hd : s.dataFunc = true
  · rw [if_pos hd]
    exact durable_handleWrite h hi
  · rw [if_neg hd]
    exact durable_nothing h hi (Bool.eq_false_iff.2 hd)

/-- A write is over: the lock is free. -/
theorem durable_written (h : Durable encode s) (hi : s.point i = some (.writing k)) : Durable encode (s.written i k) := by
  have ho := ordered_written h.toOrdered hi
  unfold written at ho ⊢
  cases hk : s.jobs[k]? with
  | none => exact h
  | some job =>
    simp only [hk] at ho ⊢
    split
    · exact h
    · rename_i hfin
      rw [if_neg hfin] at ho
      have hp : Store.point (setPoint { s with holder := none } i .returned) =
          Function.update s.point i (some .returned) := point_setPoint hi .returned
      refine { ho with
        values := h.values
        kept := h.kept
        owed := fun hd => ?_ }
      rw [hp]
      rcases h.owed hd with hd | ⟨j, q, hq, hf⟩
      · exact .inl hd
      · refine .inr ⟨j, q, ?_, hf⟩
        rw [Function.update_of_ne ?_]
        · exact hq
        · rintro rfl
          rw [hi] at hq
          obtain rfl := Option.some.inj hq
          cases hf

/-- A thread takes a job. -/
theorem durable_jobStarts (h : Durable encode s) (k : ℕ) : Durable encode (s.jobStarts k) := by
  refine { ordered_jobStarts h.toOrdered k with
    values := fun m b hb hg => ?_
    kept := fun hd => ?_
    owed := h.owed }
  · obtain ⟨a, ha, hs, -⟩ := getElem?_jobStarts hb
    rw [← hs] at hg ⊢
    exact h.values m a ha hg
  · refine (h.kept hd).imp_right (.imp_left ?_)
    rintro ⟨m, a, ⟨ha, hu⟩, hg⟩
    have hb : (s.jobStarts k).jobs[m]? = some (if k = m ∧ a.state = .queued then { a with state := .running } else a) := by
      unfold jobStarts
      rw [List.getElem?_modify, ha]
      by_cases hm : k = m <;> by_cases hq : a.state = .queued <;> simp [hm, hq]
    refine ⟨m, _, ⟨hb, ?_⟩, ?_⟩ <;> split
    · rfl
    · exact hu
    · exact hg
    · exact hg

/-- The write that is under way while nothing is to be written is that of the value in RAM. -/
theorem Durable.latest (h : Durable encode s) (hd : s.dataFunc = false) (hu : s.Unfinished k job) :
    job.snapshot.gen = s.gen := by
  have hgen := h.ram k job hu.1
  obtain ⟨hfile, hfailed⟩ := h.older k job hu
  rcases h.kept hd with ⟨hg, -⟩ | ⟨m, b, hb, hg⟩ | hf | ⟨-, hf⟩
  · omega
  · obtain rfl := h.overlap hb hu
    have := hb.1
    rw [hu.1] at this
    exact Option.some.inj this ▸ hg
  · have : s.fileGen = s.gen := by
      unfold fileGen
      rw [hf]
      rfl
    omega
  · exact Nat.le_antisymm hgen (hfailed _ hf)

/-- **A write ends**, and no other is under way. -/
theorem durable_jobEnds (h : Durable encode s) (k : ℕ) (ok : Bool) : Durable encode (s.jobEnds encode k ok) := by
  rcases jobEnds_cases encode s k ok with he | ⟨job, hu, he⟩
  · rw [he]
    exact h
  rw [he]
  refine { ordered_ends h.toOrdered hu ok with
    values := fun m b hb hg => ?_
    kept := fun hd => ?_
    owed := h.owed }
  · rcases getElem?_ends hu hb with ⟨-, rfl⟩ | ⟨-, hb⟩
    · exact h.values k job hu.1 hg
    · exact h.values m b hb hg
  · have hlatest := h.latest hd hu
    cases ok with
    | true =>
      refine .inr (.inr (.inl ?_))
      show some (job.snapshot.gen, encode job.snapshot.value) = some (s.gen, encode s.ram)
      rw [hlatest, h.values k job hu.1 hlatest]
    | false =>
      refine .inr (.inr (.inr ⟨rfl, ?_⟩))
      show s.gen ∈ s.failed ++ [job.snapshot.gen]
      rw [hlatest]
      exact List.mem_append_right _ (List.mem_singleton.2 rfl)

/-- What the cancellation of a caller leaves alone. -/
theorem cancel_fields (s : Store V P) (i : ℕ) : (s.cancel i).dataFunc = s.dataFunc ∧
    (s.cancel i).delayHandle = s.delayHandle ∧ (s.cancel i).gen = s.gen ∧ (s.cancel i).ram = s.ram ∧
    (s.cancel i).file = s.file ∧ (s.cancel i).lastWrite = s.lastWrite ∧ (s.cancel i).failed = s.failed := by
  unfold cancel
  split <;> exact ⟨rfl, rfl, rfl, rfl, rfl, rfl, rfl⟩

/-- **A caller is cancelled** whose write is not under way, and whose work is somebody else's too. -/
theorem durable_cancel (h : Durable encode s) (i : ℕ) (hc : s.Covered (.cancel i)) : Durable encode (s.cancel i) := by
  obtain ⟨hjobs, howed⟩ := hc
  by_cases ha : s.tasks[i]?.any (·.asked.isSome) = true
  · obtain ⟨hdata, hdue, hgen, hram, hfile, hlast, hfailed⟩ := cancel_fields s i
    refine { ordered_cancel h.toOrdered hjobs with
      values := ?_
      kept := fun hd => ?_
      owed := fun hd => ?_ }
    · rw [jobs_cancel hjobs, hgen, hram]
      exact h.values
    · rw [hdata] at hd
      unfold Kept
      simp only [unfinished_cancel hjobs, hgen, hlast, hfile, hram, hfailed]
      exact h.kept hd
    · rw [hdata] at hd
      rw [hdue]
      rcases howed hd with hd | ⟨j, q, hv, hq, hf⟩
      · exact .inl hd
      · refine .inr ⟨j, q, (point_cancel ha j ?_).2 ⟨hq, fun hv' => ?_⟩, hf⟩
        · rintro rfl
          cases hf
        · rw [hv] at hv'
          cases hv'
  · rw [cancel_other ha]
    exact h

theorem durable_saveNow (h : Durable encode s) : Durable encode s.asyncSaveNow := by
  unfold asyncSaveNow
  simp only
  cases hf : s.inflight.filter s.isLive with
  | some t => exact durable_spawn h (t := ⟨some s.gen, .awaitInflight t⟩) rfl nofun s.inflight
  | none =>
    have hnew := durable_spawn h (t := ⟨some s.gen, .start⟩) rfl nofun s.inflight
    have hpt := congrFun (point_append (s := s) ⟨some s.gen, .start⟩) s.tasks.length
    rw [Function.update_self] at hpt
    exact durable_flush hnew hpt

theorem durable_resume (h : Durable encode s) (i : ℕ) : Durable encode (s.resume i) := by
  unfold resume
  cases hi : s.point i with
  | none => exact h
  | some q =>
    cases q with
    | start => exact durable_handleWrite h hi
    | acquire =>
      simp only [acquired]
      split
      · rename_i hfree
        have hst := durable_start h (w := s.waiters.tail) (t := 0) (.inr ⟨hi, head_waiters hfree.2⟩)
        have hw := durable_writeLocked hst (i := i) (by
          rw [point_setPoint (s := { s with waiters := s.waiters.tail }) hi]
          exact Function.update_self ..) hfree.1
        rw [writeLocked_setPoint] at hw
        exact hw
      · exact h
    | writing k => exact durable_written h hi
    | awaitInflight t =>
      simp only
      split
      · exact h
      · have hst := durable_start h (w := s.waiters) (.inl ⟨hi, rfl⟩)
        have hf := durable_flush hst (i := i) (by
          rw [point_setPoint (s := { s with waiters := s.waiters }) hi]
          exact Function.update_self ..)
        rw [flush_setPoint] at hf
        exact hf
    | returned => exact h
    | cancelled => exact h

theorem durable_timerFires (h : Durable encode s) : Durable encode s.onDelayHandleFire := by
  unfold onDelayHandleFire
  cases hd : s.delayHandle with
  | none => exact h
  | some due =>
    simp only
    split
    · exact { h with owed := fun _ => .inl rfl }
    · exact durable_spawn h (t := ⟨none, .start⟩) rfl nofun (some s.tasks.length)

/-- **A step** that cancels nobody whose work is undone keeps it. -/
theorem durable_step (h : Durable encode s) (a : StoreAction V) (hc : s.Covered a) : Durable encode (s.step encode a) := by
  cases a with
  | mutate value delay => exact durable_mutate h value delay
  | tick => exact { h with }
  | timerFires => exact durable_timerFires h
  | saveNow => exact durable_saveNow h
  | resume i => exact durable_resume h i
  | cancel i => exact durable_cancel h i hc
  | jobStarts k => exact durable_jobStarts h k
  | jobEnds k ok => exact durable_jobEnds h k ok

theorem durable_fresh (value : V) : Durable encode (fresh P value) :=
  { ordered_fresh value with
    values := fun _ _ hk => nomatch hk
    kept := fun _ => .inl ⟨rfl, rfl⟩
    owed := nofun }

/-- No timer is armed, no write is under way or about to be. -/
def AtRest (s : Store V P) : Prop := s.delayHandle = none ∧ (∀ t ∈ s.tasks, t.point.ended = true) ∧ s.Idle

/-- A store at rest has nothing left to write. -/
theorem Durable.drained (h : Durable encode s) (hr : s.AtRest) : s.dataFunc = false := by
  obtain ⟨hdue, hended, -⟩ := hr
  cases hd : s.dataFunc with
  | false => rfl
  | true =>
    exfalso
    rcases h.owed hd with hd | ⟨j, q, hq, hf⟩
    · rw [hdue] at hd
      cases hd
    · obtain ⟨t, ht, rfl⟩ := Option.map_eq_some_iff.1 hq
      have he := hended t (List.mem_of_getElem? ht)
      cases hp : t.point <;> rw [hp] at hf he <;> cases hf <;> cases he

/-- **At rest** after a write that succeeded, the file holds the value in RAM. -/
theorem Durable.quiet (h : Durable encode s) (hr : s.AtRest) (hlast : s.lastWrite = some true) :
    s.file = some (s.gen, encode s.ram) := by
  rcases h.kept (h.drained hr) with ⟨-, hl⟩ | ⟨k, job, hk, -⟩ | hf | ⟨hl, -⟩
  · rw [hlast] at hl
    cases hl
  · exact absurd hk (hr.2.2 k job)
  · exact hf
  · rw [hlast] at hl
    cases hl

end Store

end DeviceBuilder.Storage
