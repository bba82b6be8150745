import DeviceBuilder.Helpers.Storage
import Mathlib.Data.List.Nodup

/-!
# The order of the store's writes

A write has the lock from its snapshot to its end, so the snapshots reach the file
in the order they were taken, as long as no caller is cancelled while its write is
queued or in a thread.

* `Store.Ordered`: the lock, the executor jobs and the file.
* `ordered_step`: every step but such a cancel keeps it.
-/

namespace DeviceBuilder.Storage

open Runs

variable {V P : Type*} {encode : V → P} {s : Store V P} {i j k t g : ℕ} {pt q : Point} {job : WriteJob V}

namespace Store

/-- The snapshot the file holds. -/
def fileGen (s : Store V P) : ℕ := (s.file.map (·.1)).getD 0

/-- Executor job `k` is queued or in a thread. -/
def Unfinished (s : Store V P) (k : ℕ) (job : WriteJob V) : Prop := s.jobs[k]? = some job ∧ job.state.unfinished = true

/-- No executor job is queued or in a thread. -/
def Idle (s : Store V P) : Prop := ∀ k job, ¬s.Unfinished k job

/-- The step cancels no write that is queued or in a thread. -/
def KeepsWrites (s : Store V P) : StoreAction V → Prop
  | .cancel i => ∀ k job, s.Unfinished k job → s.abandoned i k = false
  | _ => True

/-- For a caller of `async_save_now`, the mutations before its call. -/
def asked (s : Store V P) (i : ℕ) : Option ℕ := s.tasks[i]?.bind (·.asked)

/-- **One write at a time**, in the order of the snapshots. -/
structure Ordered (s : Store V P) : Prop where
  holder : ∀ i, s.holder = some i ↔ ∃ k, s.point i = some (.writing k)
  waits : ∀ i, i ∈ s.waiters ↔ s.point i = some .acquire
  nodup : s.waiters.Nodup
  owner : ∀ k job, s.Unfinished k job → ∃ i, s.point i = some (.writing k)
  bound : ∀ i k, s.point i = some (.writing k) → k < s.jobs.length
  ram : ∀ (k : ℕ) (job : WriteJob V), s.jobs[k]? = some job → job.snapshot.gen ≤ s.gen
  disk : s.fileGen ≤ s.gen ∧ ∀ g ∈ s.failed, g ≤ s.gen
  older : ∀ k job, s.Unfinished k job → s.fileGen ≤ job.snapshot.gen ∧ ∀ g ∈ s.failed, g ≤ job.snapshot.gen
  done : ∀ (k : ℕ) (job : WriteJob V), s.jobs[k]? = some job → (job.state = .done true → job.snapshot.gen ≤ s.fileGen) ∧
    (job.state = .done false → job.snapshot.gen ∈ s.failed) ∧ job.state ≠ .dropped

/-! ### Points -/

theorem point_setPoint (hi : s.point i = some q) (pt : Point) :
    (s.setPoint i pt).point = Function.update s.point i (some pt) := by
  funext j
  obtain ⟨t, ht, -⟩ := Option.map_eq_some_iff.1 hi
  unfold point setPoint
  by_cases hj : j = i
  · subst hj
    simp [ht]
  · rw [Function.update_of_ne hj, List.getElem?_modify]
    simp [Ne.symm hj]

theorem asked_setPoint (i : ℕ) (pt : Point) : (s.setPoint i pt).asked = s.asked := by
  funext j
  unfold asked setPoint
  rw [List.getElem?_modify]
  by_cases hj : i = j
  · cases s.tasks[j]? <;> simp [hj]
  · simp [hj]

theorem setPoint_setPoint (i : ℕ) (pt q : Point) : (s.setPoint i q).setPoint i pt = s.setPoint i pt := by
  unfold setPoint
  rw [List.modify_modify_eq]
  rfl

/-- A task is created. -/
theorem point_append (t : StoreTask) :
    Store.point { s with tasks := s.tasks ++ [t] } = Function.update s.point s.tasks.length (some t.point) := by
  funext j
  unfold point
  rcases Nat.lt_trichotomy j s.tasks.length with h | h | h
  · rw [Function.update_of_ne (by omega), List.getElem?_append_left h]
  · subst h
    simp
  · rw [Function.update_of_ne (by omega), List.getElem?_eq_none (by simp; omega), List.getElem?_eq_none (by omega)]

theorem asked_append (t : StoreTask) :
    Store.asked { s with tasks := s.tasks ++ [t] } = Function.update s.asked s.tasks.length t.asked := by
  funext j
  unfold asked
  rcases Nat.lt_trichotomy j s.tasks.length with h | h | h
  · rw [Function.update_of_ne (by omega), List.getElem?_append_left h]
  · subst h
    simp
  · rw [Function.update_of_ne (by omega), List.getElem?_eq_none (by simp; omega), List.getElem?_eq_none (by omega)]

/-! ### Steps -/

theorem asyncDelaySave_eq (s : Store V P) (delay : ℕ) : ∃ due next,
    s.asyncDelaySave delay = { s with dataFunc := true, nextWriteTime := next, delayHandle := some due } := by
  unfold asyncDelaySave
  simp only
  split
  · split
    · rename_i due hd _
      exact ⟨due, _, by rw [hd]⟩
    · exact ⟨_, _, rfl⟩
  · exact ⟨_, _, rfl⟩


theorem ordered_mutate (h : Ordered s) (value : V) (delay : ℕ) :
    Ordered (asyncDelaySave { s with ram := value, gen := s.gen + 1 } delay) := by
  obtain ⟨due, next, he⟩ := asyncDelaySave_eq { s with ram := value, gen := s.gen + 1 } delay
  rw [he]
  exact { h with
    ram := fun k job hk => Nat.le_succ_of_le (h.ram k job hk)
    disk := ⟨Nat.le_succ_of_le h.disk.1, fun g hg => Nat.le_succ_of_le (h.disk.2 g hg)⟩ }

/-- One coroutine moves, into no write and out of none. -/
theorem writing_update (hold : ∀ k, s.point i ≠ some (.writing k)) (hnew : ∀ k, pt ≠ .writing k) (j k : ℕ) :
    Function.update s.point i (some pt) j = some (.writing k) ↔ s.point j = some (.writing k) := by
  rcases eq_or_ne j i with rfl | hj
  · rw [Function.update_self]
    exact ⟨fun he => absurd (Option.some.inj he) (hnew k), fun he => absurd he (hold k)⟩
  · rw [Function.update_of_ne hj]

theorem Ordered.shift (h : Ordered s) {ts : List StoreTask} {w : List ℕ} {due inflight : Option ℕ}
    (hp : Store.point { s with tasks := ts, waiters := w, delayHandle := due, inflight := inflight } =
      Function.update s.point i (some pt))
    (hold : ∀ k, s.point i ≠ some (.writing k)) (hnew : ∀ k, pt ≠ .writing k)
    (hwaits : ∀ j, j ∈ w ↔ Function.update s.point i (some pt) j = some .acquire) (hnodup : w.Nodup) :
    Ordered { s with tasks := ts, waiters := w, delayHandle := due, inflight := inflight } := by
  have hwriting := writing_update hold hnew
  refine { h with
    holder := fun j => ?_
    waits := fun j => by rw [hp]; exact hwaits j
    nodup := hnodup
    owner := fun k job hk => ?_
    bound := fun j k hk => ?_ }
  · rw [hp]
    simp only [hwriting]
    exact h.holder j
  · rw [hp]
    simp only [hwriting]
    exact h.owner k job hk
  · rw [hp, hwriting] at hk
    exact h.bound j k hk

theorem flushes_ne {q : Point} (ht : pt.flushes = true) (hq : q.flushes = false) : pt ≠ q := by
  rintro rfl
  rw [hq] at ht
  cases ht

theorem point_length (s : Store V P) : s.point s.tasks.length = none := by
  unfold point
  rw [List.getElem?_eq_none (Nat.le_refl _)]
  rfl

/-- A task that will look at `_data_func` is created. -/
theorem ordered_spawn (h : Ordered s) {t : StoreTask} (ht : t.point.flushes = true) (hne : t.point ≠ .acquire)
    (inflight : Option ℕ) : Ordered { s with delayHandle := none, inflight := inflight, tasks := s.tasks ++ [t] } := by
  refine h.shift (i := s.tasks.length) (w := s.waiters) (point_append t) (fun k hk => ?_)
    (fun k => flushes_ne ht rfl) (fun j => ?_) h.nodup
  · rw [point_length] at hk
    cases hk
  · rcases eq_or_ne j s.tasks.length with rfl | hj
    · rw [Function.update_self, h.waits, point_length]
      exact ⟨nofun, fun he => absurd (Option.some.inj he) hne⟩
    · rw [Function.update_of_ne hj]
      exact h.waits j

/-- A coroutine that is there moves. -/
theorem ordered_setPoint (h : Ordered s) {ws : List ℕ} (hi : s.point i = some q) (hold : ∀ k, q ≠ .writing k)
    (hnew : ∀ k, pt ≠ .writing k) (hwaits : ∀ j, j ∈ ws ↔ Function.update s.point i (some pt) j = some .acquire)
    (hnodup : ws.Nodup) : Ordered (setPoint { s with waiters := ws } i pt) := by
  refine h.shift (i := i) (point_setPoint hi pt) (fun k hk => ?_) hnew hwaits hnodup
  rw [hi] at hk
  exact hold k (Option.some.inj hk)

/-- A coroutine that does not wait for the lock moves, and does not wait for it then. -/
theorem Ordered.waits_same (h : Ordered s) (hi : s.point i = some q) (hq : q ≠ .acquire) (hpt : pt ≠ .acquire) (j : ℕ) :
    j ∈ s.waiters ↔ Function.update s.point i (some pt) j = some .acquire := by
  rcases eq_or_ne j i with rfl | hj
  · rw [Function.update_self, h.waits, hi]
    exact ⟨fun he => absurd (Option.some.inj he) hq, fun he => absurd (Option.some.inj he) hpt⟩
  · rw [Function.update_of_ne hj]
    exact h.waits j

/-- The first waiter gets the lock. -/
theorem Ordered.waits_tail (h : Ordered s) {ws : List ℕ} (hws : s.waiters = i :: ws) (hpt : pt ≠ .acquire) (j : ℕ) :
    j ∈ ws ↔ Function.update s.point i (some pt) j = some .acquire := by
  have hn := h.nodup
  rw [hws] at hn
  rcases eq_or_ne j i with rfl | hj
  · rw [Function.update_self]
    exact ⟨fun hw => absurd hw (List.nodup_cons.1 hn).1, fun he => absurd (Option.some.inj he) hpt⟩
  · rw [Function.update_of_ne hj, ← h.waits j, hws]
    exact ⟨List.mem_cons_of_mem _, fun hm => (List.mem_cons.1 hm).resolve_left hj⟩

/-- A coroutine queues for the lock. -/
theorem Ordered.waits_append (h : Ordered s) (j : ℕ) :
    j ∈ s.waiters ++ [i] ↔ Function.update s.point i (some .acquire) j = some .acquire := by
  rcases eq_or_ne j i with rfl | hj
  · rw [Function.update_self]
    exact ⟨fun _ => rfl, fun _ => List.mem_append_right _ (List.mem_singleton.2 rfl)⟩
  · rw [Function.update_of_ne hj, List.mem_append, h.waits j]
    exact ⟨fun hw => hw.resolve_right fun he => hj (List.mem_singleton.1 he), .inl⟩

theorem Ordered.nodup_append (h : Ordered s) (hi : s.point i = some .start) : (s.waiters ++ [i]).Nodup := by
  refine List.nodup_append.2 ⟨h.nodup, List.nodup_singleton i, ?_⟩
  rintro a ha b hb rfl
  have := (h.waits a).1 ha
  rw [List.mem_singleton.1 hb, hi] at this
  cases this

/-- A task that waited goes on: the inflight write is done, or the lock is its. -/
theorem ordered_start (h : Ordered s) {w : List ℕ} (hi : s.point i = some (.awaitInflight t) ∧ w = s.waiters ∨
    s.point i = some .acquire ∧ s.waiters = i :: w) : Ordered (setPoint { s with waiters := w } i .start) := by
  rcases hi with ⟨hi, rfl⟩ | ⟨hi, hws⟩
  · exact ordered_setPoint h hi nofun nofun (h.waits_same hi nofun nofun) h.nodup
  · have hn := h.nodup
    rw [hws] at hn
    exact ordered_setPoint h hi nofun nofun (h.waits_tail hws nofun) (List.nodup_cons.1 hn).2

/-- Nobody writes while the lock is free. -/
theorem Ordered.idle (h : Ordered s) (hh : s.holder = none) : s.Idle := by
  intro k job hk
  obtain ⟨i, hi⟩ := h.owner k job hk
  have := (h.holder i).2 ⟨k, hi⟩
  rw [hh] at this
  cases this

/-- A flush finds nothing to write, or waits for the lock. -/
theorem ordered_nothing (h : Ordered s) (hi : s.point i = some .start) : Ordered (s.setPoint i .returned) :=
  ordered_setPoint h hi nofun nofun (h.waits_same hi nofun nofun) h.nodup

theorem ordered_wait (h : Ordered s) (hi : s.point i = some .start) :
    Ordered (setPoint { s with waiters := s.waiters ++ [i] } i .acquire) :=
  ordered_setPoint h hi nofun nofun h.waits_append (h.nodup_append hi)

/-- The snapshot is taken and its write submitted. -/
def submitted (s : Store V P) (i : ℕ) : Store V P :=
  setPoint { s with
    dataFunc := false
    holder := some i
    jobs := s.jobs ++ [{ snapshot := ⟨s.gen, s.ram⟩ }] } i (.writing s.jobs.length)

theorem getElem?_submitted {jobs : List (WriteJob V)} {new : WriteJob V} (hk : (jobs ++ [new])[k]? = some job) :
    k < jobs.length ∧ jobs[k]? = some job ∨ k = jobs.length ∧ job = new := by
  rcases Nat.lt_trichotomy k jobs.length with hlt | rfl | hgt
  · exact .inl ⟨hlt, (List.getElem?_append_left hlt).symm.trans hk⟩
  · rw [List.getElem?_concat_length] at hk
    exact .inr ⟨rfl, (Option.some.inj hk).symm⟩
  · rw [List.getElem?_eq_none (by simp; omega)] at hk
    cases hk

/-- While the lock is free nobody writes, so the new write is the only one. -/
theorem writing_submitted (h : Ordered s) (hi : s.point i = some .start) (hh : s.holder = none) (j k : ℕ) :
    (s.submitted i).point j = some (.writing k) ↔ j = i ∧ k = s.jobs.length := by
  rw [show (s.submitted i).point = Function.update s.point i (some (.writing s.jobs.length)) from point_setPoint hi _]
  rcases eq_or_ne j i with rfl | hj
  · rw [Function.update_self]
    exact ⟨fun he => ⟨rfl, by cases he; rfl⟩, fun he => by rw [he.2]⟩
  · rw [Function.update_of_ne hj]
    refine ⟨fun he => ?_, fun he => absurd he.1 hj⟩
    have := (h.holder j).2 ⟨k, he⟩
    rw [hh] at this
    cases this

/-- The one unfinished job is the new one. -/
theorem unfinished_submitted (h : Ordered s) (hh : s.holder = none) (hu : (s.submitted i).Unfinished k job) :
    k = s.jobs.length ∧ job = { snapshot := ⟨s.gen, s.ram⟩ } := by
  obtain ⟨hk, hu⟩ := hu
  rcases getElem?_submitted hk with ⟨-, hk⟩ | he
  · exact absurd ⟨hk, hu⟩ (h.idle hh k job)
  · exact he

theorem ordered_submitted (h : Ordered s) (hi : s.point i = some .start) (hh : s.holder = none) :
    Ordered (s.submitted i) where
  holder j := by
    rw [show (s.submitted i).holder = some i from rfl]
    simp only [writing_submitted h hi hh, exists_and_left, exists_eq, and_true]
    exact ⟨fun he => (Option.some.inj he).symm, fun he => by rw [he]⟩
  waits j := by
    rw [show (s.submitted i).point = Function.update s.point i (some (.writing s.jobs.length)) from point_setPoint hi _]
    exact h.waits_same hi nofun (show Point.writing s.jobs.length ≠ .acquire from nofun) j
  nodup := h.nodup
  owner k job hk := ⟨i, (writing_submitted h hi hh i k).2 ⟨rfl, (unfinished_submitted h hh hk).1⟩⟩
  bound j k hk := by
    rw [((writing_submitted h hi hh j k).1 hk).2]
    simp [submitted, setPoint]
  ram k job hk := by
    rcases getElem?_submitted hk with ⟨-, hk⟩ | ⟨-, rfl⟩
    · exact h.ram k job hk
    · exact Nat.le_refl _
  disk := h.disk
  older k job hk := by
    rw [(unfinished_submitted h hh hk).2]
    exact h.disk
  done k job hk := by
    rcases getElem?_submitted hk with ⟨-, hk⟩ | ⟨-, rfl⟩
    · exact h.done k job hk
    · exact ⟨nofun, nofun, nofun⟩

theorem free_holder (hh : s.holder = none) : ({ s with holder := none } : Store V P) = s := by rw [← hh]

theorem ordered_writeLocked (h : Ordered s) (hi : s.point i = some .start) (hh : s.holder = none) :
    Ordered (s.writeLocked i) := by
  unfold writeLocked
  split
  · exact ordered_submitted h hi hh
  · rw [free_holder hh]
    exact ordered_nothing h hi

theorem ordered_handleWrite (h : Ordered s) (hi : s.point i = some .start) : Ordered (s.handleWrite i) := by
  unfold handleWrite
  split
  · rename_i hfree
    exact ordered_writeLocked h hi hfree.1
  · exact ordered_wait h hi

theorem ordered_flush (h : Ordered s) (hi : s.point i = some .start) : Ordered (s.flush i) := by
  unfold flush
  split
  · exact ordered_handleWrite h hi
  · exact ordered_nothing h hi

/-- The writer has the lock. -/
theorem Ordered.writer (h : Ordered s) (hi : s.point i = some (.writing k)) (hj : s.point j = some (.writing t)) :
    j = i ∧ t = k := by
  have hhold := (h.holder i).2 ⟨k, hi⟩
  have hhold' := (h.holder j).2 ⟨t, hj⟩
  rw [hhold] at hhold'
  obtain rfl := Option.some.inj hhold'
  rw [hi] at hj
  exact ⟨rfl, by simpa using hj.symm⟩

/-- The job of the writer is over, so no job is under way. -/
theorem Ordered.over (h : Ordered s) (hi : s.point i = some (.writing k)) (hk : s.jobs[k]? = some job)
    (hfin : job.state.unfinished ≠ true) : s.Idle := by
  intro m b hm
  obtain ⟨j, hj⟩ := h.owner m b hm
  obtain ⟨-, rfl⟩ := h.writer hi hj
  obtain ⟨hm, hu⟩ := hm
  rw [hk] at hm
  obtain rfl := Option.some.inj hm
  exact hfin hu

/-- Then nobody writes. -/
theorem Ordered.released (h : Ordered s) (hi : s.point i = some (.writing k)) (j m : ℕ) :
    Function.update s.point i (some .returned) j ≠ some (.writing m) := by
  intro hm
  rcases eq_or_ne j i with rfl | hj
  · rw [Function.update_self] at hm
    cases hm
  · rw [Function.update_of_ne hj] at hm
    exact hj (h.writer hi hm).1

/-- A write is over: the lock is free. -/
theorem ordered_written (h : Ordered s) (hi : s.point i = some (.writing k)) : Ordered (s.written i k) := by
  unfold written
  cases hk : s.jobs[k]? with
  | none => exact h
  | some job =>
    simp only
    split
    · exact h
    · rename_i hfin
      have hp : Store.point (setPoint { s with holder := none } i .returned) =
          Function.update s.point i (some .returned) := point_setPoint hi .returned
      have hnone := h.released hi
      refine { h with
        holder := fun j => ?_
        waits := fun j => by rw [hp]; exact h.waits_same hi nofun (show Point.returned ≠ .acquire from nofun) j
        owner := fun m b hm => absurd hm (h.over hi hk hfin m b)
        bound := fun j m hm => ?_ }
      · rw [hp]
        exact ⟨nofun, fun ⟨m, hm⟩ => absurd hm (hnone j m)⟩
      · rw [hp] at hm
        exact absurd hm (hnone j m)

/-- Two writes are never under way at once. -/
theorem Ordered.overlap (h : Ordered s) {a b : WriteJob V} (ha : s.Unfinished j a) (hb : s.Unfinished k b) : j = k := by
  obtain ⟨i, hi⟩ := h.owner j a ha
  obtain ⟨i', hi'⟩ := h.owner k b hb
  have h1 := (h.holder i).2 ⟨j, hi⟩
  have h2 := (h.holder i').2 ⟨k, hi'⟩
  rw [h1] at h2
  obtain rfl := Option.some.inj h2
  rw [hi] at hi'
  simpa using hi'

/-! ### The executor -/

/-- Each job is the one it was, as unfinished as it was. -/
theorem getElem?_jobStarts {b : WriteJob V} (hb : (s.jobStarts k).jobs[t]? = some b) : ∃ a : WriteJob V,
    s.jobs[t]? = some a ∧ a.snapshot = b.snapshot ∧ (a.state = b.state ∨ a.state = .queued ∧ b.state = .running) := by
  unfold jobStarts at hb
  rw [List.getElem?_modify] at hb
  obtain ⟨a, ha, rfl⟩ := Option.map_eq_some_iff.1 hb
  refine ⟨a, ha, ?_⟩
  by_cases hm : k = t
  · by_cases hq : a.state = .queued
    · simp [hm, hq]
    · simp [hm, hq]
  · simp [hm]

theorem unfinished_jobStarts {b : WriteJob V} (hb : (s.jobStarts k).Unfinished t b) :
    ∃ a, s.Unfinished t a ∧ a.snapshot = b.snapshot := by
  obtain ⟨hb, hu⟩ := hb
  obtain ⟨a, ha, hs, hst⟩ := getElem?_jobStarts hb
  refine ⟨a, ⟨ha, ?_⟩, hs⟩
  rcases hst with hst | ⟨hst, -⟩
  · rw [hst]
    exact hu
  · rw [hst]
    rfl

/-- A thread takes a job. -/
theorem ordered_jobStarts (h : Ordered s) (k : ℕ) : Ordered (s.jobStarts k) := by
  refine { h with
    owner := fun m b hb => ?_
    bound := fun i m hm => ?_
    ram := fun m b hb => ?_
    older := fun m b hb => ?_
    done := fun m b hb => ?_ }
  · obtain ⟨a, ha, -⟩ := unfinished_jobStarts hb
    exact h.owner m a ha
  · have := h.bound i m hm
    simpa [jobStarts] using this
  · obtain ⟨a, ha, hs, -⟩ := getElem?_jobStarts hb
    rw [← hs]
    exact h.ram m a ha
  · obtain ⟨a, ha, hs⟩ := unfinished_jobStarts hb
    rw [← hs]
    exact h.older m a ha
  · obtain ⟨a, ha, hs, hst⟩ := getElem?_jobStarts hb
    rcases hst with hst | ⟨-, hst⟩
    · rw [← hs, ← hst]
      exact h.done m a ha
    · rw [hst]
      exact ⟨nofun, nofun, nofun⟩

/-- Executor job `k` is over. -/
def ends (encode : V → P) (s : Store V P) (k : ℕ) (job : WriteJob V) (ok : Bool) : Store V P :=
  { s with
    jobs := s.jobs.set k { job with state := .done ok }
    lastWrite := some ok
    file := if ok then some (job.snapshot.gen, encode job.snapshot.value) else s.file
    failed := if ok then s.failed else s.failed ++ [job.snapshot.gen] }

theorem jobEnds_cases (encode : V → P) (s : Store V P) (k : ℕ) (ok : Bool) : s.jobEnds encode k ok = s ∨
    ∃ job, s.Unfinished k job ∧ s.jobEnds encode k ok = s.ends encode k job ok := by
  unfold jobEnds
  cases hk : s.jobs[k]? with
  | none => exact .inl rfl
  | some job =>
    simp only
    split
    · rename_i hrun
      exact .inr ⟨job, ⟨hk, by rw [hrun]; rfl⟩, rfl⟩
    · exact .inl rfl

variable {ok : Bool}

theorem getElem?_ends (hu : s.Unfinished k job) {m : ℕ} {b : WriteJob V}
    (hb : (s.ends encode k job ok).jobs[m]? = some b) :
    m = k ∧ b = { job with state := .done ok } ∨ m ≠ k ∧ s.jobs[m]? = some b := by
  have hlt : k < s.jobs.length := (List.getElem?_eq_some_iff.1 hu.1).1
  unfold ends at hb
  rw [List.getElem?_set] at hb
  by_cases hm : k = m
  · subst hm
    simp only [hlt, if_true] at hb
    exact .inl ⟨rfl, (Option.some.inj hb).symm⟩
  · rw [if_neg hm] at hb
    exact .inr ⟨Ne.symm hm, hb⟩

theorem Ordered.idle_ends (h : Ordered s) (hu : s.Unfinished k job) : (s.ends encode k job ok).Idle := by
  rintro m b ⟨hb, hub⟩
  rcases getElem?_ends hu hb with ⟨-, rfl⟩ | ⟨hm, hb⟩
  · cases hub
  · exact hm (h.overlap ⟨hb, hub⟩ hu)

theorem Ordered.fileGen_ends (h : Ordered s) (hu : s.Unfinished k job) : s.fileGen ≤ (s.ends encode k job ok).fileGen := by
  cases ok with
  | true => exact (h.older k job hu).1
  | false => exact Nat.le_refl _

theorem failed_ends (hg : g ∈ s.failed) : g ∈ (s.ends encode k job ok).failed := by
  cases ok with
  | true => exact hg
  | false => exact List.mem_append_left _ hg

/-- **A write ends**, and no other is under way. -/
theorem ordered_ends (h : Ordered s) (hu : s.Unfinished k job) (ok : Bool) : Ordered (s.ends encode k job ok) := by
  have hgen := h.ram k job hu.1
  refine { h with
    owner := fun m b hb => absurd hb (h.idle_ends hu m b)
    bound := fun i m hm => ?_
    ram := fun m b hb => ?_
    disk := ?_
    older := fun m b hb => absurd hb (h.idle_ends hu m b)
    done := fun m b hb => ?_ }
  · have := h.bound i m hm
    simpa [ends] using this
  · rcases getElem?_ends hu hb with ⟨-, rfl⟩ | ⟨-, hb⟩
    · exact hgen
    · exact h.ram m b hb
  · cases ok with
    | true => exact ⟨hgen, h.disk.2⟩
    | false =>
      refine ⟨h.disk.1, fun g hg => ?_⟩
      rcases List.mem_append.1 hg with hg | hg
      · exact h.disk.2 g hg
      · rw [List.mem_singleton.1 hg]
        exact hgen
  · rcases getElem?_ends hu hb with ⟨-, rfl⟩ | ⟨-, hb⟩
    · cases ok with
      | true => exact ⟨fun _ => Nat.le_refl _, nofun, nofun⟩
      | false => exact ⟨nofun, fun _ => List.mem_append_right _ (List.mem_singleton.2 rfl), nofun⟩
    · obtain ⟨h1, h2, h3⟩ := h.done m b hb
      exact ⟨fun hs => Nat.le_trans (h1 hs) (h.fileGen_ends hu), fun hs => failed_ends (h2 hs), h3⟩

theorem ordered_jobEnds (h : Ordered s) (k : ℕ) (ok : Bool) : Ordered (s.jobEnds encode k ok) := by
  rcases jobEnds_cases encode s k ok with he | ⟨job, hu, he⟩
  · rw [he]
    exact h
  · rw [he]
    exact ordered_ends h hu ok

/-! ### Cancellation -/

/-- A victim moves, if it was still there, to its end. -/
theorem point_cancel (ha : s.tasks[i]?.any (·.asked.isSome) = true) (j : ℕ) (hq : q ≠ .cancelled) :
    (s.cancel i).point j = some q ↔ s.point j = some q ∧ (s.victim i j = true → q.ended = true) := by
  unfold cancel point
  rw [if_pos ha, List.getElem?_mapIdx]
  cases hj : s.tasks[j]? with
  | none => simp
  | some t =>
    simp only [Option.map_some, Option.some.injEq]
    by_cases hv : s.victim i j = true
    · simp only [hv, if_true, StoreTask.cancel, forall_const]
      by_cases he : t.point.ended = true
      · rw [if_pos he]
        exact ⟨fun hp => ⟨hp, hp ▸ he⟩, And.left⟩
      · rw [if_neg he]
        exact ⟨fun hp => absurd hp.symm hq, fun hp => absurd (hp.1 ▸ hp.2) he⟩
    · simp [hv]

theorem asked_cancel (i : ℕ) : (s.cancel i).asked = s.asked := by
  funext j
  unfold cancel asked
  split
  · rw [List.getElem?_mapIdx]
    cases s.tasks[j]? with
    | none => rfl
    | some t =>
      by_cases hv : s.victim i j = true
      · by_cases he : t.point.ended = true <;> simp [hv, StoreTask.cancel, he]
      · simp [hv]
  · rfl

theorem writing_cancel (ha : s.tasks[i]?.any (·.asked.isSome) = true) (j k : ℕ) :
    (s.cancel i).point j = some (.writing k) ↔ s.point j = some (.writing k) ∧ s.victim i j = false := by
  rw [point_cancel ha j (q := .writing k) nofun]
  refine and_congr_right fun _ => ?_
  cases s.victim i j with
  | true => exact ⟨fun hv => (nomatch hv rfl), nofun⟩
  | false => exact ⟨fun _ => rfl, fun _ => nofun⟩

/-- No job is dropped: none that is unfinished was abandoned. -/
theorem jobs_cancel (hl : s.KeepsWrites (.cancel i)) : (s.cancel i).jobs = s.jobs := by
  unfold cancel
  split
  · refine List.ext_getElem? fun k => ?_
    rw [List.getElem?_mapIdx]
    cases hk : s.jobs[k]? with
    | none => rfl
    | some job =>
      simp only [Option.map_some, Option.some.injEq]
      by_cases ha : s.abandoned i k = true
      · rw [if_pos ha]
        have hfin : job.state.unfinished ≠ true := by
          intro hu
          rw [hl k job ⟨hk, hu⟩] at ha
          cases ha
        unfold WriteJob.drop
        rcases job with ⟨snap, st⟩
        cases st <;> first | rfl | exact absurd rfl hfin
      · rw [if_neg ha]
  · rfl

theorem unfinished_cancel (hl : s.KeepsWrites (.cancel i)) (k : ℕ) (job : WriteJob V) :
    (s.cancel i).Unfinished k job ↔ s.Unfinished k job := by
  unfold Unfinished
  rw [jobs_cancel hl]

theorem cancel_other (ha : ¬s.tasks[i]?.any (·.asked.isSome) = true) : s.cancel i = s := if_neg ha

/-- **A caller is cancelled** whose write is not under way. -/
theorem ordered_cancel (h : Ordered s) (hl : s.KeepsWrites (.cancel i)) : Ordered (s.cancel i) := by
  by_cases ha : s.tasks[i]?.any (·.asked.isSome) = true
  · have hholder : (s.cancel i).holder = s.holder.filter (!s.victim i ·) := by
      unfold cancel
      rw [if_pos ha]
    have hwaiters : (s.cancel i).waiters = s.waiters.filter (!s.victim i ·) := by
      unfold cancel
      rw [if_pos ha]
    have hfile : (s.cancel i).fileGen = s.fileGen ∧ (s.cancel i).gen = s.gen ∧ (s.cancel i).failed = s.failed := by
      unfold cancel
      rw [if_pos ha]
      exact ⟨rfl, rfl, rfl⟩
    obtain ⟨hfile, hgen, hfailed⟩ := hfile
    exact {
      holder := fun j => by
        simp only [writing_cancel ha, exists_and_right]
        rw [hholder, Option.filter_eq_some_iff, h.holder j]
        simp
      waits := fun j => by
        rw [hwaiters, List.mem_filter, h.waits j, point_cancel ha j (q := .acquire) nofun]
        refine and_congr_right fun _ => ?_
        cases s.victim i j with
        | true => exact ⟨nofun, fun hv => (nomatch hv rfl)⟩
        | false => exact ⟨fun _ => nofun, fun _ => rfl⟩
      nodup := by
        rw [hwaiters]
        exact h.nodup.filter _
      owner := fun k job hk => by
        have hk' := (unfinished_cancel hl k job).1 hk
        obtain ⟨j, hj⟩ := h.owner k job hk'
        refine ⟨j, (writing_cancel ha j k).2 ⟨hj, Bool.eq_false_iff.2 fun hv => ?_⟩⟩
        -- its owner would have abandoned it
        have hlt : j < s.tasks.length := by
          obtain ⟨t, ht, -⟩ := Option.map_eq_some_iff.1 hj
          exact (List.getElem?_eq_some_iff.1 ht).1
        have hab : s.abandoned i k = true :=
          List.any_eq_true.2 ⟨j, List.mem_range.2 hlt, by rw [hv, hj]; simp⟩
        rw [hl k job hk'] at hab
        cases hab
      bound := fun j k hk => by
        rw [jobs_cancel hl]
        exact h.bound j k ((writing_cancel ha j k).1 hk).1
      ram := by
        rw [jobs_cancel hl, hgen]
        exact h.ram
      disk := by
        rw [hfile, hgen, hfailed]
        exact h.disk
      older := fun k job hk => by
        rw [hfile, hfailed]
        exact h.older k job ((unfinished_cancel hl k job).1 hk)
      done := by
        rw [jobs_cancel hl, hfile, hfailed]
        exact h.done }
  · rw [cancel_other ha]
    exact h

/-! ### Runs -/

theorem writeLocked_setPoint (i : ℕ) (q : Point) : (s.setPoint i q).writeLocked i = s.writeLocked i := by
  unfold writeLocked
  by_cases hd : s.dataFunc = true
  · rw [if_pos hd, if_pos (show (s.setPoint i q).dataFunc = true from hd)]
    exact setPoint_setPoint (s := { s with
      dataFunc := false
      holder := some i
      jobs := s.jobs ++ [{ snapshot := ⟨s.gen, s.ram⟩ }] }) i _ q
  · rw [if_neg hd, if_neg (show ¬(s.setPoint i q).dataFunc = true from hd)]
    exact setPoint_setPoint (s := { s with holder := none }) i _ q

theorem flush_setPoint (i : ℕ) (q : Point) : (s.setPoint i q).flush i = s.flush i := by
  unfold flush handleWrite
  simp only [writeLocked_setPoint]
  rw [setPoint_setPoint, ← setPoint_setPoint (s := { s with waiters := s.waiters ++ [i] }) i .acquire q]
  rfl

/-- The first waiter, with the lock. -/
theorem head_waiters (hfree : s.waiters.head? = some i) :
    s.waiters = i :: s.waiters.tail := by
  cases hw : s.waiters with
  | nil =>
    rw [hw] at hfree
    cases hfree
  | cons j ws =>
    rw [hw] at hfree
    rw [Option.some.inj hfree]
    rfl

theorem ordered_saveNow (h : Ordered s) : Ordered s.asyncSaveNow := by
  unfold asyncSaveNow
  simp only
  cases s.inflight.filter s.isLive with
  | some t => exact ordered_spawn h (t := ⟨some s.gen, .awaitInflight t⟩) rfl nofun s.inflight
  | none =>
    have hnew := ordered_spawn h (t := ⟨some s.gen, .start⟩) rfl nofun s.inflight
    have hpt := congrFun (point_append (s := s) ⟨some s.gen, .start⟩) s.tasks.length
    rw [Function.update_self] at hpt
    exact ordered_flush hnew hpt

theorem ordered_resume (h : Ordered s) (i : ℕ) : Ordered (s.resume i) := by
  unfold resume
  cases hi : s.point i with
  | none => exact h
  | some q =>
    cases q with
    | start => exact ordered_handleWrite h hi
    | acquire =>
      simp only [acquired]
      split
      · rename_i hfree
        have hst := ordered_start h (w := s.waiters.tail) (t := 0) (.inr ⟨hi, head_waiters hfree.2⟩)
        have hpt : (setPoint { s with waiters := s.waiters.tail } i .start).point i = some .start := by
          rw [point_setPoint (s := { s with waiters := s.waiters.tail }) hi]
          exact Function.update_self ..
        have hw := ordered_writeLocked hst hpt hfree.1
        rw [writeLocked_setPoint] at hw
        exact hw
      · exact h
    | writing k => exact ordered_written h hi
    | awaitInflight t =>
      simp only
      split
      · exact h
      · have hst := ordered_start h (w := s.waiters) (.inl ⟨hi, rfl⟩)
        have hpt : (setPoint { s with waiters := s.waiters } i .start).point i = some .start := by
          rw [point_setPoint (s := { s with waiters := s.waiters }) hi]
          exact Function.update_self ..
        have hf := ordered_flush hst hpt
        rw [flush_setPoint] at hf
        exact hf
    | returned => exact h
    | cancelled => exact h

theorem ordered_timerFires (h : Ordered s) : Ordered s.onDelayHandleFire := by
  unfold onDelayHandleFire
  split
  · exact h
  split
  · exact { h with }
  · exact ordered_spawn h (t := ⟨none, .start⟩) rfl nofun (some s.tasks.length)

/-- **A step** that cancels no write keeps the order. -/
theorem ordered_step (h : Ordered s) (a : StoreAction V) (hl : s.KeepsWrites a) : Ordered (s.step encode a) := by
  cases a with
  | mutate value delay => exact ordered_mutate h value delay
  | tick => exact { h with }
  | timerFires => exact ordered_timerFires h
  | saveNow => exact ordered_saveNow h
  | resume i => exact ordered_resume h i
  | cancel i => exact ordered_cancel h hl
  | jobStarts k => exact ordered_jobStarts h k
  | jobEnds k ok => exact ordered_jobEnds h k ok

theorem ordered_fresh (value : V) : Ordered (fresh P value) where
  holder _ := ⟨nofun, fun ⟨_, hk⟩ => nomatch hk⟩
  waits _ := ⟨nofun, nofun⟩
  nodup := List.nodup_nil
  owner _ _ hk := nomatch hk.1
  bound _ _ hk := nomatch hk
  ram _ _ hk := nomatch hk
  disk := ⟨Nat.le_refl _, nofun⟩
  older _ _ hk := nomatch hk.1
  done _ _ hk := nomatch hk

end Store

end DeviceBuilder.Storage
