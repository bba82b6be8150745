import DeviceBuilder.Helpers.StorageKept

/-!
# What the store writes

A flush that finds nothing to write returns, although another flush may still be
writing what was asked for; and a caller that is cancelled leaves its write to its
thread, or what it took over from the timer to nobody. `Lands` excludes these steps.

* `Store.Inv`: the order of the writes, and what a flush still owes.
* `inv_step`: every step that meets `Lands` keeps it.
* `store_sound`: so in every run of such steps writes never overlap, no older
  snapshot replaces a newer one, and no mutation is lost.
* `store_keeps`: what landed is kept in every run whose steps meet `KeepsWrites`.
-/

namespace DeviceBuilder.Storage

open Runs

variable {V P : Type*} {encode : V → P} {s : Store V P} {i j k t g : ℕ} {pt q : Point} {job : WriteJob V}

namespace Store

/-- **What is asked of the store** in every state. -/
structure Sound (encode : V → P) (s : Store V P) : Prop where
  /-- Writes never overlap. -/
  overlap : ∀ j k a b, s.Unfinished j a → s.Unfinished k b → j = k
  /-- An older snapshot never replaces a newer one. -/
  newer : ∀ k job, s.Unfinished k job → s.fileGen ≤ job.snapshot.gen
  /-- With no timer, no write, and the last one good, the file holds the value in RAM. -/
  quiet : s.delayHandle = none → (∀ t ∈ s.tasks, t.point.ended = true) → s.Idle → s.lastWrite = some true →
    s.file = some (s.gen, encode s.ram)
  /-- A flush that returned has what was asked of it on disk, unless a write of it failed. -/
  flushed : ∀ asked, ⟨some asked, .returned⟩ ∈ s.tasks → (∀ g ∈ s.failed, g < asked) → asked ≤ s.fileGen

/-- The step does not end or cancel a flush whose work is undone. -/
def Lands (s : Store V P) : StoreAction V → Prop
  | .saveNow => s.inflight.filter s.isLive = none → s.dataFunc = false → s.Idle
  | .resume i => ∀ t, s.point i = some (.awaitInflight t) → s.isLive t = false → s.dataFunc = false → s.Idle
  | .cancel i => s.KeepsWrites (.cancel i) ∧ (s.dataFunc = true → s.delayHandle.isSome = true ∨
      ∃ j pt, s.victim i j = false ∧ s.point j = some pt ∧ pt.flushes = true)
  | _ => True

theorem Lands.keepsWrites {a : StoreAction V} (h : s.Lands a) : s.KeepsWrites a := by
  cases a with
  | cancel i => exact h.1
  | _ => trivial

/-! ### The invariant -/

theorem Lands.covered {a : StoreAction V} (h : s.Lands a) : s.Covered a := by
  cases a with
  | cancel i => exact h
  | _ => trivial

/-- **The invariant.** -/
structure Inv (encode : V → P) (s : Store V P) : Prop extends Durable encode s where
  asks : ∀ i a, s.asked i = some a → a ≤ s.gen ∧
    (∀ (k : ℕ) (job : WriteJob V), s.point i = some (.writing k) → s.jobs[k]? = some job → a ≤ job.snapshot.gen) ∧
    (s.point i = some .returned → a ≤ s.fileGen ∨ ∃ g ∈ s.failed, a ≤ g)

theorem inv_mutate (h : Inv encode s) (value : V) (delay : ℕ) :
    Inv encode (asyncDelaySave { s with ram := value, gen := s.gen + 1 } delay) := by
  have hk := durable_mutate h.toDurable value delay
  obtain ⟨due, next, he⟩ := asyncDelaySave_eq { s with ram := value, gen := s.gen + 1 } delay
  rw [he] at hk ⊢
  refine { hk with asks := fun i a ha => ?_ }
  obtain ⟨hle, hw, hr⟩ := h.asks i a ha
  exact ⟨Nat.le_succ_of_le hle, hw, hr⟩

/-- One coroutine moves, into no write and out of none. -/
theorem Inv.shift (h : Inv encode s) {ts : List StoreTask} {w : List ℕ} {due inflight : Option ℕ}
    (hp : Store.point { s with tasks := ts, waiters := w, delayHandle := due, inflight := inflight } =
      Function.update s.point i (some pt))
    (hold : ∀ k, s.point i ≠ some (.writing k)) (hnew : ∀ k, pt ≠ .writing k)
    (hk : Durable encode { s with tasks := ts, waiters := w, delayHandle := due, inflight := inflight })
    (hasks : ∀ j a, Store.asked { s with tasks := ts, waiters := w, delayHandle := due, inflight := inflight } j = some a →
      j ≠ i ∧ s.asked j = some a ∨ j = i ∧ a ≤ s.gen ∧ (pt = .returned → a ≤ s.fileGen ∨ ∃ g ∈ s.failed, a ≤ g)) :
    Inv encode { s with tasks := ts, waiters := w, delayHandle := due, inflight := inflight } := by
  refine { hk with asks := fun j a hja => ?_ }
  rw [hp]
  simp only [writing_update hold hnew]
  rcases hasks j a hja with ⟨hj, hja⟩ | ⟨rfl, hle, hr⟩
  · rw [Function.update_of_ne hj]
    exact h.asks j a hja
  · refine ⟨hle, fun k job hk => absurd hk (hold k), fun he => hr ?_⟩
    rw [Function.update_self] at he
    exact Option.some.inj he

/-- A task that will look at `_data_func` is created. -/
theorem inv_spawn (h : Inv encode s) {t : StoreTask} (ht : t.point.flushes = true) (hne : t.point ≠ .acquire)
    (ha : ∀ a, t.asked = some a → a ≤ s.gen) (inflight : Option ℕ) :
    Inv encode { s with delayHandle := none, inflight := inflight, tasks := s.tasks ++ [t] } := by
  refine h.shift (i := s.tasks.length) (w := s.waiters) (point_append t) (fun k hk => ?_) (fun k => flushes_ne ht rfl)
    (durable_spawn h.toDurable ht hne inflight) fun j a hja => ?_
  · rw [point_length] at hk
    cases hk
  · have hask := congrFun (asked_append (s := s) t) j
    change _ = some a at hja
    rcases eq_or_ne j s.tasks.length with rfl | hj
    · rw [Function.update_self] at hask
      exact .inr ⟨rfl, ha a (hask.symm.trans hja), fun he => absurd he (flushes_ne ht rfl)⟩
    · rw [Function.update_of_ne hj] at hask
      exact .inl ⟨hj, hask.symm.trans hja⟩

/-- A coroutine that is there moves. -/
theorem inv_setPoint (h : Inv encode s) {ws : List ℕ} (hi : s.point i = some q) (hold : ∀ k, q ≠ .writing k)
    (hnew : ∀ k, pt ≠ .writing k) (hk : Durable encode (setPoint { s with waiters := ws } i pt))
    (hret : ∀ a, s.asked i = some a → pt = .returned → a ≤ s.fileGen ∨ ∃ g ∈ s.failed, a ≤ g) :
    Inv encode (setPoint { s with waiters := ws } i pt) := by
  refine h.shift (i := i) (point_setPoint hi pt) (fun k hk => ?_) hnew hk fun j a hja => ?_
  · rw [hi] at hk
    exact hold k (Option.some.inj hk)
  · have hja' : s.asked j = some a := (congrFun (asked_setPoint (s := s) i pt) j).symm.trans hja
    rcases eq_or_ne j i with rfl | hj
    · exact .inr ⟨rfl, (h.asks j a hja').1, hret a hja'⟩
    · exact .inl ⟨hj, hja'⟩

/-- A task that waited goes on: the inflight write is done, or the lock is its. -/
theorem inv_start (h : Inv encode s) {w : List ℕ} (hi : s.point i = some (.awaitInflight t) ∧ w = s.waiters ∨
    s.point i = some .acquire ∧ s.waiters = i :: w) : Inv encode (setPoint { s with waiters := w } i .start) := by
  have hk := durable_start h.toDurable hi
  rcases hi with ⟨hi, -⟩ | ⟨hi, -⟩
  · exact inv_setPoint h hi nofun nofun hk nofun
  · exact inv_setPoint h hi nofun nofun hk nofun

/-- With nothing to write and nothing being written, what was asked for is on disk. -/
theorem Inv.settled (h : Inv encode s) (hd : s.dataFunc = false) (hidle : s.Idle) {a : ℕ} (ha : a ≤ s.gen) :
    a ≤ s.fileGen ∨ ∃ g ∈ s.failed, a ≤ g := by
  rcases h.kept hd with ⟨hg, -⟩ | ⟨k, job, hk, -⟩ | hf | ⟨-, hf⟩
  · exact .inl (by omega)
  · exact absurd hk (hidle k job)
  · refine .inl ?_
    unfold fileGen
    rw [hf]
    exact ha
  · exact .inr ⟨s.gen, hf, ha⟩

/-- A flush finds nothing to write. -/
theorem inv_nothing (h : Inv encode s) (hi : s.point i = some .start) (hd : s.dataFunc = false) (hidle : s.Idle) :
    Inv encode (s.setPoint i .returned) :=
  inv_setPoint h hi nofun nofun (durable_nothing h.toDurable hi hd) fun a ha _ => h.settled hd hidle (h.asks i a ha).1

/-- A flush waits for the lock. -/
theorem inv_wait (h : Inv encode s) (hi : s.point i = some .start) :
    Inv encode (setPoint { s with waiters := s.waiters ++ [i] } i .acquire) :=
  inv_setPoint h hi nofun nofun (durable_wait h.toDurable hi) nofun

theorem inv_submitted (h : Inv encode s) (hi : s.point i = some .start) (hh : s.holder = none) :
    Inv encode (s.submitted i) := by
  have hask : (s.submitted i).asked = s.asked := asked_setPoint i _
  refine { durable_submitted h.toDurable hi hh with asks := fun j a hja => ?_ }
  rw [hask] at hja
  obtain ⟨hle, -, hr⟩ := h.asks j a hja
  refine ⟨hle, fun k job hk hkj => ?_, fun hret => hr ?_⟩
  · obtain ⟨-, rfl⟩ := (writing_submitted h.toOrdered hi hh j k).1 hk
    rcases getElem?_submitted hkj with ⟨hlt, -⟩ | ⟨-, rfl⟩
    · exact absurd hlt (Nat.lt_irrefl _)
    · exact hle
  · rw [show (s.submitted i).point = Function.update s.point i (some (.writing s.jobs.length)) from
      point_setPoint hi _] at hret
    rcases eq_or_ne j i with rfl | hj
    · rw [Function.update_self] at hret
      cases hret
    · rw [Function.update_of_ne hj] at hret
      exact hret

theorem inv_writeLocked (h : Inv encode s) (hi : s.point i = some .start) (hh : s.holder = none) :
    Inv encode (s.writeLocked i) := by
  unfold writeLocked
  by_cases hd : s.dataFunc = true
  · rw [if_pos hd]
    exact inv_submitted h hi hh
  · rw [if_neg hd]
    rw [free_holder hh]
    exact inv_nothing h hi (Bool.eq_false_iff.2 hd) (h.idle hh)

theorem inv_handleWrite (h : Inv encode s) (hi : s.point i = some .start) : Inv encode (s.handleWrite i) := by
  unfold handleWrite
  split
  · rename_i hfree
    exact inv_writeLocked h hi hfree.1
  · exact inv_wait h hi

theorem inv_flush (h : Inv encode s) (hi : s.point i = some .start) (hl : s.dataFunc = false → s.Idle) :
    Inv encode (s.flush i) := by
  unfold flush
  by_cases hd : s.dataFunc = true
  · rw [if_pos hd]
    exact inv_handleWrite h hi
  · rw [if_neg hd]
    have hd' := Bool.eq_false_iff.2 hd
    exact inv_nothing h hi hd' (hl hd')

/-- A write is over: the lock is free. -/
theorem inv_written (h : Inv encode s) (hi : s.point i = some (.writing k)) : Inv encode (s.written i k) := by
  have hdur := durable_written h.toDurable hi
  unfold written at hdur ⊢
  cases hk : s.jobs[k]? with
  | none => exact h
  | some job =>
    simp only [hk] at hdur ⊢
    split
    · exact h
    · rename_i hfin
      rw [if_neg hfin] at hdur
      have hp : Store.point (setPoint { s with holder := none } i .returned) =
          Function.update s.point i (some .returned) := point_setPoint hi .returned
      have hask : Store.asked (setPoint { s with holder := none } i .returned) = s.asked := asked_setPoint i .returned
      refine { hdur with asks := fun j a hja => ?_ }
      rw [hask] at hja
      rw [hp]
      obtain ⟨hle, hw, hr⟩ := h.asks j a hja
      refine ⟨hle, fun m b hm => absurd hm (h.released hi j m), fun hret => ?_⟩
      rcases eq_or_ne j i with rfl | hj
      · -- its own write ended: well, or not
        have hga := hw k job hi hk
        obtain ⟨hok, hno, hdrop⟩ := h.done k job hk
        rcases hs : job.state with _ | _ | ok | _
        · rw [hs] at hfin
          exact absurd rfl hfin
        · rw [hs] at hfin
          exact absurd rfl hfin
        · cases ok with
          | true => exact .inl (Nat.le_trans hga (hok hs))
          | false => exact .inr ⟨_, hno hs, hga⟩
        · exact absurd hs hdrop
      · rw [Function.update_of_ne hj] at hret
        exact hr hret

/-- A thread takes a job. -/
theorem inv_jobStarts (h : Inv encode s) (k : ℕ) : Inv encode (s.jobStarts k) := by
  refine { durable_jobStarts h.toDurable k with asks := fun i a hia => ?_ }
  obtain ⟨hle, hw, hr⟩ := h.asks i a hia
  refine ⟨hle, fun m b hm hb => ?_, hr⟩
  obtain ⟨c, hc, hs, -⟩ := getElem?_jobStarts hb
  rw [← hs]
  exact hw m c hm hc

/-- **A write ends**, and no other is under way. -/
theorem inv_jobEnds (h : Inv encode s) (k : ℕ) (ok : Bool) : Inv encode (s.jobEnds encode k ok) := by
  have hdur := durable_jobEnds h.toDurable k ok
  rcases jobEnds_cases encode s k ok with he | ⟨job, hu, he⟩
  · rw [he]
    exact h
  rw [he] at hdur ⊢
  refine { hdur with asks := fun i a hia => ?_ }
  obtain ⟨hle, hw, hr⟩ := h.asks i a hia
  refine ⟨hle, fun m b hm hb => ?_, fun hret => ?_⟩
  · rcases getElem?_ends hu hb with ⟨rfl, rfl⟩ | ⟨-, hb⟩
    · exact hw m job hm hu.1
    · exact hw m b hm hb
  · rcases hr hret with hr | ⟨g, hg, hag⟩
    · exact .inl (Nat.le_trans hr (h.fileGen_ends hu))
    · exact .inr ⟨g, failed_ends hg, hag⟩

/-- **A caller is cancelled** whose write is not under way, and whose work is somebody else's too. -/
theorem inv_cancel (h : Inv encode s) (i : ℕ) (hl : s.Lands (.cancel i)) : Inv encode (s.cancel i) := by
  have hjobs := hl.1
  by_cases ha : s.tasks[i]?.any (·.asked.isSome) = true
  · obtain ⟨-, -, hgen, -, hfile, -, hfailed⟩ := cancel_fields s i
    refine { durable_cancel h.toDurable i hl with asks := fun j a hja => ?_ }
    rw [asked_cancel] at hja
    obtain ⟨hle, hw, hr⟩ := h.asks j a hja
    rw [hgen, hfailed, show (s.cancel i).fileGen = s.fileGen by unfold fileGen; rw [hfile], jobs_cancel hjobs]
    exact ⟨hle, fun k job hk hkj => hw k job ((writing_cancel ha j k).1 hk).1 hkj,
      fun hret => hr ((point_cancel ha j (q := .returned) nofun).1 hret).1⟩
  · rw [cancel_other ha]
    exact h

/-! ### Runs -/

theorem inv_saveNow (h : Inv encode s) (hl : s.Lands .saveNow) : Inv encode s.asyncSaveNow := by
  unfold asyncSaveNow
  simp only
  cases hf : s.inflight.filter s.isLive with
  | some t =>
    simp only
    exact inv_spawn h (t := ⟨some s.gen, .awaitInflight t⟩) rfl nofun (fun a ha => by cases ha; exact Nat.le_refl _) s.inflight
  | none =>
    simp only
    have hnew := inv_spawn h (t := ⟨some s.gen, .start⟩) rfl nofun (fun a ha => by cases ha; exact Nat.le_refl _) s.inflight
    have hpt := congrFun (point_append (s := s) ⟨some s.gen, .start⟩) s.tasks.length
    rw [Function.update_self] at hpt
    exact inv_flush hnew hpt fun hd => hl hf hd

theorem inv_resume (h : Inv encode s) (i : ℕ) (hl : s.Lands (.resume i)) : Inv encode (s.resume i) := by
  unfold resume
  cases hi : s.point i with
  | none => exact h
  | some q =>
    cases q with
    | start => exact inv_handleWrite h hi
    | acquire =>
      simp only [acquired]
      split
      · rename_i hfree
        have hst := inv_start h (w := s.waiters.tail) (t := 0) (.inr ⟨hi, head_waiters hfree.2⟩)
        have hw := inv_writeLocked hst (i := i) (by
          rw [point_setPoint (s := { s with waiters := s.waiters.tail }) hi]
          exact Function.update_self ..) hfree.1
        rw [writeLocked_setPoint] at hw
        exact hw
      · exact h
    | writing k => exact inv_written h hi
    | awaitInflight t =>
      simp only
      split
      · exact h
      · rename_i hlive
        have hst := inv_start h (w := s.waiters) (.inl ⟨hi, rfl⟩)
        have hf := inv_flush hst (i := i) (by
          rw [point_setPoint (s := { s with waiters := s.waiters }) hi]
          exact Function.update_self ..) fun hd => hl t hi (Bool.eq_false_iff.2 hlive) hd
        rw [flush_setPoint] at hf
        exact hf
    | returned => exact h
    | cancelled => exact h

theorem inv_timerFires (h : Inv encode s) : Inv encode s.onDelayHandleFire := by
  unfold onDelayHandleFire
  cases hd : s.delayHandle with
  | none => exact h
  | some due =>
    simp only
    split
    · exact { h with owed := fun _ => .inl rfl }
    · exact inv_spawn h (t := ⟨none, .start⟩) rfl nofun nofun (some s.tasks.length)

/-- **A step that lands** keeps the invariant. -/
theorem inv_step (h : Inv encode s) (a : StoreAction V) (hl : s.Lands a) : Inv encode (s.step encode a) := by
  cases a with
  | mutate value delay => exact inv_mutate h value delay
  | tick => exact { h with }
  | timerFires => exact inv_timerFires h
  | saveNow => exact inv_saveNow h hl
  | resume i => exact inv_resume h i hl
  | cancel i => exact inv_cancel h i hl
  | jobStarts k => exact inv_jobStarts h k
  | jobEnds k ok => exact inv_jobEnds h k ok

theorem inv_fresh (value : V) : Inv encode (fresh P value) :=
  { durable_fresh value with asks := fun _ _ ha => nomatch ha }

theorem Inv.sound (h : Inv encode s) : s.Sound encode where
  overlap j k a b ha hb := h.overlap ha hb
  newer k job hk := (h.older k job hk).1
  quiet hdue hended hidle hlast := h.toDurable.quiet ⟨hdue, hended, hidle⟩ hlast
  flushed a ha hno := by
    obtain ⟨i, hi⟩ := List.getElem?_of_mem ha
    have hask : s.asked i = some a := by
      unfold asked
      rw [hi]
      rfl
    have hret : s.point i = some .returned := by
      unfold point
      rw [hi]
      rfl
    rcases (h.asks i a hask).2.2 hret with hle | ⟨g, hg, hag⟩
    · exact hle
    · exact absurd (hno g hg) (Nat.not_lt.2 hag)

/-- **The store loses no update**, in every run whose steps all land. -/
theorem store_sound (value : V) (h : Reaches (Store.step encode) Lands (fresh P value) s) : s.Sound encode :=
  (h.invariant (I := Inv encode) (inv_fresh value) fun _ a hl hI => inv_step hI a hl).sound

/-- A flush that finds work, or waits for the timer's write, lands. -/
def findsWork (s : Store V P) : StoreAction V → Bool
  | .saveNow => s.dataFunc || (s.inflight.filter s.isLive).isSome
  | .resume i => s.dataFunc || (s.point i).all fun q => q = .start || q = .acquire || !q.flushes
  | .cancel _ => false
  | _ => true

theorem lands_of_findsWork (s : Store V P) (a : StoreAction V) (h : s.findsWork a = true) : s.Lands a := by
  cases a with
  | saveNow =>
    intro hf hd
    simp [findsWork, hf, hd] at h
  | resume i =>
    intro t hi _ hd
    simp [findsWork, hi, hd, Point.flushes] at h
  | cancel i => cases h
  | _ => trivial

/-- A flush waits for the timer's write, then writes what changed meanwhile. -/
def flushBehindTimer : List (StoreAction ℕ) :=
  [.mutate 1 0, .timerFires, .resume 0, .mutate 2 0, .saveNow, .jobStarts 0, .jobEnds 0 true, .resume 0,
    .resume 1, .jobStarts 1, .jobEnds 1 true, .resume 1]

theorem store_sound_flush : (flushBehindTimer.foldl (Store.step id) (fresh ℕ 0)).file = some (2, 2) ∧
    (flushBehindTimer.foldl (Store.step id) (fresh ℕ 0)).Sound id :=
  ⟨by decide, store_sound 0 (Reaches.foldl_checks lands_of_findsWork flushBehindTimer (fresh ℕ 0) (by decide))⟩

/-- A second flush returns while the first one's write is still queued. -/
def twoFlushes : List (StoreAction ℕ) := [.mutate 1 0, .saveNow, .saveNow]

/-- The cancelled flush's thread writes last, over what was saved after it. -/
def cancelledFlush : List (StoreAction ℕ) :=
  [.mutate 1 0, .saveNow, .jobStarts 0, .cancel 0, .mutate 2 0, .saveNow, .jobStarts 1, .jobEnds 1 true, .resume 1,
    .jobEnds 0 true]

/-- The second flush has returned, and what was asked of it is not on disk; and after the cancelled
flush everything is quiet, with an older value in the file. -/
theorem store_unsound : (¬ ∀ s : Store ℕ ℕ, Reaches (Store.step id) any (fresh ℕ 0) s → s.Sound id) ∧
    ¬ (twoFlushes.foldl (Store.step id) (fresh ℕ 0)).Sound id ∧
    ¬ (cancelledFlush.foldl (Store.step id) (fresh ℕ 0)).Sound id := by
  have htwo : ¬ (twoFlushes.foldl (Store.step id) (fresh ℕ 0)).Sound id := by
    intro h
    have := h.flushed 1 (by decide) (by decide)
    revert this
    decide
  have hcancelled : ¬ (cancelledFlush.foldl (Store.step id) (fresh ℕ 0)).Sound id := by
    intro h
    have hidle : (cancelledFlush.foldl (Store.step id) (fresh ℕ 0)).Idle := by
      rintro k job ⟨hk, hu⟩
      have hjobs : ∀ job ∈ (cancelledFlush.foldl (Store.step id) (fresh ℕ 0)).jobs, job.state.unfinished = false := by
        decide
      rw [hjobs job (List.mem_of_getElem? hk)] at hu
      cases hu
    have := h.quiet (by decide) (by decide) hidle (by decide)
    revert this
    decide
  exact ⟨fun h => htwo (h _ (Reaches.foldl twoFlushes _)), htwo, hcancelled⟩

/-! ### Writes that landed -/

/-- Only the end of a write touches the file. -/
theorem file_step (s : Store V P) {a : StoreAction V} (ha : ∀ k ok, a ≠ .jobEnds k ok) :
    (s.step encode a).file = s.file := by
  have hwrite : ∀ (u : Store V P) i, (u.writeLocked i).file = u.file := by
    intro u i
    unfold writeLocked
    split <;> rfl
  have hhandle : ∀ (u : Store V P) i, (u.handleWrite i).file = u.file := by
    intro u i
    unfold handleWrite
    split
    · exact hwrite u i
    · rfl
  have hflush : ∀ (u : Store V P) i, (u.flush i).file = u.file := by
    intro u i
    unfold flush
    split
    · exact hhandle u i
    · rfl
  cases a with
  | mutate value delay =>
    obtain ⟨due, next, he⟩ := asyncDelaySave_eq { s with ram := value, gen := s.gen + 1 } delay
    simp only [step, he]
  | tick | jobStarts => rfl
  | timerFires =>
    unfold step onDelayHandleFire
    dsimp only
    split
    · rfl
    · split <;> rfl
  | saveNow =>
    unfold step asyncSaveNow
    dsimp only
    split
    · rfl
    · exact hflush _ _
  | resume i =>
    unfold step resume
    dsimp only
    split
    · exact hhandle s i
    · unfold acquired
      split
      · exact hwrite _ i
      · rfl
    · unfold written
      split
      · rfl
      · split <;> rfl
    · split
      · rfl
      · exact hflush s i
    · rfl
  | cancel i => exact (cancel_fields s i).2.2.2.2.1
  | jobEnds k ok => exact absurd rfl (ha k ok)

theorem fileGen_step (h : Ordered s) (a : StoreAction V) : s.fileGen ≤ (s.step encode a).fileGen := by
  have hsame : ∀ u : Store V P, u.file = s.file → s.fileGen ≤ u.fileGen := by
    intro u hu
    exact Nat.le_of_eq (by rw [fileGen, fileGen, hu])
  cases a with
  | jobEnds k ok =>
    show _ ≤ (s.jobEnds encode k ok).fileGen
    rcases jobEnds_cases encode s k ok with he | ⟨job, hu, he⟩
    · exact hsame _ (by rw [he])
    · rw [he]
      exact h.fileGen_ends hu
  | _ => exact hsame _ (file_step s fun k ok he => by cases he)

/-- **What was written stays written**, also where a flush returns too early: while no caller is
cancelled whose write is queued or in a thread, one write at a time holds the lock, and the file
never goes back behind a snapshot that landed. -/
theorem store_keeps {s' : Store V P} (value : V)
    (h : Reaches (Store.step encode) KeepsWrites (fresh P value) s)
    (h' : Reaches (Store.step encode) KeepsWrites s s') :
    (∀ k job, s.Unfinished k job → (∃ i, s.holder = some i ∧ s.point i = some (.writing k)) ∧
      s.fileGen ≤ job.snapshot.gen ∧ ∀ j b, s.Unfinished j b → j = k) ∧
    s.fileGen ≤ s'.fileGen ∧
    ∀ (k : ℕ) (job : WriteJob V), s.jobs[k]? = some job → job.state = .done true →
      job.snapshot.gen ≤ s'.fileGen := by
  have hs : Ordered s := h.invariant (ordered_fresh value) fun _ a hk ho => ordered_step ho a hk
  have ht : Ordered s' ∧ s.fileGen ≤ s'.fileGen :=
    h'.invariant (I := fun u => Ordered u ∧ s.fileGen ≤ u.fileGen) ⟨hs, Nat.le_refl _⟩
      fun u a hk hu => ⟨ordered_step hu.1 a hk, Nat.le_trans hu.2 (fileGen_step hu.1 a)⟩
  refine ⟨fun k job hk => ⟨?_, (hs.older k job hk).1, fun j b hj => hs.overlap hj hk⟩, ht.2, fun k job hk hd => ?_⟩
  · obtain ⟨i, hi⟩ := hs.owner k job hk
    exact ⟨i, (hs.holder i).2 ⟨k, hi⟩, hi⟩
  · exact Nat.le_trans ((hs.done k job hk).1 hd) ht.2

/-- The timer's write has ended well; a flush writes after it. -/
theorem store_keeps_flush :
    let s := (flushBehindTimer.take 7).foldl (Store.step id) (fresh ℕ 0)
    1 ≤ ((flushBehindTimer.drop 7).foldl (Store.step id) s).fileGen := by
  intro s
  have hk : ∀ (s : Store ℕ ℕ) a, s.findsWork a = true → s.KeepsWrites a :=
    fun s a ha => (lands_of_findsWork s a ha).keepsWrites
  have h := store_keeps 0 (Reaches.foldl_checks hk (flushBehindTimer.take 7) (fresh ℕ 0) (by decide))
    (Reaches.foldl_checks hk (flushBehindTimer.drop 7) s (by decide))
  exact h.2.2 0 { snapshot := ⟨1, 1⟩, state := .done true } (by decide) rfl

end Store

end DeviceBuilder.Storage
