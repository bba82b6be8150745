import DeviceBuilder.Lib.Runs
import Mathlib.Data.List.Basic

/-!
# The debounced store

`helpers/storage.py`: one JSON file, written from the value that its consumer holds
in RAM. A mutation asks for a save after a delay; the timer starts a write task;
`async_save_now` flushes. A write takes the lock, takes a snapshot, and hands it to
the executor, whose thread encodes it and replaces the file.

* `Store.step`: one action of the event loop, of the clock or of a thread.
* `Store.asyncDelaySave`, `Store.asyncSaveNow`, `Store.handleWrite`: the methods.
* `Store.cancel`: `CancelledError` at the await of a caller of `async_save_now`.

Tasks and executor jobs are numbered in the order of their creation. `gen` counts
the mutations; it is the number of the snapshot a write carries.
-/

namespace DeviceBuilder.Storage

open Runs

/-- What `data_func()` returned, after `gen` mutations. -/
structure Snapshot (V : Type*) where
  gen : ℕ
  value : V
  deriving DecidableEq

/-- `run_in_executor(self._encode_and_write, value)`. -/
inductive JobState
  | queued
  | running
  /-- The thread replaced the file, or raised. -/
  | done (ok : Bool)
  /-- Its future was cancelled before a thread took it. -/
  | dropped
  deriving DecidableEq

structure WriteJob (V : Type*) where
  snapshot : Snapshot V
  state : JobState := .queued
  deriving DecidableEq

/-- Where a coroutine stands. -/
inductive Point
  /-- `create_task(self._async_handle_write())`, which has not run yet. -/
  | start
  /-- `async with self._write_lock`. -/
  | acquire
  /-- `await run_in_executor(...)`, with its executor job. -/
  | writing (k : ℕ)
  /-- `await self._inflight_write`. -/
  | awaitInflight (t : ℕ)
  | returned
  | cancelled
  deriving DecidableEq

/-- A write task of the timer, or a caller of `async_save_now` (`asked` is the `gen` of its call). -/
structure StoreTask where
  asked : Option ℕ
  point : Point
  deriving DecidableEq

structure Store (V P : Type*) where
  /-- The value in RAM, and how often it changed. -/
  ram : V
  gen : ℕ := 0
  now : ℕ := 0
  /-- `_data_func` is set. -/
  dataFunc : Bool := false
  /-- When the armed timer is due. -/
  delayHandle : Option ℕ := none
  nextWriteTime : ℕ := 0
  /-- `_write_lock`: its holder, and who waits for it. -/
  holder : Option ℕ := none
  waiters : List ℕ := []
  inflight : Option ℕ := none
  tasks : List StoreTask := []
  jobs : List (WriteJob V) := []
  /-- The file, with the `gen` of the snapshot it encodes. -/
  file : Option (ℕ × P) := none
  /-- How the last write ended, and the snapshots whose write failed. -/
  lastWrite : Option Bool := none
  failed : List ℕ := []
  deriving DecidableEq

inductive StoreAction (V : Type*)
  /-- The consumer changes its value and calls `async_delay_save`. -/
  | mutate (value : V) (delay : ℕ)
  | tick
  /-- `_on_delay_handle_fire`; the loop's clock is coarse, so the handle may be early. -/
  | timerFires
  | saveNow
  | resume (i : ℕ)
  /-- The caller `i` of `async_save_now` is cancelled. -/
  | cancel (i : ℕ)
  /-- A thread takes executor job `k`; it ends. -/
  | jobStarts (k : ℕ)
  | jobEnds (k : ℕ) (ok : Bool)
  deriving DecidableEq

/-- Has the coroutine ended? -/
def Point.ended : Point → Bool
  | .returned | .cancelled => true
  | _ => false

/-- Will the coroutine look at `_data_func`? -/
def Point.flushes : Point → Bool
  | .start | .acquire | .awaitInflight _ => true
  | _ => false

def JobState.unfinished : JobState → Bool
  | .queued | .running => true
  | _ => false

/-- A queued future is cancelled; a thread runs on. -/
def JobState.drop : JobState → JobState
  | .queued => .dropped
  | s => s

def WriteJob.drop {V : Type*} (job : WriteJob V) : WriteJob V := { job with state := job.state.drop }

/-- `CancelledError` ends the coroutine. -/
def StoreTask.cancel (t : StoreTask) : StoreTask := if t.point.ended then t else { t with point := .cancelled }

namespace Store

variable {V P : Type*} (s : Store V P)

def setPoint (i : ℕ) (pt : Point) : Store V P :=
  { s with tasks := s.tasks.modify i fun t => { t with point := pt } }

def point (i : ℕ) : Option Point := s.tasks[i]?.map (·.point)

/-! ### The timer -/

/-- `async_delay_save`. -/
def asyncDelaySave (delay : ℕ) : Store V P :=
  let nextWhen := s.now + delay
  let s := { s with dataFunc := true, nextWriteTime := nextWhen }
  match s.delayHandle with
  -- the handle fires earlier than asked for: it will reschedule itself
  | some due => if due < nextWhen then s else { s with delayHandle := some nextWhen }
  | none => { s with delayHandle := some nextWhen }

/-- `_on_delay_handle_fire`. -/
def onDelayHandleFire : Store V P :=
  match s.delayHandle with
  | none => s
  | some _ =>
    if s.now < s.nextWriteTime then { s with delayHandle := some s.nextWriteTime }
    else { s with
      delayHandle := none
      inflight := some s.tasks.length
      tasks := s.tasks ++ [⟨none, .start⟩] }

/-! ### A write -/

/-- `_async_handle_write` of task `i`, which has the lock: take the snapshot, submit the write. -/
def writeLocked (i : ℕ) : Store V P :=
  if s.dataFunc then
    setPoint { s with
      dataFunc := false
      holder := some i
      jobs := s.jobs ++ [{ snapshot := ⟨s.gen, s.ram⟩ }] } i (.writing s.jobs.length)
  -- another flush drained the captured func; the lock is released at once
  else setPoint { s with holder := none } i .returned

/-- `_async_handle_write` of task `i`. -/
def handleWrite (i : ℕ) : Store V P :=
  if s.holder = none ∧ s.waiters = [] then s.writeLocked i
  else { s with waiters := s.waiters ++ [i] }.setPoint i .acquire

/-- Task `i` is next for the lock. -/
def acquired (i : ℕ) : Store V P :=
  if s.holder = none ∧ s.waiters.head? = some i then writeLocked { s with waiters := s.waiters.tail } i else s

/-- Task `i` goes on after its executor job `k`: the lock is released, an error is logged. -/
def written (i k : ℕ) : Store V P :=
  match s.jobs[k]? with
  | none => s
  | some job => if job.state.unfinished then s else setPoint { s with holder := none } i .returned

/-! ### The flush -/

/-- The end of `async_save_now`. -/
def flush (i : ℕ) : Store V P := if s.dataFunc then s.handleWrite i else s.setPoint i .returned

/-- Is task `t` there, and not done? -/
def isLive (t : ℕ) : Bool := (s.point t).any (!·.ended)

/-- `async_save_now`, up to its first await. -/
def asyncSaveNow : Store V P :=
  let i := s.tasks.length
  match s.inflight.filter s.isLive with
  | some t => { s with delayHandle := none, tasks := s.tasks ++ [⟨some s.gen, .awaitInflight t⟩] }
  | none => flush { s with delayHandle := none, tasks := s.tasks ++ [⟨some s.gen, .start⟩] } i

def resume (i : ℕ) : Store V P :=
  match s.point i with
  | some .start => s.handleWrite i
  | some .acquire => s.acquired i
  | some (.writing k) => s.written i k
  | some (.awaitInflight t) => if s.isLive t then s else s.flush i
  | _ => s

/-! ### Cancellation -/

/-- Who is cancelled with caller `i`: a task is cancelled through the one that awaits it, and its
cancellation is raised in all that await it. -/
def victim (i j : ℕ) : Bool :=
  j = i || match s.point i with
    | some (.awaitInflight t) => s.isLive t && (j = t || s.point j = some (.awaitInflight t))
    | _ => false

/-- Executor job `k` is awaited by a task that is cancelled. -/
def abandoned (i k : ℕ) : Bool :=
  (List.range s.tasks.length).any fun j => s.victim i j && s.point j = some (.writing k)

/-- `CancelledError` in caller `i`: its future is cancelled, its lock released. -/
def cancel (i : ℕ) : Store V P :=
  if (s.tasks[i]?.any (·.asked.isSome)) then
    { s with
      tasks := s.tasks.mapIdx fun j t => if s.victim i j then t.cancel else t
      waiters := s.waiters.filter (!s.victim i ·)
      holder := s.holder.filter (!s.victim i ·)
      jobs := s.jobs.mapIdx fun k job => if s.abandoned i k then job.drop else job }
  else s

/-! ### The executor -/

def jobStarts (k : ℕ) : Store V P :=
  { s with jobs := s.jobs.modify k fun job => if job.state = .queued then { job with state := .running } else job }

/-- `_encode_and_write` ends: the file is replaced, or something raised. -/
def jobEnds (encode : V → P) (k : ℕ) (ok : Bool) : Store V P :=
  match s.jobs[k]? with
  | none => s
  | some job =>
    if job.state = .running then
      { s with
        jobs := s.jobs.set k { job with state := .done ok }
        lastWrite := some ok
        file := if ok then some (job.snapshot.gen, encode job.snapshot.value) else s.file
        failed := if ok then s.failed else s.failed ++ [job.snapshot.gen] }
    else s

/-- One step. -/
def step (encode : V → P) (s : Store V P) : StoreAction V → Store V P
  | .mutate value delay => asyncDelaySave { s with ram := value, gen := s.gen + 1 } delay
  | .tick => { s with now := s.now + 1 }
  | .timerFires => s.onDelayHandleFire
  | .saveNow => s.asyncSaveNow
  | .resume i => s.resume i
  | .cancel i => s.cancel i
  | .jobStarts k => s.jobStarts k
  | .jobEnds k ok => s.jobEnds encode k ok

/-- A store whose file was not written yet. -/
def fresh (P : Type*) (value : V) : Store V P := { ram := value }

end Store

end DeviceBuilder.Storage
