import Mathlib.Data.List.Basic
import Mathlib.Data.Int.Notation
import DeviceBuilder.Lib.Runs

/-!
# Streams of bus events

`stream_events` of `helpers/event_bus.py`: the listeners of the bus put items in
a bounded queue, while one coroutine sends the initial payload and then drains
the queue to the client. A listener runs without an await, so a call of one of
the controls is one step; a step of the coroutine goes from one await to the
next.

* `EventStream`: the queue and the await the coroutine is suspended at.
* `EventStream.loop`: the drain loop from its top to its next await.
* `EventStream.step`: the steps.
-/

namespace DeviceBuilder

/-- What the queue holds. The source marks no tuple: `owed` records that
`push_priority` put it in, before `end()`. -/
inductive StreamItem (α : Type*)
  | data (x : α) (owed : Bool)
  /-- `_TERMINATE_SENTINEL`. -/
  | terminate
  /-- `None`, the sentinel of `end()`. -/
  | done
  deriving DecidableEq, Repr

/-- The await the coroutine of the stream is suspended at, or how it ended. -/
inductive StreamPhase (α : Type*)
  /-- `send_initial`, with what it still sends. -/
  | seeding (rest : List α)
  /-- `queue.get()`, on an empty queue. -/
  | getting
  /-- `client.send_event`. -/
  | sending (x : α) (owed : Bool)
  | returned
  /-- `StreamBackpressureError`. -/
  | raised
  /-- `client.send_event` raised, or the task was cancelled. -/
  | failed
  deriving DecidableEq, Repr

/-- `stream_events`. The last four fields are its history, which the code does not read. -/
structure EventStream (α : Type*) where
  /-- `queue_max`; `asyncio.Queue` is unbounded for zero and below. -/
  queueMax : ℤ
  initial : List α
  queue : List (StreamItem α) := []
  phase : StreamPhase α
  /-- What the client received, with the marks of the items. -/
  sent : List (α × Bool) := []
  /-- What `push_priority` was given before `end()`. -/
  given : List α := []
  ended : Bool := false
  /-- What `push_or_terminate` was given. -/
  fired : List α := []
  /-- `push_or_terminate` refused an event, or evicted one. -/
  dropped : Bool := false
  deriving DecidableEq, Repr

inductive StreamAction (α : Type*)
  | push (x : α)
  | pushPriority (x : α)
  | pushOrTerminate (x : α)
  /-- `end()`. -/
  | finish
  /-- The await of the coroutine is over. -/
  | resume
  /-- Its await raised. -/
  | fail
  deriving DecidableEq, Repr

variable {α : Type*}

/-- `QueueFull`. -/
def queueFull (queueMax : ℤ) (length : ℕ) : Bool := 0 < queueMax && queueMax ≤ length

/-- `_force_enqueue`. -/
def forceEnqueue (queueMax : ℤ) (item : StreamItem α) : List (StreamItem α) → List (StreamItem α)
  | [] => if queueFull queueMax 0 then [] else [item]
  | head :: rest =>
    if queueFull queueMax (rest.length + 1) then forceEnqueue queueMax item rest
    else (head :: rest) ++ [item]

namespace EventStream

/-- The stream as the listeners attach. -/
def init (queueMax : ℤ) (initial : List α) : EventStream α :=
  { queueMax := queueMax, initial := initial, phase := .seeding initial }

variable (s : EventStream α)

def full : Bool := queueFull s.queueMax s.queue.length

/-- The listeners are attached while the coroutine runs. -/
def listening : Bool :=
  match s.phase with
  | .seeding _ | .getting | .sending _ _ => true
  | .returned | .raised | .failed => false

/-- `controls.push`: the new item is dropped on a full queue. -/
def push (x : α) : EventStream α :=
  if s.full then s else { s with queue := s.queue ++ [.data x false] }

/-- `controls.push_priority`. -/
def pushPriority (x : α) : EventStream α :=
  { s with
    queue := forceEnqueue s.queueMax (.data x !s.ended) s.queue
    given := if s.ended then s.given else s.given ++ [x] }

/-- `controls.push_or_terminate`. -/
def pushOrTerminate (x : α) : EventStream α :=
  if s.full then
    { s with
      queue := forceEnqueue s.queueMax .terminate s.queue
      fired := s.fired ++ [x], dropped := true }
  else { s with queue := s.queue ++ [.data x false], fired := s.fired ++ [x] }

/-- `controls.end`. -/
def finish : EventStream α :=
  { s with queue := forceEnqueue s.queueMax .done s.queue, ended := true }

/-- The drain loop, from its top: `get` does not suspend on a queue that holds an item. -/
def loop : EventStream α :=
  match s.queue with
  | [] => { s with phase := .getting }
  | .done :: queue => { s with queue := queue, phase := .returned }
  | .terminate :: queue => { s with queue := queue, phase := .raised }
  | .data x owed :: queue => { s with queue := queue, phase := .sending x owed }

/-- The coroutine from one await to the next. -/
def resume : EventStream α :=
  match s.phase with
  | .seeding (x :: rest) => { s with phase := .seeding rest, sent := s.sent ++ [(x, false)] }
  | .seeding [] | .getting => s.loop
  | .sending x owed => { s with sent := s.sent ++ [(x, owed)] }.loop
  | .returned | .raised | .failed => s

def step (s : EventStream α) (a : StreamAction α) : EventStream α :=
  if s.listening then
    match a with
    | .push x => s.push x
    | .pushPriority x => s.pushPriority x
    | .pushOrTerminate x => s.pushOrTerminate x
    | .finish => s.finish
    | .resume => s.resume
    | .fail => { s with phase := .failed }
  else s

def run (s : EventStream α) (as : List (StreamAction α)) : EventStream α := as.foldl step s

end EventStream

end DeviceBuilder
