import DeviceBuilder.Queue.Ledger
import Mathlib.Algebra.BigOperators.Group.Multiset.Basic

/-!
# One job of the ledger

`Ledger.view j` is what the ledger says of where job `j` is: its status, how
often it waits in each place and how many tokens hold it. `View.Ok` is the
invariant of one job; the lemmas `View.Ok.x` say that it survives the change that
the move `x` makes to the view of its job.
-/

namespace DeviceBuilder

/-- What the ledger says of one job. -/
structure View where
  status : Option JobStatus
  queued : ℕ
  pending : ℕ
  taken : ℕ
  exec : ℕ
  drive : ℕ
  settle : ℕ
  stage : ℕ
  chain : ℕ
  fire : ℕ
  active : Bool
  inFlight : ℕ
  deriving DecidableEq

/-- How often a token holds the job as half of a chain. -/
def Token.chains (j : JobId) : Token → ℕ
  | .chain h d => (if h = j then 1 else 0) + (if d = j then 1 else 0)
  | _ => 0

/-- How often the tokens hold the job as half of a chain. -/
def chainCount (j : JobId) (ts : Multiset Token) : ℕ := (ts.map (Token.chains j)).sum

@[simp] theorem chainCount_cons (j : JobId) (t : Token) (ts : Multiset Token) :
    chainCount j (t ::ₘ ts) = t.chains j + chainCount j ts := by
  simp [chainCount]

@[simp] theorem chainCount_add (j : JobId) (ts us : Multiset Token) :
    chainCount j (ts + us) = chainCount j ts + chainCount j us := by
  simp [chainCount]

/-- The view of job `j`. -/
def Ledger.view (c : Ledger) (j : JobId) : View where
  status := (c.obj j).map (·.status)
  queued := c.queued.count j
  pending := c.pending.count j
  taken := c.tokens.count (.taken j)
  exec := c.tokens.count (.exec j)
  drive := c.tokens.count (.drive j)
  settle := c.tokens.count (.settle j)
  stage := c.tokens.count (.stage j)
  chain := chainCount j c.tokens
  fire := c.tokens.count (.fire j)
  active := c.active j
  inFlight := c.inFlight.count j

namespace View

/-- In how many places the job is. -/
def track (v : View) : ℕ :=
  v.queued + v.pending + v.taken + v.exec + v.drive + v.settle + v.stage +
    v.chain

/-- Queued, or cancelled while something still holds it. -/
def Waiting (v : View) : Prop := v.status = some .queued ∨ v.status = some .cancelled

def Ended (v : View) : Prop :=
  v.status = some .completed ∨ v.status = some .failed ∨ v.status = some .cancelled

/-- **What holds of one job at any time.** -/
structure Ok (v : View) : Prop where
  /-- A job is in at most one place. -/
  one : v.track ≤ 1
  absent : v.status = none → v.track = 0 ∧ v.fire = 0 ∧ v.active = false ∧ v.inFlight = 0
  exec : 0 < v.exec → v.status = some .running ∧ v.active = true
  drive : 0 < v.drive → v.status = some .running ∧ 0 < v.inFlight
  settle : 0 < v.settle → v.Ended
  staged : 0 < v.stage + v.chain → v.Waiting
  ready : 0 < v.queued + v.taken → v.Waiting ∨ v.status = some .running
  pending : 0 < v.pending → v.Waiting
  /-- A lane slot belongs to a running job that nothing but its worker holds. -/
  slot : v.active = true → v.status = some .running ∧ v.track = v.exec ∧ v.inFlight = 0
  /-- A server binding belongs to a running job that nothing but its driver holds, or to one that
  is being settled. -/
  flight : 0 < v.inFlight → v.settle = 1 ∨ v.status = some .running ∧ v.track = v.drive
  fired : 0 < v.fire → v.status = some .cancelled

variable {v : View}

/-- Where a job is in one place, it is in no other. -/
theorem Ok.elsewhere (h : v.Ok) :
    (0 < v.stage → v.track - v.stage = 0 ∧ v.stage = 1) ∧
      (0 < v.chain → v.track - v.chain = 0 ∧ v.chain = 1) ∧
      (0 < v.drive → v.pending = 0) ∧ (0 < v.pending → v.inFlight = 0) := by
  obtain ⟨h1, -, -, -, h5, -, -, h8, -, h10, -⟩ := h
  simp only [track, Waiting, Ended] at *
  refine ⟨?_, ?_, ?_, ?_⟩ <;> grind

theorem Ok.track_unstage (h : v.Ok) (hs : 0 < v.stage) :
    ({ v with stage := v.stage - 1 } : View).track = 0 := by
  have := h.one
  simp only [track] at *; omega

theorem Ok.track_unchain (h : v.Ok) (hs : 0 < v.chain) :
    ({ v with chain := v.chain - 1 } : View).track = 0 := by
  have := h.one
  simp only [track] at *; omega

theorem Ok.create (h : v.Ok) (hs : v.status = none) :
    Ok { v with status := some .queued, stage := v.stage + 1 } := by
  cases h; constructor <;> simp only [track, Waiting, Ended] at * <;> grind

theorem Ok.createChain (h : v.Ok) (hs : v.status = none) :
    Ok { v with status := some .queued, chain := v.chain + 1 } := by
  cases h; constructor <;> simp only [track, Waiting, Ended] at * <;> grind

theorem Ok.unstage (h : v.Ok) : Ok { v with stage := v.stage - 1 } := by
  cases h; constructor <;> simp only [track, Waiting, Ended] at * <;> grind

theorem Ok.unchain (h : v.Ok) : Ok { v with chain := v.chain - 1 } := by
  cases h; constructor <;> simp only [track, Waiting, Ended] at * <;> grind

theorem Ok.take (h : v.Ok) (ht : 0 < v.queued) :
    Ok { v with queued := v.queued - 1, taken := v.taken + 1 } := by
  cases h; constructor <;> simp only [track, Waiting, Ended] at * <;> grind

theorem Ok.skip (h : v.Ok) : Ok { v with taken := v.taken - 1 } := by
  cases h; constructor <;> simp only [track, Waiting, Ended] at * <;> grind

theorem Ok.startExec (h : v.Ok) (ht : 0 < v.taken) (hs : v.status ≠ some .cancelled) :
    Ok { v with
      status := some .running, taken := v.taken - 1, exec := v.exec + 1, active := true } := by
  cases h; constructor <;> simp only [track, Waiting, Ended] at * <;> grind

theorem Ok.startDrive (h : v.Ok) (hp : 0 < v.pending) (hs : v.status = some .queued) :
    Ok { v with
      status := some .running, pending := 0, drive := v.drive + 1, inFlight := v.inFlight + 1 } := by
  cases h; constructor <;> simp only [track, Waiting, Ended] at * <;> grind

theorem Ok.finishExec (h : v.Ok) {s : JobStatus} (hs : s.isTerminal = true) (ht : 0 < v.exec) :
    Ok { v with status := some s, exec := v.exec - 1, active := false } := by
  cases s <;> simp [JobStatus.isTerminal] at hs <;> cases h <;> constructor <;>
    simp only [track, Waiting, Ended] at * <;> grind

theorem Ok.finishDrive (h : v.Ok) {s : JobStatus} (hs : s.isTerminal = true) (ht : 0 < v.drive) :
    Ok { v with
      status := some s, drive := v.drive - 1, settle := v.settle + 1, active := false } := by
  cases s <;> simp [JobStatus.isTerminal] at hs <;> cases h <;> constructor <;>
    simp only [track, Waiting, Ended] at * <;> grind

theorem Ok.release (h : v.Ok) (ht : 0 < v.settle) :
    Ok { v with settle := v.settle - 1, inFlight := 0 } := by
  cases h; constructor <;> simp only [track, Waiting, Ended] at * <;> grind

/-- A waiting job that nothing holds goes to the pool. -/
theorem Ok.pend (h : v.Ok) (ht : v.track = 0) (hs : v.Waiting) : Ok { v with pending := v.pending + 1 } := by
  cases h; constructor <;> simp only [track, Waiting, Ended] at * <;> grind

/-- A waiting job that nothing holds goes to a lane queue. -/
theorem Ok.queue (h : v.Ok) (ht : v.track = 0) (hs : v.Waiting) :
    Ok { v with queued := v.queued + 1, pending := 0 } := by
  cases h; constructor <;> simp only [track, Waiting, Ended] at * <;> grind

theorem Ok.toLocal (h : v.Ok) (hp : 0 < v.pending) :
    Ok { v with queued := v.queued + 1, pending := 0 } := by
  cases h; constructor <;> simp only [track, Waiting, Ended] at * <;> grind

theorem Ok.reroutePend (h : v.Ok) (ht : 0 < v.drive) :
    Ok { v with
      status := some .queued, drive := v.drive - 1, pending := v.pending + 1, inFlight := 0 } := by
  cases h; constructor <;> simp only [track, Waiting, Ended] at * <;> grind

theorem Ok.rerouteQueue (h : v.Ok) (ht : 0 < v.drive) {s : JobStatus}
    (hs : s = .queued ∨ s = .running) :
    Ok { v with
      status := some s, drive := v.drive - 1, queued := v.queued + 1, pending := 0,
      inFlight := 0 } := by
  rcases hs with rfl | rfl <;> cases h <;> constructor <;>
    simp only [track, Waiting, Ended] at * <;> grind

theorem Ok.unpend (h : v.Ok) : Ok { v with pending := 0 } := by
  cases h; constructor <;> simp only [track, Waiting, Ended] at * <;> grind

theorem Ok.cancelMark (h : v.Ok) (hs : v.status = some .queued) :
    Ok { v with
      status := some .cancelled, pending := 0, inFlight := 0, fire := v.fire + 1 } := by
  cases h; constructor <;> simp only [track, Waiting, Ended] at * <;> grind

theorem Ok.fireCancelled (h : v.Ok) : Ok { v with fire := v.fire - 1 } := by
  cases h; constructor <;> simp only [track, Waiting, Ended] at * <;> grind

theorem Ok.finishQueued (h : v.Ok) (hs : v.status = some .queued) :
    Ok { v with status := some .cancelled, active := false } := by
  cases h; constructor <;> simp only [track, Waiting, Ended] at * <;> grind

theorem Ok.failPending (h : v.Ok) {s : JobStatus} (hs : s.isTerminal = true)
    (hp : 0 < v.pending) (hq : v.status = some .queued) :
    Ok { v with status := some s, pending := 0, active := false } := by
  cases s <;> simp [JobStatus.isTerminal] at hs <;> cases h <;> constructor <;>
    simp only [track, Waiting, Ended] at * <;> grind

theorem Ok.refinish (h : v.Ok) (hs : v.Ended) :
    Ok { v with status := some .cancelled, active := false } := by
  cases h; constructor <;> simp only [track, Waiting, Ended] at * <;> grind

theorem Ok.loseExec (h : v.Ok) : Ok { v with exec := v.exec - 1 } := by
  cases h; constructor <;> simp only [track, Waiting, Ended] at * <;> grind

theorem Ok.loseDrive (h : v.Ok) : Ok { v with drive := v.drive - 1 } := by
  cases h; constructor <;> simp only [track, Waiting, Ended] at * <;> grind

end View

end DeviceBuilder
