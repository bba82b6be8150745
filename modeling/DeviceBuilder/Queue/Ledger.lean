import DeviceBuilder.Firmware.Step
import DeviceBuilder.Lib.Chain
import Mathlib.Data.Multiset.AddSub
import Mathlib.Data.Multiset.Count
import Mathlib.Algebra.Order.Group.Multiset

/-!
# The ledger: who holds each job

The abstract model of the queue. At any moment a job waits in a lane queue, in
the pool, or is held by one coroutine, which says so with a token. A `Ledger`
keeps the job objects, the places they wait in, the multiset of tokens and the
log, and forgets the code: which lane, which await, which frame. `Move` lists
everything that the code ever does to it, one constructor for each small thing.

* `Token`: what a coroutine holds.
* `Move`: the moves, with the label that tells the special ones apart.
-/

namespace DeviceBuilder

/-- What a coroutine holds of a job, or owes. -/
inductive Token
  /-- A lane worker dequeued it. -/
  | taken (j : JobId)
  /-- A lane worker executes it. -/
  | exec (j : JobId)
  /-- A driver runs it on a server. -/
  | drive (j : JobId)
  /-- Its driver finalised it and has not released the server yet. -/
  | settle (j : JobId)
  /-- It was created and is not committed yet; alone, or with its dependent. -/
  | stage (j : JobId)
  | chain (head dependent : JobId)
  /-- It was marked cancelled and its event is not fired yet. -/
  | fire (j : JobId)
  /-- Its prerequisite ended, and it is not released or cancelled yet. -/
  | owed (j : JobId)
  /-- A sweep is going to cancel it. -/
  | sweep (j : JobId) (cause : CancelCause)
  /-- A build source was resolved for a job to create. -/
  | resolved (forceLocal : Bool) (jobType : JobType) (source : JobBuildSource)
  deriving DecidableEq, Repr

/-- Does the token hold job `j`? -/
def Token.tracks (j : JobId) : Token → Bool
  | .taken k | .exec k | .drive k | .settle k | .stage k => k = j
  | .chain h d => h = j || d = j
  | _ => false

structure Ledger where
  obj : JobId → Option FirmwareJob
  fresh : JobId
  table : List JobId
  /-- The jobs in the lane queues. -/
  queued : Multiset JobId
  /-- The jobs in the lane slots. -/
  active : JobId → Bool
  pending : List JobId
  inFlight : List JobId
  jobPeer : List (JobId × Pin)
  tokens : Multiset Token
  log : List Ev
  past : List Ev
  disk : List FirmwareJob
  saving : Option (List JobId)

/-- The moves that some runs exclude. -/
inductive Label
  | plain
  /-- A lane worker starts a job. -/
  | start
  /-- A dying coroutine drops what it holds. -/
  | lose
  | resolve (forceLocal : Bool) (jobType : JobType) (source : JobBuildSource)
  /-- A chain of two jobs is created. -/
  | chain
  /-- A job of the pool starts on a server, or comes back from one. -/
  | pool
  /-- The matcher, or the flush, sends a waiting job to the local lane. -/
  | toLocal (jobType : JobType)
  /-- A job whose server could not provision is sent to the local lane. -/
  | provision (jobType : JobType)
  /-- A terminal job is finalised again. -/
  | refinish
  /-- A sweep begins. -/
  | sweep (cause : CancelCause)
  | clear
  deriving DecidableEq, Repr

/-- Events that only inform. -/
def Ev.isNote : Ev → Bool
  | .jobQueued _ | .commandError _ | .wakeUpload _ => true
  | _ => false

namespace Ledger

variable (c : Ledger)

@[simp] def set (j : JobId) (job : FirmwareJob) : Ledger :=
  { c with obj := Function.update c.obj j (some job) }

@[simp] def emit (ev : Ev) : Ledger := { c with log := c.log ++ [ev] }

@[simp] def withTokens (ts : Multiset Token) : Ledger := { c with tokens := ts }

/-- The jobs of the table held on `j`. -/
def dependents (j : JobId) : List JobId :=
  c.table.filter fun d => ((c.obj d).map (fun job => decide (job.dependsOn = some j))).getD false

/-- The tokens of the release that a job's end owes its dependents. -/
def owes (j : JobId) : Multiset Token := ((c.dependents j).map Token.owed : List Token)

/-- The latch of `place_on_lane`. -/
def latched (job : FirmwareJob) : FirmwareJob :=
  if job.dependsOn.isSome then { job with dependencyReleased := true } else job

/-- `place_on_lane` of `job`, under `j`. -/
@[simp] def route (j : JobId) (job : FirmwareJob) : Ledger :=
  { c with
    obj := Function.update c.obj j (some (latched job))
    log := c.log ++ [.placed j job.dependsOn]
    pending :=
      if FirmwareState.pooled job then KeyList.add c.pending j else KeyList.drop c.pending j
    queued := if FirmwareState.pooled job then c.queued else j ::ₘ c.queued }

/-- The server of `j` is free again. -/
@[simp] def release (j : JobId) : Ledger :=
  { c with
    inFlight := KeyList.drop c.inFlight j
    jobPeer := c.jobPeer.filter (fun e => e.1 ≠ j) }

/-- `j` is driven on server `pin`. -/
@[simp] def bind (j : JobId) (pin : Pin) : Ledger :=
  { c with
    pending := KeyList.drop c.pending j
    jobPeer := c.jobPeer.filter (fun e => e.1 ≠ j) ++ [(j, pin)]
    inFlight := KeyList.add c.inFlight j }

@[simp] def unpend (j : JobId) : Ledger := { c with pending := KeyList.drop c.pending j }

@[simp] def setActive (j : JobId) (b : Bool) : Ledger :=
  { c with active := Function.update c.active j b }

/-- A job ends as `job`: stamped, off its lane slot, its event fired. -/
@[simp] def finish (j : JobId) (job : FirmwareJob) : Ledger :=
  ((c.set j job).setActive j false).emit (.jobTerminal job)

/-- A new job under the next id. -/
@[simp] def create (job : FirmwareJob) : Ledger :=
  { c with
    obj := Function.update c.obj c.fresh (some job)
    table := c.table ++ [c.fresh]
    fresh := c.fresh + 1 }

end Ledger

/-- A job as it is created. -/
def FirmwareJob.IsNew (job : FirmwareJob) (j : JobId) : Prop :=
  job.jobId = j ∧ job.status = .queued ∧ job.dependencyReleased = false

/-- Where a job is built: its `source`, and the server's pin. -/
def FirmwareJob.origin (job : FirmwareJob) : JobSource × Pin := (job.source, job.sourcePin)

/-- `job'` is `job` after its end: stamped terminal, perhaps deferred. -/
def FirmwareJob.EndsAs (job job' : FirmwareJob) : Prop :=
  job'.identity = job.identity ∧ job'.isActive = false ∧
    job'.dependencyReleased = job.dependencyReleased ∧ job'.origin = job.origin ∧
    (job.isDeferredInstall = true → job'.isDeferredInstall = true)

/-- `job'` is `job` but for fields of a run. -/
def FirmwareJob.SameRun (job job' : FirmwareJob) : Prop :=
  job'.identity = job.identity ∧ job'.status = job.status ∧
    job'.dependencyReleased = job.dependencyReleased ∧ job'.origin = job.origin ∧
    job'.isDeferredInstall = job.isDeferredInstall

/-- A build that completes is deferred at its end only for a dependent it holds. -/
def Ledger.DefersFor (c : Ledger) (j : JobId) (job job' : FirmwareJob) : Prop :=
  job'.isDeferredInstall = true → job'.status = .completed →
    job.isDeferredInstall = true ∨ c.dependents j ≠ []

open Ledger in
/-- **Everything the code does to the ledger.** -/
inductive Move : Label → Ledger → Ledger → Prop
  | note {c : Ledger} (ev : Ev) (h : ev.isNote = true) : Move .plain c (c.emit ev)
  /-- A run changes an object without moving the job. -/
  | edit {c : Ledger} {j : JobId} {job job' : FirmwareJob} (hj : c.obj j = some job)
      (h : job.SameRun job') : Move .plain c (c.set j job')
  -- creation
  | resolve {c : Ledger} (forceLocal : Bool) (jobType : JobType) (source : JobBuildSource) :
      Move (.resolve forceLocal jobType source) c
        (c.withTokens (.resolved forceLocal jobType source ::ₘ c.tokens))
  /-- A job that is not routed by the build scheduler. -/
  | create {c : Ledger} (job : FirmwareJob) (h : job.IsNew c.fresh) (hd : job.dependsOn = none)
      (hs : job.jobType = .compile → job.source = .local) :
      Move .plain c ((c.create job).withTokens (.stage c.fresh ::ₘ c.tokens))
  /-- A compile or analysis, with the resolved source. -/
  | submit {c : Ledger} (job : FirmwareJob) {forceLocal : Bool} {source : JobBuildSource}
      {ts : Multiset Token} (h : job.IsNew c.fresh) (hd : job.dependsOn = none)
      (hs : job.source = source.source)
      (ht : c.tokens = .resolved forceLocal job.jobType source ::ₘ ts) :
      Move .plain c (((c.emit (.submitted c.fresh forceLocal)).create job).withTokens
        (.stage c.fresh ::ₘ ts))
  /-- A compile and the job that depends on it. -/
  | submitChain {c : Ledger} (head dependent : FirmwareJob) {forceLocal : Bool}
      {source : JobBuildSource} {ts : Multiset Token} (hh : head.IsNew c.fresh)
      (hhd : head.dependsOn = none) (hd : dependent.IsNew (c.fresh + 1))
      (hdd : dependent.dependsOn = some c.fresh) (hs : head.source = source.source)
      (hds : dependent.source = .local) (hht : head.jobType = .compile)
      (hdt : dependent.jobType ≠ .compile) (hdf : head.isDeferredInstall = false)
      (ht : c.tokens = .resolved forceLocal .compile source ::ₘ ts) :
      Move .chain c ((((c.emit (.submitted c.fresh forceLocal)).create head).create
        dependent).withTokens (.chain c.fresh (c.fresh + 1) ::ₘ ts))
  -- commit
  | place {c : Ledger} {j : JobId} {job : FirmwareJob} {ts : Multiset Token}
      (hj : c.obj j = some job) (ht : c.tokens = .stage j ::ₘ ts) :
      Move .plain c ((c.route j job).withTokens ts)
  | placeChain {c : Ledger} {head dependent : JobId} {job : FirmwareJob} {ts : Multiset Token}
      (hj : c.obj head = some job) (ht : c.tokens = .chain head dependent ::ₘ ts) :
      Move .plain c ((c.route head job).withTokens ts)
  /-- A staged job is rolled back. -/
  | unstage {c : Ledger} {j : JobId} {ts : Multiset Token} (ht : c.tokens = .stage j ::ₘ ts)
      (ho : .owed j ∉ c.tokens) :
      Move .plain c { c with table := KeyList.drop c.table j, tokens := ts }
  | unstageChain {c : Ledger} {head dependent : JobId} {ts : Multiset Token}
      (ht : c.tokens = .chain head dependent ::ₘ ts) (ho : ∀ j, .owed j ∉ c.tokens) :
      Move .plain c { c with
        table := KeyList.drop (KeyList.drop c.table dependent) head, tokens := ts }
  -- the table
  | prune {c : Ledger} (table : List JobId) (hn : table.Nodup) (hs : ∀ j ∈ table, j ∈ c.table)
      (ha : ∀ j ∈ c.table, ∀ job, c.obj j = some job → job.isActive = true → j ∈ table) :
      Move .plain c { c with table := table }
  | clear {c : Ledger} (table : List JobId) (hn : table.Nodup) (hs : ∀ j ∈ table, j ∈ c.table)
      (ho : ∀ j, .owed j ∉ c.tokens) : Move .clear c { c with table := table }
  | saveBegin {c : Ledger} (ids : List JobId) (hn : ids.Nodup) :
      Move .plain c { c with saving := some ids }
  | save {c : Ledger} {ids : List JobId} (h : c.saving = some ids) (ho : ∀ j, .owed j ∉ c.tokens) :
      Move .plain c { c with disk := ids.filterMap c.obj, saving := none }
  -- the lanes
  | take {c : Ledger} {j : JobId} {q : Multiset JobId} (h : c.queued = j ::ₘ q) :
      Move .plain c { c with queued := q, tokens := .taken j ::ₘ c.tokens }
  | skip {c : Ledger} {j : JobId} {job : FirmwareJob} {ts : Multiset Token}
      (ht : c.tokens = .taken j ::ₘ ts) (hj : c.obj j = some job) (hs : job.status = .cancelled) :
      Move .plain c (c.withTokens ts)
  | startExec {c : Ledger} {j : JobId} {job : FirmwareJob} {ts : Multiset Token}
      (ht : c.tokens = .taken j ::ₘ ts) (hj : c.obj j = some job) (hs : job.status ≠ .cancelled) :
      Move .start c ((((c.set j job.markRunning).setActive j true).emit
        (.jobStarted job.markRunning)).withTokens (.exec j ::ₘ ts))
  | finishExec {c : Ledger} {j : JobId} {job job' : FirmwareJob} {ts : Multiset Token}
      (ht : c.tokens = .exec j ::ₘ ts) (hj : c.obj j = some job) (h : job.EndsAs job')
      (hf : c.DefersFor j job job') :
      Move .plain c ((c.finish j job').withTokens (ts + (c.set j job').owes j))
  -- the pool
  | startDrive {c : Ledger} {j : JobId} {job : FirmwareJob} {pin : Pin} {source : JobBuildSource}
      (hj : c.obj j = some job) (hp : j ∈ c.pending) (hs : job.status = .queued)
      (hpin : pin ∉ c.jobPeer.map Prod.snd) (hsrc : source.source = .remote)
      (hsp : source.sourcePin = pin) :
      Move .pool c (((c.set j (job.applyBuildSource source).markRunning).emit
        (.jobStarted (job.applyBuildSource source).markRunning)).bind j pin |>.withTokens
          (.drive j ::ₘ c.tokens))
  | finishDrive {c : Ledger} {j : JobId} {job job' : FirmwareJob} {ts : Multiset Token}
      (ht : c.tokens = .drive j ::ₘ ts) (hj : c.obj j = some job) (h : job.EndsAs job')
      (hf : c.DefersFor j job job') :
      Move .plain c ((c.finish j job').withTokens (.settle j ::ₘ (ts + (c.set j job').owes j)))
  | release {c : Ledger} {j : JobId} {ts : Multiset Token} (ht : c.tokens = .settle j ::ₘ ts) :
      Move .plain c ((c.release j).withTokens ts)
  /-- A lost server: the job goes back to the pool. -/
  | reroute {c : Ledger} {j : JobId} {job : FirmwareJob} {ts : Multiset Token}
      (ht : c.tokens = .drive j ::ₘ ts) (hj : c.obj j = some job) :
      Move .pool c (((c.route j job.revertToPendingRemote).release j).withTokens ts)
  /-- A server that cannot build it: the job goes to the local lane. -/
  | provision {c : Ledger} {j : JobId} {job : FirmwareJob} {ts : Multiset Token}
      (ht : c.tokens = .drive j ::ₘ ts) (hj : c.obj j = some job) :
      Move (.provision job.jobType) c (((c.route j (job.clearRunState.applyBuildSource
        localJobBuildSource)).release j).withTokens ts)
  | toLocal {c : Ledger} {j : JobId} {job : FirmwareJob} (hp : j ∈ c.pending)
      (hj : c.obj j = some job) :
      Move (.toLocal job.jobType) c (c.route j (job.applyBuildSource localJobBuildSource))
  | unpend {c : Ledger} {j : JobId} {job : FirmwareJob} (hj : c.obj j = some job)
      (hs : job.status ≠ .queued) : Move .plain c (c.unpend j)
  | failPending {c : Ledger} {j : JobId} {job job' : FirmwareJob} (hp : j ∈ c.pending)
      (hj : c.obj j = some job) (hs : job.status = .queued) (h : job.EndsAs job')
      (hf : job'.status = .failed) :
      Move .plain c (((c.unpend j).finish j job').withTokens (c.tokens + (c.set j job').owes j))
  -- cancels
  | beginSweep {c : Ledger} (cause : CancelCause) (js : List JobId) :
      Move (.sweep cause) c (c.withTokens (c.tokens + (js.map (Token.sweep · cause) : List Token)))
  | endSweep {c : Ledger} {j : JobId} {cause : CancelCause} {ts : Multiset Token}
      (ht : c.tokens = .sweep j cause ::ₘ ts) : Move .plain c (c.withTokens ts)
  | callCancel {c : Ledger} (j : JobId) (cause : CancelCause)
      (h : cause = .user ∨ (∃ t, cause = .tail t) ∨ .sweep j cause ∈ c.tokens) :
      Move .plain c (c.emit (.cancelCalled j cause))
  | cancelMark {c : Ledger} {j : JobId} {job : FirmwareJob} (hj : c.obj j = some job)
      (hs : job.status = .queued) (hr : j ∈ c.table) :
      Move .plain c (((c.set j (job.markTerminal .cancelled)).unpend j).release j |>.withTokens
        (.fire j ::ₘ c.tokens))
  | fireCancelled {c : Ledger} {j : JobId} {job : FirmwareJob} {ts : Multiset Token}
      (ht : c.tokens = .fire j ::ₘ ts) (hj : c.obj j = some job) :
      Move .plain c ((c.emit (.jobTerminal job)).withTokens (ts + c.owes j))
  -- the release of dependents
  | placeOwed {c : Ledger} {p d : JobId} {prereq job : FirmwareJob} {ts : Multiset Token}
      (ht : c.tokens = .owed d ::ₘ ts) (hj : c.obj d = some job) (hd : job.dependsOn = some p)
      (hp : c.obj p = some prereq) (hps : prereq.status = .completed)
      (hpd : prereq.isDeferredInstall = false) (hs : job.status = .queued) :
      Move .plain c ((c.route d job).withTokens ts)
  /-- The cascade cancels a job held on one that did not succeed. -/
  | finishQueued {c : Ledger} {j : JobId} {job job' : FirmwareJob} (hj : c.obj j = some job)
      (hs : job.status = .queued) (h : job.EndsAs job') (hc : job'.status = .cancelled) :
      Move .plain c ((c.finish j job').withTokens (c.tokens + (c.set j job').owes j))
  | dropOwed {c : Ledger} {d : JobId} {job : FirmwareJob} {ts : Multiset Token}
      (ht : c.tokens = .owed d ::ₘ ts) (hj : c.obj d = some job) (hs : job.status ≠ .queued) :
      Move .plain c (c.withTokens ts)
  -- the moves that only some runs make
  | refinish {c : Ledger} {j : JobId} {job job' : FirmwareJob} (hj : c.obj j = some job)
      (hs : job.status = .cancelled) (h : job.EndsAs job') (hc : job'.status = .cancelled) :
      Move .refinish c ((c.finish j job').withTokens (c.tokens + (c.set j job').owes j))
  | lose {c : Ledger} {t : Token} {ts : Multiset Token} (ht : c.tokens = t ::ₘ ts)
      (h : (∃ j, t = .taken j) ∨ (∃ j, t = .exec j) ∨ (∃ j, t = .drive j)) :
      Move .lose c (c.withTokens ts)

end DeviceBuilder
