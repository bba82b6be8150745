import DeviceBuilder.Queue.Losses

/-!
# The ledger of a world

`World.ledger w h` is the ledger of a world whose running section holds the
tokens `h`: each suspended task holds the tokens of its await. `Sims` says that
a piece of code is a chain of moves on ledgers, with what it does to the loss counters.

* `Sims.trans`: pieces compose.
* `runTask_entries`: a section in its task's slot.
-/

namespace DeviceBuilder

open Runs

/-- What a frame holds. -/
def Frame.tokens : Frame → Multiset Token
  | .cancelMarked j => {.fire j}
  | .sweep rest cause => (rest.map (Token.sweep · cause) : List Token)
  | .resetSweep j => {.stage j}
  | .stageSupersede head tail _ | .stagePersist head tail _ | .stageWrite head tail _ _ =>
    {.chain head tail}
  | .renameLock _ _ _ _ source => {.resolved false .compile source}
  | _ => 0

def framesTokens (fs : List Frame) : Multiset Token := (fs.map Frame.tokens).sum

@[simp] theorem framesTokens_nil : framesTokens [] = 0 := rfl

@[simp] theorem framesTokens_cons (f : Frame) (fs : List Frame) :
    framesTokens (f :: fs) = f.tokens + framesTokens fs := by
  simp [framesTokens]

@[simp] theorem framesTokens_append (fs gs : List Frame) :
    framesTokens (fs ++ gs) = framesTokens fs + framesTokens gs := by
  simp [framesTokens]

/-- What a suspended task holds. -/
def Task.tokens : Task → Multiset Token
  | .laneGate _ j _ => {.taken j}
  | .laneBegin _ j | .laneLocal _ j _ | .laneRemote _ j _ => {.exec j}
  | .driveBegin j | .driveRemote j _ => {.drive j}
  | .command fs => framesTokens fs
  | _ => 0

def Outcome.tokens : Outcome → Multiset Token
  | .suspended fs => framesTokens fs
  | _ => 0

def taskTokens (ts : List Task) : Multiset Token := (ts.map Task.tokens).sum

/-- The jobs in the lane queues. -/
def FirmwareState.laneQueued (fw : FirmwareState) : Multiset JobId :=
  fw.compileLane.queue + fw.uploadLane.queue + fw.threadUploadLane.queue

/-- The ledger of `w`, where the running section holds `h`. -/
def World.ledger (w : World) (h : Multiset Token) : Ledger where
  obj := w.fw.obj
  fresh := w.fw.fresh
  table := w.fw.jobs
  queued := w.fw.laneQueued
  active := w.fw.jobIsOnALane
  pending := w.fw.remoteDispatch.pending
  inFlight := w.fw.remoteDispatch.inFlight
  jobPeer := w.fw.remoteDispatch.jobPeer
  tokens := taskTokens w.tasks + h
  log := w.log
  past := w.past
  disk := w.disk
  saving := w.saving

/-- The labels of the moves that any section may make. -/
def Label.basic : Label → Prop
  | .plain | .sweep _ => True
  | _ => False

/-- The loss counters of the pool. -/
def World.losses (w : World) : JobId → ℕ := w.fw.remoteDispatch.retries

/-- What the ledger does not show: the tasks, the offloader, and the loss counters. -/
def World.outer (w : World) : List Task × Option OffloaderState × (JobId → ℕ) :=
  (w.tasks, w.offloader, w.losses)

/-- The ledger of `w` with the loss counters, where the running section holds `h`. -/
def World.account (w : World) (h : Multiset Token) : Account := ⟨w.ledger h, w.losses⟩

/-- The frame is of a cancel of `k` that has marked it, and sets the gate at its end. -/
def Frame.Marks (k : JobId) : Frame → Prop
  | .cancelMarked j | .cancelReleased j => j = k
  | _ => False

/-- The frame rolls no job back. -/
def Frame.IsPlain : Frame → Prop
  | .resetSweep _ | .stageSupersede .. | .stagePersist .. | .stageWrite .. => False
  | _ => True

/-- A mark is only on top of a stack: it waits for a disk write, not for a callee. -/
def TopMarked (fs : List Frame) : Prop := ∀ f ∈ fs.tail, ∀ k, ¬f.Marks k

/-- The stack of a call that creates or cancels no job of its caller. -/
def PlainStack (fs : List Frame) : Prop := (∀ f ∈ fs, f.IsPlain) ∧ TopMarked fs

theorem topMarked_short {fs : List Frame} (h : fs.tail = []) : TopMarked fs := by
  intro f hf
  rw [h] at hf
  exact absurd hf List.not_mem_nil

/-- The callers of a suspended call wait below it. -/
theorem TopMarked.append {fs gs : List Frame} (h : TopMarked gs) (hf : ∀ f ∈ fs, ∀ k, ¬f.Marks k) :
    TopMarked (gs ++ fs) := by
  intro g hg
  cases gs with
  | nil => exact hf g (List.mem_of_mem_tail hg)
  | cons x gs =>
    rcases List.mem_append.1 hg with hg | hg
    · exact h g hg
    · exact hf g hg

theorem TopMarked.wait {fs : List Frame} {f : Frame} (h : TopMarked fs) (hf : ∀ k, ¬f.Marks k) :
    TopMarked (fs ++ [f]) := h.append fun _ hg => List.mem_singleton.1 hg ▸ hf

theorem plainStack_nil : PlainStack [] := ⟨fun _ hf => absurd hf List.not_mem_nil, topMarked_short rfl⟩

theorem plainStack_one {f : Frame} (h : f.IsPlain) : PlainStack [f] :=
  ⟨fun _ hg => List.mem_singleton.1 hg ▸ h, topMarked_short rfl⟩

theorem PlainStack.wait {fs : List Frame} {f : Frame} (h : PlainStack fs) (hp : f.IsPlain)
    (hf : ∀ k, ¬f.Marks k) : PlainStack (fs ++ [f]) := by
  refine ⟨fun g hg => ?_, h.2.wait hf⟩
  rcases List.mem_append.1 hg with hg | hg
  · exact h.1 g hg
  · exact List.mem_singleton.1 hg ▸ hp

/-- The frames of a call that is suspended. -/
def Outcome.frames : Outcome → List Frame
  | .suspended fs => fs
  | _ => []

/-- A task that a section may start: a driver, a revert, or the flash of a device that woke up. -/
def Task.IsSpawned : Task → Prop
  | .command fs => PlainStack fs
  | .driveBegin _ | .revertLock _ | .revertRemove .. | .ended => True
  | _ => False

/-- What every section keeps: the other tasks, up to a waiter that is resolved, and the offloader. -/
structure Keeps (w w' : World) : Prop where
  slots : ∀ (i : ℕ) t, w.tasks[i]? = some t → w'.tasks[i]? = some t ∨ w'.tasks[i]? = some t.wakeGate
  spawned : ∀ (i : ℕ) t, w'.tasks[i]? = some t → w.tasks[i]? = none → t.IsSpawned
  offloader : w'.offloader = w.offloader

theorem Keeps.of_tasks {w w' : World} (ht : w'.tasks = w.tasks)
    (ho : w'.offloader = w.offloader) : Keeps w w' where
  slots i t hi := .inl (by rw [ht]; exact hi)
  spawned i t hi hn := by
    rw [ht, hn] at hi
    cases hi
  offloader := ho

theorem Keeps.of_eq {w w' : World} (h : w'.outer = w.outer) : Keeps w w' :=
  .of_tasks (congrArg Prod.fst h) (congrArg (·.2.1) h)

theorem Task.wakeGate_wakeGate (t : Task) : t.wakeGate.wakeGate = t.wakeGate := by cases t <;> rfl

theorem Task.IsSpawned.wakeGate {t : Task} (h : t.IsSpawned) : t.wakeGate.IsSpawned := by
  cases t with
  | laneGate => exact h.elim
  | _ => exact h

theorem Keeps.trans {w w' w'' : World} (h₁ : Keeps w w') (h₂ : Keeps w' w'') : Keeps w w'' where
  slots i t hi := by
    rcases h₁.slots i t hi with h | h
    · exact h₂.slots i t h
    · rcases h₂.slots i _ h with h | h
      · exact .inr h
      · exact .inr (h.trans (by rw [Task.wakeGate_wakeGate]))
  spawned i t hi hn := by
    cases hm : w'.tasks[i]? with
    | none => exact h₂.spawned i t hi hm
    | some u =>
      -- spawned before, and since then woken at most
      have hu := h₁.spawned i u hm hn
      rcases h₂.slots i u hm with h | h
      · rw [hi] at h
        cases h
        exact hu
      · rw [hi] at h
        cases h
        exact hu.wakeGate
  offloader := h₂.offloader.trans h₁.offloader

/-- A task that ended stays so. -/
theorem Keeps.ended {w w' : World} {i : ℕ} (h : Keeps w w') (hi : w.tasks[i]? = some .ended) :
    w'.tasks[i]? = some .ended := (h.slots i _ hi).elim id id

/-- A piece of code that takes `w` to `w'`, and what it holds from `h` to `h'`, by moves and by
what it does to the loss counters. -/
structure Sims (ok : Label → Prop) (w : World) (h : Multiset Token) (w' : World)
    (h' : Multiset Token) : Prop where
  entries : (w.ledger h).Inv → Chain Entry ok (w.account h) (w'.account h')
  keeps : (w.ledger h).Inv → Keeps w w'

/-- The counters of `w'` are `losses`, but for one that no server reads. -/
def Forgets (losses : JobId → ℕ) (w' : World) (h' : Multiset Token) : Prop :=
  w'.losses = losses ∨ ∃ j n, w'.losses = Function.update losses j n ∧
    ((w'.ledger h').Inv → (w'.ledger h').Spent j n)

/-- The counter of a job that goes to a lane queue may be reset. -/
theorem Forgets.of_lane {losses : JobId → ℕ} {w' : World} {h' : Multiset Token} {j : JobId}
    (hl : w'.losses = losses ∨ w'.losses = Function.update losses j 0 ∧ j ∈ w'.fw.laneQueued) :
    Forgets losses w' h' :=
  hl.imp id fun ⟨hl, hq⟩ => ⟨j, 0, hl, fun hI => Ledger.spent_of_queued hI hq⟩

namespace Sims

variable {ok ok' : Label → Prop} {w w' w'' : World} {h h' h'' : Multiset Token}

theorem chain (hs : Sims ok w h w' h') (hI : (w.ledger h).Inv) :
    Chain Move ok (w.ledger h) (w'.ledger h') :=
  entries_moves (hs.entries hI)

theorem refl (w : World) (h : Multiset Token) : Sims ok w h w h :=
  ⟨fun _ => .refl _, fun _ => .of_eq rfl⟩

theorem inv (hs : Sims ok w h w' h') (hI : (w.ledger h).Inv) : (w'.ledger h').Inv :=
  hI.chainMove (hs.chain hI)

theorem trans (h₁ : Sims ok w h w' h') (h₂ : Sims ok w' h' w'' h'') : Sims ok w h w'' h'' where
  entries hI := (h₁.entries hI).trans (h₂.entries (h₁.inv hI))
  keeps hI := (h₁.keeps hI).trans (h₂.keeps (h₁.inv hI))

theorem mono (hs : Sims ok w h w' h') (hok : ∀ ℓ, ok ℓ → ok' ℓ) : Sims ok' w h w' h' :=
  ⟨fun hI => (hs.entries hI).mono hok, hs.keeps⟩

/-- Code that changes nothing in the ledger. -/
theorem of_eq (hl : w'.ledger h' = w.ledger h) (ht : w'.outer = w.outer) : Sims ok w h w' h' :=
  have hloss : w'.losses = w.losses := congrArg (·.2.2) ht
  ⟨fun _ => Chain.of_eq (congrArg₂ Account.mk hl hloss).symm, fun _ => .of_eq ht⟩

/-- Use the invariant where the code starts. -/
theorem of_inv (hs : (w.ledger h).Inv → Sims ok w h w' h') : Sims ok w h w' h' :=
  ⟨fun hI => (hs hI).entries hI, fun hI => (hs hI).keeps hI⟩

/-- One entry, and perhaps a counter that is written after it. -/
theorem entry {ℓ : Label} {r : JobId → ℕ} (hok : ok ℓ)
    (he : (w.ledger h).Inv → Entry ℓ (w.account h) ⟨w'.ledger h', r⟩) (hk : Keeps w w')
    (hf : Forgets r w' h') : Sims ok w h w' h' := by
  refine ⟨fun hI => ?_, fun _ => hk⟩
  have hentry : Chain Entry ok (w.account h) ⟨w'.ledger h', r⟩ := .one hok (he hI)
  refine hentry.trans ?_
  unfold World.account
  rcases hf with hl | ⟨j, n, hl, hs⟩ <;> rw [hl]
  exact .one hok (.forget (hs (hI.entry (he hI))))

/-- One move on the same tasks, and perhaps a counter that is written after it. -/
theorem forgets {ℓ : Label} (hok : ok ℓ) (hp : ℓ ≠ .pool)
    (hm : (w.ledger h).Inv → Move ℓ (w.ledger h) (w'.ledger h')) (hk : Keeps w w')
    (hf : Forgets w.losses w' h') : Sims ok w h w' h' :=
  entry hok (fun hI => .move (hm hI) hp) hk hf

/-- One move, on the same tasks. -/
theorem one {ℓ : Label} (hok : ok ℓ) (hp : ℓ ≠ .pool)
    (hm : (w.ledger h).Inv → Move ℓ (w.ledger h) (w'.ledger h')) (ht : w'.outer = w.outer) :
    Sims ok w h w' h' :=
  forgets hok hp hm (.of_eq ht) (.inl (congrArg (·.2.2) ht))

/-- One plain move, on the same tasks. -/
theorem plain (hm : (w.ledger h).Inv → Move .plain (w.ledger h) (w'.ledger h'))
    (ht : w'.outer = w.outer) : Sims Label.basic w h w' h' :=
  one (show Label.basic .plain from trivial) nofun hm ht

end Sims

namespace World

variable (w : World) (h : Multiset Token)

theorem ledger_tokens_cons (t : Token) :
    (w.ledger (t ::ₘ h)).tokens = t ::ₘ (taskTokens w.tasks + h) :=
  Multiset.add_cons ..

@[simp] theorem taskTokens_append (ts us : List Task) :
    taskTokens (ts ++ us) = taskTokens ts + taskTokens us := by
  simp [taskTokens]

@[simp] theorem taskTokens_cons (t : Task) (ts : List Task) :
    taskTokens (t :: ts) = t.tokens + taskTokens ts := by
  simp [taskTokens]

theorem taskTokens_set {ts : List Task} {i : ℕ} {t : Task} (hi : ts[i]? = some t) (t' : Task) :
    taskTokens (ts.set i t') + t.tokens = taskTokens ts + t'.tokens := by
  induction ts generalizing i with
  | nil => simp at hi
  | cons u ts ih =>
    cases i with
    | zero =>
      simp at hi; subst hi
      simp only [List.set_cons_zero, taskTokens_cons]
      rw [add_comm t'.tokens, add_assoc, add_comm t'.tokens, ← add_assoc, add_comm (taskTokens ts)]
    | succ i =>
      simp only [List.set_cons_succ, taskTokens_cons, add_assoc]
      rw [ih (by simpa using hi)]

@[simp] theorem wakeGate_tokens (t : Task) : t.wakeGate.tokens = t.tokens := by
  cases t <;> rfl

@[simp] theorem taskTokens_wakeGate (ts : List Task) :
    taskTokens (ts.map Task.wakeGate) = taskTokens ts := by
  simp [taskTokens, Function.comp_def]

@[simp] theorem ledger_emit (ev : Ev) : (w.emit ev).ledger h = (w.ledger h).emit ev := rfl

@[simp] theorem ledger_setGate : w.setGate.ledger h = w.ledger h := by
  unfold ledger setGate
  simp only [taskTokens_wakeGate]
  rfl

@[simp] theorem ledger_spawnTask (t : Task) :
    (w.spawnTask t).ledger h = w.ledger (t.tokens + h) := by
  simp [ledger, spawnTask, taskTokens, add_assoc]

@[simp] theorem ledger_setRenameLock (held : Bool) :
    (w.setRenameLock held).ledger h = w.ledger h := rfl

theorem setGate_sims {ok : Label → Prop} : Sims ok w h w.setGate h :=
  ⟨fun _ => Chain.of_eq (congrArg (Account.mk · w.losses) (ledger_setGate w h).symm),
    fun _ => ⟨fun i t hi => .inr (by simp [setGate, hi]),
      fun i t hi hn => by simp [setGate, hn] at hi, rfl⟩⟩

theorem spawnTask_keeps {t : Task} (ht : t.IsSpawned) : Keeps w (w.spawnTask t) where
  slots i u hi := by
    have hlt : i < w.tasks.length := (List.getElem?_eq_some_iff.1 hi).1
    exact .inl ((List.getElem?_append_left hlt).trans hi)
  spawned i u hi hn := by
    have hge : w.tasks.length ≤ i := List.getElem?_eq_none_iff.1 hn
    have hu : u ∈ [t] := by
      rw [spawnTask, List.getElem?_append_right hge] at hi
      exact List.mem_of_getElem? hi
    exact List.mem_singleton.1 hu ▸ ht
  offloader := rfl

theorem spawnTask_sims {ok : Label → Prop} {t : Task} (ht : t.IsSpawned) (hh : h = t.tokens + h') :
    Sims ok w h (w.spawnTask t) h' :=
  ⟨fun _ => Chain.of_eq (congrArg (Account.mk · w.losses) (by simp [hh])),
    fun _ => spawnTask_keeps w ht⟩

/-- Another await in a task's slot. -/
theorem ledger_setTask {w : World} {i : ℕ} {t : Task} (hi : w.tasks[i]? = some t) (t' : Task)
    (h : Multiset Token) : (w.setTask i t').ledger (t.tokens + h) = w.ledger (t'.tokens + h) := by
  have hset := taskTokens_set hi t'
  unfold ledger setTask
  simp only [Ledger.mk.injEq, true_and, and_true]
  rw [← add_assoc, ← add_assoc, hset]

/-- **A section runs in its task's slot.** -/
theorem runTask_entries {ok : Label → Prop} {i : ℕ} {section_ : World → Task → World × Task}
    (hs : ∀ t v, w.tasks[i]? = some t → v = w.setTask i .ended →
      Sims ok v (t.tokens + h) (section_ v t).1 ((section_ v t).2.tokens + h)) :
    (w.ledger h).Inv → Chain Entry ok (w.account h) ((w.runTask i section_).account h) := by
  intro hI
  unfold runTask
  cases hi : w.tasks[i]? with
  | none => exact .refl _
  | some t =>
    have hlt : i < w.tasks.length := by
      by_contra hge
      rw [List.getElem?_eq_none (by omega)] at hi; cases hi
    have hset : (w.setTask i .ended).ledger (t.tokens + h) = w.ledger h := by
      rw [ledger_setTask hi]; exact congrArg _ (zero_add h)
    have hsim := hs t _ hi rfl
    have hslot := (hsim.keeps (hset ▸ hI)).ended (i := i) (by simp [setTask, hlt])
    have hafter := ledger_setTask hslot (section_ (w.setTask i .ended) t).2 h
    have hc := hsim.entries (hset ▸ hI)
    unfold account at hc ⊢
    rw [hset, ← hafter] at hc
    rw [show Task.ended.tokens + h = h from zero_add h] at hc
    exact hc

end World

end DeviceBuilder
