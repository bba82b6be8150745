import Mathlib.Logic.Function.Basic
import Mathlib.Data.List.Basic

/-!
# Version history

`controllers/version_history/controller.py`: the git history of the device configs. The
dashboard commits what it writes itself (`_commit_history` of the devices controller). An
edit made outside of it is reported by the scanner, queued, and committed by a debounced
task, which takes the whole queue and commits it file by file (`_flush_pending`). A restore
and the controller's stop flush the queue as well.

* `Flush`, `HistoryWorld.advance`: a run of `_flush_pending`, from one await to the next.
* `HistoryWorld.cancelFlush`: its cancellation. The git thread it awaits runs on.
* `Commit`: a `_commit_history` of the dashboard.
* `HistoryWorld.step`: these, the edits of others, the preference and the stop.

Git succeeds. The lock of `commit` is a guard: the step that takes it finds it free. `owed`
and `lost` record, of each file, whether an edit queued with auto-commit on still waits for
its commit, and whether the flush that had taken it was cancelled.
-/

namespace DeviceBuilder.VersionHistory

/-- Who runs `_flush_pending`. -/
inductive FlushOwner (F : Type)
  /-- `_flush_after_delay`. -/
  | task
  | restore (file : F)
  | stop
  deriving DecidableEq

/-- Where a flush is; `rest` is what it has still to commit of the queue it took. -/
inductive FlushPhase (F : Type)
  /-- The debounce window. -/
  | sleeping
  /-- The lock of `commit` is awaited. -/
  | waiting (file : F) (rest : List F)
  /-- The git thread runs. -/
  | running (file : F) (rest : List F)
  /-- Git has read the file; the flush is to resume. -/
  | landed (rest : List F)
  | done
  /-- Cancelled, or the restore it belongs to has written its file. -/
  | ended
  deriving DecidableEq

structure Flush (F : Type) where
  owner : FlushOwner F
  phase : FlushPhase F
  deriving DecidableEq

/-- What a flush has taken from the queue and not committed. -/
def FlushPhase.batch {F : Type} : FlushPhase F → List F
  | .waiting file rest => file :: rest
  | .running file rest => file :: rest
  | .landed rest => rest
  | _ => []

def FlushPhase.live {F : Type} : FlushPhase F → Bool
  | .done | .ended => false
  | _ => true

def FlushPhase.locking {F : Type} : FlushPhase F → Bool
  | .running _ _ | .landed _ => true
  | _ => false

inductive CommitPhase
  | waiting
  | running
  | landed
  | done
  deriving DecidableEq

/-- A `_commit_history`. -/
structure Commit (F : Type) where
  file : F
  phase : CommitPhase
  deriving DecidableEq

structure HistoryWorld (F C : Type) where
  files : F → Option C
  /-- The commits of a file, newest first; `none` is its removal. -/
  versions : F → List (Option C)
  /-- `_repo.enabled`. -/
  enabled : Bool
  /-- `_auto_commit_enabled`. -/
  autoCommit : Bool
  /-- The listeners of the scanner's events are attached. -/
  listening : Bool
  /-- `_activate`s under way. -/
  activating : ℕ := 0
  /-- `_pending`. -/
  pending : List F := []
  /-- `_flush_task`. -/
  flushTask : Option ℕ := none
  flushes : List (Flush F) := []
  commits : List (Commit F) := []
  /-- The git threads whose commit was cancelled. -/
  threads : List F := []
  /-- `stop` is before its flush. -/
  stopping : Bool := false
  owed : F → Bool := fun _ => false
  lost : F → Bool := fun _ => false

namespace HistoryWorld

variable {F C : Type} [DecidableEq F] [DecidableEq C] (w : HistoryWorld F C)

/-- `start`: opted in, it listens unless the config directory has no repository of its own. -/
def start (files : F → Option C) (versions : F → List (Option C)) (autoCommit enabled : Bool) : HistoryWorld F C :=
  { files, versions, enabled, autoCommit, listening := enabled && autoCommit }

/-- A file at the tip. -/
def recorded (file : F) : Option C := (w.versions file).headD none

/-- `commit_paths` on one file, in its thread: the file as it is on disk, if that is new. -/
def record (file : F) : HistoryWorld F C :=
  { w with
    versions :=
      if w.recorded file = w.files file then w.versions
      else Function.update w.versions file (w.files file :: w.versions file)
    owed := Function.update w.owed file false }

/-- `discard_pending`. -/
def discardPending (file : F) : HistoryWorld F C :=
  { w with pending := w.pending.filter (· ≠ file), owed := Function.update w.owed file false }

/-- `commit` goes to the lock and to git. -/
def committing : Bool := w.enabled && w.autoCommit

/-- The lock of `commit` is free. -/
def lockFree : Bool :=
  w.flushes.all (fun x => !x.phase.locking) && w.commits.all fun c => c.phase ≠ .running ∧ c.phase ≠ .landed

def setPhase (i : ℕ) (phase : FlushPhase F) : HistoryWorld F C :=
  { w with flushes := w.flushes.modify i fun x => { x with phase } }

/-- `_flush_pending` after an entry, up to its next await: the next of its batch, else the queue again. -/
def advance (i : ℕ) (rest : List F) : HistoryWorld F C :=
  if w.committing then
    match rest with
    | file :: rest => w.setPhase i (.waiting file rest)
    | [] =>
      match w.pending with
      | file :: rest => { w with pending := [] }.setPhase i (.waiting file rest)
      | [] => w.setPhase i .done
  -- every `commit` returns at once, without an await
  else { w with pending := [] }.setPhase i .done

/-- `_flush_pending`, called by a restore or by `stop`. -/
def startFlush (owner : FlushOwner F) : HistoryWorld F C :=
  let x : Flush F := { owner, phase := .done }
  { w with flushes := w.flushes ++ [x] }.advance w.flushes.length []

def flushRunning : Bool :=
  match w.flushTask with
  | none => false
  | some i => (w.flushes[i]?).any (·.phase.live)

/-- `_on_disk_change`. -/
def onDiskChange (file : F) : HistoryWorld F C :=
  if w.listening then
    let w₁ : HistoryWorld F C :=
      { w with
        pending := if file ∈ w.pending then w.pending else w.pending ++ [file]
        owed := Function.update w.owed file (w.owed file || w.autoCommit)
        lost := Function.update w.lost file false }
    if w.flushRunning then w₁
    else
      { w₁ with
        flushes := w.flushes ++ [{ owner := .task, phase := .sleeping }]
        flushTask := some w.flushes.length }
  else w

/-- The cancellation of a flush, wherever it is. -/
def cancelFlush (i : ℕ) : HistoryWorld F C :=
  match w.flushes[i]? with
  | none => w
  | some x =>
    { w with
      threads := match x.phase with
        | .running file _ => w.threads ++ [file]
        | _ => w.threads
      lost := fun file => w.lost file || decide (file ∈ x.phase.batch) }.setPhase i .ended

/-- `_teardown`. -/
def teardown : HistoryWorld F C :=
  let w₁ := { w with listening := false, flushTask := none }
  match w.flushTask with
  | none => w₁
  | some i => w₁.cancelFlush i

/-- `set_auto_commit` on; the repository is found or made, and the listeners attached, after an await. -/
def enable : HistoryWorld F C :=
  if w.autoCommit then w else { w with autoCommit := true, activating := w.activating + 1 }

def activated : HistoryWorld F C :=
  if 0 < w.activating then { w with activating := w.activating - 1, enabled := true, listening := true } else w

/-- `set_auto_commit` off: what is queued is dropped. -/
def disable : HistoryWorld F C :=
  if w.autoCommit then { w with autoCommit := false, pending := [], owed := fun _ => false }.teardown else w

/-- `stop`, up to the end of its teardown. -/
def stop : HistoryWorld F C :=
  if w.stopping then w else { w with stopping := true }.teardown

def stopFlush : HistoryWorld F C :=
  if w.stopping then { w with stopping := false }.startFlush .stop else w

/-- The debounce window is over. -/
def wake (i : ℕ) : HistoryWorld F C :=
  match w.flushes[i]? with
  | some ⟨_, .sleeping⟩ => w.advance i []
  | _ => w

def acquireFlush (i : ℕ) : HistoryWorld F C :=
  match w.flushes[i]? with
  | some ⟨_, .waiting file rest⟩ => if w.lockFree then w.setPhase i (.running file rest) else w
  | _ => w

def landFlush (i : ℕ) : HistoryWorld F C :=
  match w.flushes[i]? with
  | some ⟨_, .running file rest⟩ => (w.record file).setPhase i (.landed rest)
  | _ => w

def resumeFlush (i : ℕ) : HistoryWorld F C :=
  match w.flushes[i]? with
  | some ⟨_, .landed rest⟩ => w.advance i rest
  | _ => w

/-- A dashboard save, or a removal by archive or delete, and its `_commit_history` up to the first await. -/
def save (file : F) (content : Option C) : HistoryWorld F C :=
  let w₁ := { w with files := Function.update w.files file content }
  if w.committing then { w₁ with commits := w.commits ++ [{ file, phase := .waiting }] } else w₁.discardPending file

def setCommit (i : ℕ) (c : Commit F) (phase : CommitPhase) : HistoryWorld F C :=
  { w with commits := w.commits.set i { c with phase } }

/-- A `_commit_history`, from one await to the next; its entry of the queue is discarded at its end. -/
def advanceCommit (i : ℕ) : HistoryWorld F C :=
  match w.commits[i]? with
  | none => w
  | some c =>
    match c.phase with
    | .waiting => if w.lockFree then w.setCommit i c .running else w
    | .running => (w.record c.file).setCommit i c .landed
    | .landed => (w.discardPending c.file).setCommit i c .done
    | .done => w

/-- The command that runs a `_commit_history` is cancelled. -/
def cancelCommit (i : ℕ) : HistoryWorld F C :=
  match w.commits[i]? with
  | none => w
  | some c =>
    let threads := if c.phase = .running then w.threads ++ [c.file] else w.threads
    { w with threads }.setCommit i c .done

/-- A git thread that nothing awaits reads its file. -/
def landThread (i : ℕ) : HistoryWorld F C :=
  match w.threads[i]? with
  | none => w
  | some file => { w.record file with threads := w.threads.eraseIdx i }

/-- `restore`, up to the first await of its flush. -/
def restore (file : F) : HistoryWorld F C :=
  if w.enabled then w.startFlush (.restore file) else w

/-- `restore` after its flush: the content of the chosen revision is written as a save. -/
def restored (i : ℕ) (content : C) : HistoryWorld F C :=
  match w.flushes[i]? with
  | some ⟨.restore file, .done⟩ => (w.setPhase i .ended).save file (some content)
  | _ => w

def cancelRestore (i : ℕ) : HistoryWorld F C :=
  match w.flushes[i]? with
  | some ⟨.restore _, _⟩ => w.cancelFlush i
  | _ => w

end HistoryWorld

/-- What happens next. -/
inductive HistoryAction (F C : Type)
  /-- An edit made outside of the dashboard. -/
  | edit (file : F) (content : Option C)
  /-- The scanner reports it. -/
  | onDiskChange (file : F)
  | wake (flush : ℕ)
  | acquireFlush (flush : ℕ)
  | landFlush (flush : ℕ)
  | resumeFlush (flush : ℕ)
  | save (file : F) (content : Option C)
  | advanceCommit (commit : ℕ)
  | cancelCommit (commit : ℕ)
  | landThread (thread : ℕ)
  | discardPending (file : F)
  | restore (file : F)
  | restored (flush : ℕ) (content : C)
  | cancelRestore (flush : ℕ)
  | enable
  | activated
  | disable
  | stop
  | stopFlush
  deriving DecidableEq

def HistoryWorld.step {F C : Type} [DecidableEq F] [DecidableEq C] (w : HistoryWorld F C) :
    HistoryAction F C → HistoryWorld F C
  | .edit file content => { w with files := Function.update w.files file content }
  | .onDiskChange file => w.onDiskChange file
  | .wake i => w.wake i
  | .acquireFlush i => w.acquireFlush i
  | .landFlush i => w.landFlush i
  | .resumeFlush i => w.resumeFlush i
  | .save file content => w.save file content
  | .advanceCommit i => w.advanceCommit i
  | .cancelCommit i => w.cancelCommit i
  | .landThread i => w.landThread i
  | .discardPending file => w.discardPending file
  | .restore file => w.restore file
  | .restored i content => w.restored i content
  | .cancelRestore i => w.cancelRestore i
  | .enable => w.enable
  | .activated => w.activated
  | .disable => w.disable
  | .stop => w.stop
  | .stopFlush => w.stopFlush

end DeviceBuilder.VersionHistory
