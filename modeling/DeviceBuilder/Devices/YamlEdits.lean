import Mathlib.Logic.Function.Basic
import Mathlib.Data.List.Basic

/-!
# The commands that edit a device's YAML

Each command reads the text in one executor job and writes in another.
`rewrite_yaml` (`controllers/devices/controller.py`) reads, rewrites and writes under the
file's write lock; `persist_if_unchanged` (`devices/helpers.py`) goes through it with the
text the edit was computed from; `_config_only_rename` (`devices/mutations_simple.py`)
checks and lands under the locks of both names. A command is a task that is advanced from
one await to the next, and the tasks interleave in any order.

* `EditCommand`: the commands, by the way they write.
* `EditPhase`: what a task has behind it.
* `EditWorld.advance`: a task taken to its next await.
* `Landed`, `replayEdits`: a write as the log has it, and the files that a log of writes makes.

The text is what `read_text` decodes. A device file only: `rewrite_yaml` refuses
`secrets.yaml`. The unlink of a renamed file is taken not to fail after its new file is
published.
-/

namespace DeviceBuilder.Devices

/-- `text.rstrip("\n")`, reversed. -/
def rstripNewlines (text : String) : List Char := text.toList.reverse.dropWhile (· = '\n')

/-- `same_text`. -/
def sameText (current expected : String) : Bool := rstripNewlines current = rstripNewlines expected

/-- `not text.strip()`. -/
def blank (text : String) : Bool := text.toList.all (·.isWhitespace)

/-- What a command makes of the text it read. -/
inductive Edited
  | refused
  /-- The edit is the text itself; nothing is saved. -/
  | unchanged
  | text (new : String)
  deriving DecidableEq

/-- The editing commands. -/
inductive EditCommand (File : Type)
  /-- `add_component`, `edit_friendly_name`, a settle of `set_encryption_key`: read, edit, `persist_if_unchanged`. -/
  | edit (file : File) (edit : String → Edited)
  /-- An automation's `rewrite_yaml`. -/
  | automation (file : File) (render : String → Edited)
  /-- `update_config` with `expected`. -/
  | updateConfig (file : File) (content expected : String)
  /-- `rename_device` with `config_only`, or in place when both names are one. -/
  | configOnlyRename (old new : File) (edit : String → Edited)

/-- The edit of a command that reads its file before it takes a lock. -/
def EditCommand.edited {File : Type} : EditCommand File → String → Edited
  | .edit _ make => make
  | .configOnlyRename _ _ make => make
  | .automation _ _ | .updateConfig _ _ _ => fun _ => .refused

/-- Does the command commit nothing itself? -/
def EditCommand.isRename {File : Type} : EditCommand File → Bool
  | .configOnlyRename _ _ _ => true
  | .edit _ _ | .automation _ _ | .updateConfig _ _ _ => false

/-- How the version-history commit of a save came out. -/
inductive Commit
  | recorded
  /-- History is off, or its commits are. -/
  | off
  /-- A git error, which is swallowed. -/
  | failed
  deriving DecidableEq

inductive EditOutcome
  | saved (commit : Commit)
  /-- A rename, which commits nothing itself. -/
  | renamed
  | unchanged
  | refused
  | failed
  deriving DecidableEq

/-- What a command writes under the lock: the file it checks, the file it lands on, and what it makes of the text. -/
structure Write (File : Type) where
  source : File
  target : File
  /-- The text the edit was computed from; an automation computes it from the text it finds. -/
  basis : Option String
  make : String → Edited
  /-- `_rewrite` refuses to empty a file. -/
  refusesBlank : Bool := true

/-- A write that landed: the text it replaced and the text its edit was computed from. -/
structure Landed (File : Type) where
  task : ℕ
  source : File
  target : File
  before : String
  basis : String
  content : String
  deriving DecidableEq

/-- What a task has behind it. -/
inductive EditPhase (File : Type)
  | called
  | read (text : String)
  /-- The locks still to take. -/
  | waiting (write : Write File) (locks : List File)
  /-- The write landed; the lock is held. -/
  | written (landed : Landed File)
  | done (outcome : EditOutcome)

structure EditTask (File : Type) where
  command : EditCommand File
  phase : EditPhase File := .called

/-- What an await comes back with. -/
structure Reply where
  /-- Does the validator accept the edited text? -/
  valid : Bool := true
  /-- Does the write reach the disk? -/
  written : Bool := true
  commit : Commit := .recorded
  deriving DecidableEq

structure EditWorld (File : Type) where
  files : File → Option String
  /-- `_yaml_write_locks`: the task that holds a file's lock. -/
  locks : File → Option ℕ := fun _ => none
  tasks : List (EditTask File) := []
  /-- The commits of the version history, oldest first. -/
  history : List (File × String) := []
  /-- The writes that landed, oldest first. -/
  log : List (Landed File) := []

variable {File : Type} [DecidableEq File]

/-- The locks a write takes, in a stable order. -/
def Write.locks (write : Write File) : List File :=
  if write.source = write.target then [write.source] else [write.source, write.target]

/-- The write of a command once the edit is computed from the text `basis`, or when there is none to read. -/
def EditCommand.write : EditCommand File → Option String → Write File
  | .edit file make, basis => { source := file, target := file, basis, make }
  | .automation file render, _ => { source := file, target := file, basis := none, make := render }
  | .updateConfig file content expected, _ =>
    { source := file, target := file, basis := some expected, make := fun _ => .text content }
  | .configOnlyRename old new make, basis =>
    { source := old, target := new, basis, make, refusesBlank := false }

/-- One landed write over the files: it checks its basis against the text it replaces. -/
def Landed.apply (files : File → Option String) (e : Landed File) : Option (File → Option String) :=
  if files e.source = some e.before ∧ sameText e.before e.basis ∧
      (e.target ≠ e.source → files e.target = none) then
    some (Function.update (Function.update files e.source none) e.target (some e.content))
  else none

/-- The files that a log of writes makes, when each of them finds its basis. -/
def replayEdits (files : File → Option String) (log : List (Landed File)) : Option (File → Option String) :=
  log.foldlM Landed.apply files

namespace EditWorld

variable (w : EditWorld File) (i : ℕ)

def setPhase (phase : EditPhase File) : EditWorld File :=
  { w with tasks := w.tasks.modify i (fun t => { t with phase }) }

/-- The end of a task: its locks are released. -/
def finish (outcome : EditOutcome) : EditWorld File :=
  { w.setPhase i (.done outcome) with
    locks := fun f => if w.locks f = some i then none else w.locks f }

/-- The executor job under the lock: `_rewrite`, or `_land` of a rename. -/
def runWrite (write : Write File) (reply : Reply) : EditWorld File :=
  match w.files write.source with
  | none => w.finish i .refused
  | some current =>
    let basis := write.basis.getD current
    if !sameText current basis then w.finish i .refused
    else
      match write.make basis with
      | .text content =>
        if write.refusesBlank && blank content then w.finish i .refused
        else if write.target ≠ write.source ∧ (w.files write.target).isSome then w.finish i .refused
        else if !reply.written then w.finish i .failed
        else
          let e : Landed File :=
            { task := i, source := write.source, target := write.target, before := current, basis, content }
          { w.setPhase i (.written e) with
            files := Function.update (Function.update w.files write.source none) write.target (some content)
            log := w.log ++ [e] }
      | _ => w.finish i .refused

/-- `commit_paths` stages what is on disk; a text that is the head's already makes no commit. -/
def commitFile (file : File) : EditWorld File :=
  match w.files file with
  | some text =>
    if (w.history.filter (·.1 = file)).getLast? = some (file, text) then w
    else { w with history := w.history ++ [(file, text)] }
  | none => w

/-- `_commit_history` and the end of the command. -/
def commitHistory (e : Landed File) (reply : Reply) : EditWorld File :=
  match reply.commit with
  | .recorded => (w.commitFile e.target).finish i (.saved .recorded)
  | commit => w.finish i (.saved commit)

/-- A command up to its first lock or its first read; `none` when it raises. -/
def start : EditCommand File → Option (EditPhase File)
  | .edit file _ => (w.files file).map .read
  | .automation file render =>
    let write := (EditCommand.automation file render).write none
    some (.waiting write write.locks)
  | .updateConfig file content expected =>
    let write := (EditCommand.updateConfig file content expected).write none
    if blank content then none else some (.waiting write write.locks)
  | .configOnlyRename old new _ =>
    if new ≠ old ∧ (w.files new).isSome then none else (w.files old).map .read

/-- A task taken to its next await. -/
def advance (reply : Reply) : EditWorld File :=
  match w.tasks[i]? with
  | none => w
  | some t =>
    match t.phase with
    | .called =>
      match w.start t.command with
      | some phase => w.setPhase i phase
      | none => w.finish i .refused
    | .read text =>
      match t.command.edited text with
      | .refused => w.finish i .refused
      | .unchanged => w.finish i .unchanged
      | .text _ =>
        let write := t.command.write (some text)
        if reply.valid then w.setPhase i (.waiting write write.locks) else w.finish i .refused
    | .waiting write [] => w.runWrite i write reply
    | .waiting write (f :: locks) =>
      if w.locks f = none then
        { w.setPhase i (.waiting write locks) with locks := Function.update w.locks f (some i) }
      else w
    | .written e => if t.command.isRename then w.finish i .renamed else w.commitHistory i e reply
    | .done _ => w

end EditWorld

/-- What happens next. -/
inductive EditAction (File : Type)
  | call (command : EditCommand File)
  | advance (task : ℕ) (reply : Reply)
  /-- The version history's catch-all commits the file as it is. -/
  | flush (file : File)

def EditWorld.step (w : EditWorld File) : EditAction File → EditWorld File
  | .call command => { w with tasks := w.tasks ++ [{ command }] }
  | .advance i reply => w.advance i reply
  | .flush file => w.commitFile file

end DeviceBuilder.Devices
