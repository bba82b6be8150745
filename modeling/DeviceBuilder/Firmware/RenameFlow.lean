import DeviceBuilder.Firmware.Factories

/-!
# Renames: the revert

The part of `controllers/firmware/rename_flow.py` that finalisation calls: a
rename tail that ends without completing schedules a task that removes the new
YAML, unless a newer chain owns it. The task is eager: it runs to its first
suspension at once.
-/

namespace DeviceBuilder

/-- A task waits for `rename_fs_lock`. -/
def Task.awaitsRenameLock : Task → Bool
  | .revertLock _ => true
  | .command (.renameLock .. :: _) => true
  | _ => false

namespace World

/-- Whether `async with rename_fs_lock` goes straight in. -/
def renameLockFree (w : World) : Bool :=
  !w.fw.renameFsLock && !w.tasks.any Task.awaitsRenameLock

def setRenameLock (w : World) (held : Bool) : World :=
  { w with fw := { w.fw with renameFsLock := held } }

/-- `active_chain_owns_target`. -/
def activeChainOwnsTarget (w : World) (configuration : Configuration) (newName : String) : Bool :=
  w.fw.activeJobs.any fun job =>
    job.isRenameTail && job.configuration = configuration && job.newName = newName

/-- The loop of `revert_rename`: another active tail targets `newName`. -/
def newerChainOwns (w : World) (j : JobId) (newName : String) : Bool :=
  w.fw.activeJobs.any fun other =>
    other.jobId ≠ j && other.isRenameTail && other.newName = newName

/-- `revert_rename` from the lock to the removal. -/
def revertLocked (w : World) (j : JobId) : World × Task :=
  match w.fw.obj j with
  | none => (w, .ended)
  | some job =>
    if w.newerChainOwns j job.newName then (w, .ended)
    else (w.setRenameLock true, .revertRemove j false)

/-- The eager start of `revert_rename`. -/
def startRevert (w : World) (j : JobId) : World :=
  if w.renameLockFree then
    let (w', t) := w.revertLocked j
    w'.spawnTask t
  else w.spawnTask (.revertLock j)

/-- `on_job_terminal`. -/
def onJobTerminal (w : World) (j : JobId) : World :=
  match w.fw.obj j with
  | none => w
  | some job =>
    if job.isRenameTail && job.status ≠ .completed then w.startRevert j else w

/-- `remove_device_files` of a configuration: its YAML goes. -/
def removeDeviceFiles (w : World) (configuration : Configuration) : World :=
  { w with yamls := Function.update w.yamls configuration none }

/-- The atomic write of a YAML. -/
def writeYaml (w : World) (configuration : Configuration) (content : Yaml) : World :=
  { w with yamls := Function.update w.yamls configuration (some content) }

end World

end DeviceBuilder
