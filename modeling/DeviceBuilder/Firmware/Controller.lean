import DeviceBuilder.Firmware.Lifecycle

/-!
# The commands

The firmware commands of `controllers/firmware/controller.py` (with `clean.py`,
`jobs.py`, `rename_flow.py`), and the two jobs that arrive over a peer link. A
command is a coroutine: `Command.start` runs it to its first await, and
`returnTo` continues a frame with what its await gave; `unwind` passes a result
down the stack.
-/

namespace DeviceBuilder

/-- The commands that reach the queue, after their boundary validation. -/
inductive Command
  | compile (configuration : Configuration) (forceLocal : Bool)
  | analyzeMemory (configuration : Configuration)
  | upload (configuration : Configuration) (port : String) (bootloader : Bool)
  | install (configuration : Configuration) (port : String) (forceLocal bootloader : Bool)
  | clean (configuration : Configuration)
  | resetBuildEnv
  | rename (configuration : Configuration) (newName : String)
  | cancel (j : JobId)
  | clear (status : Option JobStatus)
  | clearQueuedUpdate (configuration : Configuration)
  /-- `reset_peer_build_env`: reset a paired server's build environment. -/
  | resetPeerBuildEnv (pin : Pin)
  /-- A peer's `submit_job` of one of `TARGET_TO_JOB_TYPE`, and its `reset_build_env`. -/
  | peerSubmit (peer : String) (configuration : Configuration) (jobType : JobType)
      (skipBootloader : Bool)
  | peerReset (peer : String)
  deriving DecidableEq, Repr

/-- `TARGET_TO_JOB_TYPE`. -/
def peerJobTypes : List JobType := [.compile, .clean, .analyzeMemory]

namespace World

/-- `_disarm_all_queued_updates`. -/
def disarmAllQueuedUpdates (w : World) : World :=
  { w with devices := fun c => (w.devices c).map ({ · with queuedUpdate := false }) }

/-! ### `cancel` after its first await -/

/-- The end of `cancel`'s QUEUED branch: the revert, the cascade up, the build gate. -/
def cancelTail (w : World) (j : JobId) : World × Outcome :=
  let w := w.onJobTerminal j
  match w.fw.obj j with
  | none => (w.setGate, .returned)
  | some job =>
    let prereq := job.dependsOn.bind w.fw.find
    match prereq with
    | none => (w.setGate, .returned)
    | some p =>
      if job.isRenameTail && p.isActive then
        match w.cancelStart p.jobId (.tail j) with
        | (w', .suspended fs) => (w', .suspended (fs ++ [.cancelPrereq]))
        | (w', .returned) => (w'.setGate, .returned)
        | (w', .raised e) => (w', .raised e)
      else (w.setGate, .returned)

/-- `cancel` after its first persist. -/
def cancelMarked (w : World) (j : JobId) : World × Outcome :=
  let w := w.fireTerminal j
  let acted := w.actsOnDependents j
  let w := w.releaseDependents j
  if acted then ({ w with fw := w.fw.pruneHistory }, .suspended [.cancelReleased j])
  else w.cancelTail j

/-! ### The stages of `clean` -/

/-- The pairings `_fan_out_clean_to_connected_peers` sends a clean to. -/
def cleanSources (offloader : OffloaderState) : List JobBuildSource :=
  (offloader.pairings.filter (fun p => p.status = .approved && p.pin ∈ offloader.openPeerLinks)).map
    (buildSourceForPairing · offloader.esphomeVersion)

/-- The local job of `clean`. -/
def cleanLocalStart (w : World) (configuration : Configuration) : World × Outcome :=
  let job : FirmwareJob := { jobId := 0, configuration := configuration, jobType := .clean }
  match (w.createJob job).enqueue w.fw.fresh with
  | (w', .suspended fs) => (w', .suspended (fs ++ [.cleanLocal configuration]))
  | r => r

/-- One round of the fan-out. -/
def cleanFanOut (w : World) (configuration : Configuration) :
    List JobBuildSource → World × Outcome
  | [] => (w, .returned)
  | source :: rest =>
    let job : FirmwareJob := { jobId := 0, configuration := configuration, jobType := .clean }
    match (w.createJob (job.applyBuildSource source)).enqueue w.fw.fresh false with
    | (w', .suspended fs) => (w', .suspended (fs ++ [.cleanFanOut configuration rest]))
    | (w', .returned) => w'.cleanFanOut configuration rest
    | r => r

/-! ### The stages of `rename` -/

/-- `rename_chain` after the check that `new_path` exists, into `begin_rename`. -/
def renameChecked (w : World) (configuration : Configuration) (newName : String) (found : Bool) :
    World × Outcome :=
  if found && !w.activeChainOwnsTarget configuration newName then (w, .raised .invalidArgs)
  else (w, .suspended [.renameRead configuration newName none])

/-- The rest of `commit_chain` for a rename: place, supersede the new name's jobs, persist. -/
def renameCommitStart (w : World) (head tail : JobId) (newFilename : Configuration) :
    World × Outcome :=
  match w.commitPlaced [tail, head] (some newFilename) with
  | (w', .suspended fs) => (w', .suspended (fs ++ [.renameCommit]))
  | (w', .returned) => (w'.setRenameLock false, .returned)
  | (w', .raised e) => (w'.setRenameLock false, .raised e)

/-- A failed lock check or `stage`: the created jobs leave the table, the lock is released. -/
def renameRollBack (w : World) (head tail : JobId) (e : Err) : World × Outcome :=
  (((w.popJob tail).popJob head).setRenameLock false, .raised e)

/-- `begin_rename` once inside the lock: create the chain, check the lock, supersede the old
configuration's jobs. -/
def renameInLock (w : World) (configuration : Configuration) (newName : String) (content : Yaml)
    (port : String) (source : JobBuildSource) : World × Outcome :=
  let head := w.fw.fresh
  let tail := head + 1
  let compile : FirmwareJob :=
    { jobId := 0, configuration := newName ++ ".yaml", jobType := .compile, skipBootloader := true }
  let rename : FirmwareJob :=
    { jobId := 0, configuration := configuration, jobType := .rename, newName := newName,
      port := port, dependsOn := some head }
  let w := (w.setRenameLock true).emit (.submitted head false)
  let w := (w.createJob (compile.applyBuildSource source)).createJob rename
  match w.fw.obj tail with
  | none => (w, .returned)
  | some job =>
    if w.renameLocked job [head, tail] then w.renameRollBack head tail .invalidArgs
    else match w.supersedeActiveJobs configuration [head, tail] with
      | (w', .suspended fs) => (w', .suspended (fs ++ [.stageSupersede head tail content]))
      | (w', .returned) => (w', .suspended [.stagePersist head tail content])
      | (w', .raised e) => w'.renameRollBack head tail e

/-- `begin_rename` after the address is known: resolve the source, take the lock. -/
def renameResolved (w : World) (configuration : Configuration) (newName : String) (content : Yaml)
    (port : String) : World × Outcome :=
  match w.resolveInstallSource false .compile with
  | .error e => (w, .raised e)
  | .ok source =>
    if w.renameLockFree then w.renameInLock configuration newName content port source
    else (w, .suspended [.renameLock configuration newName content port source])

/-! ### Frames -/

/-- Continue a frame with what its await or its callee gave. -/
def returnTo (w : World) (r : Except Err Unit) : Frame → World × Outcome
  -- the persist of a cancel and the rename lock raise nothing here
  | .cancelMarked j => w.cancelMarked j
  | .renameLock configuration newName content port source =>
    w.renameInLock configuration newName content port source
  | .sweep rest cause =>
    match r with
    | .ok () => w.runSweep cause rest
    | .error e => if sweepSwallows cause e then w.runSweep cause rest else (w, .raised e)
  | .resetSweep j =>
    match r with
    | .ok () => w.enqueue j
    | .error e => (w.popJob j, .raised e)
  | .stageSupersede head tail content =>
    match r with
    | .ok () => (w, .suspended [.stagePersist head tail content])
    | .error e => w.renameRollBack head tail e
  | .stagePersist head tail content =>
    match r with
    | .ok () => (w, .suspended [.stageWrite head tail content false])
    | .error e => w.renameRollBack head tail e
  | .stageWrite head tail _ _ =>
    match r with
    | .ok () =>
      let newFilename := ((w.fw.obj tail).map (·.newFilename)).getD ""
      w.renameCommitStart head tail newFilename
    | .error e => w.renameRollBack head tail e
  | .renameCommit =>
    (w.setRenameLock false, match r with
      | .ok () => .returned
      | .error e => .raised e)
  | f =>
    match r with
    | .error e => (w, .raised e)
    | .ok () =>
      match f with
      | .cancelReleased j => w.cancelTail j
      | .cancelPrereq => (w.setGate, .returned)
      | .commitSupersede => (w, .suspended [.commitPersist])
      | .cleanValidate configuration => w.cleanLocalStart configuration
      | .cleanLocal configuration =>
        match w.offloader with
        | none => (w, .returned)
        | some offloader => w.cleanFanOut configuration (cleanSources offloader)
      | .cleanFanOut configuration rest => w.cleanFanOut configuration rest
      | .renameExists configuration newName (some found) =>
        w.renameChecked configuration newName found
      | .renameRead configuration newName (some (some content)) =>
        (w, .suspended [.renameAddress configuration newName content none])
      | .renameRead _ _ (some none) => (w, .raised .notFound)
      | .renameAddress configuration newName content (some address) =>
        w.renameResolved configuration newName content address
      | _ => (w, .returned)

/-- Pass a result down the stack of frames, up to the next await. -/
def unwind (w : World) (r : Except Err Unit) : List Frame → World × Outcome
  | [] => (w, match r with
    | .ok () => .returned
    | .error e => .raised e)
  | f :: fs =>
    match w.returnTo r f with
    | (w', .suspended gs) => (w', .suspended (gs ++ fs))
    | (w', .returned) => w'.unwind (.ok ()) fs
    | (w', .raised e) => w'.unwind (.error e) fs

/-- The file operation the top frame of a command waits for, run by the executor. -/
def frameIO (w : World) : Frame → World × Frame
  | .renameExists configuration newName none =>
    (w, .renameExists configuration newName (some (w.yamls (newName ++ ".yaml")).isSome))
  | .renameRead configuration newName none =>
    (w, .renameRead configuration newName (some (w.yamls configuration)))
  | .stageWrite head tail content false =>
    match w.fw.obj tail with
    | none => (w, .stageWrite head tail content true)
    | some job =>
      (w.writeYaml job.newFilename { content with name := job.newName },
        .stageWrite head tail content true)
  | f => (w, f)

/-- Is the await of a top frame over? -/
def frameReady (w : World) : Frame → Bool
  | .renameExists _ _ found => found.isSome
  | .renameRead _ _ content => content.isSome
  | .renameAddress _ _ _ address => address.isSome
  | .stageWrite _ _ _ written => written
  | .renameLock .. => !w.fw.renameFsLock
  | _ => true

/-- Where a command's task stands after it ran this far. -/
def commandTask (w : World) : Outcome → World × Task
  | .suspended fs => (w, .command fs)
  | .returned => (w, .ended)
  | .raised e => (w.emit (.commandError e), .ended)

/-- Resume a command whose top frame's await succeeded (`error := none`) or raised. -/
def resumeCommand (w : World) (frames : List Frame) (error : Option Err) : World × Task :=
  let (w', r) := w.unwind (match error with
    | none => .ok ()
    | some e => .error e) frames
  w'.commandTask r

/-- A command up to its first await, after its boundary validation. -/
def startFrames (w : World) : Command → World × Outcome
  | .compile configuration forceLocal => w.enqueueCompile configuration forceLocal .compile
  | .analyzeMemory configuration => w.enqueueCompile configuration false .analyzeMemory
  | .upload configuration port bootloader =>
    let job : FirmwareJob :=
      { jobId := 0, configuration := configuration, jobType := .upload, port := port,
        flashBootloader := bootloader }
    (w.createJob job).enqueue w.fw.fresh
  | .install configuration port forceLocal bootloader =>
    w.enqueueInstallOrDefer configuration port forceLocal bootloader
  | .clean configuration =>
    (w.setQueuedUpdate configuration false, .suspended [.cleanValidate configuration])
  | .resetBuildEnv =>
    let w := w.disarmAllQueuedUpdates
    let j := w.fw.fresh
    let w := w.createJob { jobId := 0, configuration := "", jobType := .resetBuildEnv }
    match w.cancelAllActiveJobs j with
    | (w', .suspended fs) => (w', .suspended (fs ++ [.resetSweep j]))
    | (w', .returned) => w'.enqueue j
    | (w', .raised e) => (w'.popJob j, .raised e)
  | .rename configuration newName =>
    if newName ++ ".yaml" = configuration then (w, .raised .invalidArgs)
    else (w, .suspended [.renameExists configuration newName none])
  | .cancel j => w.cancelStart j .user
  | .clear status => (w.clear status, .suspended [.clearPersist])
  | .clearQueuedUpdate configuration => (w.setQueuedUpdate configuration false, .returned)
  | .resetPeerBuildEnv pin =>
    match w.offloader with
    | none => (w, .raised .notFound)
    | some offloader =>
      match offloader.pairings.find? (·.pin = pin) with
      | none => (w, .raised .notFound)
      | some pairing =>
        let job : FirmwareJob := { jobId := 0, configuration := "", jobType := .resetBuildEnv }
        let source := buildSourceForPairing pairing offloader.esphomeVersion
        (w.createJob (job.applyBuildSource source)).enqueue w.fw.fresh false
  | .peerSubmit peer configuration jobType skipBootloader =>
    if jobType ∉ peerJobTypes then (w, .raised .invalidArgs)
    else
      let job : FirmwareJob :=
        { jobId := 0, configuration := configuration, jobType := jobType,
          skipBootloader := skipBootloader, remotePeer := peer }
      (w.createJob job).enqueue w.fw.fresh
  | .peerReset peer =>
    if w.fw.activeJobs ≠ [] then (w, .raised .invalidArgs)
    else
      let w := w.disarmAllQueuedUpdates
      let job : FirmwareJob :=
        { jobId := 0, configuration := "", jobType := .resetBuildEnv, remotePeer := peer }
      (w.createJob job).enqueue w.fw.fresh false

end World

end DeviceBuilder
