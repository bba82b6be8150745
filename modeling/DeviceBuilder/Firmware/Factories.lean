import DeviceBuilder.Firmware.Jobs

/-!
# Creating and committing jobs

`controllers/firmware/factories.py`: a job is created in the table first, then
committed: the rename lock is checked, the job is placed and announced, its
predecessors are cancelled, the table is persisted.
-/

namespace DeviceBuilder

/-- `_is_ota_app_flash`: an OTA flash of the app image, not of the bootloader. -/
def isOtaAppFlash (port : String) (flashBootloader : Bool) : Bool :=
  port = otaPort && !flashBootloader

/-- `_names_touched_by_job`: the YAML files a job reads or writes. -/
def namesTouchedByJob (job : FirmwareJob) : List Configuration :=
  (if job.configuration = "" then [] else [job.configuration]) ++
    (if job.jobType = .rename ∧ job.newName ≠ "" then [job.newFilename] else [])

namespace World

/-- `create_job`: the new job's id is `w.fw.fresh`; `job` gives its other fields. -/
def createJob (w : World) (job : FirmwareJob) : World :=
  let job := { job with jobId := w.fw.fresh, createdAt := w.clock }
  { w with
    fw := { w.fw with
      obj := Function.update w.fw.obj w.fw.fresh (some job)
      jobs := w.fw.jobs ++ [w.fw.fresh]
      fresh := w.fw.fresh + 1 } }

/-- `state.jobs.pop(j, None)`. -/
def popJob (w : World) (j : JobId) : World :=
  { w with fw := { w.fw with jobs := KeyList.drop w.fw.jobs j } }

/-- `resolve_install_source`: whether a compile builds here or is pending on a server. -/
def resolveInstallSource (w : World) (forceLocal : Bool) (jobType : JobType) :
    Except Err JobBuildSource :=
  if forceLocal then .ok localJobBuildSource
  else match w.offloader with
    | none => .ok localJobBuildSource
    | some offloader =>
      match pickBuildPath (inputsForJobType offloader.snapshot jobType) with
      | .error message => .error (.noCompatiblePeer message)
      | .ok decision =>
        .ok (if decision.path = .remote then remotePendingJobBuildSource else localJobBuildSource)

/-- `check_rename_lock`: does an active rename hold a name that `job` touches? -/
def renameLocked (w : World) (job : FirmwareJob) (exclude : List JobId) : Bool :=
  w.fw.activeJobs.any fun active =>
    active.jobId ∉ exclude && active.jobType = .rename &&
      !(job.jobType = .rename && job.configuration = active.configuration) &&
      (namesTouchedByJob job).any (· ∈ namesTouchedByJob active)

/-- `_place_and_announce`. -/
def placeAndAnnounce (w : World) (j : JobId) : World :=
  match w.fw.obj j with
  | none => w
  | some job =>
    let w := if w.fw.dependencySatisfied job then w.placeOnLane j else w
    match w.fw.obj j with
    | none => w
    | some job => w.emit (.jobQueued job)

/-- `commit_chain` after its lock check and `stage`: place the jobs (dependent first), supersede
the others of `supersede`, persist. -/
def commitPlaced (w : World) (jobs : List JobId) (supersede : Option Configuration) :
    World × Outcome :=
  let w := jobs.foldl placeAndAnnounce w
  match supersede with
  | none | some "" => (w, .suspended [.commitPersist])
  | some configuration =>
    match w.supersedeActiveJobs configuration jobs with
    | (w', .suspended fs) => (w', .suspended (fs ++ [.commitSupersede]))
    | (w', .returned) => (w', .suspended [.commitPersist])
    | (w', .raised e) => (w', .raised e)

/-- `commit_chain` without a `stage`; `jobs` is the head after its dependent, if it has one. -/
def commitChain (w : World) (head : JobId) (dependent : Option JobId)
    (supersede : Option Configuration) : World × Outcome :=
  let jobs := dependent.toList ++ [head]
  match w.fw.obj head with
  | none => (w, .returned)
  | some job =>
    if w.renameLocked job [] then (jobs.foldl popJob w, .raised .invalidArgs)
    else w.commitPlaced jobs supersede

/-- `enqueue`. -/
def enqueue (w : World) (j : JobId) (supersede : Bool := true) : World × Outcome :=
  match w.fw.obj j with
  | none => (w, .returned)
  | some job => w.commitChain j none (if supersede then some job.configuration else none)

/-- `enqueue_install_chain`: a compile and the upload that depends on it. -/
def enqueueInstallChain (w : World) (configuration : Configuration) (port : String)
    (source : JobBuildSource) (flashBootloader : Bool) : World × Outcome :=
  let head := w.fw.fresh
  let compile : FirmwareJob :=
    { jobId := 0, configuration := configuration, jobType := .compile,
      skipBootloader := isOtaAppFlash port flashBootloader }
  let upload : FirmwareJob :=
    { jobId := 0, configuration := configuration, jobType := .upload, port := port,
      flashBootloader := flashBootloader, dependsOn := some head }
  let w := (w.createJob (compile.applyBuildSource source)).createJob upload
  w.commitChain head (some (head + 1)) (some configuration)

/-- The log entry of a compile submitted to the build scheduler. -/
def submit (w : World) (forceLocal : Bool) : World := w.emit (.submitted w.fw.fresh forceLocal)

/-- `enqueue_install_or_defer`. -/
def enqueueInstallOrDefer (w : World) (configuration : Configuration) (port : String)
    (forceLocal flashBootloader : Bool) : World × Outcome :=
  let offline := w.targetIsOffline configuration
  if offline && flashBootloader then (w, .raised .invalidArgs)
  else match w.resolveInstallSource forceLocal .compile with
    | .error e => (w, .raised e)
    | .ok source =>
      let w := w.submit forceLocal
      if offline && port = otaPort then
        let job : FirmwareJob :=
          { jobId := 0, configuration := configuration, jobType := .compile,
            skipBootloader := true, isDeferredInstall := true }
        (w.createJob (job.applyBuildSource source)).enqueue w.fw.fresh
      else w.enqueueInstallChain configuration port source flashBootloader

/-- `enqueue_compile`. -/
def enqueueCompile (w : World) (configuration : Configuration) (forceLocal : Bool)
    (jobType : JobType) : World × Outcome :=
  match w.resolveInstallSource forceLocal jobType with
  | .error e => (w, .raised e)
  | .ok source =>
    let w := w.submit forceLocal
    let job : FirmwareJob := { jobId := 0, configuration := configuration, jobType := jobType }
    (w.createJob (job.applyBuildSource source)).enqueue w.fw.fresh

end World

end DeviceBuilder
