import DeviceBuilder.Firmware.RenameFlow

/-!
# Saving and loading the job list

`controllers/firmware/persistence.py`. A save takes its list of jobs under the
persist lock and writes their metadata later, in the executor; ephemeral jobs
never reach the disk. A load restores every row first and routes the active ones
afterwards, so that a prerequisite is found whatever the order on disk.
-/

namespace DeviceBuilder

namespace World

/-- `_persist_jobs_locked`: the snapshot of the jobs to save. -/
def saveBegin (w : World) : World :=
  { w with saving := some (w.fw.jobs.filter fun j =>
      ((w.fw.obj j).map (fun job => decide (job.jobType ∉ ephemeralJobTypes))).getD false) }

/-- `_save`: write the metadata of the snapshot's jobs. -/
def save (w : World) : World :=
  match w.saving with
  | none => w
  | some ids => { w with disk := ids.filterMap w.fw.obj, saving := none }

/-- `_restore_job_entry`. -/
def restoreJobEntry (fw : FirmwareState) (row : FirmwareJob) : FirmwareState :=
  { fw with
    obj := Function.update fw.obj row.jobId
      (some (if row.isActive then row.restoreForRequeue else row))
    jobs := KeyList.add fw.jobs row.jobId }

/-- `_restore_to_lane`: place an active restored job, hold it, or cancel it. -/
def restoreToLane (w : World) (j : JobId) : World :=
  match w.fw.obj j with
  | none => w
  | some job =>
    if w.fw.dependencySatisfied job || job.dependencyReleased then w.placeOnLane j
    else
      match job.dependsOn.bind w.fw.find with
      | some prereq =>
        if prereq.isActive then w
        else (w.modifyJob j (·.markTerminal .cancelled (some prerequisiteFailedError))).onJobTerminal
          j
      | none =>
        (w.modifyJob j (·.markTerminal .cancelled (some prerequisiteFailedError))).onJobTerminal j

/-- `load_jobs` on the rows of the disk, in any order. -/
def loadJobs (w : World) (rows : List FirmwareJob) : World :=
  let w := { w with fw := rows.foldl restoreJobEntry w.fw }
  ((rows.filter (·.isActive)).map (·.jobId)).foldl restoreToLane w

/-- What the upload lane runs at once (`MAX_CONCURRENT_UPLOADS` workers); the other lanes have one
worker. -/
def queueTasks (uploadWorkers : ℕ) : List Task :=
  .laneIdle .compile :: List.replicate uploadWorkers (.laneIdle .upload) ++
    [.laneIdle .threadUpload, .dispatchGrace]

/-- The dashboard starts: nothing of the old process is left but the files, the device and
offloader state are loaded anew, the job list comes from the disk. -/
def restart (w : World) (rows : List FirmwareJob) (devices : Configuration → Option Device)
    (offloader : Option OffloaderState) (uploadWorkers : ℕ) : World :=
  let fresh : World :=
    { fw := { fresh := w.fw.fresh }, devices := devices, offloader := offloader, yamls := w.yamls,
      disk := w.disk, clock := w.clock, past := w.past ++ w.log }
  let w := fresh.loadJobs rows
  { w with tasks := w.tasks ++ queueTasks uploadWorkers }

end World

end DeviceBuilder
