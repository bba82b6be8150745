import DeviceBuilder.Properties.Pool
import DeviceBuilder.Queue.Tabled

/-!
# Chains of a build and a flash

A job that depends on another is placed and started only after that one was
built, through any number of restarts. If the prerequisite does not succeed, the
job is cancelled, unless a `clear` took it off the table.

* `FollowsBuild`: what the log says.
* `Ledger.Linked`, `Ledger.Chained`: the invariant of the objects and of the disk.
* `Ledger.Answered`: a job of the table hears how its prerequisite ended.
* `flash_follows_build`: every run.
-/

namespace DeviceBuilder

open Runs Ledger

variable {c c' : Ledger} {ℓ : Label} {w : World} {j k p d : JobId} {job a b : FirmwareJob}
  {log log' : List Ev} {ev : Ev} {get get' : JobId → Option FirmwareJob}

/-- The job completed and was not left to a later flash. -/
def FirmwareJob.Built (job : FirmwareJob) : Prop :=
  job.status = .completed ∧ job.isDeferredInstall = false

/-- The log says that `p` was built. -/
def BuiltIn (log : List Ev) (p : JobId) : Prop :=
  ∃ job, .jobTerminal job ∈ log ∧ job.jobId = p ∧ job.Built

/-- The job that must be built before the event. -/
def Ev.needs : Ev → Option JobId
  | .placed _ dep => dep
  | .jobStarted job => job.dependsOn
  | _ => none

/-- **Every job was placed and started after its prerequisite was built.** -/
def FollowsBuild (log : List Ev) : Prop :=
  ∀ past ev future p, log = past ++ ev :: future → ev.needs = some p → BuiltIn past p

theorem BuiltIn.mono (h : BuiltIn log p) (hsub : ∀ ev ∈ log, ev ∈ log') : BuiltIn log' p := by
  obtain ⟨job, hmem, hid, hb⟩ := h
  exact ⟨job, hsub _ hmem, hid, hb⟩

theorem FollowsBuild.concat (h : FollowsBuild log) (hev : ∀ p, ev.needs = some p → BuiltIn log p) :
    FollowsBuild (log ++ [ev]) := by
  intro past e future p he hp
  rcases List.eq_nil_or_concat future with rfl | ⟨future, x, rfl⟩
  · obtain ⟨h1, h2⟩ := List.append_inj' he rfl
    rw [← h1]
    rw [← List.singleton_inj.1 h2] at hp
    exact hev p hp
  · rw [List.concat_eq_append, ← List.cons_append, ← List.append_assoc] at he
    obtain ⟨rfl, -⟩ := List.append_inj' he rfl
    exact h past e future p rfl hp

/-! ### What a move does to an object -/

/-- `b` is `a` while its run goes on, or after it ended. -/
structure FirmwareJob.GoesOn (a b : FirmwareJob) : Prop where
  status : b.status = a.status ∨ a.isActive = true ∧ b.isActive = true
  deferred : b.isDeferredInstall = a.isDeferredInstall
  released : a.dependencyReleased = true → b.dependencyReleased = true

/-- The move ends `j`, which was `a`, as `b`. -/
structure Ledger.Ends (c c' : Ledger) (j : JobId) (a b : FirmwareJob) : Prop where
  ended : b.isActive = false
  active : a.isActive = true ∨ b.status = .cancelled
  released : b.dependencyReleased = a.dependencyReleased
  defers : b.isDeferredInstall = true → b.status = .completed →
    a.isDeferredInstall = true ∨ c.dependents j ≠ []
  logged : b.status = .completed → .jobTerminal b ∈ c'.log
  owes : b.status = .cancelled ∧ .fire j ∈ c'.tokens ∨ ∀ d ∈ c.dependents j, .owed d ∈ c'.tokens

theorem FirmwareJob.GoesOn.refl (a : FirmwareJob) : a.GoesOn a := ⟨.inl rfl, rfl, id⟩

theorem not_built (h : a.status ≠ .completed) : ¬ a.Built := fun hb => h hb.1

theorem not_built_of_active (ha : a.isActive = true) : ¬ a.Built := by
  rintro ⟨hs, -⟩
  simp [FirmwareJob.isActive, hs, JobStatus.isTerminal] at ha

theorem FirmwareJob.GoesOn.active (h : a.GoesOn b) : b.isActive = a.isActive := by
  rcases h.status with hs | ⟨h1, h2⟩
  · exact isActive_congr hs
  · rw [h1, h2]

theorem FirmwareJob.GoesOn.built (h : a.GoesOn b) : b.Built ↔ a.Built := by
  rcases h.status with hs | ⟨h1, h2⟩
  · unfold FirmwareJob.Built
    rw [hs, h.deferred]
  · exact iff_of_false (not_built_of_active h2) (not_built_of_active h1)

/-- The job is in a place, not only staged with its prerequisite. -/
def Ledger.Occupied (c : Ledger) (d : JobId) : Prop := (c.view d).track ≠ (c.view d).chain

/-- **What holds of dependents and prerequisites**, among the objects or the rows of the disk. -/
structure Linked (get : JobId → Option FirmwareJob) (log : List Ev) : Prop where
  built : ∀ {p prereq}, get p = some prereq → prereq.Built → BuiltIn log p
  /-- A job that was not released did nothing. -/
  rest : ∀ {d job p}, get d = some job → job.dependsOn = some p → job.dependencyReleased = false →
    job.status = .queued ∨ job.status = .cancelled
  ready : ∀ {d job p}, get d = some job → job.dependsOn = some p → job.dependencyReleased = true →
    BuiltIn log p ∧ ∀ prereq, get p = some prereq → prereq.Built
  /-- An active prerequisite is not deferred. -/
  head : ∀ {d job p prereq}, get d = some job → job.dependsOn = some p → get p = some prereq →
    prereq.isActive = true → prereq.isDeferredInstall = false

theorem Linked.mono (h : Linked get log) (hsub : ∀ ev ∈ log, ev ∈ log') : Linked get log' :=
  ⟨fun hp hb => (h.built hp hb).mono hsub, h.rest,
    fun hd hp hr => ⟨(h.ready hd hp hr).1.mono hsub, (h.ready hd hp hr).2⟩, h.head⟩

theorem Linked.sub (h : Linked get log) (hsub : ∀ {j job}, get' j = some job → get j = some job) :
    Linked get' log :=
  ⟨fun hp hb => h.built (hsub hp) hb, fun hd => h.rest (hsub hd),
    fun hd hp hr => ⟨(h.ready (hsub hd) hp hr).1,
      fun prereq hpre => (h.ready (hsub hd) hp hr).2 prereq (hsub hpre)⟩,
    fun hd hp hpre => h.head (hsub hd) hp (hsub hpre)⟩

/-- **A job with a prerequisite waits for its build.** -/
structure Ledger.Chained (c : Ledger) : Prop where
  history : FollowsBuild (c.past ++ c.log)
  objects : Linked c.obj (c.past ++ c.log)
  saved : Linked (lookup c.disk) (c.past ++ c.log)
  idle : ∀ {d job p}, c.obj d = some job → job.dependsOn = some p → job.dependencyReleased = false →
    ¬ c.Occupied d
  /-- A build is deferred at its end only with the release of its dependent owed. -/
  deferred : ∀ {d job p prereq}, c.obj d = some job → job.isActive = true → job.dependsOn = some p →
    c.obj p = some prereq → prereq.status = .completed → prereq.isDeferredInstall = true →
    .owed d ∈ c.tokens
  savedDeferred : ∀ {d job p prereq}, lookup c.disk d = some job → job.dependsOn = some p →
    lookup c.disk p = some prereq → prereq.status = .completed → prereq.isDeferredInstall = true →
    job.isActive = false

/-- A job in a place was released. -/
theorem Ledger.Chained.released (hc : c.Chained) (hd : c.obj d = some job)
    (hp : job.dependsOn = some p) (h : c.Occupied d) : job.dependencyReleased = true := by
  by_contra hr
  exact hc.idle hd hp (by simpa using hr) h

/-- One object of a load is replaced: a job that was queued. -/
theorem Linked.update (h : Linked get log) (hj : get j = some a) (hs : a.status = .queued)
    (hid : b.identity = a.identity) (hb : b.status = .queued ∨ b.status = .cancelled)
    (hdef : b.isDeferredInstall = a.isDeferredInstall)
    (hrel : b.dependencyReleased = true → a.dependencyReleased = false → ∀ p, a.dependsOn = some p →
      BuiltIn log p ∧ ∀ prereq, get p = some prereq → prereq.Built) :
    Linked (Function.update get j (some b)) log := by
  have hdep := dependsOn_of_identity hid
  have hnot : ¬ b.Built := not_built (by rcases hb with hb | hb <;> rw [hb] <;> nofun)
  have hqueued : ¬ a.Built := not_built (by rw [hs]; nofun)
  have hact : a.isActive = true := by simp [FirmwareJob.isActive_iff, hs]
  have hback : ∀ {k x}, Function.update get j (some b) k = some x →
      k = j ∧ x = b ∨ k ≠ j ∧ get k = some x := by
    intro k x hx
    by_cases hk : k = j
    · subst hk
      rw [Function.update_self] at hx; cases hx
      exact .inl ⟨rfl, rfl⟩
    · rw [Function.update_of_ne hk] at hx
      exact .inr ⟨hk, hx⟩
  -- a job that was built is not the one replaced
  have keep : ∀ {p}, (∀ prereq, get p = some prereq → prereq.Built) →
      ∀ prereq, Function.update get j (some b) p = some prereq → prereq.Built := by
    intro p hall prereq hpre
    rcases hback hpre with ⟨rfl, rfl⟩ | ⟨-, hpre⟩
    · exact absurd (hall a hj) hqueued
    · exact hall prereq hpre
  constructor
  · intro p prereq hp hbuilt
    rcases hback hp with ⟨rfl, rfl⟩ | ⟨-, hp⟩
    · exact absurd hbuilt hnot
    · exact h.built hp hbuilt
  · intro d x p hd hp hr
    rcases hback hd with ⟨rfl, rfl⟩ | ⟨-, hd⟩
    · exact hb
    · exact h.rest hd hp hr
  · intro d x p hd hp hr
    rcases hback hd with ⟨rfl, rfl⟩ | ⟨-, hd⟩
    · rw [hdep] at hp
      by_cases hra : a.dependencyReleased = true
      · obtain ⟨hin, hall⟩ := h.ready hj hp hra
        exact ⟨hin, keep hall⟩
      · obtain ⟨hin, hall⟩ := hrel hr (by simpa using hra) p hp
        exact ⟨hin, keep hall⟩
    · obtain ⟨hin, hall⟩ := h.ready hd hp hr
      exact ⟨hin, keep hall⟩
  · intro d x p prereq hd hp hpre hpact
    have hsame : ∃ y, get d = some y ∧ y.dependsOn = some p := by
      rcases hback hd with ⟨rfl, rfl⟩ | ⟨-, hd⟩
      · exact ⟨a, hj, hdep ▸ hp⟩
      · exact ⟨x, hd, hp⟩
    obtain ⟨y, hy, hyp⟩ := hsame
    rcases hback hpre with ⟨rfl, rfl⟩ | ⟨-, hpre⟩
    · rw [hdef]
      exact h.head hy hyp hj hact
    · exact h.head hy hyp hpre hpact

/-- **An active job of the table is answered** when its prerequisite ends, or is missing; during a
load, once it is routed. -/
structure Ledger.Answered (js : List JobId) (c : Ledger) : Prop where
  missing : ∀ {d job p}, d ∈ c.table → d ∉ js → c.obj d = some job → job.isActive = true →
    job.dependsOn = some p → c.obj p = none → job.dependencyReleased = true
  ended : ∀ {d job p prereq}, d ∈ c.table → d ∉ js → c.obj d = some job → job.isActive = true →
    job.dependsOn = some p → c.obj p = some prereq → prereq.isActive = false → ¬ prereq.Built →
    .owed d ∈ c.tokens ∨ .fire p ∈ c.tokens

end DeviceBuilder
