import DeviceBuilder.Helpers.StorageOrder

/-!
# Where the file's contents come from

A consumer of the store that reasons about its own values needs one fact about a
step: the value in RAM stays, a write carries it or what was carried before, and the
file holds what it held or what a write carried (`Store.Flows`).
-/

namespace DeviceBuilder.Storage

open Runs

variable {V P : Type*} {encode : V → P} {s s' s'' : Store V P} {i k : ℕ} {job : WriteJob V}

namespace Store

/-- A snapshot some write carries. -/
def Carried (s : Store V P) (shot : Snapshot V) : Prop := ∃ k job, s.Unfinished k job ∧ job.snapshot = shot

/-- **What a step of the store itself does to the values.** -/
structure Flows (encode : V → P) (s s' : Store V P) : Prop where
  ram : s'.ram = s.ram
  gen : s'.gen = s.gen
  carried : ∀ shot, s'.Carried shot → s.Carried shot ∨ shot = ⟨s.gen, s.ram⟩
  file : s'.file = s.file ∨ ∃ shot, s.Carried shot ∧ s'.file = some (shot.gen, encode shot.value)

theorem Flows.of_eq (hr : s'.ram = s.ram) (hg : s'.gen = s.gen) (hj : s'.jobs = s.jobs) (hf : s'.file = s.file) :
    Flows encode s s' := by
  refine ⟨hr, hg, fun shot hs => .inl ?_, .inl hf⟩
  obtain ⟨k, job, ⟨hk, hu⟩, rfl⟩ := hs
  exact ⟨k, job, ⟨hj ▸ hk, hu⟩, rfl⟩

@[refl] theorem Flows.refl (s : Store V P) : Flows encode s s := .of_eq rfl rfl rfl rfl

/-- A first step that only moves coroutines. -/
theorem Flows.after (h : Flows encode s' s'') (hr : s'.ram = s.ram) (hg : s'.gen = s.gen) (hj : s'.jobs = s.jobs)
    (hf : s'.file = s.file) : Flows encode s s'' := by
  have hback : ∀ shot, s'.Carried shot → s.Carried shot := by
    rintro shot ⟨k, job, ⟨hk, hu⟩, rfl⟩
    exact ⟨k, job, ⟨hj ▸ hk, hu⟩, rfl⟩
  refine ⟨h.ram.trans hr, h.gen.trans hg, fun shot hs => ?_, ?_⟩
  · rw [← hr, ← hg]
    exact (h.carried shot hs).imp_left (hback shot)
  · rw [← hf]
    exact h.file.imp_right fun ⟨shot, hs, he⟩ => ⟨shot, hback shot hs, he⟩

theorem writeLocked_flows (i : ℕ) : Flows encode s (s.writeLocked i) := by
  unfold writeLocked
  split
  · refine ⟨rfl, rfl, fun shot hs => ?_, .inl rfl⟩
    obtain ⟨k, job, ⟨hk, hu⟩, rfl⟩ := hs
    rcases getElem?_submitted hk with ⟨-, hk⟩ | ⟨-, rfl⟩
    · exact .inl ⟨k, job, ⟨hk, hu⟩, rfl⟩
    · exact .inr rfl
  · exact .of_eq rfl rfl rfl rfl

theorem handleWrite_flows (i : ℕ) : Flows encode s (s.handleWrite i) := by
  unfold handleWrite
  split
  · exact writeLocked_flows i
  · exact .of_eq rfl rfl rfl rfl

theorem flush_flows (i : ℕ) : Flows encode s (s.flush i) := by
  unfold flush
  split
  · exact handleWrite_flows i
  · exact .of_eq rfl rfl rfl rfl

theorem asyncSaveNow_flows (s : Store V P) : Flows encode s s.asyncSaveNow := by
  unfold asyncSaveNow
  simp only
  split
  · exact .of_eq rfl rfl rfl rfl
  · exact (flush_flows _).after rfl rfl rfl rfl

theorem asyncDelaySave_flows (s : Store V P) (delay : ℕ) : Flows encode s (s.asyncDelaySave delay) := by
  obtain ⟨due, next, he⟩ := asyncDelaySave_eq s delay
  rw [he]
  exact .of_eq rfl rfl rfl rfl

theorem timerFires_flows (s : Store V P) : Flows encode s s.onDelayHandleFire := by
  unfold onDelayHandleFire
  split
  · exact .refl s
  · split <;> exact .of_eq rfl rfl rfl rfl

theorem resume_flows (s : Store V P) (i : ℕ) : Flows encode s (s.resume i) := by
  unfold resume
  split
  · exact handleWrite_flows i
  · unfold acquired
    split
    · exact (writeLocked_flows i).after rfl rfl rfl rfl
    · exact .refl s
  · unfold written
    split
    · exact .refl s
    · split
      · exact .refl s
      · exact .of_eq rfl rfl rfl rfl
  · split
    · exact .refl s
    · exact flush_flows i
  · exact .refl s

theorem jobStarts_flows (s : Store V P) (k : ℕ) : Flows encode s (s.jobStarts k) := by
  refine ⟨rfl, rfl, fun shot hs => .inl ?_, .inl rfl⟩
  obtain ⟨j, job, hu, rfl⟩ := hs
  obtain ⟨a, ha, he⟩ := unfinished_jobStarts hu
  exact ⟨j, a, ha, he⟩

theorem jobEnds_flows (s : Store V P) (k : ℕ) (ok : Bool) : Flows encode s (s.jobEnds encode k ok) := by
  rcases jobEnds_cases encode s k ok with he | ⟨job, hu, he⟩
  · rw [he]
  · rw [he]
    refine ⟨rfl, rfl, fun shot hs => .inl ?_, ?_⟩
    · obtain ⟨m, b, hb, rfl⟩ := hs
      rcases getElem?_ends hu hb.1 with ⟨-, rfl⟩ | ⟨-, hm⟩
      · exact absurd hb.2 nofun
      · exact ⟨m, b, ⟨hm, hb.2⟩, rfl⟩
    · cases ok with
      | true => exact .inr ⟨job.snapshot, ⟨k, job, hu, rfl⟩, rfl⟩
      | false => exact .inl rfl

/-! ### Values -/

theorem ordered_ram (h : Ordered s) (value : V) : Ordered { s with ram := value } := { h with }

theorem ordered_bump (h : Ordered s) : Ordered { s with gen := s.gen + 1 } :=
  { h with
    ram := fun k job hk => Nat.le_succ_of_le (h.ram k job hk)
    disk := ⟨Nat.le_succ_of_le h.disk.1, fun g hg => Nat.le_succ_of_le (h.disk.2 g hg)⟩ }

theorem ordered_delaySave (h : Ordered s) (delay : ℕ) : Ordered (s.asyncDelaySave delay) := by
  obtain ⟨due, next, he⟩ := asyncDelaySave_eq s delay
  rw [he]
  exact { h with }

/-- A process that starts on the file of the last. -/
theorem ordered_reopened (value : V) (file : Option P) :
    Ordered { Store.fresh P value with file := file.map fun f => (0, f) } :=
  { (ordered_fresh value : Ordered (Store.fresh P value)) with
    disk := ⟨by cases file <;> exact Nat.le_refl 0, nofun⟩
    older := fun k job hu => nomatch hu.1
    done := fun k job hk => nomatch hk }

end Store

end DeviceBuilder.Storage
