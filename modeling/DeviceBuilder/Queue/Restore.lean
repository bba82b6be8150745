import DeviceBuilder.Queue.StepMoves

/-!
# A restart keeps the invariant

A restart is no chain of moves: it builds a ledger anew from the rows of the
disk. `Restoring` is what holds while `load_jobs` routes the active rows, with
the rows still to route.

* `restoreJobEntry_foldl`: the objects and the table a load makes.
* `World.Routed`, `Restoring.next`: one round of the routing.
* `World.restart_invariant`: what the rounds preserve, a restart establishes.
* `inv_reachable`, `side_reachable`: invariants of every world reached.
-/

namespace DeviceBuilder

open Runs Ledger

variable {c : Ledger} {j : JobId} {job : FirmwareJob} {js : List JobId} {rows : List FirmwareJob}
  {w : World}

/-- `_restore_job_entry` of a row. -/
def FirmwareJob.restore (row : FirmwareJob) : FirmwareJob :=
  if row.isActive then row.restoreForRequeue else row

theorem FirmwareJob.restore_identity (row : FirmwareJob) : row.restore.identity = row.identity := by
  unfold restore; split <;> simp

theorem FirmwareJob.restoreForRequeue_released (row : FirmwareJob) :
    row.restoreForRequeue.dependencyReleased = row.dependencyReleased := by
  unfold restoreForRequeue reset clearRunState applyBuildSource
  dsimp only
  split <;> split <;> rfl

theorem FirmwareJob.restore_active (row : FirmwareJob) : row.restore.isActive = row.isActive := by
  unfold restore
  split
  · rename_i ha
    rw [ha, isActive_iff]; simp
  · rfl

/-! ### The rows of the disk -/

theorem lookup_of_mem (hn : (rows.map (·.jobId)).Nodup) (hj : job ∈ rows) :
    lookup rows job.jobId = some job := by
  induction rows with
  | nil => simp at hj
  | cons row rows ih =>
    obtain ⟨hrow, hn⟩ := List.nodup_cons.1 hn
    rcases List.mem_cons.1 hj with rfl | hj
    · simp [lookup]
    · have hne : row.jobId ≠ job.jobId := fun he => hrow (List.mem_map.2 ⟨job, hj, he.symm⟩)
      simpa [lookup, hne] using ih hn hj

/-- The order of the rows does not matter. -/
theorem lookup_perm {rows' : List FirmwareJob} (hn : (rows.map (·.jobId)).Nodup)
    (hp : rows'.Perm rows) : lookup rows' = lookup rows := by
  funext j
  have hn' : (rows'.map (·.jobId)).Nodup := (hp.map _).nodup_iff.2 hn
  cases hj : lookup rows' j with
  | some job =>
    obtain ⟨hm, rfl⟩ := lookup_some hj
    exact (lookup_of_mem hn (hp.mem_iff.1 hm)).symm
  | none =>
    cases hj' : lookup rows j with
    | none => rfl
    | some job =>
      obtain ⟨hm, rfl⟩ := lookup_some hj'
      rw [lookup_of_mem hn' (hp.mem_iff.2 hm)] at hj; cases hj

/-- **The first loop of `load_jobs`**: every row becomes an object and a row of the table. -/
theorem restoreJobEntry_foldl (hn : (rows.map (·.jobId)).Nodup) (fw : FirmwareState)
    (hf : ∀ row ∈ rows, row.jobId ∉ fw.jobs) :
    (rows.foldl World.restoreJobEntry fw) = { fw with
      obj := fun j => ((lookup rows j).map FirmwareJob.restore).or (fw.obj j)
      jobs := fw.jobs ++ rows.map (·.jobId) } := by
  induction rows generalizing fw with
  | nil => simp [lookup]
  | cons row rows ih =>
    obtain ⟨hrow, hn⟩ := List.nodup_cons.1 hn
    have hadd : KeyList.add fw.jobs row.jobId = fw.jobs ++ [row.jobId] := by
      simp [KeyList.add, hf row (by simp)]
    rw [List.foldl_cons, ih hn]
    · simp only [World.restoreJobEntry, hadd, List.append_assoc, List.singleton_append,
        List.map_cons]
      congr 1
      funext j
      by_cases hj : row.jobId = j
      · subst hj
        have hnone : lookup rows row.jobId = none := by
          rw [lookup, List.find?_eq_none]
          exact fun x hx he => hrow (List.mem_map.2 ⟨x, hx, by simpa using he⟩)
        rw [hnone]
        simp [lookup, FirmwareJob.restore]
      · simp [lookup, hj, Function.update_of_ne (Ne.symm hj)]
    · intro x hx hmem
      simp only [World.restoreJobEntry, hadd, List.mem_append, List.mem_singleton] at hmem
      rcases hmem with hmem | he
      · exact hf x (by simp [hx]) hmem
      · exact hrow (List.mem_map.2 ⟨x, hx, he⟩)

/-! ### Routing the active rows -/

/-- How often a job waits in a lane queue or in the pool. -/
def Ledger.spot (c : Ledger) (j : JobId) : ℕ := c.queued.count j + c.pending.count j

/-- **While the active rows are routed**, those in `js` being still to route. -/
structure Restoring (c : Ledger) (js : List JobId) : Prop where
  tokens : c.tokens = 0
  active : c.active = fun _ => false
  inFlight : c.inFlight = []
  jobPeer : c.jobPeer = []
  unsaved : c.saving = none
  one : ∀ j, c.spot j ≤ 1
  waiting : ∀ j, 0 < c.spot j → (c.view j).Waiting
  todo : ∀ j ∈ js, c.spot j = 0 ∧ ∃ job, c.obj j = some job ∧ job.status = .queued
  ids : ∀ {j job}, c.obj j = some job → job.jobId = j ∧ j < c.fresh
  nodup : c.table.Nodup
  rows : ∀ {j}, j ∈ c.table ↔ ∃ job, c.obj j = some job
  deps : DepsOk c.obj
  idle : ∀ {d job p prereq}, c.obj d = some job → job.dependsOn = some p → c.obj p = some prereq →
    prereq.isActive = true → c.spot d = 0
  disk : DepsOk (lookup c.disk)
  diskNodup : (c.disk.map (·.jobId)).Nodup
  diskIds : ∀ row ∈ c.disk, row.jobId < c.fresh

namespace Restoring

theorem inv (hr : Restoring c js) : c.Inv := by
  have hview : ∀ j, c.view j =
      { status := (c.obj j).map (·.status), queued := c.queued.count j
        pending := c.pending.count j, taken := 0, exec := 0, drive := 0, settle := 0, stage := 0
        chain := 0, fire := 0, active := false, inFlight := 0 } := by
    intro j
    simp [Ledger.view, hr.tokens, hr.active, hr.inFlight, chainCount]
  have htok : ∀ t, t ∉ c.tokens := fun t => by rw [hr.tokens]; exact Multiset.notMem_zero t
  have htrack : ∀ j, (c.view j).track = c.spot j := fun j => by
    simp [hview, View.track, Ledger.spot]
  have hchain : ∀ j, (c.view j).chain = 0 := fun j => by simp [hview]
  constructor
  case view =>
    intro j
    have hone : c.queued.count j + c.pending.count j ≤ 1 := hr.one j
    have hwait : 0 < c.queued.count j + c.pending.count j → (c.view j).Waiting := hr.waiting j
    rw [hview] at hwait ⊢
    constructor <;> simp only [View.track, View.Waiting, View.Ended] at hwait ⊢ <;> grind
  case ids => exact hr.ids
  case nodup => exact hr.nodup
  case rows => exact fun hj => hr.rows.1 hj
  case saving => intro ids h; rw [hr.unsaved] at h; cases h
  case pendingNodup =>
    refine List.nodup_iff_count_le_one.2 fun j => ?_
    have := hr.one j
    unfold Ledger.spot at this
    omega
  case inFlightNodup => rw [hr.inFlight]; exact List.nodup_nil
  case peerKeys => intro j; simp [hr.inFlight, hr.jobPeer]
  case peerPins => simp [hr.jobPeer]
  case deps => exact hr.deps
  case stage => exact fun h => (htok _ h).elim
  case chain => exact fun h => (htok _ h).elim
  case idle =>
    intro d job p prereq hd hdp hp ha
    rw [htrack, hchain]
    exact ⟨hr.idle hd hdp hp ha, htok _⟩
  case owed => exact fun h => (htok _ h).elim
  case owedRow => exact fun h => (htok _ h).elim
  case disk => exact hr.disk
  case diskNodup => exact hr.diskNodup
  case diskIds => exact hr.diskIds

/-- A row that is not to be routed after all. -/
theorem skip (hr : Restoring c (j :: js)) : Restoring c js :=
  { hr with todo := fun k hk => hr.todo k (List.mem_cons_of_mem j hk) }

/-- An object is replaced by a later version of it. -/
theorem deps_update {get : JobId → Option FirmwareJob} {job' : FirmwareJob} (hd : DepsOk get)
    (hj : get j = some job) (hid : job'.identity = job.identity)
    (hact : job'.isActive = true → job.isActive = true)
    (hheld : ∀ p prereq, job.dependsOn = some p → get p = some prereq → prereq.isActive = true →
      (job'.status = .queued ∨ job'.status = .cancelled) ∧ job'.dependencyReleased = false) :
    DepsOk (Function.update get j (some job')) := by
  have hdep : job'.dependsOn = job.dependsOn := dependsOn_of_identity hid
  have hback : ∀ {k a}, Function.update get j (some job') k = some a → ∃ b, get k = some b ∧
      a.dependsOn = b.dependsOn ∧ (a.isActive = true → b.isActive = true) ∧
      (k ≠ j → a = b) ∧ (k = j → a = job' ∧ b = job) := by
    intro k a ha
    by_cases hk : k = j
    · subst hk
      rw [Function.update_self] at ha; cases ha
      exact ⟨job, hj, hdep, hact, fun h => (h rfl).elim, fun _ => ⟨rfl, rfl⟩⟩
    · rw [Function.update_of_ne hk] at ha
      exact ⟨a, ha, rfl, id, fun _ => rfl, fun h => (hk h).elim⟩
  constructor
  · intro d a p ha hp
    obtain ⟨b, hb, hbd, -⟩ := hback ha
    exact hd.lt hb (hbd ▸ hp)
  · intro d a p prereq ha hp hpre
    obtain ⟨b, hb, hbd, -⟩ := hback ha
    obtain ⟨b', hb', hbd', -⟩ := hback hpre
    rw [hbd']
    exact hd.depth hb (hbd ▸ hp) hb'
  · intro d d' a a' p ha hp ha' hp'
    obtain ⟨b, hb, hbd, -⟩ := hback ha
    obtain ⟨b', hb', hbd', -⟩ := hback ha'
    exact hd.unique hb (hbd ▸ hp) hb' (hbd' ▸ hp')
  · intro d a p prereq ha hp hpre hpact
    obtain ⟨b, hb, hbd, -, hne, heq⟩ := hback ha
    obtain ⟨b', hb', -, hact', -⟩ := hback hpre
    by_cases hdj : d = j
    · obtain ⟨rfl, rfl⟩ := heq hdj
      exact hheld p b' (hbd ▸ hp) hb' (hact' hpact)
    · rw [hne hdj]
      exact hd.held hb (hbd ▸ hp) hb' (hact' hpact)

/-- Where a job waits after it is placed. -/
theorem spot_route {x : FirmwareJob} (h0 : c.spot j = 0) : (c.route j x).spot j = 1 ∧
    ∀ k, k ≠ j → (c.route j x).spot k = c.spot k := by
  have hq : c.queued.count j = 0 := by unfold Ledger.spot at h0; omega
  have hp : c.pending.count j = 0 := by unfold Ledger.spot at h0; omega
  unfold Ledger.spot
  by_cases hpool : FirmwareState.pooled x = true
  · simp only [Ledger.route, hpool, if_true]
    refine ⟨by rw [hq, KeyList.count_add_self hp], fun k hk => ?_⟩
    rw [KeyList.count_add_of_ne hk]
  · simp only [Ledger.route, hpool, if_false, Bool.false_eq_true]
    refine ⟨by rw [Multiset.count_cons_self, hq, KeyList.count_drop_self], fun k hk => ?_⟩
    rw [Multiset.count_cons_of_ne hk, KeyList.count_drop_of_ne hk]

/-- A round changes one object and its place. -/
theorem change (hr : Restoring c (j :: js)) (hjs : j ∉ js) (hj : c.obj j = some job)
    {job' : FirmwareJob} {q : Multiset JobId} {ps : List JobId} {log : List Ev} {c' : Ledger}
    (hc : c' = { c with
      obj := Function.update c.obj j (some job'), queued := q, pending := ps, log := log })
    (hid : job'.identity = job.identity) (hs : job'.status = .queued ∨ job'.status = .cancelled)
    (hone : c'.spot j ≤ 1) (hne : ∀ k, k ≠ j → c'.spot k = c.spot k)
    (hdep : ∀ p prereq, job.dependsOn = some p → c.obj p = some prereq → prereq.isActive = true →
      c'.spot j = 0 ∧ job'.dependencyReleased = false) : Restoring c' js := by
  obtain ⟨h0, a, ha, hq⟩ := hr.todo j (by simp)
  rw [hj] at ha; cases ha
  have hact : job.isActive = true := by rw [FirmwareJob.isActive_iff]; exact .inl hq
  have hobj : c'.obj = Function.update c.obj j (some job') := by rw [hc]
  have hself : c'.obj j = some job' := by rw [hobj, Function.update_self]
  have hother : ∀ k, k ≠ j → c'.obj k = c.obj k := fun k hk => by
    rw [hobj, Function.update_of_ne hk]
  -- the objects of `c'` are those of `c`, with the same dependencies
  have hback : ∀ {k b}, c'.obj k = some b → ∃ b', c.obj k = some b' ∧
      b.dependsOn = b'.dependsOn ∧ (b.isActive = true → b'.isActive = true) := by
    intro k b hb
    by_cases hk : k = j
    · subst hk
      rw [hself] at hb; cases hb
      exact ⟨job, hj, dependsOn_of_identity hid, fun _ => hact⟩
    · rw [hother k hk] at hb
      exact ⟨b, hb, rfl, id⟩
  exact {
    tokens := by rw [hc]; exact hr.tokens
    active := by rw [hc]; exact hr.active
    inFlight := by rw [hc]; exact hr.inFlight
    jobPeer := by rw [hc]; exact hr.jobPeer
    unsaved := by rw [hc]; exact hr.unsaved
    one := by
      intro k
      by_cases hk : k = j
      · rw [hk]; exact hone
      · rw [hne k hk]; exact hr.one k
    waiting := by
      intro k hpos
      by_cases hk : k = j
      · subst hk
        simpa [View.Waiting, Ledger.view, hself] using hs
      · rw [hne k hk] at hpos
        have := hr.waiting k hpos
        simpa only [View.Waiting, Ledger.view, hother k hk] using this
    todo := by
      intro k hk
      have hkj : k ≠ j := fun he => hjs (he ▸ hk)
      rw [hne k hkj, hother k hkj]
      exact hr.todo k (List.mem_cons_of_mem j hk)
    ids := by
      intro k b hb
      rw [show c'.fresh = c.fresh by rw [hc]]
      by_cases hk : k = j
      · subst hk
        rw [hself] at hb; cases hb
        exact ⟨(jobId_of_identity hid).trans (hr.ids hj).1, (hr.ids hj).2⟩
      · rw [hother k hk] at hb
        exact hr.ids hb
    nodup := by rw [hc]; exact hr.nodup
    rows := by
      intro k
      rw [show c'.table = c.table by rw [hc], hr.rows]
      by_cases hk : k = j
      · subst hk
        simp [hself, hj]
      · rw [hother k hk]
    deps := by
      rw [hobj]
      exact deps_update hr.deps hj hid (fun _ => hact) fun p prereq hp hpre ha =>
        ⟨hs, (hdep p prereq hp hpre ha).2⟩
    idle := by
      intro d b p prereq hb hp hpre ha
      obtain ⟨b', hb', hbd, -⟩ := hback hb
      obtain ⟨pre', hpre', -, ha'⟩ := hback hpre
      by_cases hd : d = j
      · subst hd
        rw [hj] at hb'; cases hb'
        exact (hdep p pre' (hbd ▸ hp) hpre' (ha' ha)).1
      · rw [hne d hd]
        exact hr.idle hb' (hbd ▸ hp) hpre' (ha' ha)
    disk := by rw [hc]; exact hr.disk
    diskNodup := by rw [hc]; exact hr.diskNodup
    diskIds := by rw [hc]; exact hr.diskIds }

/-- A row is placed: what it depends on has ended. -/
theorem route (hr : Restoring c (j :: js)) (hjs : j ∉ js) (hj : c.obj j = some job)
    (hdep : ∀ p prereq, job.dependsOn = some p → c.obj p = some prereq →
      prereq.isActive = false) : Restoring (c.route j job) js := by
  obtain ⟨h0, a, ha, hq⟩ := hr.todo j (by simp)
  rw [hj] at ha; cases ha
  obtain ⟨hself, hne⟩ := spot_route (x := job) h0
  refine hr.change hjs hj rfl latched_identity (.inl (latched_status.trans hq)) hself.le hne ?_
  intro p prereq hp hpre hact
  rw [hdep p prereq hp hpre] at hact; cases hact

/-- A row whose prerequisite did not succeed is cancelled. -/
theorem cancel (hr : Restoring c (j :: js)) (hjs : j ∉ js) (hj : c.obj j = some job)
    (error : Option String) : Restoring (c.set j (job.markTerminal .cancelled error)) js := by
  have h0 := (hr.todo j (by simp)).1
  refine hr.change hjs hj rfl rfl (.inr rfl) (show c.spot j ≤ 1 by omega)
    (fun _ _ => rfl) fun p prereq hp hpre hact => ⟨h0, ?_⟩
  exact (hr.deps.held hj hp hpre hact).2

end Restoring

namespace World

/-- Code that makes no moves leaves the ledger as it is. -/
theorem ledger_of_no_moves {w' : World} {h h' : Multiset Token}
    (hs : Sims (fun _ => False) w h w' h') (hI : (w.ledger h).Inv) :
    w'.ledger h' = w.ledger h :=
  (hs.chain hI).invariant (I := fun c => c = w.ledger h) rfl fun _ _ _ hf => hf.elim

/-- What one round of the routing does. -/
inductive Routed (c : Ledger) (j : JobId) (job : FirmwareJob) : Ledger → Prop
  /-- It waits for an active prerequisite. -/
  | held (h : ∃ p prereq, job.dependsOn = some p ∧ c.obj p = some prereq ∧
      prereq.isActive = true) : Routed c j job c
  /-- Its prerequisite, if it has one, has completed, now or when it was placed before. -/
  | placed (h : ∀ p, job.dependsOn = some p → job.dependencyReleased = true ∨
      ∃ prereq, c.obj p = some prereq ∧ prereq.status = .completed) : Routed c j job (c.route j job)
  /-- Its prerequisite did not complete, or is missing. -/
  | cancelled (hr : job.dependencyReleased = false) (hd : ∃ p, job.dependsOn = some p) :
      Routed c j job (c.set j (job.markTerminal .cancelled (some prerequisiteFailedError)))

/-- **`_restore_to_lane`.** -/
theorem restoreToLane_routed (hr : Restoring (w.ledger 0) (j :: js)) (hjs : j ∉ js)
    (hj : w.fw.obj j = some job) :
    Routed (w.ledger 0) j job ((w.restoreToLane j).ledger 0) := by
  have hfind : ∀ {p prereq}, w.fw.obj p = some prereq → w.fw.find p = some prereq := by
    intro p prereq hp
    have hmem : p ∈ w.fw.jobs := hr.rows.2 ⟨prereq, hp⟩
    rw [FirmwareState.find, if_pos hmem, hp]
  have hcancel : ((w.modifyJob j (·.markTerminal .cancelled
      (some prerequisiteFailedError))).onJobTerminal j).ledger 0 =
        (w.ledger 0).set j (job.markTerminal .cancelled (some prerequisiteFailedError)) := by
    have hled := modifyJob_ledger hj (·.markTerminal .cancelled (some prerequisiteFailedError)) 0
    have hr' := hr.cancel hjs hj (some prerequisiteFailedError)
    rw [← hled] at hr'
    rw [ledger_of_no_moves onJobTerminal_sims hr'.inv, hled]
  unfold restoreToLane
  simp only [hj]
  split
  · rename_i hplace
    rw [placeOnLane_ledger hj]
    refine .placed fun p hp => ?_
    rw [Bool.or_eq_true] at hplace
    rcases hplace with hsat | hrel
    · simp only [FirmwareState.dependencySatisfied, hp] at hsat
      cases hpre : w.fw.obj p with
      | none => simp [FirmwareState.find, hpre] at hsat
      | some prereq => exact .inr ⟨prereq, hpre, by simpa [hfind hpre] using hsat⟩
    · exact .inl hrel
  · rename_i hplace
    rw [Bool.or_eq_true, not_or, Bool.not_eq_true, Bool.not_eq_true] at hplace
    have hdep : ∃ p, job.dependsOn = some p := by
      rw [← Option.isSome_iff_exists, Option.isSome_iff_ne_none]
      intro hd
      simp [FirmwareState.dependencySatisfied, hd] at hplace
    split
    · rename_i prereq hfind
      obtain ⟨p, hp, hget⟩ := Option.bind_eq_some_iff.1 hfind
      have hpre : w.fw.obj p = some prereq := by
        unfold FirmwareState.find at hget
        split at hget
        · exact hget
        · cases hget
      split
      · rename_i hact
        exact .held ⟨p, prereq, hp, hpre, hact⟩
      · rw [hcancel]; exact .cancelled hplace.2 hdep
    · rw [hcancel]; exact .cancelled hplace.2 hdep

end World

/-- A round keeps what holds between rounds. -/
theorem Restoring.next {c' : Ledger} (hr : Restoring c (j :: js)) (hjs : j ∉ js)
    (hj : c.obj j = some job) (h : World.Routed c j job c') : Restoring c' js := by
  cases h with
  | held => exact hr.skip
  | placed h =>
    refine hr.route hjs hj fun p prereq hp hpre => ?_
    by_contra hact
    rw [Bool.not_eq_false] at hact
    rcases h p hp with hrel | ⟨prereq', hpre', hst⟩
    · rw [(hr.deps.held hj hp hpre hact).2] at hrel; cases hrel
    · rw [hpre] at hpre'; cases hpre'
      simp [FirmwareJob.isActive, hst, JobStatus.isTerminal] at hact
  | cancelled => exact hr.cancel hjs hj _

namespace World

/-- **The second loop of `load_jobs`**: what its rounds preserve, it preserves. What is preserved
may speak of the rows still to route. -/
theorem restoreToLane_foldl {P : List JobId → Ledger → Prop}
    (hP : ∀ {c c' j js job}, Restoring c (j :: js) → j ∉ js → c.obj j = some job →
      job.status = .queued → Routed c j job c' → P (j :: js) c → P js c')
    (hjs : js.Nodup) (hr : Restoring (w.ledger 0) js) (h : P js (w.ledger 0)) :
    Restoring ((js.foldl restoreToLane w).ledger 0) [] ∧
      P [] ((js.foldl restoreToLane w).ledger 0) := by
  induction js generalizing w with
  | nil => exact ⟨hr, h⟩
  | cons j js ih =>
    obtain ⟨hjn, hn⟩ := List.nodup_cons.1 hjs
    obtain ⟨-, job, hj, hq⟩ := hr.todo j (by simp)
    have hround := restoreToLane_routed hr hjn hj
    exact ih hn (hr.next hjn hj hround) (hP hr hjn hj hq hround h)

/-- The state between the two loops of a load. -/
theorem restored_state (hn : (w.disk.map (·.jobId)).Nodup) (hp : rows.Perm w.disk) :
    rows.foldl restoreJobEntry { fresh := w.fw.fresh } =
      { ({} : FirmwareState) with
        obj := fun j => (lookup w.disk j).map FirmwareJob.restore
        fresh := w.fw.fresh
        jobs := rows.map (·.jobId) } := by
  rw [restoreJobEntry_foldl ((hp.map _).nodup_iff.2 hn) _ (fun row _ => List.not_mem_nil),
    lookup_perm hn hp]
  simp

theorem deps_restored {get : JobId → Option FirmwareJob} (hd : DepsOk get) :
    DepsOk (fun j => (get j).map FirmwareJob.restore) := by
  have hback : ∀ {k a}, (get k).map FirmwareJob.restore = some a → ∃ b, get k = some b ∧
      a = b.restore ∧ a.dependsOn = b.dependsOn := by
    intro k a ha
    obtain ⟨b, hb, rfl⟩ := Option.map_eq_some_iff.1 ha
    exact ⟨b, hb, rfl, dependsOn_of_identity b.restore_identity⟩
  constructor
  · intro d a p ha hp
    obtain ⟨b, hb, -, hbd⟩ := hback ha
    exact hd.lt hb (hbd ▸ hp)
  · intro d a p prereq ha hp hpre
    obtain ⟨b, hb, -, hbd⟩ := hback ha
    obtain ⟨b', hb', -, hbd'⟩ := hback hpre
    rw [hbd']
    exact hd.depth hb (hbd ▸ hp) hb'
  · intro d d' a a' p ha hp ha' hp'
    obtain ⟨b, hb, -, hbd⟩ := hback ha
    obtain ⟨b', hb', -, hbd'⟩ := hback ha'
    exact hd.unique hb (hbd ▸ hp) hb' (hbd' ▸ hp')
  · intro d a p prereq ha hp hpre hact
    obtain ⟨b, hb, rfl, hbd⟩ := hback ha
    obtain ⟨b', hb', rfl, -⟩ := hback hpre
    rw [FirmwareJob.restore_active] at hact
    obtain ⟨hst, hrel⟩ := hd.held hb (hbd ▸ hp) hb' hact
    unfold FirmwareJob.restore
    split
    · exact ⟨.inl (by simp), by rw [FirmwareJob.restoreForRequeue_released, hrel]⟩
    · exact ⟨hst, hrel⟩

end World

/-- The ledger between the two loops of a load. -/
def Ledger.loaded (c : Ledger) (table : List JobId) : Ledger where
  obj := fun j => (lookup c.disk j).map FirmwareJob.restore
  fresh := c.fresh
  table := table
  queued := 0
  active := fun _ => false
  pending := []
  inFlight := []
  jobPeer := []
  tokens := 0
  log := []
  past := c.past ++ c.log
  disk := c.disk
  saving := none

theorem restoring_loaded (hI : c.Inv) (hp : rows.Perm c.disk) :
    Restoring (c.loaded (rows.map (·.jobId))) ((rows.filter (·.isActive)).map (·.jobId)) := by
  have hn' : (rows.map (·.jobId)).Nodup := (hp.map _).nodup_iff.2 hI.diskNodup
  have hback : ∀ {k a}, (lookup c.disk k).map FirmwareJob.restore = some a →
      ∃ b ∈ c.disk, b.jobId = k ∧ a = b.restore := by
    intro k a ha
    obtain ⟨b, hb, rfl⟩ := Option.map_eq_some_iff.1 ha
    obtain ⟨hm, rfl⟩ := lookup_some hb
    exact ⟨b, hm, rfl, rfl⟩
  have hrow : ∀ row ∈ c.disk,
      (lookup c.disk row.jobId).map FirmwareJob.restore = some row.restore := by
    intro row hrow
    rw [lookup_of_mem hI.diskNodup hrow]; rfl
  have hspot : ∀ j, (c.loaded (rows.map (·.jobId))).spot j = 0 := by
    intro j
    simp [Ledger.spot, Ledger.loaded]
  exact {
    tokens := rfl
    active := rfl
    inFlight := rfl
    jobPeer := rfl
    unsaved := rfl
    one := fun j => by rw [hspot]; omega
    waiting := fun j h => by rw [hspot] at h; omega
    todo := by
      intro j hj
      obtain ⟨row, hrowj, rfl⟩ := List.mem_map.1 hj
      obtain ⟨hm, ha⟩ := List.mem_filter.1 hrowj
      refine ⟨hspot _, row.restore, hrow row (hp.mem_iff.1 hm), ?_⟩
      simp [FirmwareJob.restore, ha]
    ids := by
      intro j job hj
      obtain ⟨b, hm, rfl, rfl⟩ := hback hj
      exact ⟨jobId_of_identity b.restore_identity, hI.diskIds b hm⟩
    nodup := hn'
    rows := by
      intro j
      constructor
      · intro hj
        obtain ⟨row, hm, rfl⟩ := List.mem_map.1 hj
        exact ⟨_, hrow row (hp.mem_iff.1 hm)⟩
      · rintro ⟨job, hj⟩
        obtain ⟨b, hm, rfl, rfl⟩ := hback hj
        exact List.mem_map.2 ⟨b, hp.mem_iff.2 hm, rfl⟩
    deps := World.deps_restored hI.disk
    idle := fun _ _ _ _ => hspot _
    disk := hI.disk
    diskNodup := hI.diskNodup
    diskIds := hI.diskIds }

namespace World

theorem queueTasks_tokens (uploadWorkers : ℕ) : taskTokens (queueTasks uploadWorkers) = 0 := by
  unfold queueTasks taskTokens
  induction uploadWorkers with
  | zero => rfl
  | succ n ih => simp [List.replicate_succ, Task.tokens]

/-- **A restart**, as a fold over the ledger of the rows. -/
theorem restart_invariant {P : List JobId → Ledger → Prop} (hI : (w.ledger 0).Inv)
    (hp : rows.Perm w.disk) (devices : Configuration → Option Device)
    (offloader : Option OffloaderState) (uploadWorkers : ℕ)
    (h₀ : P ((rows.filter (·.isActive)).map (·.jobId)) ((w.ledger 0).loaded (rows.map (·.jobId))))
    (hP : ∀ {c c' j js job}, Restoring c (j :: js) → j ∉ js → c.obj j = some job →
      job.status = .queued → Routed c j job c' → P (j :: js) c → P js c') :
    Restoring ((w.restart rows devices offloader uploadWorkers).ledger 0) [] ∧
      P [] ((w.restart rows devices offloader uploadWorkers).ledger 0) := by
  have hn : (rows.map (·.jobId)).Nodup := (hp.map _).nodup_iff.2 hI.diskNodup
  have hjs : ((rows.filter (·.isActive)).map (·.jobId)).Nodup :=
    (List.filter_sublist.map _).nodup hn
  set v : World := { ({} : World) with
    fw := rows.foldl restoreJobEntry { fresh := w.fw.fresh }, devices := devices
    offloader := offloader, yamls := w.yamls, disk := w.disk, clock := w.clock
    past := w.past ++ w.log } with hv
  have hstart : v.ledger 0 = (w.ledger 0).loaded (rows.map (·.jobId)) := by
    simp only [ledger, hv, restored_state hI.diskNodup hp]
    have hactive : FirmwareState.jobIsOnALane {} = fun _ => false := by
      funext j; simp [FirmwareState.jobIsOnALane]
    simp only [Ledger.loaded]
    rw [← hactive]
    rfl
  have hload := restoreToLane_foldl (w := v) hP hjs (hstart ▸ restoring_loaded hI hp) (hstart ▸ h₀)
  have htasks : ∀ u : World,
      ({ u with tasks := u.tasks ++ queueTasks uploadWorkers } : World).ledger 0 = u.ledger 0 := by
    intro u
    simp [ledger, queueTasks_tokens]
  exact (htasks _).symm ▸ hload

end World

/-- A restart keeps the invariant. -/
theorem inv_restart (hI : (w.ledger 0).Inv) (hp : rows.Perm w.disk)
    (devices : Configuration → Option Device) (offloader : Option OffloaderState)
    (uploadWorkers : ℕ) : ((w.restart rows devices offloader uploadWorkers).ledger 0).Inv :=
  (World.restart_invariant (P := fun _ _ => True) hI hp devices offloader uploadWorkers trivial
    fun _ _ _ _ _ _ => trivial).1.inv

/-- **Every step keeps the invariant.** -/
theorem inv_step (hI : (w.ledger 0).Inv) (a : Action) : ((w.step a).ledger 0).Inv := by
  by_cases hr : ∃ rows devices offloader workers, a = .restart rows devices offloader workers
  · obtain ⟨rows, devices, offloader, workers, rfl⟩ := hr
    simp only [World.step]
    split
    · rename_i hp
      exact inv_restart hI hp devices offloader workers
    · exact hI
  · refine hI.chainMove (World.step_moves (fun rows devices offloader workers h => hr ?_) hI)
    exact ⟨rows, devices, offloader, workers, h⟩

theorem inv_init : (({} : World).ledger 0).Inv := by
  refine @Restoring.inv _ [] ?_
  constructor
  case deps => constructor <;> intros <;> simp_all [World.ledger]
  case disk => constructor <;> intros <;> simp_all [lookup, World.ledger]
  case rows => intro j; simp [World.ledger]
  case active => funext j; simp [World.ledger, FirmwareState.jobIsOnALane]
  all_goals simp [World.ledger, taskTokens, Ledger.spot, FirmwareState.laneQueued]

/-- **The invariant holds in every world reached.** -/
theorem inv_reachable {ok : World → Action → Prop} (h : Reachable ok w) : (w.ledger 0).Inv :=
  h.invariant (I := fun w => (w.ledger 0).Inv) inv_init fun _ a _ hI => inv_step hI a

/-- **Invariants beside the main one**: what holds of the first ledger, of the ledger a load makes,
and is preserved by the moves of the steps of interest and by the rounds of a load, holds of every
ledger reached. During a load it may speak of the rows still to route. -/
theorem rest_reachable {ok : World → Action → Prop} {L : Label → Prop}
    {P : List JobId → Ledger → Prop} (h : Reachable ok w)
    (hlabels : ∀ w a ℓ, ok w a → (∀ rows devices offloader workers,
      a ≠ .restart rows devices offloader workers) → a.Allows w ℓ → L ℓ)
    (h₀ : P [] (({} : World).ledger 0))
    (hmove : ∀ ℓ c c', L ℓ → Move ℓ c c' → c.Inv → P [] c → P [] c')
    (hload : ∀ (w : World) (rows : List FirmwareJob), (w.ledger 0).Inv → rows.Perm w.disk →
      P [] (w.ledger 0) → P ((rows.filter (·.isActive)).map (·.jobId))
        ((w.ledger 0).loaded (rows.map (·.jobId))))
    (hround : ∀ {c c' j js job}, Restoring c (j :: js) → j ∉ js → c.obj j = some job →
      job.status = .queued → World.Routed c j job c' → P (j :: js) c → P js c') :
    P [] (w.ledger 0) := by
  have key : (w.ledger 0).Inv ∧ P [] (w.ledger 0) := by
    refine h.invariant (I := fun w => (w.ledger 0).Inv ∧ P [] (w.ledger 0)) ⟨inv_init, h₀⟩ ?_
    rintro w a hok ⟨hI, hP⟩
    refine ⟨inv_step hI a, ?_⟩
    by_cases hr : ∃ rows devices offloader workers, a = .restart rows devices offloader workers
    · obtain ⟨rows, devices, offloader, workers, rfl⟩ := hr
      simp only [World.step]
      split
      · rename_i hp
        exact (World.restart_invariant hI hp devices offloader workers (hload w rows hI hp hP)
          hround).2
      · exact hP
    · have hrun : ∀ rows devices offloader workers, a ≠ .restart rows devices offloader workers :=
        fun rows devices offloader workers h => hr ⟨rows, devices, offloader, workers, h⟩
      refine ((World.step_moves hrun hI).invariant (I := fun c => c.Inv ∧ P [] c) ⟨hI, hP⟩ ?_).2
      intro ℓ c c' hℓ hm hcP
      exact ⟨hcP.1.move hm, hmove ℓ c c' (hlabels w a ℓ hok hrun hℓ) hm hcP.1 hcP.2⟩
  exact key.2

/-- The same, where the rows still to route do not matter. -/
theorem side_reachable {ok : World → Action → Prop} {L : Label → Prop} {P : Ledger → Prop}
    (h : Reachable ok w) (hlabels : ∀ w a ℓ, ok w a → (∀ rows devices offloader workers,
      a ≠ .restart rows devices offloader workers) → a.Allows w ℓ → L ℓ)
    (h₀ : P (({} : World).ledger 0))
    (hmove : ∀ ℓ c c', L ℓ → Move ℓ c c' → c.Inv → P c → P c')
    (hload : ∀ (w : World) (rows : List FirmwareJob), (w.ledger 0).Inv → rows.Perm w.disk → P (w.ledger 0) →
      P ((w.ledger 0).loaded (rows.map (·.jobId))))
    (hround : ∀ {c c' j js job}, Restoring c (j :: js) → j ∉ js → c.obj j = some job →
      job.status = .queued → World.Routed c j job c' → P c → P c') : P (w.ledger 0) :=
  rest_reachable (P := fun _ => P) h hlabels h₀ hmove hload hround

end DeviceBuilder
