import DeviceBuilder.Queue.View

/-!
# The invariant of the ledger

`Ledger.Inv` is what every move preserves (`Ledger.Inv.move`): every job's view
is well formed, the table and the pool are dictionaries, no two servers drive
the same job and no server two jobs, and a job held on another waits in no queue
until the other has ended.
-/

namespace DeviceBuilder

namespace Ledger

/-- The dependencies among job objects. -/
structure DepsOk (get : JobId → Option FirmwareJob) : Prop where
  lt : ∀ {d job p}, get d = some job → job.dependsOn = some p → p < d
  depth : ∀ {d job p prereq}, get d = some job → job.dependsOn = some p → get p = some prereq →
    prereq.dependsOn = none
  unique : ∀ {d d' job job' p}, get d = some job → job.dependsOn = some p → get d' = some job' →
    job'.dependsOn = some p → d = d'
  /-- A job held on an active one has not been released. -/
  held : ∀ {d job p prereq}, get d = some job → job.dependsOn = some p → get p = some prereq →
    prereq.isActive = true →
    (job.status = .queued ∨ job.status = .cancelled) ∧ job.dependencyReleased = false

/-- The rows of the disk, by id. -/
def lookup (rows : List FirmwareJob) (j : JobId) : Option FirmwareJob :=
  rows.find? (fun row => row.jobId = j)

/-- **The invariant.** -/
structure Inv (c : Ledger) : Prop where
  view : ∀ j, (c.view j).Ok
  ids : ∀ {j job}, c.obj j = some job → job.jobId = j ∧ j < c.fresh
  nodup : c.table.Nodup
  rows : ∀ {j}, j ∈ c.table → ∃ job, c.obj j = some job
  saving : ∀ {ids}, c.saving = some ids → ids.Nodup
  pendingNodup : c.pending.Nodup
  inFlightNodup : c.inFlight.Nodup
  peerKeys : ∀ j, j ∈ c.inFlight ↔ j ∈ c.jobPeer.map Prod.fst
  peerPins : (c.jobPeer.map Prod.snd).Nodup
  deps : DepsOk c.obj
  stage : ∀ {j}, .stage j ∈ c.tokens → ∀ job, c.obj j = some job → job.dependsOn = none
  chain : ∀ {h d}, .chain h d ∈ c.tokens →
    ∃ head job, c.obj h = some head ∧ c.obj d = some job ∧ job.dependsOn = some h
  /-- A job held on an active one is at most staged with it. -/
  idle : ∀ {d job p prereq}, c.obj d = some job → job.dependsOn = some p → c.obj p = some prereq →
    prereq.isActive = true → (c.view d).track = (c.view d).chain ∧ .owed d ∉ c.tokens
  /-- A job is owed its release once its prerequisite has ended. -/
  owed : ∀ {d}, .owed d ∈ c.tokens → ∃ job p prereq, c.obj d = some job ∧
    job.dependsOn = some p ∧ c.obj p = some prereq ∧ prereq.isActive = false ∧
    (prereq.status = .completed →
      c.tokens.count (.owed d) = 1 ∧ (c.view d).track = 0 ∧ (c.view d).Waiting)
  owedRow : ∀ {d}, .owed d ∈ c.tokens → ∀ job, c.obj d = some job → job.isActive = true →
    d ∈ c.table
  disk : DepsOk (lookup c.disk)
  diskNodup : (c.disk.map (·.jobId)).Nodup
  diskIds : ∀ row ∈ c.disk, row.jobId < c.fresh

/-! ### What a move does to objects -/

variable {c c' : Ledger} {ℓ : Label} {job job' : FirmwareJob}

@[simp] theorem latched_identity : (latched job).identity = job.identity := by
  unfold latched; split <;> rfl

@[simp] theorem latched_status : (latched job).status = job.status := by
  unfold latched; split <;> rfl

theorem jobId_of_identity (h : job'.identity = job.identity) : job'.jobId = job.jobId :=
  congrArg (·.1) h

theorem dependsOn_of_identity (h : job'.identity = job.identity) :
    job'.dependsOn = job.dependsOn :=
  congrArg (·.2.2.2.2.1) h

theorem isActive_congr (h : job'.status = job.status) : job'.isActive = job.isActive := by
  unfold FirmwareJob.isActive; rw [h]

/-- `job'` is `job` after a move: the same job, with another status only if it was active. -/
def Kept (job job' : FirmwareJob) : Prop :=
  job'.identity = job.identity ∧ (job'.status = job.status ∨ job.isActive = true)

theorem Kept.refl (job : FirmwareJob) : Kept job job := ⟨rfl, .inl rfl⟩

theorem Kept.of_status (h : job'.identity = job.identity) (hs : job'.status = job.status) :
    Kept job job' :=
  ⟨h, .inl hs⟩

theorem Kept.of_active (h : job'.identity = job.identity) (hs : job.isActive = true) :
    Kept job job' :=
  ⟨h, .inr hs⟩

/-- No move revives a job. -/
theorem Kept.active (h : Kept job job') (ha : job'.isActive = true) : job.isActive = true := by
  rcases h.2 with hs | hs
  · rwa [isActive_congr hs] at ha
  · exact hs

/-- The objects after one of them is replaced by a later version. -/
theorem kept_update {get : JobId → Option FirmwareJob} {j : JobId} (hj : get j = some job)
    (hk : Kept job job') (k : JobId) :
    (∀ a, get k = some a → ∃ b, Function.update get j (some job') k = some b ∧ Kept a b) ∧
      (∀ b, Function.update get j (some job') k = some b → ∃ a, get k = some a ∧ Kept a b) := by
  by_cases h : k = j
  · subst h
    simp only [Function.update_self, hj, Option.some.injEq, exists_eq_left', forall_eq']
    exact ⟨hk, hk⟩
  · simp only [Function.update_of_ne h]
    exact ⟨fun a ha => ⟨a, ha, .refl a⟩, fun b hb => ⟨b, hb, .refl b⟩⟩

/-- A token holds its job active. -/
theorem Inv.active_of_exec (h : c.Inv) {j : JobId} (hj : c.obj j = some job)
    (ht : .exec j ∈ c.tokens) : job.status = .running := by
  have := ((h.view j).exec (Multiset.count_pos.2 ht)).1
  simpa [Ledger.view, hj] using this

theorem Inv.active_of_drive (h : c.Inv) {j : JobId} (hj : c.obj j = some job)
    (ht : .drive j ∈ c.tokens) : job.status = .running := by
  have := ((h.view j).drive (Multiset.count_pos.2 ht)).1
  simpa [Ledger.view, hj] using this

theorem Inv.active_of_taken (h : c.Inv) {j : JobId} (hj : c.obj j = some job)
    (ht : .taken j ∈ c.tokens) (hs : job.status ≠ .cancelled) : job.isActive = true := by
  have h1 : 0 < (c.view j).taken := Multiset.count_pos.2 ht
  have := (h.view j).ready (by omega)
  rw [FirmwareJob.isActive_iff]
  simp only [View.Waiting, Ledger.view, hj, Option.map_some, Option.some.injEq] at this
  tauto

/-- **Objects are kept**: a move changes an object to a later version of it, and creates objects
under new ids only. -/
theorem move_objects (h : c.Inv) (hm : Move ℓ c c') :
    (∀ k a, c.obj k = some a → ∃ b, c'.obj k = some b ∧ Kept a b) ∧
      ∀ k b, c'.obj k = some b → (∃ a, c.obj k = some a ∧ Kept a b) ∨
        c.fresh ≤ k ∧ k < c'.fresh ∧ b.IsNew k := by
  have upd : ∀ {j job job'} (_ : c.obj j = some job) (_ : Kept job job'),
      (∀ k a, c.obj k = some a → ∃ b, Function.update c.obj j (some job') k = some b ∧ Kept a b) ∧
        ∀ k b, Function.update c.obj j (some job') k = some b →
          (∃ a, c.obj k = some a ∧ Kept a b) ∨ c.fresh ≤ k ∧ k < c'.fresh ∧ b.IsNew k :=
    fun hj hk => ⟨fun k a ha => (kept_update hj hk k).1 a ha,
      fun k b hb => .inl ((kept_update hj hk k).2 b hb)⟩
  have same : (∀ k a, c.obj k = some a → ∃ b, c.obj k = some b ∧ Kept a b) ∧
      ∀ k b, c.obj k = some b → (∃ a, c.obj k = some a ∧ Kept a b) ∨
        c.fresh ≤ k ∧ k < c'.fresh ∧ b.IsNew k :=
    ⟨fun k a ha => ⟨a, ha, .refl a⟩, fun k b hb => .inl ⟨b, hb, .refl b⟩⟩
  have new : ∀ {job : FirmwareJob}, job.IsNew c.fresh → c.fresh < c'.fresh →
      (∀ k a, c.obj k = some a →
          ∃ b, Function.update c.obj c.fresh (some job) k = some b ∧ Kept a b) ∧
        ∀ k b, Function.update c.obj c.fresh (some job) k = some b →
          (∃ a, c.obj k = some a ∧ Kept a b) ∨ c.fresh ≤ k ∧ k < c'.fresh ∧ b.IsNew k := by
    intro job hn hlt
    constructor
    · intro k a ha
      have hk : k ≠ c.fresh := Nat.ne_of_lt (h.ids ha).2
      rw [Function.update_of_ne hk]; exact ⟨a, ha, .refl a⟩
    · intro k b hb
      by_cases hk : k = c.fresh
      · subst hk
        rw [Function.update_self] at hb; cases hb
        exact .inr ⟨le_rfl, hlt, hn⟩
      · rw [Function.update_of_ne hk] at hb; exact .inl ⟨b, hb, .refl b⟩
  cases hm with
  | edit hj he => exact upd hj (.of_status he.1 he.2.1)
  | create job hn hd hs => exact new hn (Nat.lt_succ_self _)
  | submit job hn hd hs ht => exact new hn (Nat.lt_succ_self _)
  | submitChain head dep hh hhd hd hdd =>
    constructor
    · intro k a ha
      have hk := (h.ids ha).2
      refine ⟨a, ?_, .refl a⟩
      simp only [withTokens, create, emit]
      rw [Function.update_of_ne (Nat.ne_of_lt (Nat.lt_succ_of_lt hk)),
        Function.update_of_ne (Nat.ne_of_lt hk)]
      exact ha
    · intro k b hb
      simp only [withTokens, create, emit] at hb ⊢
      by_cases hk : k = c.fresh + 1
      · subst hk
        rw [Function.update_self] at hb; cases hb
        exact .inr ⟨Nat.le_succ _, Nat.lt_succ_self _, hd⟩
      · rw [Function.update_of_ne hk] at hb
        by_cases hk' : k = c.fresh
        · subst hk'
          rw [Function.update_self] at hb; cases hb
          exact .inr ⟨le_rfl, Nat.lt_succ_of_lt (Nat.lt_succ_self _), hh⟩
        · rw [Function.update_of_ne hk'] at hb; exact .inl ⟨b, hb, .refl b⟩
  | place hj ht => exact upd hj (.of_status latched_identity latched_status)
  | placeChain hj ht => exact upd hj (.of_status latched_identity latched_status)
  | placeOwed ht hj => exact upd hj (.of_status latched_identity latched_status)
  | startExec ht hj hs =>
    exact upd hj (.of_active rfl (h.active_of_taken hj (by rw [ht]; simp) hs))
  | finishExec ht hj he hf =>
    have := h.active_of_exec hj (by rw [ht]; simp)
    exact upd hj (.of_active he.1 (by simp [FirmwareJob.isActive_iff, this]))
  | startDrive hj hp hs => exact upd hj (.of_active rfl (by simp [FirmwareJob.isActive_iff, hs]))
  | finishDrive ht hj he hf =>
    have := h.active_of_drive hj (by rw [ht]; simp)
    exact upd hj (.of_active he.1 (by simp [FirmwareJob.isActive_iff, this]))
  | reroute ht hj =>
    have := h.active_of_drive hj (by rw [ht]; simp)
    exact upd hj (.of_active (by simp) (by simp [FirmwareJob.isActive_iff, this]))
  | provision ht hj => exact upd hj (.of_status (by simp) (by simp))
  | toLocal hp hj => exact upd hj (.of_status (by simp) (by simp))
  | failPending hp hj hs he hf =>
    exact upd hj (.of_active he.1 (by simp [FirmwareJob.isActive_iff, hs]))
  | cancelMark hj hs hr => exact upd hj (.of_active rfl (by simp [FirmwareJob.isActive_iff, hs]))
  | finishQueued hj hs he hc =>
    exact upd hj (.of_active he.1 (by simp [FirmwareJob.isActive_iff, hs]))
  | refinish hj hs he hc => exact upd hj (.of_status he.1 (hc.trans hs.symm))
  | _ => exact same

/-! ### What a move does to views -/

theorem count_map_coe {f : JobId → Token} {t : Token} (js : List JobId) (h : ∀ d, f d ≠ t) :
    Multiset.count t (↑(js.map f) : Multiset Token) = 0 := by
  rw [Multiset.coe_count, List.count_eq_zero]
  intro hm
  obtain ⟨d, -, hd⟩ := List.mem_map.1 hm
  exact h d hd

theorem chainCount_map_coe {f : JobId → Token} {j : JobId} (js : List JobId) (h : ∀ d, (f d).chains j = 0) :
    chainCount j (↑(js.map f) : Multiset Token) = 0 := by
  unfold chainCount
  rw [Multiset.map_coe, Multiset.sum_coe, List.map_map]
  induction js with
  | nil => rfl
  | cons d js ih => simp [h d, ih]

@[simp] theorem count_owes_taken (j k : JobId) : (c.owes j).count (.taken k) = 0 := count_map_coe _ (by simp)
@[simp] theorem count_owes_exec (j k : JobId) : (c.owes j).count (.exec k) = 0 := count_map_coe _ (by simp)
@[simp] theorem count_owes_drive (j k : JobId) : (c.owes j).count (.drive k) = 0 := count_map_coe _ (by simp)
@[simp] theorem count_owes_settle (j k : JobId) : (c.owes j).count (.settle k) = 0 := count_map_coe _ (by simp)
@[simp] theorem count_owes_stage (j k : JobId) : (c.owes j).count (.stage k) = 0 := count_map_coe _ (by simp)
@[simp] theorem count_owes_fire (j k : JobId) : (c.owes j).count (.fire k) = 0 := count_map_coe _ (by simp)
@[simp] theorem chainCount_owes (j k : JobId) : chainCount k (c.owes j) = 0 := chainCount_map_coe _ (by simp [Token.chains])
theorem count_sweep (js : List JobId) (cause : CancelCause) (t : Token) (h : ∀ d, .sweep d cause ≠ t):
   Multiset.count t (↑(js.map (Token.sweep · cause)) : Multiset Token) = 0 := count_map_coe _ h
theorem chainCount_sweep (js : List JobId) (cause : CancelCause) (j : JobId) :
   chainCount j (↑(js.map (Token.sweep · cause)) : Multiset Token) = 0 := chainCount_map_coe _ (by simp [Token.chains])

/-- A waiting job that nothing holds is routed. -/
theorem route_view (j : JobId) (job : FirmwareJob) {v : View} (hv : v.Ok) (ht : v.track = 0)
    (hw : v.Waiting) (hst : v.status = some job.status) (hq : v.queued = c.queued.count j) (hpd : v.pending = c.pending.count j) :
    View.Ok { v with
      status := some (latched job).status
      queued := (c.route j job).queued.count j
      pending := (c.route j job).pending.count j } := by
  by_cases hp : FirmwareState.pooled job = true
  · have := hv.pend ht hw
    have hz : c.pending.count j = 0 := by unfold View.track at ht; omega
    have e : (c.route j job).pending.count j = v.pending + 1 := by
      simp [hp, hpd, hz, KeyList.count_add_self hz]
    rw [e]
    simpa [hp, hst, hq] using this
  · have := hv.queue ht hw
    simpa [hp, hst, hq] using this

theorem view_move (hI : c.Inv) (hm : Move ℓ c c') (k : JobId) : (c'.view k).Ok := by
  have h := hI.view
  have hf : ∀ j, c.fresh ≤ j → c.obj j = none := by
    intro j hj
    by_contra hne
    obtain ⟨job, hjob⟩ := Option.ne_none_iff_exists'.1 hne
    exact absurd (hI.ids hjob).2 (Nat.not_lt.2 hj)
  cases hm with
  | note ev he => exact h k
  | @edit _ j job job' hj he =>
    by_cases hk : k = j
    · subst hk
      simpa [view, hj, he.2.1] using h k
    · simpa [view, hk] using h k
  | resolve fl t src => simpa [view, Token.chains] using h k
  | create job hn hd =>
    by_cases hk : k = c.fresh
    · subst hk
      have := (h c.fresh).create (by simp [view, hf])
      simpa [view, Token.chains, hn.2.1, FirmwareJob.IsNew] using this
    · simpa [view, hk, Token.chains, Multiset.count_cons] using h k
  | submit job hn hd hs ht =>
    by_cases hk : k = c.fresh
    · subst hk
      have := (h c.fresh).create (by simp [view, hf])
      simpa [view, Token.chains, hn.2.1, ht] using this
    · simpa [view, hk, Token.chains, Multiset.count_cons, ht] using h k
  | submitChain head dep hh hhd hd hdd hs hds hht hdt hdf ht =>
    by_cases hk : k = c.fresh
    · subst hk
      have := (h c.fresh).createChain (by simp [view, hf])
      simpa [view, Token.chains, hh.2.1, ht, add_comm] using this
    · by_cases hk' : k = c.fresh + 1
      · subst hk'
        have := (h (c.fresh + 1)).createChain (by simp [view, hf])
        simpa [view, Token.chains, hd.2.1, ht, add_comm] using this
      · simpa [view, hk, hk', Ne.symm hk, Ne.symm hk', Token.chains, Multiset.count_cons, ht] using h k
  | @place _ j job ts hj ht => 
    by_cases hk : k = j
    · subst hk
      have hs : 0 < (c.view k).stage := by simp [view, ht]
      have := route_view k job (h k).unstage ((h k).track_unstage hs)
        ((h k).staged (Nat.add_pos_left hs _)) (by simp [view, hj]) rfl rfl
      simpa [view, ht, Token.chains] using this
    · by_cases hp : FirmwareState.pooled job = true <;>
        simpa [view, hk, hp, ht, Token.chains, Multiset.count_cons] using h k
  | @placeChain _ j d job ts hj ht =>
    obtain ⟨-, jd, -, hd, hdep⟩ := hI.chain (h := j) (d := d) (by rw [ht]; simp)
    have hne : j ≠ d := Nat.ne_of_lt (hI.deps.lt hd hdep)
    by_cases hk : k = j
    · subst hk
      have hs : 0 < (c.view k).chain := by
        simp [view, ht, Token.chains, hne.symm, Nat.pos_iff_ne_zero]
      have := route_view k job (h k).unchain ((h k).track_unchain hs)
        ((h k).staged (Nat.add_pos_right _ hs)) (by simp [view, hj]) rfl rfl
      simpa [view, ht, Token.chains, hne.symm] using this
    · by_cases hk' : k = d
      · subst hk'
        by_cases hp : FirmwareState.pooled job = true <;>
          simpa [view, hk, hne, hp, ht, Token.chains, Multiset.count_cons] using (h k).unchain
      · by_cases hp : FirmwareState.pooled job = true <;>
          simpa [view, hk, Ne.symm hk, Ne.symm hk', hp, ht, Token.chains, Multiset.count_cons]
            using h k
  | @unstage _ j ts ht =>
    by_cases hk : k = j
    · subst hk
      simpa [view, ht, Token.chains] using (h k).unstage
    · simpa [view, hk, ht, Token.chains, Multiset.count_cons] using h k
  | @unstageChain _ j d ts ht =>
    obtain ⟨-, jd, -, hd, hdep⟩ := hI.chain (h := j) (d := d) (by rw [ht]; simp)
    have hne : j ≠ d := Nat.ne_of_lt (hI.deps.lt hd hdep)
    by_cases hk : k = j
    · subst hk
      simpa [view, ht, Token.chains, hne.symm] using (h k).unchain
    · by_cases hk' : k = d
      · subst hk'
        simpa [view, hne, ht, Token.chains, Multiset.count_cons] using (h k).unchain
      · simpa [view, Ne.symm hk, Ne.symm hk', ht, Token.chains, Multiset.count_cons] using h k
  | prune => exact h k
  | clear => exact h k
  | saveBegin => exact h k
  | save => exact h k
  | @take _ j q hq =>
    by_cases hk : k = j
    · subst hk
      simpa [view, hq, Token.chains] using (h k).take (by simp [view, hq])
    · simpa [view, hk, hq, Token.chains, Multiset.count_cons] using h k
  | @skip _ j job ts ht hj hs =>
    by_cases hk : k = j
    · subst hk
      simpa [view, ht, Token.chains] using (h k).skip
    · simpa [view, hk, ht, Token.chains, Multiset.count_cons] using h k
  | @startExec _ j job ts ht hj hs =>
    by_cases hk : k = j
    · subst hk
      simpa [view, ht, Token.chains] using (h k).startExec (by simp [view, ht]) (by simp [view, hj, hs])
    · simpa [view, hk, ht, Token.chains, Multiset.count_cons] using h k
  | @finishExec _ j job job' ts ht hj he hd =>
    have hs : job'.status.isTerminal = true := by simpa [FirmwareJob.isActive] using he.2.1
    by_cases hk : k = j
    · subst hk
      simpa [view, ht, Token.chains] using (h k).finishExec hs (by simp [view, ht])
    · simpa [view, hk, ht, Token.chains, Multiset.count_cons] using h k
  | @startDrive _ j job pin src hj hp hs hpin hsrc =>
    by_cases hk : k = j
    · subst hk
      have hp' : 0 < (c.view k).pending := by simpa [view] using hp
      have hz : c.inFlight.count k = 0 := (h k).elsewhere.2.2.2 hp'
      simpa [view, Token.chains, KeyList.count_add_self hz, hz] using
        (h k).startDrive hp' (by simp [view, hj, hs])
    · simpa [view, hk, Token.chains, Multiset.count_cons] using h k
  | @finishDrive _ j job job' ts ht hj he hd =>
    have hs : job'.status.isTerminal = true := by simpa [FirmwareJob.isActive] using he.2.1
    by_cases hk : k = j
    · subst hk
      simpa [view, ht, Token.chains] using (h k).finishDrive hs (by simp [view, ht])
    · simpa [view, hk, ht, Token.chains, Multiset.count_cons] using h k
  | @release _ j ts ht => 
    by_cases hk : k = j
    · subst hk
      simpa [view, ht, Token.chains] using (h k).release (by simp [view, ht])
    · simpa [view, hk, ht, Token.chains, Multiset.count_cons] using h k
  | @reroute _ j job ts ht hj => 
    by_cases hk : k = j
    · subst hk
      by_cases hp : FirmwareState.pooled job.revertToPendingRemote = true
      · have hz : c.pending.count k = 0 := (h k).elsewhere.2.2.1 (by simp [view, ht])
        simpa [view, hp, ht, latched_status, Token.chains, KeyList.count_add_self hz, hz] using
          (h k).reroutePend (by simp [view, ht])
      · simpa [view, hp, ht, latched_status, Token.chains] using (h k).rerouteQueue (by simp [view, ht]) (.inl rfl)
    · by_cases hp : FirmwareState.pooled job.revertToPendingRemote = true <;>
        simpa [view, hk, hp, ht, Token.chains, Multiset.count_cons] using h k
  | @provision _ j job ts ht hj =>
    have hp : FirmwareState.pooled (job.clearRunState.applyBuildSource localJobBuildSource) = false := by
      simp [FirmwareState.pooled, localJobBuildSource]
    by_cases hk : k = j
    · subst hk
      have hr : job.status = .running := by
        have := ((h k).drive (by simp [view, ht])).1; simpa [view, hj] using this
      simpa [view, hp, ht, latched_status, Token.chains] using (h k).rerouteQueue (by simp [view, ht]) (.inr hr)
    · simpa [view, hk, hp, ht, Token.chains, Multiset.count_cons] using h k
  | @toLocal _ j job hpend hj => 
    have hp : FirmwareState.pooled (job.applyBuildSource localJobBuildSource) = false := by
      simp [FirmwareState.pooled, localJobBuildSource]
    by_cases hk : k = j
    · subst hk
      simpa [view, hp, hj, latched_status, Token.chains] using (h k).toLocal (by simp [view, hpend])
    · simpa [view, hk, hp, Token.chains, Multiset.count_cons] using h k
  | @unpend _ j job hj hs =>
    by_cases hk : k = j
    · subst hk
      simpa [view] using (h k).unpend
    · simpa [view, hk] using h k
  | @failPending _ j job job' hp hj hs he hf =>
    have ht : job'.status.isTerminal = true := by simpa [FirmwareJob.isActive] using he.2.1
    by_cases hk : k = j
    · subst hk
      simpa [view] using (h k).failPending ht (by simp [view, hp]) (by simp [view, hj, hs])
    · simpa [view, hk] using h k
  | beginSweep cause js =>
    simpa [view, count_sweep, chainCount_sweep] using h k
  | endSweep ht => simpa [view, ht, Token.chains] using h k
  | callCancel => exact h k
  | @cancelMark _ j job hj hs hr =>
    by_cases hk : k = j
    · subst hk
      simpa [view, Token.chains] using (h k).cancelMark (by simp [view, hj, hs])
    · simpa [view, hk, Token.chains, Multiset.count_cons] using h k
  | @fireCancelled _ j job ts ht hj =>
    by_cases hk : k = j
    · subst hk
      simpa [view, ht, Token.chains] using (h k).fireCancelled
    · simpa [view, hk, ht, Token.chains, Multiset.count_cons] using h k
  | @placeOwed _ p j prereq job ts ht hj hd hp hps hpd hs =>
    obtain ⟨job₀, p₀, prereq₀, hj₀, hd₀, hp₀, -, hc⟩ := hI.owed (d := j) (by rw [ht]; simp)
    rw [hj] at hj₀; cases hj₀
    rw [hd] at hd₀; cases hd₀
    rw [hp] at hp₀; cases hp₀
    obtain ⟨-, htr, hw⟩ := hc hps
    by_cases hk : k = j
    · subst hk
      have := route_view k job (h k) htr hw (by simp [view, hj]) rfl rfl
      simpa [view, ht, Token.chains] using this
    · by_cases hp : FirmwareState.pooled job = true <;>
        simpa [view, hk, hp, ht, Token.chains, Multiset.count_cons] using h k
  | @finishQueued _ j job job' hj hs he hc =>
    by_cases hk : k = j
    · subst hk
      simpa [view, hc] using (h k).finishQueued (by simp [view, hj, hs])
    · simpa [view, hk] using h k
  | dropOwed ht hj hs => simpa [view, ht, Token.chains] using h k
  | @refinish _ j job job' hj hs he hc =>
    by_cases hk : k = j
    · subst hk
      have hend : (c.view k).Ended := .inr (.inr (by simp [view, hj, hs]))
      simpa [view, hc] using (h k).refinish hend
    · simpa [view, hk] using h k
  | @lose _ t ts ht hl =>
    rcases hl with ⟨j, rfl⟩ | ⟨j, rfl⟩ | ⟨j, rfl⟩ <;> by_cases hk : k = j
    · subst hk; simpa [view, ht, Token.chains] using (h k).skip
    · simpa [view, hk, ht, Token.chains, Multiset.count_cons] using h k
    · subst hk; simpa [view, ht, Token.chains] using (h k).loseExec
    · simpa [view, hk, ht, Token.chains, Multiset.count_cons] using h k
    · subst hk; simpa [view, ht, Token.chains] using (h k).loseDrive
    · simpa [view, hk, ht, Token.chains, Multiset.count_cons] using h k

end Ledger

end DeviceBuilder
