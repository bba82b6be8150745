import DeviceBuilder.Queue.Compiles

/-!
# Attempts on servers

How often a job was started on a server, against its loss counter. A job that
waits in the pool was started once for each loss that is counted; one that is
driven, once more; and one that a lane is to start on a server, never yet.

* `remoteStarts`: the starts, as the log shows them.
* `Tally`: what the ledger says of one job; `Tally.Ok` is the invariant, for a
  value of the counter.
* `tally_move`: every move keeps it, but those of the pool; `tally_entry`: so do these,
  with what they do to the counters.
* `counted_reachable`: it holds in every world reached.
-/

namespace DeviceBuilder

open Runs Ledger

variable {c c' : Ledger} {ℓ : Label} {j k : JobId} {job job' : FirmwareJob} {r : ℕ}
  {losses : JobId → ℕ}

/-- `JOB_STARTED` of `j`, on a server. -/
def Ev.startsRemote (j : JobId) : Ev → Bool
  | .jobStarted job => job.jobId = j && job.source = .remote
  | _ => false

/-- How often the log shows `j` started on a server. -/
def remoteStarts (log : List Ev) (j : JobId) : ℕ := log.countP (Ev.startsRemote j)

@[simp] theorem remoteStarts_append (log log' : List Ev) (j : JobId) :
    remoteStarts (log ++ log') j = remoteStarts log j + remoteStarts log' j :=
  List.countP_append

@[simp] theorem remoteStarts_one (ev : Ev) (j : JobId) :
    remoteStarts [ev] j = if ev.startsRemote j then 1 else 0 := by
  unfold remoteStarts
  rw [List.countP_singleton]

theorem startsRemote_of_note {ev : Ev} (h : ev.isNote = true) : ev.startsRemote j = false := by
  cases ev <;> first | rfl | cases h

/-- How often a lane is going to take the job: from its queue, or from the gate. -/
def Ledger.waiting (c : Ledger) (j : JobId) : ℕ := c.queued.count j + c.tokens.count (.taken j)

/-- What the ledger says of the attempts on one job. -/
structure Tally where
  job : Option FirmwareJob
  staged : ℕ
  waits : ℕ
  pending : ℕ
  drive : ℕ
  starts : ℕ

def Ledger.tally (c : Ledger) (j : JobId) : Tally where
  job := c.obj j
  staged := c.staged j
  waits := c.waiting j
  pending := c.pending.count j
  drive := c.tokens.count (.drive j)
  starts := remoteStarts c.log j

namespace Tally

/-- **What holds of one job**, whose loss counter is `r`. -/
structure Ok (t : Tally) (r : ℕ) : Prop where
  fresh : t.job = none ∨ 0 < t.staged → t.starts = 0 ∧ r = 0
  held : ∀ job, t.job = some job → job.dependsOn ≠ none → job.source = .local
  /-- What a lane is going to start on a server was not started before. -/
  waits : ∀ job, t.job = some job → 0 < t.waits → job.source = .remote → t.starts = 0
  pending : ∀ job, t.job = some job → 0 < t.pending → FirmwareState.pooled job = true ∧
    (job.status = .queued → t.starts = r ∧ r ≤ maxServerLossRetries)
  drive : ∀ job, t.job = some job → 0 < t.drive → job.source = .remote ∧
    job.jobType ∈ remotePoolJobTypes ∧ t.starts = r + 1 ∧ r ≤ maxServerLossRetries
  bound : t.starts ≤ maxServerLossRetries + 1

/-- The same job, in no new place and not started since. -/
structure Less (t' t : Tally) : Prop where
  gone : t'.job = none → t.job = none
  job : ∀ job', t'.job = some job' → ∃ job, t.job = some job ∧ job'.identity = job.identity ∧
    job'.source = job.source ∧ (job'.status = .queued → job.status = .queued)
  staged : t'.staged ≤ t.staged
  waits : t'.waits ≤ t.waits
  pending : t'.pending ≤ t.pending
  drive : t'.drive ≤ t.drive
  starts : t'.starts = t.starts

variable {t t' : Tally}

theorem pooled_congr (hi : job'.identity = job.identity) (hs : job'.source = job.source) :
    FirmwareState.pooled job' = FirmwareState.pooled job := by
  have ht : job'.jobType = job.jobType := congrArg (·.2.2.1) hi
  unfold FirmwareState.pooled
  rw [hs, ht]

theorem Ok.less (h : t.Ok r) (hl : t'.Less t) : t'.Ok r := by
  have hstarts := hl.starts
  refine ⟨fun hf => ?_, fun b hb hd => ?_, fun b hb hw hr => ?_, fun b hb hp => ?_,
    fun b hb hd => ?_, hstarts ▸ h.bound⟩
  · rw [hstarts]
    exact h.fresh (hf.imp hl.gone fun hs => Nat.lt_of_lt_of_le hs hl.staged)
  · obtain ⟨a, ha, hi, hs, -⟩ := hl.job b hb
    rw [hs]
    exact h.held a ha (dependsOn_of_identity hi ▸ hd)
  · obtain ⟨a, ha, hi, hs, -⟩ := hl.job b hb
    rw [hstarts]
    exact h.waits a ha (Nat.lt_of_lt_of_le hw hl.waits) (hs ▸ hr)
  · obtain ⟨a, ha, hi, hs, hq⟩ := hl.job b hb
    obtain ⟨hpool, hcount⟩ := h.pending a ha (Nat.lt_of_lt_of_le hp hl.pending)
    rw [pooled_congr hi hs, hstarts]
    exact ⟨hpool, fun h => hcount (hq h)⟩
  · obtain ⟨a, ha, hi, hs, -⟩ := hl.job b hb
    have ht : b.jobType = a.jobType := congrArg (·.2.2.1) hi
    rw [hs, ht, hstarts]
    exact h.drive a ha (Nat.lt_of_lt_of_le hd hl.drive)

/-- Another counter for a job that is over, or that no server can get again. -/
theorem Ok.forget {n : ℕ} (h : t.Ok r) (hj : t.job = some job)
    (hp : 0 < t.pending → job.status ≠ .queued) (hd : t.drive = 0) (hn : n = 0 ∨ t.staged = 0) :
    t.Ok n := by
  refine ⟨fun hf => ?_, h.held, h.waits, fun b hb hpos => ?_, fun b hb hpos => ?_, h.bound⟩
  · rcases hf with hf | hf
    · rw [hj] at hf
      cases hf
    · exact ⟨(h.fresh (.inr hf)).1, hn.resolve_right (Nat.ne_of_gt hf)⟩
  · rw [hj] at hb
    cases hb
    exact ⟨(h.pending job hj hpos).1, fun hq => absurd hq (hp hpos)⟩
  · omega

/-- A job that was not started since the dashboard was, and is in no place yet. -/
theorem Ok.unplaced (hheld : ∀ job, t.job = some job → job.dependsOn ≠ none → job.source = .local)
    (hw : t.waits = 0) (hp : t.pending = 0) (hd : t.drive = 0) (hs : t.starts = 0) : t.Ok 0 := by
  refine ⟨fun _ => ⟨hs, rfl⟩, hheld, fun _ _ hpos => ?_, fun _ _ hpos => ?_, fun _ _ hpos => ?_, ?_⟩
  all_goals omega

/-- A lane starts a job: on a server, it is the first time. -/
theorem Ok.startExec (h : t.Ok r) (hj : t.job = some job) (hw : 0 < t.waits)
    (hj' : t'.job = some job.markRunning) (hst : t'.staged = 0) (hw' : t'.waits = 0)
    (hp : t'.pending = 0) (hd : t'.drive = 0)
    (hs : t'.starts = t.starts + if job.source = .remote then 1 else 0) : t'.Ok r := by
  refine ⟨fun hf => ?_, fun b hb hdb => ?_, fun _ _ hpos => ?_, fun _ _ hpos => ?_,
    fun _ _ hpos => ?_, ?_⟩
  · rw [hj'] at hf
    rcases hf with hf | hf
    · cases hf
    · omega
  · rw [hj'] at hb
    cases hb
    exact h.held job hj hdb
  · omega
  · omega
  · omega
  · have hbound := h.bound
    by_cases hr : job.source = .remote
    · have hfirst := h.waits job hj hw hr
      rw [if_pos hr] at hs
      omega
    · rw [if_neg hr] at hs
      omega

/-- **The pool starts a job on a server**: one start more. -/
theorem Ok.startDrive {src : JobBuildSource} (h : t.Ok r) (hj : t.job = some job)
    (hpos : 0 < t.pending) (hq : job.status = .queued) (hsrc : src.source = .remote)
    (hj' : t'.job = some (job.applyBuildSource src).markRunning) (hst : t'.staged = 0)
    (hw : t'.waits = 0) (hp : t'.pending = 0) (hs : t'.starts = t.starts + 1) : t'.Ok r := by
  obtain ⟨hpool, hcount⟩ := h.pending job hj hpos
  obtain ⟨hr, hmax⟩ := hcount hq
  simp only [FirmwareState.pooled, Bool.and_eq_true, decide_eq_true_eq] at hpool
  refine ⟨fun hf => ?_, fun b hb hdb => ?_, fun _ _ hpos => ?_, fun _ _ hpos => ?_,
    fun b hb _ => ?_, ?_⟩
  · rw [hj'] at hf
    rcases hf with hf | hf
    · cases hf
    · omega
  · rw [hj'] at hb
    cases hb
    -- what the pool holds depends on nothing
    have hlocal := h.held job hj hdb
    rw [hpool.1] at hlocal
    cases hlocal
  · omega
  · omega
  · rw [hj'] at hb
    cases hb
    exact ⟨hsrc, hpool.2, by omega, hmax⟩
  · omega

end Tally

/-- The object stays, and the job is in no new place. -/
theorem less_same (hobj : c'.obj k = c.obj k) (hst : c'.staged k ≤ c.staged k)
    (hw : c'.waiting k ≤ c.waiting k) (hp : c'.pending.count k ≤ c.pending.count k)
    (hd : c'.tokens.count (.drive k) ≤ c.tokens.count (.drive k))
    (hl : remoteStarts c'.log k = remoteStarts c.log k) : (c'.tally k).Less (c.tally k) where
  gone h := hobj.symm.trans h
  job b hb := ⟨b, hobj.symm.trans hb, rfl, rfl, id⟩
  staged := hst
  waits := hw
  pending := hp
  drive := hd
  starts := hl

/-- The object changes, but neither its kind nor its source, and it is not queued again. -/
theorem less_edit {a b : FirmwareJob} (ha : c.obj k = some a) (hb : c'.obj k = some b)
    (hi : b.identity = a.identity) (hs : b.source = a.source)
    (hq : b.status = .queued → a.status = .queued) (hst : c'.staged k ≤ c.staged k)
    (hw : c'.waiting k ≤ c.waiting k) (hp : c'.pending.count k ≤ c.pending.count k)
    (hd : c'.tokens.count (.drive k) ≤ c.tokens.count (.drive k))
    (hl : remoteStarts c'.log k = remoteStarts c.log k) : (c'.tally k).Less (c.tally k) where
  gone h := by
    change c'.obj k = none at h
    rw [hb] at h
    cases h
  job b' hb' := by
    change c'.obj k = some b' at hb'
    rw [hb] at hb'
    cases hb'
    exact ⟨a, ha, hi, hs, hq⟩
  staged := hst
  waits := hw
  pending := hp
  drive := hd
  starts := hl

/-- One object changes, but neither its kind nor its source, and it is not queued again. -/
theorem less_set {a b : FirmwareJob} (ha : c.obj j = some a)
    (hobj : c'.obj = Function.update c.obj j (some b)) (hi : b.identity = a.identity)
    (hs : b.source = a.source) (hq : b.status = .queued → a.status = .queued)
    (hst : c'.staged k ≤ c.staged k) (hw : c'.waiting k ≤ c.waiting k)
    (hp : c'.pending.count k ≤ c.pending.count k)
    (hd : c'.tokens.count (.drive k) ≤ c.tokens.count (.drive k))
    (hl : remoteStarts c'.log k = remoteStarts c.log k) : (c'.tally k).Less (c.tally k) := by
  by_cases hk : k = j
  · subst hk
    exact less_edit ha (by rw [hobj]; exact Function.update_self ..) hi hs hq hst hw hp hd hl
  · exact less_same (by rw [hobj]; exact Function.update_of_ne hk ..) hst hw hp hd hl

/-- The tokens hold no job that a section may still start. -/
structure Idle (us : Multiset Token) (k : JobId) : Prop where
  taken : us.count (.taken k) = 0
  drive : us.count (.drive k) = 0
  stage : us.count (.stage k) = 0
  chain : chainCount k us = 0

theorem idle_owes (c : Ledger) (j k : JobId) : Idle (c.owes j) k where
  taken := by simp [Ledger.owes]
  drive := by simp [Ledger.owes]
  stage := by simp [Ledger.owes]
  chain := chainCount_owes j k

theorem Idle.settle {us : Multiset Token} (h : Idle us k) (j : JobId) :
    Idle (.settle j ::ₘ us) k where
  taken := by simpa using h.taken
  drive := by simpa using h.drive
  stage := by simpa using h.stage
  chain := by simpa [Token.chains] using h.chain

/-- What a lane took is in no other place. -/
theorem idle_of_taken {ts : Multiset Token} (hI : c.Inv) (ht : c.tokens = .taken j ::ₘ ts) :
    Idle ts j ∧ c.queued.count j = 0 ∧ c.pending.count j = 0 := by
  have hone := (hI.view j).one
  simp only [View.track, Ledger.view] at hone
  have htaken : c.tokens.count (.taken j) = ts.count (.taken j) + 1 := by simp [ht]
  have hdrive : c.tokens.count (.drive j) = ts.count (.drive j) := by simp [ht]
  have hstage : c.tokens.count (.stage j) = ts.count (.stage j) := by simp [ht]
  have hchain : chainCount j c.tokens = chainCount j ts := by simp [ht, Token.chains]
  refine ⟨⟨?_, ?_, ?_, ?_⟩, ?_, ?_⟩ <;> omega

theorem count_drop_le (l : List JobId) (j k : JobId) : (KeyList.drop l j).count k ≤ l.count k :=
  List.filter_sublist.count_le k

/-- A job ends, and holds nothing that it did not hold. -/
theorem less_ends {a b : FirmwareJob} {ts us : Multiset Token} (ha : c.obj j = some a)
    (he : a.EndsAs b) (hobj : c'.obj = Function.update c.obj j (some b)) (hts : ts ≤ c.tokens)
    (ht : c'.tokens = ts + us) (hus : Idle us k) (hq : c'.queued = c.queued)
    (hp : c'.pending.count k ≤ c.pending.count k)
    (hl : remoteStarts c'.log k = remoteStarts c.log k) : (c'.tally k).Less (c.tally k) := by
  obtain ⟨htaken, hdrive, hstage, hchain⟩ := hus
  have hst : (c.withTokens ts).staged k ≤ c.staged k := staged_mono hts k
  have hw := Multiset.count_le_of_le (.taken k) hts
  have hd := Multiset.count_le_of_le (.drive k) hts
  refine less_set ha hobj he.1 (congrArg Prod.fst he.2.2.2.1) (fun hq => ?_) ?_ ?_ hp ?_ hl
  · have hact := he.2.1
    simp [FirmwareJob.isActive, hq, JobStatus.isTerminal] at hact
  · unfold Ledger.staged at hst ⊢
    rw [ht, Multiset.count_add, chainCount_add, hstage, hchain]
    exact hst
  · unfold Ledger.waiting
    rw [hq, ht, Multiset.count_add, htaken]
    omega
  · rw [ht, Multiset.count_add, hdrive]
    exact hd

/-- Fewer tokens, and all else as it was. -/
theorem less_tokens (hobj : c'.obj = c.obj) (hq : c'.queued = c.queued)
    (hp : c'.pending = c.pending) (ht : c'.tokens ≤ c.tokens) (hl : c'.log = c.log) : (c'.tally k).Less (c.tally k) := by
  have htaken := Multiset.count_le_of_le (.taken k) ht
  refine less_same (congrFun hobj k) (staged_mono ht k) ?_ (hp ▸ Nat.le_refl _)
    (Multiset.count_le_of_le _ ht) (hl ▸ rfl)
  unfold Ledger.waiting
  rw [hq]
  omega

/-- What is to be created is in no place. -/
theorem tally_fresh (hI : c.Inv) (hk : c.fresh ≤ k) : (c.tally k).job = none ∧
    (c.tally k).waits = 0 ∧ (c.tally k).pending = 0 ∧ (c.tally k).drive = 0 := by
  have hnone : c.obj k = none := by
    cases ho : c.obj k with
    | none => rfl
    | some job => exact absurd (hI.ids ho).2 (Nat.not_lt.2 hk)
  have hview : (c.view k).status = none := by simp [Ledger.view, hnone]
  have h0 := ((hI.view k).absent hview).1
  simp only [View.track, Ledger.view] at h0
  refine ⟨hnone, ?_, ?_, ?_⟩
  · show c.queued.count k + c.tokens.count (.taken k) = 0
    omega
  · show c.pending.count k = 0
    omega
  · show c.tokens.count (.drive k) = 0
    omega

/-- A job that is created: staged, and in no other place. -/
theorem Tally.Ok.create {t t' : Tally} (h : t.Ok r) (hn : t.job = none) (hj : t'.job = some job)
    (hd : job.dependsOn ≠ none → job.source = .local) (hw : t'.waits = 0) (hp : t'.pending = 0)
    (hdr : t'.drive = 0) (hs : t'.starts = t.starts) : t'.Ok r := by
  obtain ⟨hs0, hr0⟩ := h.fresh (.inl hn)
  refine ⟨fun _ => ⟨hs.trans hs0, hr0⟩, fun b hb hdb => ?_, fun _ _ hpos => ?_, fun _ _ hpos => ?_,
    fun _ _ hpos => ?_, by omega⟩
  · rw [hj] at hb
    cases hb
    exact hd hdb
  all_goals omega

/-- A job that is routed leaves the place where it was. -/
theorem tally_route {ts : Multiset Token} (hts : ts ≤ c.tokens)
    (h : ∀ k, k ≠ j → (c.tally k).Ok (losses k))
    (hbound : remoteStarts c.log j ≤ maxServerLossRetries + 1)
    (hd : job.dependsOn ≠ none → job.source = .local) (hw : (c.withTokens ts).waiting j = 0)
    (hdr : ts.count (.drive j) = 0) (hst : (c.withTokens ts).staged j = 0)
    (hremote : job.source = .remote → remoteStarts c.log j = 0)
    (hpool : FirmwareState.pooled job = true →
      remoteStarts c.log j = losses j ∧ losses j ≤ maxServerLossRetries) (k : JobId) :
    (((c.route j job).withTokens ts).tally k).Ok (losses k) := by
  have hlog : remoteStarts ((c.route j job).withTokens ts).log k = remoteStarts c.log k := by
    simp [Ev.startsRemote]
  by_cases hk : k = j
  · subst hk
    have hsrc : (latched job).source = job.source := by unfold latched; split <;> rfl
    have hjob : (((c.route k job).withTokens ts).tally k).job = some (latched job) :=
      Function.update_self ..
    refine ⟨fun hf => ?_, fun b hb hdb => ?_, fun b hb hpos hr => ?_, fun b hb hpos => ?_,
      fun b hb hpos => ?_, hlog.trans_le hbound⟩
    · rcases hf with hf | hf
      · rw [hjob] at hf
        cases hf
      · exact absurd hst (Nat.ne_of_gt hf)
    all_goals
      rw [hjob] at hb
      cases hb
    · rw [dependsOn_of_identity latched_identity] at hdb
      rw [hsrc]
      exact hd hdb
    · exact hlog.trans (hremote (hsrc ▸ hr))
    · by_cases hpooled : FirmwareState.pooled job = true
      · obtain ⟨hs, hr⟩ := hpool hpooled
        exact ⟨(Tally.pooled_congr latched_identity hsrc).trans hpooled,
          fun _ => ⟨hlog.trans hs, hr⟩⟩
      · simp [Ledger.tally, hpooled] at hpos
    · exact absurd hdr (Nat.ne_of_gt hpos)
  · refine (h k hk).less (less_same (Function.update_of_ne hk ..) (staged_mono hts k) ?_ ?_
      (Multiset.count_le_of_le _ hts) hlog)
    · have htaken := Multiset.count_le_of_le (.taken k) hts
      unfold Ledger.waiting
      simp only [Ledger.withTokens, Ledger.route]
      split
      · omega
      · rw [Multiset.count_cons_of_ne hk]
        omega
    · by_cases hpooled : FirmwareState.pooled job = true <;> simp [hpooled, hk]

/-- What the pool holds or drives is in no other place. -/
theorem tally_place (hI : c.Inv) (h : 0 < (c.view j).pending + (c.view j).drive) :
    c.waiting j = 0 ∧ c.staged j = 0 := by
  obtain ⟨hlane, hst⟩ := onLane_of_pool hI h
  unfold Ledger.onLane at hlane
  unfold Ledger.waiting
  omega

theorem waiting_withTokens {ts : Multiset Token} (hts : ts ≤ c.tokens) (k : JobId) :
    (c.withTokens ts).waiting k ≤ c.waiting k := by
  have htaken := Multiset.count_le_of_le (.taken k) hts
  show c.queued.count k + ts.count (.taken k) ≤ c.queued.count k + c.tokens.count (.taken k)
  omega

/-- **Every move but the pool's own** keeps the tallies, for the same counters. -/
theorem tally_move (hm : Move ℓ c c') (hp : ℓ ≠ .pool) (hI : c.Inv)
    (h : ∀ k, (c.tally k).Ok (losses k)) (k : JobId) : (c'.tally k).Ok (losses k) := by
  have less : (c'.tally k).Less (c.tally k) → (c'.tally k).Ok (losses k) := (h k).less
  have tokens : ∀ {c' : Ledger}, c'.obj = c.obj → c'.queued = c.queued → c'.pending = c.pending →
      c'.tokens ≤ c.tokens → c'.log = c.log → (c'.tally k).Ok (losses k) :=
    fun ho hq hp ht hl => (h k).less (less_tokens ho hq hp ht hl)
  cases hm with
  | note ev he =>
    refine less (less_same rfl (Nat.le_refl _) (Nat.le_refl _) (Nat.le_refl _) (Nat.le_refl _) ?_)
    simp [startsRemote_of_note he]
  | prune | clear | saveBegin | save => exact h k
  | callCancel j cause hc =>
    refine less (less_same rfl (Nat.le_refl _) (Nat.le_refl _) (Nat.le_refl _) (Nat.le_refl _) ?_)
    simp [Ev.startsRemote]
  | resolve fl t src =>
    refine less (less_same rfl ?_ ?_ (Nat.le_refl _) ?_ rfl) <;>
      simp [Ledger.staged, Ledger.waiting, Token.chains]
  | beginSweep cause js =>
    refine less (less_same rfl ?_ ?_ (Nat.le_refl _) ?_ rfl) <;>
      simp [Ledger.staged, Ledger.waiting, chainCount_sweep]
  | release ht | endSweep ht | skip ht | dropOwed ht | unstage ht | unstageChain ht | lose ht =>
    exact tokens rfl rfl rfl ((Multiset.le_cons_self _ _).trans_eq ht.symm) rfl
  | @edit _ j a b hj hab =>
    by_cases hk : k = j
    · subst hk
      exact less (less_edit hj (Function.update_self ..) hab.1 (congrArg Prod.fst hab.2.2.2.1)
        (fun hq => hab.2.1 ▸ hq) (Nat.le_refl _) (Nat.le_refl _) (Nat.le_refl _) (Nat.le_refl _)
        rfl)
    · exact less (less_same (Function.update_of_ne hk ..) (Nat.le_refl _) (Nat.le_refl _)
        (Nat.le_refl _) (Nat.le_refl _) rfl)
  | @create _ a hn hd hs =>
    by_cases hk : k = c.fresh
    · subst hk
      obtain ⟨hnone, hw, hpd, hdr⟩ := tally_fresh hI (Nat.le_refl c.fresh)
      refine (h c.fresh).create hnone (Function.update_self ..) (fun hne => absurd hd hne) ?_ hpd
        ?_ rfl
      · simpa [Ledger.tally, Ledger.waiting] using hw
      · simpa [Ledger.tally] using hdr
    · refine less (less_same (Function.update_of_ne hk ..) ?_ ?_ (Nat.le_refl _) ?_ rfl) <;>
        simp [Ledger.staged, Ledger.waiting, Token.chains, hk]
  | @submit _ a fl source ts hn hd hs ht =>
    by_cases hk : k = c.fresh
    · subst hk
      obtain ⟨hnone, hw, hpd, hdr⟩ := tally_fresh hI (Nat.le_refl c.fresh)
      refine (h c.fresh).create hnone (Function.update_self ..) (fun hne => absurd hd hne) ?_ hpd
        ?_ ?_
      · simpa [Ledger.tally, Ledger.waiting, ht] using hw
      · simpa [Ledger.tally, ht] using hdr
      · simp [Ledger.tally, Ev.startsRemote]
    · refine less (less_same (Function.update_of_ne hk ..) ?_ ?_ (Nat.le_refl _) ?_ ?_) <;>
        simp [Ledger.staged, Ledger.waiting, Token.chains, hk, ht, Ev.startsRemote]
  | @submitChain _ head dep fl source ts hh hhd hd hdd hs hds hht hdt hdf ht =>
    have hne : c.fresh ≠ c.fresh + 1 := (Nat.succ_ne_self _).symm
    by_cases hk : k = c.fresh
    · subst hk
      obtain ⟨hnone, hw, hpd, hdr⟩ := tally_fresh hI (Nat.le_refl c.fresh)
      have hhead : Function.update (Function.update c.obj c.fresh (some head)) (c.fresh + 1)
          (some dep) c.fresh = some head := by
        rw [Function.update_of_ne hne, Function.update_self]
      refine (h c.fresh).create hnone hhead (fun hne => absurd hhd hne) ?_ hpd ?_ ?_
      · simpa [Ledger.tally, Ledger.waiting, ht] using hw
      · simpa [Ledger.tally, ht] using hdr
      · simp [Ledger.tally, Ev.startsRemote]
    by_cases hk' : k = c.fresh + 1
    · subst hk'
      obtain ⟨hnone, hw, hpd, hdr⟩ := tally_fresh hI (Nat.le_succ c.fresh)
      have hdep : Function.update (Function.update c.obj c.fresh (some head)) (c.fresh + 1)
          (some dep) (c.fresh + 1) = some dep := Function.update_self ..
      refine (h _).create hnone hdep (fun _ => hds) ?_ hpd ?_ ?_
      · simpa [Ledger.tally, Ledger.waiting, ht] using hw
      · simpa [Ledger.tally, ht] using hdr
      · simp [Ledger.tally, Ev.startsRemote]
    · refine less (less_same ?_ ?_ ?_ (Nat.le_refl _) ?_ ?_)
      · simp [hk, hk']
      all_goals simp [Ledger.staged, Ledger.waiting, Token.chains, Ne.symm hk, Ne.symm hk', ht,
        Ev.startsRemote]
  | @take _ j q hq =>
    refine less (less_same rfl ?_ ?_ (Nat.le_refl _) ?_ rfl)
    · simp [Ledger.staged, Token.chains]
    · unfold Ledger.waiting
      rw [hq]
      by_cases hk : k = j
      · subst hk
        simp
        omega
      · simp [hk]
    · simp
  | @unpend _ j a hj hs =>
    exact less (less_same rfl (Nat.le_refl _) (Nat.le_refl _) (count_drop_le ..) (Nat.le_refl _)
      rfl)
  | @fireCancelled _ j a ts ht hj =>
    refine less (less_same rfl ?_ ?_ (Nat.le_refl _) ?_ ?_) <;>
      simp [Ledger.staged, Ledger.waiting, Token.chains, ht, Ev.startsRemote]
  | @place _ j a ts hj ht =>
    have hle : ts ≤ c.tokens := (Multiset.le_cons_self _ _).trans_eq ht.symm
    have hpos : 0 < c.tokens.count (.stage j) := by simp [ht]
    have hfree := (hI.view j).elsewhere.1 hpos
    simp only [View.track, Ledger.view] at hfree
    obtain ⟨hstarts, hloss⟩ := (h j).fresh (.inr (Nat.add_pos_left hpos _))
    have hw := waiting_withTokens hle j
    have hdr := Multiset.count_le_of_le (.drive j) hle
    have hst : (c.withTokens ts).staged j = 0 := by
      have hcount : c.tokens.count (.stage j) = ts.count (.stage j) + 1 := by simp [ht]
      have hchain : chainCount j c.tokens = chainCount j ts := by simp [ht, Token.chains]
      show ts.count (.stage j) + chainCount j ts = 0
      omega
    refine tally_route hle (fun k _ => h k) (h j).bound ((h j).held a hj) ?_ ?_ hst
      (fun _ => hstarts) (fun _ => ⟨hstarts.trans hloss.symm, hloss ▸ Nat.zero_le _⟩) k
    · unfold Ledger.waiting at hw ⊢
      omega
    · omega
  | @placeChain _ head d a ts hj ht =>
    have hle : ts ≤ c.tokens := (Multiset.le_cons_self _ _).trans_eq ht.symm
    have hpos : 0 < chainCount head c.tokens :=
      chainCount_pos (ht ▸ Multiset.mem_cons_self ..) (.inl rfl)
    have hfree := (hI.view head).elsewhere.2.1 hpos
    simp only [View.track, Ledger.view] at hfree
    obtain ⟨hstarts, hloss⟩ := (h head).fresh (.inr (Nat.add_pos_right _ hpos))
    have hw := waiting_withTokens hle head
    have hdr := Multiset.count_le_of_le (.drive head) hle
    have hst : (c.withTokens ts).staged head = 0 := by
      have hcount : c.tokens.count (.stage head) = ts.count (.stage head) := by simp [ht]
      have hchain : 1 + chainCount head ts ≤ chainCount head c.tokens := by
        rw [ht, chainCount_cons]
        simp [Token.chains]
      show ts.count (.stage head) + chainCount head ts = 0
      omega
    refine tally_route hle (fun k _ => h k) (h head).bound ((h head).held a hj) ?_ ?_ hst
      (fun _ => hstarts) (fun _ => ⟨hstarts.trans hloss.symm, hloss ▸ Nat.zero_le _⟩) k
    · unfold Ledger.waiting at hw ⊢
      omega
    · omega
  | @placeOwed _ p d pre a ts ht hj hd hpre hps hpd hs =>
    have hle : ts ≤ c.tokens := (Multiset.le_cons_self _ _).trans_eq ht.symm
    obtain ⟨a', p', pre', hj', hd', hpre', -, hfree⟩ := hI.owed (ht ▸ Multiset.mem_cons_self ..)
    rw [hj] at hj'
    cases hj'
    rw [hd] at hd'
    cases hd'
    rw [hpre] at hpre'
    cases hpre'
    -- a job held on another is local
    have hlocal : a.source = .local := (h d).held a hj (by rw [hd]; exact Option.some_ne_none p)
    have htrack := (hfree hps).2.1
    simp only [View.track, Ledger.view] at htrack
    have hw := waiting_withTokens hle d
    have hst : (c.withTokens ts).staged d ≤ c.staged d := staged_mono hle d
    have hdr := Multiset.count_le_of_le (.drive d) hle
    refine tally_route hle (fun k _ => h k) (h d).bound ((h d).held a hj) ?_ ?_ ?_
      (fun hr => ?_) (fun hpool => ?_) k
    · unfold Ledger.waiting at hw ⊢
      omega
    · omega
    · unfold Ledger.staged at hst ⊢
      omega
    · rw [hlocal] at hr
      cases hr
    · simp [FirmwareState.pooled, hlocal] at hpool
  | @provision _ j a ts ht hj =>
    have hle : ts ≤ c.tokens := (Multiset.le_cons_self _ _).trans_eq ht.symm
    have hpos : 0 < (c.view j).pending + (c.view j).drive := by
      simp only [Ledger.view, ht, Multiset.count_cons_self]
      omega
    obtain ⟨hw, hst⟩ := tally_place hI hpos
    have hone := (hI.view j).one
    simp only [View.track, Ledger.view, ht, Multiset.count_cons_self] at hone
    show (((c.route j (a.clearRunState.applyBuildSource localJobBuildSource)).withTokens ts).tally
      k).Ok (losses k)
    refine tally_route hle (fun k _ => h k) (h j).bound (fun _ => rfl) ?_ ?_ ?_ ?_ ?_ k
    · exact Nat.le_zero.1 ((waiting_withTokens hle j).trans_eq hw)
    · omega
    · exact Nat.le_zero.1 ((staged_mono hle j).trans_eq hst)
    · intro h
      cases h
    · intro h
      cases h
  | @toLocal _ j a hpend hj =>
    have hpos : 0 < (c.view j).pending := List.count_pos_iff.2 hpend
    obtain ⟨hw, hst⟩ := tally_place hI (Nat.add_pos_left hpos _)
    have hone := (hI.view j).one
    simp only [View.track, Ledger.view] at hone hpos
    show (((c.route j (a.applyBuildSource localJobBuildSource)).withTokens c.tokens).tally k).Ok
      (losses k)
    refine tally_route (le_refl c.tokens) (fun k _ => h k) (h j).bound (fun _ => rfl) hw (by omega)
      hst ?_ ?_ k
    · intro h
      cases h
    · intro h
      cases h
  | @startExec _ j a ts ht hj hs =>
    have hle : ts ≤ c.tokens := (Multiset.le_cons_self _ _).trans_eq ht.symm
    by_cases hk : k = j
    · subst hk
      obtain ⟨hidle, hq, hpend⟩ := idle_of_taken hI ht
      have hw : 0 < (c.tally k).waits := by
        show 0 < c.queued.count k + c.tokens.count (.taken k)
        rw [ht, Multiset.count_cons_self]
        omega
      refine (h k).startExec hj hw (Function.update_self ..) ?_ ?_ hpend ?_ ?_
      · simp [Ledger.tally, Ledger.staged, Token.chains, hidle.stage, hidle.chain]
      · simp [Ledger.tally, Ledger.waiting, hidle.taken, hq]
      · simp [Ledger.tally, hidle.drive]
      · simp [Ledger.tally, Ev.startsRemote, (hI.ids hj).1, FirmwareJob.markRunning]
    · refine less (less_same (Function.update_of_ne hk ..) ?_ ?_ (Nat.le_refl _) ?_ ?_)
      · simp [Ledger.staged, ht, Token.chains]
      · have htaken := Multiset.count_le_of_le (.taken k) hle
        simp [Ledger.waiting]
        omega
      · simp [ht]
      · simp [Ev.startsRemote, FirmwareJob.markRunning, (hI.ids hj).1, Ne.symm hk]
  | @finishExec _ j a b ts ht hj he hf =>
    refine less (less_ends hj he rfl ((Multiset.le_cons_self _ _).trans_eq ht.symm) rfl
      (idle_owes ..) rfl (Nat.le_refl _) ?_)
    simp [Ev.startsRemote]
  | @finishDrive _ j a b ts ht hj he hf =>
    refine less (less_ends hj he rfl ((Multiset.le_cons_self _ _).trans_eq ht.symm)
      (Multiset.add_cons ..).symm ((idle_owes ..).settle j) rfl (Nat.le_refl _) ?_)
    simp [Ev.startsRemote]
  | @failPending _ j a b hpend hj hs he hf =>
    refine less (less_ends hj he rfl (le_refl _) rfl (idle_owes ..) rfl ?_ ?_)
    · exact count_drop_le ..
    · simp [Ev.startsRemote]
  | @cancelMark _ j a hj hs hr =>
    have he : a.EndsAs (a.markTerminal .cancelled) := ⟨rfl, rfl, rfl, rfl, id⟩
    have hidle : Idle {.fire j} k := by constructor <;> simp [chainCount, Token.chains]
    have hts : Token.fire j ::ₘ c.tokens = c.tokens + {.fire j} := by
      rw [← Multiset.singleton_add, Multiset.add_comm]
    exact less (less_ends hj he rfl (le_refl _) hts hidle rfl (count_drop_le ..) rfl)
  | @finishQueued _ j a b hj hs he hc | @refinish _ j a b hj hs he hc =>
    refine less (less_ends hj he rfl (le_refl _) rfl (idle_owes ..) rfl (Nat.le_refl _) ?_)
    simp [Ev.startsRemote]
  | startDrive | reroute => exact absurd rfl hp

/-- **Every entry** keeps the tallies. -/
theorem tally_entry {a b : Account} (he : Entry ℓ a b) (hI : a.ledger.Inv)
    (h : ∀ k, (a.ledger.tally k).Ok (a.losses k)) (k : JobId) :
    (b.ledger.tally k).Ok (b.losses k) := by
  cases he with
  | move hm hp => exact tally_move hm hp hI h k
  | @startDrive c r j a pin src hj hpend hq hpin hsrc hsp =>
    by_cases hk : k = j
    · subst hk
      have hpos : 0 < (c.view k).pending := List.count_pos_iff.2 hpend
      obtain ⟨hw, hst⟩ := tally_place hI (Nat.add_pos_left hpos _)
      refine (h k).startDrive hj hpos hq hsrc (Function.update_self ..) ?_ ?_ ?_ ?_
      · simpa [Ledger.tally, Ledger.staged, Token.chains] using hst
      · simpa [Ledger.tally, Ledger.waiting] using hw
      · simp [Ledger.tally]
      · simp [Ledger.tally, Ev.startsRemote, FirmwareJob.markRunning, FirmwareJob.applyBuildSource,
          hsrc, (hI.ids hj).1]
    · refine (h k).less (less_same (Function.update_of_ne hk ..) ?_ ?_ (count_drop_le ..) ?_ ?_)
      · simp [Ledger.staged, Token.chains]
      · simp [Ledger.waiting]
      · simp [hk]
      · simp [Ev.startsRemote, FirmwareJob.markRunning, FirmwareJob.applyBuildSource,
          (hI.ids hj).1, Ne.symm hk]
  | @reroute c r j a ts ht hj hr =>
    have hle : ts ≤ c.tokens := (Multiset.le_cons_self _ _).trans_eq ht.symm
    have hcount : c.tokens.count (.drive j) = ts.count (.drive j) + 1 := by simp [ht]
    have hpos : 0 < (c.view j).drive := by
      show 0 < c.tokens.count (.drive j)
      omega
    obtain ⟨hw, hst⟩ := tally_place hI (Nat.add_pos_right _ hpos)
    obtain ⟨hsrc, htype, hstarts, -⟩ := (h j).drive a hj hpos
    have hone := (hI.view j).one
    simp only [View.track, Ledger.view] at hone
    have hself : Function.update r j (r j + 1) j = r j + 1 := Function.update_self ..
    show (((c.route j a.revertToPendingRemote).withTokens ts).tally k).Ok
      (Function.update r j (r j + 1) k)
    refine tally_route hle (fun k hk => ?_) (h j).bound (fun hd => ?_) ?_ (by omega) ?_ ?_
      (fun _ => ?_) k
    · rw [Function.update_of_ne hk]
      exact h k
    · -- a job that is held is local, and no server runs it
      have hlocal := (h j).held a hj hd
      rw [hsrc] at hlocal
      cases hlocal
    · exact Nat.le_zero.1 ((waiting_withTokens hle j).trans_eq hw)
    · exact Nat.le_zero.1 ((staged_mono hle j).trans_eq hst)
    · simp
    · rw [hself]
      exact ⟨hstarts, hr⟩
  | @forget _ c r j n hs =>
    by_cases hk : k = j
    · subst hk
      obtain ⟨⟨a, hj, hp⟩, hd, hst⟩ := hs
      have hn : (Function.update r k n) k = n := Function.update_self ..
      show (c.tally k).Ok (Function.update r k n k)
      rw [hn]
      exact (h k).forget hj (fun hpos => hp (List.count_pos_iff.1 hpos))
        (Multiset.count_eq_zero.2 hd) hst
    · have hn : (Function.update r j n) k = r k := Function.update_of_ne hk ..
      show (c.tally k).Ok (Function.update r j n k)
      rw [hn]
      exact h k

/-! ### Runs -/

/-- **The attempts are counted**, for every job; the disk knows where a held job is built. -/
structure Account.Counted (a : Account) : Prop where
  tally : ∀ k, (a.ledger.tally k).Ok (a.losses k)
  disk : ∀ row ∈ a.ledger.disk, row.dependsOn ≠ none → row.source = .local

theorem disk_move (hm : Move ℓ c c') :
    c'.disk = c.disk ∨ ∃ ids : List JobId, c'.disk = ids.filterMap c.obj := by
  cases hm with
  | save => exact .inr ⟨_, rfl⟩
  | _ => exact .inl rfl

theorem counted_entry {a b : Account} (he : Entry ℓ a b) (hI : a.ledger.Inv) (h : a.Counted) :
    b.Counted := by
  refine ⟨tally_entry he hI h.tally, fun row hrow hd => ?_⟩
  cases he with
  | move hm hp =>
    rcases disk_move hm with hdisk | ⟨ids, hdisk⟩
    · exact h.disk row (hdisk ▸ hrow) hd
    · obtain ⟨k, -, hk⟩ := List.mem_filterMap.1 (hdisk ▸ hrow)
      exact (h.tally k).held row hk hd
  | startDrive | reroute | forget => exact h.disk row hrow hd

/-- Before anything starts, and with every counter at `0`. -/
structure Ledger.Unstarted (c : Ledger) : Prop where
  tally : ∀ k, (c.tally k).Ok 0
  starts : ∀ k, remoteStarts c.log k = 0
  disk : ∀ row ∈ c.disk, row.dependsOn ≠ none → row.source = .local

theorem unstarted_loaded (hd : ∀ row ∈ c.disk, row.dependsOn ≠ none → row.source = .local)
    (table : List JobId) : (c.loaded table).Unstarted := by
  refine ⟨fun k => .unplaced (fun b hb hdep => ?_) ?_ rfl ?_ rfl, fun _ => rfl, hd⟩
  rotate_left
  · simp [Ledger.tally, Ledger.loaded, Ledger.waiting]
  · simp [Ledger.tally, Ledger.loaded]
  obtain ⟨row, hrow, rfl⟩ := Option.map_eq_some_iff.1 hb
  obtain ⟨hm, -⟩ := lookup_some hrow
  rw [dependsOn_of_identity row.restore_identity] at hdep
  have hlocal := hd row hm hdep
  unfold FirmwareJob.restore
  split
  · rw [restoreForRequeue_source, hlocal]
    simp
  · exact hlocal

theorem unstarted_round {js : List JobId} (hr : Restoring c (j :: js)) (hj : c.obj j = some job)
    (hround : World.Routed c j job c') (h : c.Unstarted) : c'.Unstarted := by
  cases hround with
  | held => exact h
  | placed _ =>
    have hspot := (hr.todo j (by simp)).1
    unfold Ledger.spot at hspot
    refine ⟨fun k => ?_, fun k => ?_, h.disk⟩
    · show (((c.route j job).withTokens c.tokens).tally k).Ok ((fun _ => 0 : JobId → ℕ) k)
      refine tally_route (le_refl _) (fun k _ => h.tally k) (h.tally j).bound
        ((h.tally j).held job hj) ?_ ?_ ?_ (fun _ => h.starts j)
        (fun _ => ⟨h.starts j, Nat.zero_le _⟩) k
      · show c.queued.count j + c.tokens.count (.taken j) = 0
        rw [hr.tokens, Multiset.count_zero]
        omega
      · rw [hr.tokens, Multiset.count_zero]
      · simp [Ledger.staged, hr.tokens, chainCount]
    · simpa [Ev.startsRemote] using h.starts k
  | cancelled =>
    refine ⟨fun k => ?_, h.starts, h.disk⟩
    exact (h.tally k).less (less_set hj rfl rfl rfl (by simp) (Nat.le_refl _) (Nat.le_refl _)
      (Nat.le_refl _) (Nat.le_refl _) rfl)

namespace World

variable {w : World} {a : Action}

theorem onJobTerminal_losses : (w.onJobTerminal j).losses = w.losses := by
  have hrevert : (w.revertLocked j).1.losses = w.losses := by
    unfold revertLocked
    split
    · rfl
    · split <;> rfl
  unfold onJobTerminal startRevert
  split
  · rfl
  · split
    · split
      · exact hrevert
      · rfl
    · rfl

/-- A load resets counters only. -/
theorem restoreToLane_losses (h : w.losses = fun _ => 0) :
    (w.restoreToLane j).losses = fun _ => 0 := by
  have hplace : ∀ job, w.fw.obj j = some job → (w.placeOnLane j).losses = fun _ => 0 := by
    intro job hj
    rcases placeOnLane_losses hj with hl | ⟨hl, -⟩
    · exact hl.trans h
    · rw [hl, h]
      exact Function.update_eq_self_iff.2 rfl
  have hcancel : ∀ f, ((w.modifyJob j f).onJobTerminal j).losses = fun _ => 0 :=
    fun f => onJobTerminal_losses.trans h
  unfold restoreToLane
  split
  · exact h
  · rename_i job hj
    split
    · exact hplace job hj
    · split
      · split
        · exact h
        · exact hcancel _
      · exact hcancel _

theorem restart_losses (w : World) (rows : List FirmwareJob)
    (devices : Configuration → Option Device) (offloader : Option OffloaderState)
    (uploadWorkers : ℕ) :
    (w.restart rows devices offloader uploadWorkers).losses = fun _ => 0 := by
  have hentry : ∀ (rows : List FirmwareJob) (fw : FirmwareState),
      (rows.foldl restoreJobEntry fw).remoteDispatch = fw.remoteDispatch := by
    intro rows
    induction rows with
    | nil => intro fw; rfl
    | cons row rows ih => intro fw; exact ih _
  have hlane : ∀ (js : List JobId) (v : World), v.losses = (fun _ => 0) →
      (js.foldl restoreToLane v).losses = fun _ => 0 := by
    intro js
    induction js with
    | nil => intro v hv; exact hv
    | cons j js ih => intro v hv; exact ih _ (restoreToLane_losses hv)
  unfold restart loadJobs
  refine hlane _ _ ?_
  exact congrArg RemoteDispatchState.retries (hentry rows _)

end World

/-- **Every step keeps the attempts counted.** -/
theorem counted_step {w : World} (hI : (w.ledger 0).Inv) (h : (w.account 0).Counted) (a : Action) :
    ((w.step a).account 0).Counted := by
  by_cases hr : ∃ rows devices offloader workers, a = .restart rows devices offloader workers
  · obtain ⟨rows, devices, offloader, workers, rfl⟩ := hr
    simp only [World.step]
    split
    · rename_i hp
      have hrest := (World.restart_invariant (P := fun _ c => c.Unstarted) hI hp devices offloader
        workers (unstarted_loaded h.disk _)
        fun hr _ hj _ hround hc => unstarted_round hr hj hround hc).2
      refine ⟨fun k => ?_, hrest.disk⟩
      unfold World.account
      rw [World.restart_losses]
      exact hrest.tally k
    · exact h
  · have hrun := World.step_entries
      (fun rows devices offloader workers h => hr ⟨rows, devices, offloader, workers, h⟩) hI
    refine (hrun.invariant (I := fun a => a.ledger.Inv ∧ a.Counted) ⟨hI, h⟩ ?_).2
    intro ℓ a b _ he hab
    exact ⟨hab.1.entry he, counted_entry he hab.1 hab.2⟩

/-- **In every world reached, the attempts are counted.** -/
theorem counted_reachable {ok : World → Action → Prop} {w : World} (h : Reachable ok w) :
    (w.account 0).Counted := by
  have hinit : (({} : World).account 0).Counted := by
    refine ⟨fun k => .unplaced ?_ ?_ rfl ?_ rfl, ?_⟩ <;>
      simp [World.account, World.ledger, Ledger.tally, Ledger.waiting, FirmwareState.laneQueued,
        taskTokens]
  have key := h.invariant (I := fun w => (w.ledger 0).Inv ∧ (w.account 0).Counted)
    ⟨inv_init, hinit⟩ fun _ a _ hc => ⟨inv_step hc.1 a, counted_step hc.1 hc.2 a⟩
  exact key.2

end DeviceBuilder
