import DeviceBuilder.Queue.Restore

/-!
# Where compiles are

A compile with the source REMOTE is driven by the pool, or has ended; one that
is pending on a server waits in the pool. So what a lane holds of the compiles
has the source LOCAL.

* `Ledger.Apart`: the invariant.
* `apart_reachable`: it holds in every world reached.
-/

namespace DeviceBuilder

open Runs Ledger

variable {c c' : Ledger} {ℓ : Label} {w : World} {j k : JobId} {job job' : FirmwareJob}

/-- How often a lane holds the job: in its queue, or in the hands of a worker. -/
def Ledger.onLane (c : Ledger) (j : JobId) : ℕ :=
  c.queued.count j + c.tokens.count (.taken j) + c.tokens.count (.exec j)

/-- How often a section that creates jobs holds the job. -/
def Ledger.staged (c : Ledger) (j : JobId) : ℕ :=
  c.tokens.count (.stage j) + chainCount j c.tokens

/-- What holds of a compile. -/
def Ledger.Placed (c : Ledger) (j : JobId) (job : FirmwareJob) : Prop :=
  (job.source = .remote → job.status ≠ .queued ∧ c.staged j = 0) ∧
    (job.source ≠ .local → c.onLane j = 0)

/-- **Compiles on the lanes are local.** -/
structure Ledger.Apart (c : Ledger) : Prop where
  placed : ∀ {j job}, c.obj j = some job → job.jobType = .compile → c.Placed j job
  resolved : ∀ {forceLocal jobType source}, .resolved forceLocal jobType source ∈ c.tokens →
    source.source ≠ .remote

theorem onLane_mono (hq : c'.queued = c.queued) (ht : c'.tokens ≤ c.tokens) (k : JobId) :
    c'.onLane k ≤ c.onLane k := by
  unfold Ledger.onLane
  rw [hq]
  have h1 := Multiset.count_le_of_le (.taken k) ht
  have h2 := Multiset.count_le_of_le (.exec k) ht
  omega

theorem onLane_withTokens {ts : Multiset Token} (ht : ts ≤ c.tokens) (k : JobId) :
    (c.withTokens ts).onLane k ≤ c.onLane k := by
  have hq : (c.withTokens ts).queued = c.queued := rfl
  exact onLane_mono hq ht k

/-- What is to be created is in no place. -/
theorem onLane_fresh (hI : c.Inv) (hk : c.fresh ≤ k) : c.onLane k = 0 ∧ c.staged k = 0 := by
  have hnone : (c.view k).status = none := by
    cases ho : c.obj k with
    | none => simp [Ledger.view, ho]
    | some job => exact absurd (hI.ids ho).2 (Nat.not_lt.2 hk)
  have h0 := ((hI.view k).absent hnone).1
  simp only [View.track, Ledger.view] at h0
  unfold Ledger.onLane Ledger.staged
  omega

theorem staged_mono (ht : c'.tokens ≤ c.tokens) (k : JobId) : c'.staged k ≤ c.staged k := by
  obtain ⟨u, hu⟩ := Multiset.le_iff_exists_add.1 ht
  unfold Ledger.staged
  rw [hu, Multiset.count_add, chainCount_add]
  omega

/-- A job of the same origin, in no new place, stays where it belongs. -/
theorem Ledger.Placed.of_le {j' : JobId} (hp : c.Placed j job) (ho : job'.origin = job.origin)
    (hs : job'.status = .queued → job.status = .queued) (hl : c'.onLane j' ≤ c.onLane j)
    (hst : c'.staged j' ≤ c.staged j) : c'.Placed j' job' := by
  have hsrc : job'.source = job.source := congrArg Prod.fst ho
  refine ⟨fun hr => ?_, fun hr => ?_⟩
  · obtain ⟨h1, h2⟩ := hp.1 (hsrc ▸ hr)
    exact ⟨fun hq => h1 (hs hq), by omega⟩
  · have := hp.2 (hsrc ▸ hr)
    omega

/-- The objects of a move that are new, or that the move places or sends elsewhere, one by one. -/
theorem apart_of (ha : c.Apart)
    (hobj : ∀ k b, c'.obj k = some b → b.jobType = .compile → c'.Placed k b ∨ ∃ a,
      c.obj k = some a ∧ a.identity = b.identity ∧ b.origin = a.origin ∧
        (b.status = .queued → a.status = .queued) ∧ c'.onLane k ≤ c.onLane k ∧
        c'.staged k ≤ c.staged k)
    (hres : ∀ {forceLocal jobType source}, .resolved forceLocal jobType source ∈ c'.tokens →
      .resolved forceLocal jobType source ∈ c.tokens ∨ source.source ≠ .remote) : c'.Apart where
  placed := by
    intro k b hb ht
    rcases hobj k b hb ht with h | ⟨a, hka, hid, ho, hs, hl, hst⟩
    · exact h
    · have hta : a.jobType = .compile := by rw [show a.jobType = b.jobType from congrArg (·.2.2.1) hid, ht]
      exact (ha.placed hka hta).of_le ho hs hl hst
  resolved := by
    intro fl t source hm
    rcases hres hm with h | h
    · exact ha.resolved h
    · exact h

/-- A move that changes object `j` at most, and moves no other job. -/
theorem apart_one (ha : c.Apart) (hother : ∀ k, k ≠ j → c'.obj k = c.obj k)
    (hle : ∀ k, k ≠ j → c'.onLane k ≤ c.onLane k ∧ c'.staged k ≤ c.staged k)
    (hself : ∀ b, c'.obj j = some b → b.jobType = .compile → c'.Placed j b ∨ ∃ a,
      c.obj j = some a ∧ a.identity = b.identity ∧ b.origin = a.origin ∧
        (b.status = .queued → a.status = .queued) ∧ c'.onLane j ≤ c.onLane j ∧
        c'.staged j ≤ c.staged j)
    (hres : ∀ {forceLocal jobType source}, .resolved forceLocal jobType source ∈ c'.tokens →
      .resolved forceLocal jobType source ∈ c.tokens ∨ source.source ≠ .remote) : c'.Apart := by
  refine apart_of ha (fun k b hb ht => ?_) hres
  by_cases hk : k = j
  · subst hk; exact hself b hb ht
  · rw [hother k hk] at hb
    exact .inr ⟨b, hb, rfl, rfl, id, (hle k hk).1, (hle k hk).2⟩

/-- A job in no place, that is not REMOTE, is routed where it belongs. -/
theorem placed_route {ts : Multiset Token} (ht : job.jobType = .compile)
    (h0 : (c.withTokens ts).onLane j = 0) (hsrc : job.source ≠ .remote) :
    ((c.route j job).withTokens ts).Placed j (latched job) := by
  have hs : (latched job).source = job.source := by unfold latched; split <;> rfl
  refine ⟨fun h => absurd (hs ▸ h) hsrc, fun h => ?_⟩
  rw [hs] at h
  have hpool : FirmwareState.pooled job = true := by
    cases hj : job.source with
    | «local» => exact absurd hj h
    | remote => exact absurd hj hsrc
    | remotePending => simp [FirmwareState.pooled, hj, ht, remotePoolJobTypes]
  simpa only [onLane, Ledger.withTokens, Ledger.route, hpool, if_true] using h0

theorem onLane_route {ts : Multiset Token} (hk : k ≠ j) :
    ((c.route j job).withTokens ts).onLane k = (c.withTokens ts).onLane k := by
  unfold Ledger.onLane
  simp only [Ledger.withTokens, Ledger.route]
  split
  · rfl
  · rw [Multiset.count_cons_of_ne hk]

/-- A routed job was in no place but the hands of the section that routes it. -/
theorem apart_route {x : FirmwareJob} {ts : Multiset Token} (ha : c.Apart)
    (hts : ts ≤ c.tokens)
    (h0 : (c.withTokens ts).onLane j = 0) (hsrc : x.jobType = .compile → x.source ≠ .remote) :
    ((c.route j x).withTokens ts).Apart := by
  refine apart_one (j := j) ha (fun k hk => Function.update_of_ne hk ..) (fun k hk => ⟨?_, ?_⟩)
    (fun b hb ht => .inl ?_) fun hm => .inl (Multiset.mem_of_le hts hm)
  · rw [onLane_route hk]; exact onLane_withTokens hts k
  · exact staged_mono hts k
  · rw [show b = latched x by simpa using hb.symm] at ht ⊢
    have htj : x.jobType = .compile := by
      rwa [show (latched x).jobType = x.jobType from congrArg (·.2.2.1) latched_identity] at ht
    exact placed_route htj h0 (hsrc htj)

/-- A queued compile is not REMOTE. -/
theorem Ledger.Apart.not_remote (ha : c.Apart) (hj : c.obj j = some job)
    (h : job.status = .queued ∨ 0 < c.staged j) (ht : job.jobType = .compile) :
    job.source ≠ .remote := by
  intro hr
  obtain ⟨h1, h2⟩ := (ha.placed hj ht).1 hr
  rcases h with h | h
  · exact h1 h
  · omega

/-- The pool's own fields do not matter. -/
theorem Ledger.Apart.congr (ha : c.Apart) (ho : c'.obj = c.obj) (hq : c'.queued = c.queued)
    (ht : c'.tokens = c.tokens) : c'.Apart :=
  apart_of ha (fun k b hb _ => .inr ⟨b, ho ▸ hb, rfl, rfl, id, onLane_mono hq ht.le k,
    staged_mono ht.le k⟩) fun hm => .inl (ht ▸ hm)

/-- What is driven is on no lane. -/
theorem onLane_of_pool (hI : c.Inv) (h : 0 < (c.view j).pending + (c.view j).drive) :
    c.onLane j = 0 ∧ c.staged j = 0 := by
  have h1 := (hI.view j).one
  simp only [View.track, Ledger.view] at h h1
  unfold Ledger.onLane Ledger.staged
  omega

/-- A job ends. -/
theorem apart_ends (ha : c.Apart) (hj : c.obj j = some job) (he : job.EndsAs job')
    (ho : c'.obj = Function.update c.obj j (some job')) (hl : ∀ k, c'.onLane k ≤ c.onLane k)
    (hs : ∀ k, c'.staged k ≤ c.staged k)
    (hres : ∀ {forceLocal jobType source}, .resolved forceLocal jobType source ∈ c'.tokens →
      .resolved forceLocal jobType source ∈ c.tokens) : c'.Apart := by
  refine apart_one (j := j) ha (fun k hk => by rw [ho, Function.update_of_ne hk])
    (fun k _ => ⟨hl k, hs k⟩) (fun b hb _ => .inr ⟨job, hj, ?_⟩) fun hm => .inl (hres hm)
  rw [ho, Function.update_self] at hb
  cases hb
  refine ⟨he.1.symm, he.2.2.2.1, fun hq => ?_, hl j, hs j⟩
  have := he.2.1
  simp [FirmwareJob.isActive, hq, JobStatus.isTerminal] at this

theorem resolved_owes {fl : Bool} {t : JobType} {source : JobBuildSource} :
    .resolved fl t source ∉ c.owes j := by
  simp [owes]

theorem apart_move (hm : Move ℓ c c') (hI : c.Inv) (ha : c.Apart)
    (hℓ : ∀ forceLocal jobType source, ℓ = .resolve forceLocal jobType source →
      source.source ≠ .remote) : c'.Apart := by
  have same : ∀ {c' : Ledger}, c'.obj = c.obj → (∀ k, c'.onLane k ≤ c.onLane k) →
      (∀ k, c'.staged k ≤ c.staged k) →
      (∀ {forceLocal jobType source}, .resolved forceLocal jobType source ∈ c'.tokens →
        .resolved forceLocal jobType source ∈ c.tokens ∨ source.source ≠ .remote) → c'.Apart := by
    intro c' ho hl hst hres
    refine apart_of ha (fun k b hb _ => .inr ⟨b, ho ▸ hb, rfl, rfl, id, hl k, hst k⟩) hres
  cases hm with
  | note | prune | clear | saveBegin | save | callCancel =>
    exact same rfl (fun _ => le_rfl) (fun _ => le_rfl) .inl
  | resolve fl t src =>
    refine same rfl (fun k => ?_) (fun k => ?_) fun hm => ?_
    · simp [onLane]
    · simp [Ledger.staged, Token.chains]
    · rcases Multiset.mem_cons.1 hm with h | h
      · cases h; exact .inr (hℓ _ _ _ rfl)
      · exact .inl h
  | beginSweep cause js =>
    refine same rfl (fun k => ?_) (fun k => ?_) fun hm => ?_
    · simp [onLane]
    · simp [Ledger.staged, chainCount_sweep]
    · rcases Multiset.mem_add.1 hm with h | h
      · exact .inl h
      · simp at h
  | release ht | endSweep ht | skip ht | dropOwed ht | unstage ht | unstageChain ht | lose ht =>
    have hle := Multiset.le_cons_self _ _ |>.trans_eq ht.symm
    exact same rfl (onLane_mono rfl hle) (staged_mono hle)
      fun hm => .inl (ht ▸ Multiset.mem_cons_of_mem hm)
  | @take _ j q ht =>
    refine same rfl (fun k => ?_) (fun k => ?_) fun hm => .inl ?_
    · simp only [onLane, ht]
      by_cases hk : k = j
      · subst hk; simp; omega
      · simp [hk]
    · simp [Ledger.staged, Token.chains]
    · simpa using hm
  | unpend hj hs => exact same rfl (fun _ => le_rfl) (fun _ => le_rfl) .inl
  | @edit _ j a b hj hab =>
    refine apart_one (j := j) ha (fun k hk => Function.update_of_ne hk ..) (fun k _ => ⟨le_rfl, le_rfl⟩)
      (fun b' hb _ => .inr ⟨a, hj, ?_⟩) .inl
    rw [show b' = b by simpa using hb.symm]
    exact ⟨hab.1.symm, hab.2.2.2.1, fun h => hab.2.1 ▸ h, le_rfl, le_rfl⟩
  | @create _ a hn hd hs =>
    refine apart_one (j := c.fresh) ha (fun k hk => Function.update_of_ne hk ..) (fun k hk => ?_)
      (fun b hb ht => .inl ?_) fun hm => .inl (by simpa using hm)
    · simp [onLane, Ledger.staged, hk, Token.chains]
    · rw [show b = a by simpa using hb.symm] at ht ⊢
      rw [Placed, hs ht]
      simp
  | @place _ j a ts hj ht =>
    have hle : ts ≤ c.tokens := (Multiset.le_cons_self _ _).trans_eq ht.symm
    have hpos : 0 < c.tokens.count (.stage j) := by simp [ht]
    refine apart_route ha hle ?_ (ha.not_remote hj (.inr (Nat.add_pos_left hpos _)))
    have h1 := onLane_withTokens hle j
    have h2 := (hI.view j).elsewhere.1 hpos
    simp only [View.track, Ledger.view] at h2
    unfold Ledger.onLane at h1 ⊢
    omega
  | @placeChain _ head d a ts hj ht =>
    have hle : ts ≤ c.tokens := (Multiset.le_cons_self _ _).trans_eq ht.symm
    have hpos : 0 < chainCount head c.tokens := chainCount_pos (ht ▸ Multiset.mem_cons_self ..) (.inl rfl)
    refine apart_route ha hle ?_ (ha.not_remote hj (.inr (Nat.add_pos_right _ hpos)))
    have h1 := onLane_withTokens hle head
    have h2 := (hI.view head).elsewhere.2.1 hpos
    simp only [View.track, Ledger.view] at h2
    unfold Ledger.onLane at h1 ⊢
    omega
  | @placeOwed _ p d pre a ts ht hj hd hp hps hpd hs =>
    have hle : ts ≤ c.tokens := (Multiset.le_cons_self _ _).trans_eq ht.symm
    refine apart_route ha hle ?_ (ha.not_remote hj (.inl hs))
    obtain ⟨a', p', pre', hj', hd', hp', -, hfree⟩ := hI.owed (ht ▸ Multiset.mem_cons_self ..)
    rw [hj] at hj'; cases hj'
    rw [hd] at hd'; cases hd'
    rw [hp] at hp'; cases hp'
    have h1 := onLane_withTokens hle d
    have h2 := (hfree hps).2.1
    simp only [View.track, Ledger.view] at h2
    unfold Ledger.onLane at h1 ⊢
    omega
  | @submit _ a fl source ts hn hd hs ht =>
    have hsrc : source.source ≠ .remote := ha.resolved (ht ▸ Multiset.mem_cons_self ..)
    have h0 := (onLane_fresh hI le_rfl).1
    refine apart_one (j := c.fresh) ha (fun k hk => Function.update_of_ne hk ..) (fun k hk => ?_)
      (fun b hb hbt => .inl ?_) fun hm => .inl ?_
    · simp [onLane, Ledger.staged, hk, ht, Token.chains]
    · rw [show b = a by simpa using hb.symm] at hbt ⊢
      refine ⟨fun hr => absurd (hs ▸ hr) hsrc, fun _ => ?_⟩
      simpa [onLane, ht] using h0
    · rw [ht]; exact Multiset.mem_cons_of_mem (by simpa using hm)
  | @reroute _ j a ts ht hj =>
    have hle : ts ≤ c.tokens := (Multiset.le_cons_self _ _).trans_eq ht.symm
    have hpos : 0 < (c.view j).pending + (c.view j).drive := by
      simp [Ledger.view, ht] <;> omega
    have h0 := (onLane_withTokens hle j).trans_eq (onLane_of_pool hI hpos).1
    have hr := apart_route (x := a.revertToPendingRemote) ha hle (Nat.le_zero.1 h0) (by simp)
    exact hr.congr rfl rfl rfl
  | @provision _ j a ts ht hj =>
    have hle : ts ≤ c.tokens := (Multiset.le_cons_self _ _).trans_eq ht.symm
    have hpos : 0 < (c.view j).pending + (c.view j).drive := by
      simp [Ledger.view, ht] <;> omega
    have h0 := (onLane_withTokens hle j).trans_eq (onLane_of_pool hI hpos).1
    have hr := apart_route (x := a.clearRunState.applyBuildSource localJobBuildSource) ha hle
      (Nat.le_zero.1 h0) (by simp [localJobBuildSource])
    exact hr.congr rfl rfl rfl
  | @toLocal _ j a hp hj =>
    have hpos : 0 < (c.view j).pending + (c.view j).drive :=
      Nat.add_pos_left (List.count_pos_iff.2 hp) _
    have h0 : (c.withTokens c.tokens).onLane j = 0 := (onLane_of_pool hI hpos).1
    exact apart_route (x := a.applyBuildSource localJobBuildSource) ha le_rfl h0
      (by simp [localJobBuildSource])
  | @startExec _ j a ts ht hj hs =>
    refine apart_one (j := j) ha (fun k hk => Function.update_of_ne hk ..) (fun k hk => ?_)
      (fun b hb _ => .inr ⟨a, hj, ?_⟩) fun hm => .inl (ht ▸ ?_)
    · simp [onLane, Ledger.staged, hk, ht, Token.chains]
    · rw [show b = a.markRunning by simpa using hb.symm]
      refine ⟨rfl, rfl, by simp, ?_, ?_⟩
      · simp [onLane, ht]; omega
      · simp [Ledger.staged, ht, Token.chains]
    · exact Multiset.mem_cons_of_mem (by simpa using hm)
  | @finishExec _ j a b ts ht hj he =>
    refine apart_ends ha hj he rfl (fun k => ?_) (fun k => ?_) fun hm => ?_
    · simp [onLane, ht]
      exact Multiset.count_le_count_cons ..
    · simp [Ledger.staged, ht, Token.chains]
    · rw [ht]
      exact Multiset.mem_cons_of_mem ((Multiset.mem_add.1 hm).resolve_right resolved_owes)
  | @finishDrive _ j a b ts ht hj he =>
    refine apart_ends ha hj he rfl (fun k => ?_) (fun k => ?_) fun hm => ?_
    · simp [onLane, ht]
    · simp [Ledger.staged, ht, Token.chains]
    · rcases Multiset.mem_cons.1 hm with hm | hm
      · cases hm
      · rw [ht]
        exact Multiset.mem_cons_of_mem ((Multiset.mem_add.1 hm).resolve_right resolved_owes)
  | @failPending _ j a b hp hj hs he | @finishQueued _ j a b hj hs he | @refinish _ j a b hj hs he =>
    refine apart_ends ha hj he rfl (fun k => ?_) (fun k => ?_) fun hm =>
      (Multiset.mem_add.1 hm).resolve_right resolved_owes
    · simp [onLane]
    · simp [Ledger.staged]
  | @cancelMark _ j a hj hs hr =>
    refine apart_one (j := j) ha (fun k hk => Function.update_of_ne hk ..) (fun k hk => ?_)
      (fun b hb _ => .inr ⟨a, hj, ?_⟩) fun hm => .inl (by simpa using hm)
    · simp [onLane, Ledger.staged, Token.chains]
    · rw [show b = a.markTerminal .cancelled by simpa using hb.symm]
      refine ⟨rfl, rfl, by simp, ?_, ?_⟩
      · simp [onLane]
      · simp [Ledger.staged, Token.chains]
  | @fireCancelled _ j a ts ht hj =>
    refine same rfl (fun k => ?_) (fun k => ?_) fun hm => .inl ?_
    · simp [onLane, ht]
    · simp [Ledger.staged, ht, Token.chains]
    · rw [ht]
      exact Multiset.mem_cons_of_mem ((Multiset.mem_add.1 hm).resolve_right resolved_owes)
  | @startDrive _ j a pin source hj hp hs hpin hsrc hsp =>
    have hpos : 0 < (c.view j).pending + (c.view j).drive :=
      Nat.add_pos_left (List.count_pos_iff.2 hp) _
    obtain ⟨h0, h1⟩ := onLane_of_pool hI hpos
    refine apart_one (j := j) ha (fun k hk => Function.update_of_ne hk ..) (fun k hk => ?_)
      (fun b hb _ => .inl ?_) fun hm => .inl (by simpa using hm)
    · simp [onLane, Ledger.staged, Token.chains]
    · rw [show b = (a.applyBuildSource source).markRunning by simpa using hb.symm]
      refine ⟨fun _ => ⟨by simp, ?_⟩, fun _ => ?_⟩
      · simpa [Ledger.staged, Token.chains] using h1
      · simpa [onLane] using h0
  | @submitChain _ head dep fl source ts hh hhd hd hdd hs hds hht hdt hdf ht =>
    have hsrc : source.source ≠ .remote := ha.resolved (ht ▸ Multiset.mem_cons_self ..)
    have h0 := (onLane_fresh hI le_rfl).1
    have hne : c.fresh ≠ c.fresh + 1 := (Nat.succ_ne_self _).symm
    refine apart_of ha (fun k b hb hbt => ?_) fun hm => .inl ?_
    · by_cases hk : k = c.fresh
      · subst hk
        rw [show b = head by simpa [hne] using hb.symm] at hbt ⊢
        refine .inl ⟨fun hr => absurd (hs ▸ hr) hsrc, fun _ => ?_⟩
        simpa [onLane, ht] using h0
      · by_cases hk' : k = c.fresh + 1
        · subst hk'
          rw [show b = dep by simpa using hb.symm] at hbt
          exact absurd hbt hdt
        · have hb' : c.obj k = some b := by simpa [hk, hk'] using hb
          refine .inr ⟨b, hb', rfl, rfl, id, ?_, ?_⟩
          · simp [onLane, ht]
          · simp [Ledger.staged, ht, Token.chains, Ne.symm hk, Ne.symm hk']
    · rw [ht]; exact Multiset.mem_cons_of_mem (by simpa using hm)

/-! ### Restarts -/

/-- The source of a job that is to run again: a compile of the pool is pending again. -/
theorem restoreForRequeue_source (row : FirmwareJob) : row.restoreForRequeue.source =
    if row.jobType = .compile ∧ (row.source = .remote ∨ row.source = .remotePending)
    then .remotePending else row.source := by
  have key : ∀ row' : FirmwareJob, row'.jobType = row.jobType → row'.source = row.source →
      (if row'.jobType = .compile ∧ (row'.source = .remote ∨ row'.source = .remotePending)
        then row'.applyBuildSource remotePendingJobBuildSource else row').source =
      if row.jobType = .compile ∧ (row.source = .remote ∨ row.source = .remotePending)
        then .remotePending else row.source := by
    intro row' ht hs
    rw [ht, hs]
    split
    · rfl
    · exact hs
  unfold FirmwareJob.restoreForRequeue
  dsimp only
  split
  · exact key { row.reset with status := .queued } rfl rfl
  · exact key { row with status := .queued } rfl rfl

/-- A compile that is to run again is not REMOTE. -/
theorem restore_not_remote {row : FirmwareJob} (ht : row.restore.jobType = .compile)
    (hr : row.restore.source = .remote) : row.restore.status ≠ .queued := by
  have htr : row.jobType = .compile :=
    (congrArg (·.2.2.1) row.restore_identity : row.restore.jobType = row.jobType) ▸ ht
  by_cases ha : row.isActive = true
  · exfalso
    rw [FirmwareJob.restore, if_pos ha, restoreForRequeue_source, htr] at hr
    split at hr
    · cases hr
    · rename_i hn
      exact hn ⟨rfl, .inl hr⟩
  · simp only [FirmwareJob.restore, ha, if_false, Bool.false_eq_true]
    intro hq
    exact ha (FirmwareJob.isActive_iff _ |>.2 (.inl hq))

theorem apart_loaded (table : List JobId) : (c.loaded table).Apart where
  placed := by
    intro j job hj ht
    obtain ⟨row, -, rfl⟩ := Option.map_eq_some_iff.1 hj
    refine ⟨fun hr => ⟨restore_not_remote ht hr, ?_⟩, fun _ => ?_⟩
    · simp [Ledger.staged, Ledger.loaded, chainCount]
    · simp [onLane, Ledger.loaded]
  resolved := fun h => absurd h (Multiset.notMem_zero _)

theorem apart_round {js : List JobId} (hr : Restoring c (j :: js)) (hj : c.obj j = some job)
    (hq : job.status = .queued) (hround : World.Routed c j job c') (ha : c.Apart) : c'.Apart := by
  cases hround with
  | held => exact ha
  | placed h =>
    have h0 : (c.withTokens c.tokens).onLane j = 0 := by
      have hs := (hr.todo j (by simp)).1
      unfold Ledger.spot at hs
      simp only [onLane, Ledger.withTokens, hr.tokens, Multiset.count_zero]
      omega
    exact apart_route ha le_rfl h0 (ha.not_remote hj (.inl hq))
  | cancelled =>
    refine apart_one (j := j) ha (fun k hk => Function.update_of_ne hk ..)
      (fun k hk => ⟨le_rfl, le_rfl⟩) (fun b hb _ => .inr ⟨job, hj, ?_⟩) .inl
    rw [show b = job.markTerminal .cancelled _ by simpa using hb.symm]
    exact ⟨rfl, rfl, by simp, le_rfl, le_rfl⟩

/-- No source that a submit resolves is REMOTE: the matcher picks the server. -/
theorem resolve_not_remote {forceLocal : Bool} {jobType : JobType} {source : JobBuildSource}
    (h : w.resolveInstallSource forceLocal jobType = .ok source) : source.source ≠ .remote := by
  unfold World.resolveInstallSource at h
  split at h
  · cases h; simp [localJobBuildSource]
  · split at h
    · cases h; simp [localJobBuildSource]
    · split at h
      · cases h
      · cases h
        split <;> simp [remotePendingJobBuildSource, localJobBuildSource]

/-- **In every world reached, the compiles on the lanes are local.** -/
theorem apart_reachable {ok : World → Action → Prop} (h : Reachable ok w) :
    (w.ledger 0).Apart := by
  refine side_reachable (L := fun ℓ => ∀ forceLocal jobType source,
    ℓ = .resolve forceLocal jobType source → source.source ≠ .remote) h ?_ ?_
    (fun _ _ _ hℓ hm hI ha => apart_move hm hI ha hℓ) (fun _ _ _ _ _ => apart_loaded _)
    fun hr _ hj hq hround ha => apart_round hr hj hq hround ha
  · rintro w a ℓ - - hℓ fl t source rfl
    obtain ⟨v, -, hs⟩ := hℓ
    exact resolve_not_remote hs
  · exact ⟨fun h => by simp [World.ledger] at h, fun h => by simp [World.ledger, taskTokens] at h⟩

end DeviceBuilder
