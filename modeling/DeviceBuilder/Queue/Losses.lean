import DeviceBuilder.Queue.Preservation

/-!
# Loss counters

The pool counts the servers that were lost under a job. The counter of a job that
goes back to the pool is one higher; else the code writes a counter only where no
server can get the job from where it is. An `Account` is a ledger with the counters;
`Entry` lists what the code does to it, over the moves of the ledger.

* `Ledger.Spent`: where a counter is written.
* `entries_moves`: the moves below a chain of entries.
-/

namespace DeviceBuilder

open Runs Ledger

variable {c : Ledger} {ℓ : Label} {ok : Label → Prop} {j : JobId} {job : FirmwareJob}

/-- A ledger, with the losses of its jobs. -/
structure Account where
  ledger : Ledger
  losses : JobId → ℕ

/-- The counter of `j` may be `n`: the pool does not hold the job, or it has ended, and no server
runs it. -/
structure Ledger.Spent (c : Ledger) (j : JobId) (n : ℕ) : Prop where
  held : ∃ job, c.obj j = some job ∧ (j ∈ c.pending → job.status ≠ .queued)
  driven : .drive j ∉ c.tokens
  /-- What is still to be placed starts from `0`. -/
  staged : n = 0 ∨ (c.view j).stage + (c.view j).chain = 0

/-- **Everything the code does to the account.** -/
inductive Entry : Label → Account → Account → Prop
  | move {ℓ : Label} {c c' : Ledger} {losses : JobId → ℕ} (hm : Move ℓ c c') (hp : ℓ ≠ .pool) :
      Entry ℓ ⟨c, losses⟩ ⟨c', losses⟩
  /-- A job of the pool starts on a server. -/
  | startDrive {c : Ledger} {losses : JobId → ℕ} {j : JobId} {job : FirmwareJob} {pin : Pin}
      {source : JobBuildSource} (hj : c.obj j = some job) (hp : j ∈ c.pending)
      (hs : job.status = .queued) (hpin : pin ∉ c.jobPeer.map Prod.snd)
      (hsrc : source.source = .remote) (hsp : source.sourcePin = pin) :
      Entry .pool ⟨c, losses⟩
        ⟨((c.set j (job.applyBuildSource source).markRunning).emit
          (.jobStarted (job.applyBuildSource source).markRunning)).bind j pin |>.withTokens
            (.drive j ::ₘ c.tokens), losses⟩
  /-- A lost server: the loss is counted, and the job goes back to the pool. -/
  | reroute {c : Ledger} {losses : JobId → ℕ} {j : JobId} {job : FirmwareJob}
      {ts : Multiset Token} (ht : c.tokens = .drive j ::ₘ ts) (hj : c.obj j = some job)
      (hr : losses j < maxServerLossRetries) :
      Entry .pool ⟨c, losses⟩ ⟨((c.route j job.revertToPendingRemote).release j).withTokens ts,
        Function.update losses j (losses j + 1)⟩
  | forget {ℓ : Label} {c : Ledger} {losses : JobId → ℕ} {j : JobId} {n : ℕ} (h : c.Spent j n) :
      Entry ℓ ⟨c, losses⟩ ⟨c, Function.update losses j n⟩

/-- An entry is at most one move. -/
theorem Entry.moves {a b : Account} (h : Entry ℓ a b) (hok : ok ℓ) :
    Chain Move ok a.ledger b.ledger := by
  cases h with
  | move hm hp => exact .one hok hm
  | startDrive hj hp hs hpin hsrc hsp => exact .one hok (.startDrive hj hp hs hpin hsrc hsp)
  | reroute ht hj hr => exact .one hok (.reroute ht hj)
  | forget => exact .refl _

/-- **The moves below** a chain of entries. -/
theorem entries_moves {a b : Account} (h : Chain Entry ok a b) :
    Chain Move ok a.ledger b.ledger := by
  induction h with
  | refl => exact .refl _
  | tail _ hst ih =>
    obtain ⟨ℓ, hℓ, he⟩ := hst
    exact ih.trans (he.moves hℓ)

theorem Ledger.Inv.entry {a b : Account} (hI : a.ledger.Inv) (h : Entry ℓ a b) :
    b.ledger.Inv := by
  have hmoves : Chain Move (fun _ => True) a.ledger b.ledger := h.moves trivial
  exact hI.chainMove hmoves

namespace Ledger

theorem undriven_of_ended (hI : c.Inv) (hj : c.obj j = some job) (ha : job.isActive = false) :
    (j ∈ c.pending → job.status ≠ .queued) ∧ .drive j ∉ c.tokens := by
  have hst : (c.view j).status = some job.status := by simp [Ledger.view, hj]
  refine ⟨fun _ hq => ?_, fun hd => ?_⟩
  · simp [FirmwareJob.isActive, hq, JobStatus.isTerminal] at ha
  · have hrun := ((hI.view j).drive (Multiset.count_pos.2 hd)).1
    rw [hst, Option.some.injEq] at hrun
    simp [FirmwareJob.isActive, hrun, JobStatus.isTerminal] at ha

/-- The counter of a job that has ended is reset. -/
theorem spent_of_ended (hI : c.Inv) (hj : c.obj j = some job) (ha : job.isActive = false) :
    c.Spent j 0 := by
  obtain ⟨hp, hd⟩ := undriven_of_ended hI hj ha
  exact ⟨⟨job, hj, hp⟩, hd, .inl rfl⟩

/-- The counter of a job that failed is not read. -/
theorem spent_of_failed (hI : c.Inv) (hj : c.obj j = some job) (hs : job.status = .failed)
    (n : ℕ) : c.Spent j n := by
  have ha : job.isActive = false := by simp [FirmwareJob.isActive, hs, JobStatus.isTerminal]
  have hst : (c.view j).status = some .failed := by simp [Ledger.view, hj, hs]
  obtain ⟨hp, hd⟩ := undriven_of_ended hI hj ha
  refine ⟨⟨job, hj, hp⟩, hd, .inr (Nat.eq_zero_of_not_pos fun hpos => ?_)⟩
  rcases (hI.view j).staged hpos with h | h <;> rw [hst] at h <;> cases h

/-- A job of a lane queue is in no other place. -/
theorem spent_of_queued (hI : c.Inv) (hq : j ∈ c.queued) : c.Spent j 0 := by
  have hpos : 0 < (c.view j).queued := Multiset.count_pos.2 hq
  have hone := (hI.view j).one
  have habsent := (hI.view j).absent
  simp only [View.track] at hone habsent
  refine ⟨?_, fun hd => ?_, .inl rfl⟩
  · cases hj : c.obj j with
    | none =>
      have := (habsent (by simp [Ledger.view, hj])).1
      omega
    | some job =>
      refine ⟨job, rfl, fun hp => ?_⟩
      have : 0 < (c.view j).pending := List.count_pos_iff.2 hp
      omega
  · have : 0 < (c.view j).drive := Multiset.count_pos.2 hd
    omega

/-- Only the pool starts a job on a server. -/
theorem driven_move {c' : Ledger} (hm : Move ℓ c c') (hp : ℓ ≠ .pool)
    (h : .drive j ∈ c'.tokens) : .drive j ∈ c.tokens := by
  have fewer : ∀ {t : Token} {ts : Multiset Token}, c.tokens = t ::ₘ ts → .drive j ∈ ts →
      .drive j ∈ c.tokens := by
    intro t ts ht hts
    rw [ht]
    exact Multiset.mem_cons_of_mem hts
  cases hm with
  | startDrive | reroute => exact absurd rfl hp
  | submit _ _ _ _ ht | submitChain _ _ _ _ _ _ _ _ _ _ _ ht | startExec ht =>
    exact fewer ht (by simpa using h)
  | place _ ht | placeChain _ ht | unstage ht | unstageChain ht | skip ht | release ht
  | provision ht | endSweep ht | placeOwed ht | dropOwed ht | lose ht => exact fewer ht h
  | finishExec ht | finishDrive ht | fireCancelled ht =>
    exact fewer ht (by simpa [Ledger.owes] using h)
  | resolve | create | take | failPending | beginSweep | cancelMark | finishQueued | refinish =>
    simpa [Ledger.owes] using h
  | _ => exact h

end Ledger

end DeviceBuilder
