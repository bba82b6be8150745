import DeviceBuilder.Queue.Compiles

/-!
# The remote pool

Whatever the interleaving, the pool's dictionaries agree: a job is waiting or
driven, never both; a driven job is bound to one server, a server to one job;
and no lane queue holds a job of the pool.

* `Ledger.Bound`: a driven job carries the pin of the server it is bound to.
* `pool_wellFormed`: the pool in every world reached.
-/

namespace DeviceBuilder

open Runs Ledger

variable {c c' : Ledger} {ℓ : Label} {w : World} {j : JobId} {job job' : FirmwareJob}

/-- **A driven job carries its server.** -/
def Ledger.Bound (c : Ledger) : Prop :=
  ∀ e ∈ c.jobPeer, ∀ job, c.obj e.1 = some job → job.origin = (.remote, e.2)

theorem latched_origin : (latched job).origin = job.origin := by
  unfold latched; split <;> rfl

/-- An object is replaced by one of the same origin, or that of a job no server drives. -/
theorem bound_update {get : JobId → Option FirmwareJob} {peers : List (JobId × Pin)}
    (hb : ∀ e ∈ peers, ∀ job, get e.1 = some job → job.origin = (.remote, e.2))
    (h : (∃ job, get j = some job ∧ job'.origin = job.origin) ∨ j ∉ peers.map Prod.fst) :
    ∀ e ∈ peers, ∀ a, Function.update get j (some job') e.1 = some a → a.origin = (.remote, e.2) := by
  intro e he a ha
  by_cases hj : e.1 = j
  · rw [hj, Function.update_self] at ha
    cases ha
    rcases h with ⟨job, hjob, ho⟩ | h
    · rw [ho]; exact hb e he job (hj ▸ hjob)
    · exact (h (hj ▸ List.mem_map_of_mem he)).elim
  · rw [Function.update_of_ne hj] at ha
    exact hb e he a ha

/-- A free server is bound to no job. -/
theorem bound_filter {get : JobId → Option FirmwareJob} {peers : List (JobId × Pin)} {p : JobId × Pin → Bool}
    (hb : ∀ e ∈ peers, ∀ job, get e.1 = some job → job.origin = (.remote, e.2)) :
    ∀ e ∈ peers.filter p, ∀ job, get e.1 = some job → job.origin = (.remote, e.2) :=
  fun e he => hb e (List.mem_filter.1 he).1

theorem not_peer_filter {peers : List (JobId × Pin)} :
    j ∉ (peers.filter (fun e => e.1 ≠ j)).map Prod.fst := by
  simp

/-- What the pool does not drive is bound to no server. -/
theorem Ledger.Inv.not_peer (hI : c.Inv) (h : (c.view j).inFlight = 0) :
    j ∉ c.jobPeer.map Prod.fst := by
  intro hm
  have := List.count_pos_iff.2 ((hI.peerKeys j).2 hm)
  exact Nat.ne_of_gt this h

theorem bound_move (hm : Move ℓ c c') (hI : c.Inv) (hb : c.Bound) : c'.Bound := by
  have hfresh : ∀ {k}, c.fresh ≤ k → k ∉ c.jobPeer.map Prod.fst := by
    intro k hk
    refine hI.not_peer ((hI.view k).absent ?_).2.2.2
    cases ho : c.obj k with
    | none => simp [Ledger.view, ho]
    | some job => exact absurd (hI.ids ho).2 (Nat.not_lt.2 hk)
  cases hm with
  | edit hj he => exact bound_update hb (.inl ⟨_, hj, he.2.2.2.1⟩)
  | create job hn hd => exact bound_update hb (.inr (hfresh le_rfl))
  | submit job hn hd hs ht => exact bound_update hb (.inr (hfresh le_rfl))
  | submitChain head dep hh hhd hd hdd =>
    exact bound_update (bound_update hb (.inr (hfresh le_rfl))) (.inr (hfresh (Nat.le_succ _)))
  | place hj ht => exact bound_update hb (.inl ⟨_, hj, latched_origin⟩)
  | placeChain hj ht => exact bound_update hb (.inl ⟨_, hj, latched_origin⟩)
  | placeOwed ht hj => exact bound_update hb (.inl ⟨_, hj, latched_origin⟩)
  | startExec ht hj hs => exact bound_update hb (.inl ⟨_, hj, rfl⟩)
  | finishExec ht hj he hf => exact bound_update hb (.inl ⟨_, hj, he.2.2.2.1⟩)
  | finishDrive ht hj he hf => exact bound_update hb (.inl ⟨_, hj, he.2.2.2.1⟩)
  | failPending hp hj hs he hf => exact bound_update hb (.inl ⟨_, hj, he.2.2.2.1⟩)
  | finishQueued hj hs he hc => exact bound_update hb (.inl ⟨_, hj, he.2.2.2.1⟩)
  | refinish hj hs he hc => exact bound_update hb (.inl ⟨_, hj, he.2.2.2.1⟩)
  | cancelMark hj => exact bound_update (bound_filter hb) (.inr not_peer_filter)
  | release ht => exact bound_filter hb
  | reroute ht hj => exact bound_update (bound_filter hb) (.inr not_peer_filter)
  | provision ht hj => exact bound_update (bound_filter hb) (.inr not_peer_filter)
  | toLocal hp hj =>
    refine bound_update hb (.inr (hI.not_peer ?_))
    exact (hI.view _).elsewhere.2.2.2 (List.count_pos_iff.2 hp)
  | @startDrive _ j job pin source hj hp hs hpin hsrc hsp =>
    intro e he a ha
    simp only [Ledger.withTokens, Ledger.bind, Ledger.emit, Ledger.set] at he ha
    rcases List.mem_append.1 he with he | he
    · obtain ⟨hmem, hne⟩ := List.mem_filter.1 he
      rw [Function.update_of_ne (by simpa using hne)] at ha
      exact hb e hmem a ha
    · rw [List.mem_singleton] at he
      subst he
      rw [Function.update_self] at ha
      cases ha
      show (source.source, source.sourcePin) = _
      rw [hsrc, hsp]
  | _ => exact hb

theorem bound_reachable {ok : World → Action → Prop} (h : Reachable ok w) : (w.ledger 0).Bound := by
  refine side_reachable (L := fun _ => True) h (fun _ _ _ _ _ _ => trivial) ?_
    (fun _ _ _ _ hm hI hb => bound_move hm hI hb) ?_ ?_
  · exact fun e he => absurd he List.not_mem_nil
  · exact fun _ _ _ _ _ e he => absurd he List.not_mem_nil
  · intro c c' j js job hr _ _ _ hround _ e he
    have := hr.jobPeer
    cases hround <;> simp_all

/-! ### The pool of a world -/

/-- The job whose run a task is in. -/
def Task.runs : Task → Option JobId
  | .laneBegin _ j | .laneLocal _ j _ | .laneRemote _ j _ | .driveBegin j | .driveRemote j _ => some j
  | _ => none

theorem tokens_le_of_task {ts : List Task} {i : ℕ} {t : Task} (hi : ts[i]? = some t) :
    taskTokens (ts.set i .ended) + t.tokens = taskTokens ts := by
  rw [World.taskTokens_set hi]; exact add_zero _

/-- Two tasks hold their tokens side by side. -/
theorem tokens_le_of_tasks {i i' : ℕ} {t t' : Task} (hne : i ≠ i') (hi : w.tasks[i]? = some t)
    (hi' : w.tasks[i']? = some t') : t.tokens + t'.tokens ≤ (w.ledger 0).tokens := by
  have h1 := tokens_le_of_task hi
  have h2 : taskTokens ((w.tasks.set i .ended).set i' .ended) + t'.tokens =
      taskTokens (w.tasks.set i .ended) :=
    tokens_le_of_task (by rw [List.getElem?_set_ne hne]; exact hi')
  rw [show (w.ledger 0).tokens = taskTokens w.tasks from add_zero _, ← h1, ← h2]
  rw [add_assoc, add_comm t'.tokens]
  exact Multiset.le_add_left _ _

/-- The token of a run. -/
theorem runs_tokens {t : Task} (h : t.runs = some j) :
    t.tokens = {.exec j} ∨ t.tokens = {.drive j} := by
  cases t <;> simp_all [Task.runs, Task.tokens]

/-- A server is bound to one job. -/
theorem Ledger.Inv.peer_inj (hI : c.Inv) {j' : JobId} {pin : Pin} (h : (j, pin) ∈ c.jobPeer)
    (h' : (j', pin) ∈ c.jobPeer) : j = j' :=
  congrArg Prod.fst (List.inj_on_of_nodup_map hI.peerPins h h' rfl)

/-- A job is bound to one server. -/
theorem Ledger.Bound.keys_nodup (hb : c.Bound) (hI : c.Inv) : (c.jobPeer.map Prod.fst).Nodup := by
  refine List.Nodup.map_on ?_ (List.Nodup.of_map _ hI.peerPins)
  intro e he e' he' hfst
  have hfl : 0 < (c.view e.1).inFlight :=
    List.count_pos_iff.2 ((hI.peerKeys e.1).2 (List.mem_map_of_mem he))
  cases hj : c.obj e.1 with
  | none =>
    have := ((hI.view e.1).absent (by simp [Ledger.view, hj])).2.2.2
    omega
  | some job =>
    have h1 := hb e he job hj
    have h2 := hb e' he' job (hfst ▸ hj)
    rw [h1] at h2
    exact Prod.ext hfst (Prod.mk.inj h2).2

/-- A queued job of the pool is in no lane queue. -/
theorem Ledger.Inv.pool_off_lane (hI : c.Inv) (hp : j ∈ c.pending ∨ j ∈ c.inFlight)
    (hq : j ∈ c.queued) (hj : c.obj j = some job) : job.status ≠ .queued := by
  intro hs
  have hv := hI.view j
  have hst : (c.view j).status = some .queued := by simp [Ledger.view, hj, hs]
  have hqpos : 0 < (c.view j).queued := Multiset.count_pos.2 hq
  rcases hp with hp | hp
  · have hone := hv.one
    have hppos : 0 < (c.view j).pending := List.count_pos_iff.2 hp
    unfold View.track at hone
    omega
  · rcases hv.flight (List.count_pos_iff.2 hp) with hset | ⟨hrun, -⟩
    · have := hv.settle (by omega)
      simp [View.Ended, hst] at this
    · rw [hst] at hrun; cases hrun

theorem mem_laneQueued {fw : FirmwareState} {l : LaneId} (h : j ∈ (fw.lane l).queue) :
    j ∈ fw.laneQueued := by
  unfold FirmwareState.laneQueued
  cases l <;> simp_all [FirmwareState.lane]

/-- **A server builds one compile at a time.** -/
theorem servers_apart {i i' : ℕ} {t t' : Task} {j' : JobId} (hI : (w.ledger 0).Inv)
    (hb : (w.ledger 0).Bound) (ha : (w.ledger 0).Apart) (hne : i ≠ i')
    (hi : w.tasks[i]? = some t) (hi' : w.tasks[i']? = some t') (ht : t.runs = some j)
    (ht' : t'.runs = some j') (hj : w.fw.obj j = some job) (hj' : w.fw.obj j' = some job')
    (hc : job.jobType = .compile) (hc' : job'.jobType = .compile) (hr : job.source = .remote)
    (hr' : job'.source = .remote) : j ≠ j' ∧ job.sourcePin ≠ job'.sourcePin := by
  have hle := tokens_le_of_tasks hne hi hi'
  -- a lane holds no REMOTE compile, so both are driven by the pool
  have hdrive : ∀ {t : Task} {j : JobId} {job : FirmwareJob}, t.runs = some j →
      t.tokens ≤ (w.ledger 0).tokens → w.fw.obj j = some job → job.jobType = .compile →
        job.source = .remote → t.tokens = {.drive j} := by
    intro t j job ht hle hj hc hr
    rcases runs_tokens ht with h | h
    · have h0 := (ha.placed hj hc).2 (by rw [hr]; simp)
      have hpos : 0 < (w.ledger 0).tokens.count (.exec j) :=
        Multiset.count_pos.2 (Multiset.mem_of_le hle (by simp [h]))
      unfold onLane at h0
      omega
    · exact h
  have h1 := hdrive ht ((Multiset.le_add_right _ _).trans hle) hj hc hr
  have h2 := hdrive ht' ((Multiset.le_add_left _ _).trans hle) hj' hc' hr'
  rw [h1, h2] at hle
  have hjj : j ≠ j' := by
    rintro rfl
    have hone := (hI.view j).one
    have := Multiset.count_le_of_le (.drive j) hle
    simp only [Multiset.count_add, Multiset.count_singleton_self] at this
    simp only [View.track, Ledger.view] at hone
    omega
  have hpeer : ∀ {k a}, .drive k ∈ (w.ledger 0).tokens → w.fw.obj k = some a →
      (k, a.sourcePin) ∈ (w.ledger 0).jobPeer := by
    intro k a hm hk
    have hfl := ((hI.view k).drive (Multiset.count_pos.2 hm)).2
    obtain ⟨e, he, rfl⟩ := List.mem_map.1 ((hI.peerKeys k).1 (List.count_pos_iff.1 hfl))
    have := congrArg Prod.snd (hb e he a hk)
    rw [show a.sourcePin = e.2 from this]; exact he
  have hp1 := hpeer (Multiset.mem_of_le hle (by simp)) hj
  have hp2 := hpeer (Multiset.mem_of_le hle (by simp)) hj'
  refine ⟨hjj, fun hpin => hjj ?_⟩
  rw [hpin] at hp1
  exact hI.peer_inj hp1 hp2

/-- **The remote pool is well formed**: `inFlight` and `jobPeer` have the same keys, nothing waits
that is driven, no server is bound to two jobs, no lane queue holds a queued job of the pool; a
job is tracked once, and no two tasks build a compile on one server. -/
theorem remotePool_wellFormed (h : Reachable any w) :
    let pool := w.fw.remoteDispatch
    (∀ j, j ∈ pool.inFlight ↔ j ∈ pool.jobPeer.map Prod.fst) ∧
    pool.pending.Disjoint pool.inFlight ∧
    (∀ j j' pin, (j, pin) ∈ pool.jobPeer → (j', pin) ∈ pool.jobPeer → j = j') ∧
    (∀ j l job, j ∈ pool.pending ∨ j ∈ pool.inFlight → j ∈ (w.fw.lane l).queue →
      w.fw.obj j = some job → job.status ≠ .queued) ∧
    (pool.pending.Nodup ∧ pool.inFlight.Nodup ∧ (pool.jobPeer.map Prod.fst).Nodup) ∧
    (∀ (i i' : ℕ) (t t' : Task) j j' job job', i ≠ i' → w.tasks[i]? = some t →
      w.tasks[i']? = some t' → t.runs = some j → t'.runs = some j' → w.fw.obj j = some job →
      w.fw.obj j' = some job' → job.jobType = .compile → job'.jobType = .compile →
      job.source = .remote → job'.source = .remote →
        j ≠ j' ∧ job.sourcePin ≠ job'.sourcePin) := by
  have hI := inv_reachable h
  have hb := bound_reachable h
  refine ⟨hI.peerKeys, ?_, ?_, ?_, ⟨hI.pendingNodup, hI.inFlightNodup, hb.keys_nodup hI⟩, ?_⟩
  · intro j hp hf
    have := (hI.view j).elsewhere.2.2.2 (List.count_pos_iff.2 hp)
    have hpos : 0 < ((w.ledger 0).view j).inFlight := List.count_pos_iff.2 hf
    omega
  · exact fun j j' pin => hI.peer_inj
  · exact fun j l job hp hq hj => hI.pool_off_lane hp (mem_laneQueued hq) hj
  · intro i i' t t' j j' job job' hne hi hi' ht ht' hj hj'
    exact servers_apart hI hb (apart_reachable h) hne hi hi' ht ht' hj hj'

/-- An offloader with one connected server. -/
def oneServer : OffloaderState where
  pairings := [{ pin := "p" }]
  openPeerLinks := ["p"]
  esphomeVersion := "2026.1.0"

/-- The first compile is driven on the server, the second one waits. -/
def twoCompiles : List Action :=
  [.restart [] (fun _ => some {}) (some oneServer) 1, .command (.compile "a.yaml" false),
    .command (.compile "b.yaml" false), .resume 3 .ok, .resume 3 .ok]

theorem remotePool_twoCompiles :
    (World.run twoCompiles).fw.remoteDispatch.jobPeer = [(0, "p")] ∧
      (World.run twoCompiles).fw.remoteDispatch.pending = [1] ∧
      ∀ j j' pin, (j, pin) ∈ (World.run twoCompiles).fw.remoteDispatch.jobPeer →
        (j', pin) ∈ (World.run twoCompiles).fw.remoteDispatch.jobPeer → j = j' :=
  ⟨by decide, by decide, (remotePool_wellFormed (reachable_run twoCompiles)).2.2.1⟩

end DeviceBuilder
