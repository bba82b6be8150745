import DeviceBuilder.Queue.Invariant

/-!
# The moves preserve the invariant

What each move does to the tables, to the tokens and to the jobs that depend on
others, and with that `Ledger.Inv.move`.

* `rest_move`: a job in no place stays in none until it is placed or released.
* `held_move`: a job held on an active one stays held.
* `owed_move`: a job is owed its release once its prerequisite has ended.
* `Inv.move`: every move preserves the invariant.
-/

namespace DeviceBuilder

namespace Ledger

variable {c c' : Ledger} {ℓ : Label} {job job' : FirmwareJob}

theorem chain_of_chainCount {j : JobId} {ts : Multiset Token} (h : 0 < chainCount j ts) :
    ∃ x y, .chain x y ∈ ts ∧ (x = j ∨ y = j) := by
  induction ts using Multiset.induction with
  | empty => simp [chainCount] at h
  | cons t ts ih =>
    rw [chainCount_cons] at h
    by_cases ht : 0 < chainCount j ts
    · obtain ⟨x, y, hm, hor⟩ := ih ht
      exact ⟨x, y, Multiset.mem_cons_of_mem hm, hor⟩
    · have hpos : 0 < t.chains j := by omega
      cases t with
      | chain x y =>
        refine ⟨x, y, Multiset.mem_cons_self _ _, ?_⟩
        by_contra hne
        rw [not_or] at hne
        simp [Token.chains, hne.1, hne.2] at hpos
      | _ => simp [Token.chains] at hpos

theorem chainCount_pos {j x y : JobId} {ts : Multiset Token} (h : .chain x y ∈ ts)
    (hor : x = j ∨ y = j) : 0 < chainCount j ts := by
  obtain ⟨us, rfl⟩ := Multiset.exists_cons_of_mem h
  rw [chainCount_cons]
  rcases hor with rfl | rfl <;> simp [Token.chains] <;> omega

theorem move_fresh (hm : Move ℓ c c') : c.fresh ≤ c'.fresh := by
  cases hm with
  | create => exact Nat.le_succ _
  | submit => exact Nat.le_succ _
  | submitChain => exact Nat.le_add_right _ 2
  | _ => exact Nat.le_refl _

theorem Inv.fresh_notMem (h : c.Inv) {j : JobId} (hj : c.fresh ≤ j) : j ∉ c.table := by
  intro hm
  obtain ⟨job, hjob⟩ := h.rows hm
  exact Nat.not_lt.2 hj (h.ids hjob).2

theorem move_table (h : c.Inv) (hm : Move ℓ c c') :
    c'.table.Nodup ∧
      (∀ j ∈ c'.table, j ∈ c.table ∨ c.fresh ≤ j ∧ ∃ job, c'.obj j = some job) ∧
      ∀ ids, c'.saving = some ids → ids.Nodup := by
  have hn := h.nodup
  have hs : ∀ ids, c.saving = some ids → ids.Nodup := fun ids => h.saving
  have add : ∀ {l : List JobId} {k : JobId}, l.Nodup → k ∉ l → (l ++ [k]).Nodup := by
    intro l k hl hk
    exact List.nodup_append.2 ⟨hl, List.nodup_singleton k, by
      rintro a ha b hb rfl
      rw [List.mem_singleton] at hb; exact hk (hb ▸ ha)⟩
  have new : ∀ job' : FirmwareJob, ∀ j ∈ c.table ++ [c.fresh],
      j ∈ c.table ∨ c.fresh ≤ j ∧ ∃ job, Function.update c.obj c.fresh (some job') j = some job := by
    intro job' j hj
    rcases List.mem_append.1 hj with hj | hj
    · exact .inl hj
    · rw [List.mem_singleton] at hj; subst hj
      exact .inr ⟨le_rfl, job', Function.update_self ..⟩
  cases hm with
  | create job hn' hd hs' => exact ⟨add hn (h.fresh_notMem le_rfl), new job, hs⟩
  | submit job hn' hd hss ht => exact ⟨add hn (h.fresh_notMem le_rfl), new job, hs⟩
  | submitChain head dep hh =>
    refine ⟨add (add hn (h.fresh_notMem le_rfl)) ?_, fun j hj => ?_, hs⟩
    · show c.fresh + 1 ∉ c.table ++ [c.fresh]
      rw [List.mem_append, List.mem_singleton]
      rintro (hm | hm)
      · exact h.fresh_notMem (Nat.le_succ _) hm
      · exact Nat.succ_ne_self _ hm
    · rcases List.mem_append.1 hj with hj | hj
      · by_cases hne : j = c.fresh + 1
        · subst hne; exact .inr ⟨Nat.le_succ _, dep, Function.update_self ..⟩
        · rcases new head j hj with hj | ⟨hle, job, hj⟩
          · exact .inl hj
          · exact .inr ⟨hle, job, by simpa [hne] using hj⟩
      · rw [List.mem_singleton] at hj; subst hj
        exact .inr ⟨Nat.le_succ _, dep, Function.update_self ..⟩
  | unstage ht ho => exact ⟨KeyList.nodup_drop hn, fun k hk => .inl (KeyList.mem_drop.1 hk).1, hs⟩
  | unstageChain ht ho =>
    exact ⟨KeyList.nodup_drop (KeyList.nodup_drop hn),
      fun k hk => .inl (KeyList.mem_drop.1 (KeyList.mem_drop.1 hk).1).1, hs⟩
  | prune table hn' hs' => exact ⟨hn', fun j hj => .inl (hs' j hj), hs⟩
  | clear table hn' hs' => exact ⟨hn', fun j hj => .inl (hs' j hj), hs⟩
  | saveBegin ids hids => exact ⟨hn, fun j hj => .inl hj, by rintro _ ⟨⟩; exact hids⟩
  | save => exact ⟨hn, fun j hj => .inl hj, by rintro _ ⟨⟩⟩
  | _ => exact ⟨hn, fun j hj => .inl hj, hs⟩

theorem move_pool (h : c.Inv) (hm : Move ℓ c c') : c'.pending.Nodup ∧ c'.inFlight.Nodup ∧
   (∀ j, j ∈ c'.inFlight ↔ j ∈ c'.jobPeer.map Prod.fst) ∧ (c'.jobPeer.map Prod.snd).Nodup := by
  have h1 := h.pendingNodup
  have h2 := h.inFlightNodup
  have h3 := h.peerKeys
  have h4 := h.peerPins
  have hrel : ∀ j, (∀ k, k ∈ KeyList.drop c.inFlight j ↔
      k ∈ (c.jobPeer.filter (fun e => e.1 ≠ j)).map Prod.fst) ∧
      ((c.jobPeer.filter (fun e => e.1 ≠ j)).map Prod.snd).Nodup := by
    intro j
    refine ⟨fun k => ?_, h4.sublist (List.Sublist.map _ List.filter_sublist)⟩
    simp only [KeyList.mem_drop, h3, List.mem_map, List.mem_filter]
    constructor
    · rintro ⟨⟨e, he, rfl⟩, hne⟩; exact ⟨e, ⟨he, by simpa using hne⟩, rfl⟩
    · rintro ⟨e, ⟨he, hne⟩, rfl⟩; exact ⟨⟨e, he, rfl⟩, by simpa using hne⟩
  have hroute : ∀ j job, (c.route j job).pending.Nodup := by
    intro j job
    simp only [route]; split
    · exact KeyList.nodup_add h1
    · exact KeyList.nodup_drop h1
  cases hm with
  | place => exact ⟨hroute _ _, h2, h3, h4⟩
  | placeChain => exact ⟨hroute _ _, h2, h3, h4⟩
  | placeOwed => exact ⟨hroute _ _, h2, h3, h4⟩
  | toLocal => exact ⟨hroute _ _, h2, h3, h4⟩
  | @startDrive _ j job pin src hj hp hs hpin hsrc =>
    refine ⟨KeyList.nodup_drop h1, KeyList.nodup_add h2, fun k => ?_, ?_⟩
    · by_cases hk : k = j
      · simp [hk]
      · have := (hrel j).1 k
        simp only [KeyList.mem_drop, ne_eq, hk, not_false_eq_true, and_true] at this
        simp [hk, this]
    · simp only [withTokens, bind, List.map_append, List.nodup_append]
      refine ⟨(hrel j).2, by simp, ?_⟩
      rintro a ha b hb rfl
      simp at hb; subst hb
      exact hpin ((List.Sublist.map _ List.filter_sublist).subset ha)
  | release => exact ⟨h1, KeyList.nodup_drop h2, hrel _⟩
  | @reroute _ j job => exact ⟨hroute j job.revertToPendingRemote, KeyList.nodup_drop h2, hrel _⟩
  | @provision _ j job =>
    exact ⟨hroute j (job.clearRunState.applyBuildSource localJobBuildSource),
      KeyList.nodup_drop h2, hrel _⟩
  | unpend => exact ⟨KeyList.nodup_drop h1, h2, h3, h4⟩
  | failPending => exact ⟨KeyList.nodup_drop h1, h2, h3, h4⟩
  | cancelMark => exact ⟨KeyList.nodup_drop h1, KeyList.nodup_drop h2, hrel _⟩
  | _ => exact ⟨h1, h2, h3, h4⟩

theorem mem_dependents {j d : JobId} : d ∈ c.dependents j ↔
    d ∈ c.table ∧ ∃ job, c.obj d = some job ∧ job.dependsOn = some j := by
  unfold dependents
  rw [List.mem_filter]
  cases c.obj d <;> simp

/-- A move that keeps the identity keeps the dependents. -/
theorem dependents_set {j k : JobId} (hj : c.obj j = some job) (h : job'.identity = job.identity) :
    (c.set j job').dependents k = c.dependents k := by
  unfold dependents
  refine List.filter_congr fun d _ => ?_
  by_cases hd : d = j
  · subst hd; simp [hj, dependsOn_of_identity h]
  · simp [hd]

theorem count_owes_owed (h : c.Inv) (j d : JobId) : (c.owes j).count (.owed d) ≤ 1 ∧
    (0 < (c.owes j).count (.owed d) → d ∈ c.dependents j) := by
  have hc : (c.owes j).count (.owed d) = (c.dependents j).count d := by
    unfold owes
    rw [Multiset.coe_count]
    exact List.count_map_of_injective _ _ (by intro a b; simp) _
  rw [hc]
  exact ⟨List.nodup_iff_count_le_one.1 (h.nodup.filter _) d, List.count_pos_iff.1⟩

/-- What a move that ends job `p` owes job `d`. -/
structure EndsFor (c c' : Ledger) (p d : JobId) : Prop where
  ended : ∃ b, c'.obj p = some b ∧ b.isActive = false ∧
    (b.status = .completed → (.exec p ∈ c.tokens ∨ .drive p ∈ c.tokens))
  held : d ∈ c.dependents p
  count : c'.tokens.count (.owed d) ≤ c.tokens.count (.owed d) + 1

/-- **No job is owed more than before**, unless its prerequisite ends now. -/
theorem move_owed (hI : c.Inv) (hm : Move ℓ c c') (d : JobId) :
    c'.tokens.count (.owed d) ≤ c.tokens.count (.owed d) ∨ ∃ p, EndsFor c c' p d := by
  have fin : ∀ {j : JobId} {job job' : FirmwareJob} {ts : Multiset Token}, c.obj j = some job → job'.identity = job.identity →
      job'.isActive = false → (job'.status = .completed → (.exec j ∈ c.tokens ∨ .drive j ∈ c.tokens)) →
      c'.tokens = ts + (c.set j job').owes j → ts.count (.owed d) ≤ c.tokens.count (.owed d) →
      c'.obj j = some job' →
      c'.tokens.count (.owed d) ≤ c.tokens.count (.owed d) ∨ ∃ p, EndsFor c c' p d := by
    intro j job job' ts hj hid ha he ht hts hj'
    have hw : (c.set j job').owes j = c.owes j := by
      unfold owes; rw [dependents_set hj hid]
    rw [hw] at ht
    obtain ⟨h1, h2⟩ := count_owes_owed hI j d
    by_cases hz : 0 < (c.owes j).count (.owed d)
    · refine .inr ⟨j, ⟨job', hj', ha, he⟩, h2 hz, ?_⟩
      rw [ht, Multiset.count_add]; omega
    · refine .inl ?_
      rw [ht, Multiset.count_add]; omega
  cases hm with
  | @finishExec _ j job job' ts ht hj he hf =>
    exact fin hj he.1 he.2.1 (fun _ => .inl (by simp [ht])) rfl (by simp [ht]) (Function.update_self ..)
  | @finishDrive _ j job job' ts ht hj he hf =>
    exact fin hj he.1 he.2.1 (fun _ => .inr (by simp [ht])) (Multiset.cons_add ..).symm (by simp [ht]) (Function.update_self ..)
  | @failPending _ j job job' hp hj hs he hf =>
    exact fin hj he.1 he.2.1 (by simp [hf]) rfl le_rfl (Function.update_self ..)
  | @finishQueued _ j job job' hj hs he hc =>
    exact fin hj he.1 he.2.1 (by simp [hc]) rfl le_rfl (Function.update_self ..)
  | @refinish _ j job job' hj hs he hc =>
    exact fin hj he.1 he.2.1 (by simp [hc]) rfl le_rfl (Function.update_self ..)
  | @fireCancelled _ j job ts ht hj =>
    have hc : job.status = .cancelled := by
      simpa [view, hj] using (hI.view j).fired (by simp [view, ht])
    have hw : (c.set j job).owes j = c.owes j := by
      unfold owes; rw [dependents_set hj rfl]
    exact @fin j job job ts hj rfl (by simp [FirmwareJob.isActive, hc, JobStatus.isTerminal])
      (by simp [hc]) (by rw [hw]; rfl) (by simp [ht]) hj
  | create | cancelMark | startDrive | take => exact .inl (by simp)
  | resolve => exact .inl (by simp)
  | submit _ _ _ _ ht | submitChain _ _ _ _ _ _ _ _ _ _ _ ht => exact .inl (by simp [ht])
  | place hj ht | placeChain hj ht => exact .inl (by simp [ht])
  | unstage ht | unstageChain ht | skip ht | startExec ht | release ht | reroute ht | provision ht | endSweep ht =>
     exact .inl (by simp [ht])
  | @placeOwed _ p j prereq job ts ht | @dropOwed _ j job ts ht =>
     left; simp only [withTokens, ht]; exact Multiset.count_le_count_cons ..
  | beginSweep cause js => exact .inl (by simp)
  | lose ht => left; simp only [withTokens, ht]; exact Multiset.count_le_count_cons ..
  | _ => exact .inl le_rfl

/-- A move stages new jobs only. -/
theorem move_stage (hm : Move ℓ c c') {j : JobId} (hj : .stage j ∈ c'.tokens) :
    .stage j ∈ c.tokens ∨ ∃ job, c'.obj j = some job ∧ job.dependsOn = none := by
  cases hm with
  | create job hn hd =>
    simp only [withTokens, Multiset.mem_cons, Token.stage.injEq] at hj
    rcases hj with rfl | hj
    · exact .inr ⟨job, Function.update_self .., hd⟩
    · exact .inl hj
  | submit job hn hd hs ht =>
    simp only [withTokens, Multiset.mem_cons, Token.stage.injEq] at hj
    rcases hj with rfl | hj
    · exact .inr ⟨job, Function.update_self .., hd⟩
    · exact .inl (by simp [ht, hj])
  | submitChain _ _ _ _ _ _ _ _ _ _ _ ht => exact .inl (by simpa [ht] using hj)
  | place _ ht | placeChain _ ht | unstage ht | unstageChain ht | skip ht | startExec ht
  | finishExec ht | finishDrive ht | release ht | reroute ht | provision ht | endSweep ht
  | fireCancelled ht | placeOwed ht | dropOwed ht | lose ht =>
    left; simp [ht, owes] at hj ⊢; tauto
  | _ => left; simpa [owes] using hj

/-- A move stages new chains only. -/
theorem move_chain (hm : Move ℓ c c') {p d : JobId} (hj : .chain p d ∈ c'.tokens) :
    .chain p d ∈ c.tokens ∨ ∃ head job, c'.obj p = some head ∧ c'.obj d = some job ∧
      job.dependsOn = some p := by
  cases hm with
  | submitChain head dep hh hhd hd hdd hs hds hht hdt hdf ht =>
    simp only [withTokens, Multiset.mem_cons, Token.chain.injEq] at hj
    rcases hj with ⟨rfl, rfl⟩ | hj
    · exact .inr ⟨head, dep, by simp, by simp, hdd⟩
    · exact .inl (by simp [ht, hj])
  | create => left; simpa using hj
  | submit _ _ _ _ ht => left; simpa [ht] using hj
  | place _ ht | placeChain _ ht | unstage ht | unstageChain ht | skip ht | startExec ht
  | finishExec ht | finishDrive ht | release ht | reroute ht | provision ht | endSweep ht
  | fireCancelled ht | placeOwed ht | dropOwed ht | lose ht =>
    left; simp [ht, owes] at hj ⊢; tauto
  | _ => left; simpa [owes] using hj


/-- What holds of a job held on an active one. -/
structure Held (c : Ledger) (d : JobId) : Prop where
  object : ∀ job, c.obj d = some job →
    (job.status = .queued ∨ job.status = .cancelled) ∧ job.dependencyReleased = false
  track : (c.view d).track = (c.view d).chain
  owed : .owed d ∉ c.tokens

theorem Inv.heldOn (hI : c.Inv) {d p : JobId} {prereq : FirmwareJob} (hj : c.obj d = some job)
    (hd : job.dependsOn = some p) (hp : c.obj p = some prereq) (ha : prereq.isActive = true) :
    c.Held d where
  object := by
    intro job₀ hj₀
    rw [hj] at hj₀; cases hj₀
    exact hI.deps.held hj hd hp ha
  track := (hI.idle hj hd hp ha).1
  owed := (hI.idle hj hd hp ha).2

/-- **A job in no place stays in none**, until it is placed as a chain's head or released: only its
chain may go, and it may be cancelled. -/
theorem rest_move (hI : c.Inv) (hm : Move ℓ c c') {d : JobId} (hj : c.obj d = some job)
    (h : (c.view d).track = (c.view d).chain) (hhead : ∀ y, .chain d y ∉ c.tokens)
    (ho : c.tokens.count (.owed d) ≤ c'.tokens.count (.owed d)) :
    (c'.view d).track = (c'.view d).chain ∧ (c'.view d).chain ≤ (c.view d).chain ∧
      ∃ b, c'.obj d = some b ∧ (b.status = job.status ∨ b.status = .cancelled) ∧
        b.dependencyReleased = job.dependencyReleased := by
  have hz : (c.view d).queued = 0 ∧ (c.view d).pending = 0 ∧ (c.view d).taken = 0 ∧
      (c.view d).exec = 0 ∧ (c.view d).drive = 0 ∧ (c.view d).settle = 0 ∧
      (c.view d).stage = 0 := by
    unfold View.track at h; omega
  obtain ⟨hq, hpd, htk, he, hdr, hse, hst⟩ := hz
  have hdf : d ≠ c.fresh := Nat.ne_of_lt (hI.ids hj).2
  have hdf' : d ≠ c.fresh + 1 := Nat.ne_of_lt (Nat.lt_succ_of_lt (hI.ids hj).2)
  simp only [view] at hq hpd htk he hdr hse hst
  have other : ∀ {k b}, d ≠ k → ∃ b', Function.update c.obj k (some b) d = some b' ∧
      (b'.status = job.status ∨ b'.status = .cancelled) ∧
        b'.dependencyReleased = job.dependencyReleased := by
    intro k b hkd
    exact ⟨job, by rw [Function.update_of_ne hkd, hj], .inl rfl, rfl⟩
  have same : ∃ b', c.obj d = some b' ∧ (b'.status = job.status ∨ b'.status = .cancelled) ∧
      b'.dependencyReleased = job.dependencyReleased := ⟨job, hj, .inl rfl, rfl⟩
  simp only [view, View.track] at h
  cases hm with
  | @edit _ k a b hk hab =>
    refine ⟨h, le_rfl, ?_⟩
    by_cases hkd : d = k
    · subst hkd
      rw [hj] at hk; cases hk
      exact ⟨b, Function.update_self .., .inl hab.2.1, hab.2.2.1⟩
    · exact other hkd
  | note | prune | clear | saveBegin | save | callCancel => exact ⟨h, le_rfl, same⟩
  | resolve | beginSweep =>
    refine ⟨?_, ?_, same⟩
    · simpa [view, View.track, Token.chains, count_sweep, chainCount_sweep] using h
    · simp [view, Token.chains, chainCount_sweep]
  | endSweep ht | dropOwed ht | fireCancelled ht =>
    refine ⟨?_, ?_, same⟩
    · simpa [view, View.track, ht, Token.chains] using h
    · simp [view, ht, Token.chains]
  | create job₀ hn =>
    refine ⟨?_, ?_, other hdf⟩
    · simpa [view, View.track, hdf, Token.chains, Multiset.count_cons] using h
    · simp [view, Token.chains]
  | submit job₀ hn _ _ ht =>
    refine ⟨?_, ?_, other hdf⟩
    · simpa [view, View.track, hdf, ht, Token.chains, Multiset.count_cons] using h
    · simp [view, ht, Token.chains]
  | submitChain head dep hh hhd hdn hdd _ _ _ _ _ ht =>
    refine ⟨?_, ?_, job, by simpa [hdf, hdf'] using hj, .inl rfl, rfl⟩
    · simpa [view, View.track, Ne.symm hdf, Ne.symm hdf', ht, Token.chains,
        Multiset.count_cons] using h
    · simp [view, ht, Token.chains, Ne.symm hdf, Ne.symm hdf']
  | @place _ k a ts hk ht =>
    have hkd : d ≠ k := by rintro rfl; simp [ht] at hst
    refine ⟨?_, ?_, other hkd⟩
    · by_cases hpl : FirmwareState.pooled a = true <;>
        simpa [view, View.track, hkd, ht, hpl, Token.chains, Multiset.count_cons] using h
    · simp [view, ht, Token.chains]
  | @placeChain _ k x a ts hk ht =>
    have hkd : d ≠ k := by rintro rfl; exact hhead x (ht ▸ Multiset.mem_cons_self _ _)
    refine ⟨?_, ?_, other hkd⟩
    · by_cases hpl : FirmwareState.pooled a = true <;>
        simpa [view, View.track, hkd, ht, hpl, Token.chains, Multiset.count_cons] using h
    · simp [view, ht, Token.chains]
  | @unstageChain _ k x ts ht =>
    refine ⟨?_, ?_, same⟩
    · simpa [view, View.track, ht, Token.chains, Multiset.count_cons] using h
    · simp [view, ht, Token.chains]
  | @reroute _ k a ts ht =>
    have hkd : d ≠ k := by rintro rfl; simp [ht] at hdr
    refine ⟨?_, ?_, other hkd⟩
    · by_cases hpl : FirmwareState.pooled a.revertToPendingRemote = true <;>
        simpa [view, View.track, hkd, ht, hpl, Token.chains, Multiset.count_cons] using h
    · simp [view, ht, Token.chains]
  | @provision _ k a ts ht =>
    have hkd : d ≠ k := by rintro rfl; simp [ht] at hdr
    refine ⟨?_, ?_, other hkd⟩
    · by_cases hpl : FirmwareState.pooled
          (a.clearRunState.applyBuildSource localJobBuildSource) = true <;>
        simpa [view, View.track, hkd, ht, hpl, Token.chains, Multiset.count_cons] using h
    · simp [view, ht, Token.chains]
  | @toLocal _ k a hpk hk =>
    have hkd : d ≠ k := by rintro rfl; exact List.count_eq_zero.1 hpd hpk
    refine ⟨?_, le_rfl, other hkd⟩
    by_cases hpl : FirmwareState.pooled (a.applyBuildSource localJobBuildSource) = true <;>
      simpa [view, View.track, hkd, hpl, Token.chains, Multiset.count_cons] using h
  | @placeOwed _ q k pre a ts ht =>
    have hkd : d ≠ k := by rintro rfl; simp [ht] at ho <;> omega
    refine ⟨?_, ?_, other hkd⟩
    · by_cases hpl : FirmwareState.pooled a = true <;>
        simpa [view, View.track, hkd, ht, hpl, Token.chains, Multiset.count_cons] using h
    · simp [view, ht, Token.chains]
  | @unstage _ k ts ht =>
    have hkd : d ≠ k := by rintro rfl; simp [ht] at hst
    refine ⟨?_, ?_, same⟩
    · simpa [view, View.track, hkd, ht, Token.chains, Multiset.count_cons] using h
    · simp [view, ht, Token.chains]
  | @take _ k q ht =>
    have hkd : d ≠ k := by rintro rfl; simp [ht] at hq
    refine ⟨?_, ?_, same⟩
    · simpa [view, View.track, hkd, ht, Token.chains, Multiset.count_cons] using h
    · simp [view, Token.chains]
  | @skip _ k a ts ht =>
    have hkd : d ≠ k := by rintro rfl; simp [ht] at htk
    refine ⟨?_, ?_, same⟩
    · simpa [view, View.track, hkd, ht, Token.chains, Multiset.count_cons] using h
    · simp [view, ht, Token.chains]
  | @release _ k ts ht =>
    have hkd : d ≠ k := by rintro rfl; simp [ht] at hse
    refine ⟨?_, ?_, same⟩
    · simpa [view, View.track, hkd, ht, Token.chains, Multiset.count_cons] using h
    · simp [view, ht, Token.chains]
  | @startExec _ k a ts ht hk | @finishExec _ k a b ts ht hk | @finishDrive _ k a b ts ht hk =>
    have hkd : d ≠ k := by rintro rfl; simp [ht] at *
    refine ⟨?_, ?_, other hkd⟩
    · simpa [view, View.track, hkd, ht, Token.chains, Multiset.count_cons] using h
    · simp [view, ht, Token.chains]
  | @startDrive _ k a pin src hk hpk | @failPending _ k a b hpk hk =>
    have hkd : d ≠ k := by rintro rfl; exact List.count_eq_zero.1 hpd hpk
    refine ⟨?_, ?_, other hkd⟩
    · simpa [view, View.track, hkd, Token.chains, Multiset.count_cons] using h
    · simp [view, Token.chains]
  | @unpend _ k a hk =>
    refine ⟨?_, le_rfl, same⟩
    by_cases hkd : d = k
    · subst hkd; simpa [view, View.track, hpd] using h
    · simpa [view, View.track, hkd] using h
  | @cancelMark _ k a hk hs hr =>
    refine ⟨?_, by simp [view, Token.chains], ?_⟩ <;> by_cases hkd : d = k
    · subst hkd
      simpa [view, View.track, hpd, Token.chains] using h
    · simpa [view, View.track, hkd, Token.chains] using h
    · subst hkd
      rw [hj] at hk; cases hk
      exact ⟨_, Function.update_self .., .inr rfl, rfl⟩
    · exact other hkd
  | @finishQueued _ k a b hk hs hab hc | @refinish _ k a b hk hs hab hc =>
    refine ⟨?_, by simp [view], ?_⟩
    · simpa [view, View.track] using h
    · by_cases hkd : d = k
      · subst hkd
        rw [hj] at hk; cases hk
        exact ⟨b, Function.update_self .., .inr hc, hab.2.2.1⟩
      · exact other hkd
  | lose ht hl =>
    rcases hl with ⟨k, rfl⟩ | ⟨k, rfl⟩ | ⟨k, rfl⟩ <;>
    · have hkd : d ≠ k := by rintro rfl; simp [ht] at *
      refine ⟨?_, ?_, same⟩
      · simpa [view, View.track, hkd, ht, Token.chains, Multiset.count_cons] using h
      · simp [view, ht, Token.chains]

/-- A job that depends on another is no head of a chain. -/
theorem Inv.not_head (hI : c.Inv) {d p : JobId} (hj : c.obj d = some job)
    (hd : job.dependsOn = some p) (y : JobId) : .chain d y ∉ c.tokens := by
  intro ht
  obtain ⟨hx, jy, h1, h2, h3⟩ := hI.chain ht
  rw [hj] at h1; cases h1
  have := hI.deps.depth h2 h3 hj
  rw [hd] at this; cases this

/-- **A held job stays held** while its prerequisite is active. -/
theorem held_move (hI : c.Inv) (hm : Move ℓ c c') {d p : JobId} {prereq : FirmwareJob}
    (hj : c.obj d = some job) (hd : job.dependsOn = some p) (hp : c.obj p = some prereq)
    (ha : prereq.isActive = true) (ha' : ∀ b, c'.obj p = some b → b.isActive = true) :
    c'.Held d := by
  have h := hI.heldOn hj hd hp ha
  have h0 : c.tokens.count (.owed d) = 0 := Multiset.count_eq_zero.2 h.owed
  have howed : .owed d ∉ c'.tokens := by
    rw [← Multiset.count_eq_zero]
    rcases move_owed hI hm d with hle | ⟨p', hend⟩
    · omega
    · obtain ⟨-, job₀, hj₀, hd₀⟩ := mem_dependents.1 hend.held
      rw [hj] at hj₀; cases hj₀
      rw [hd] at hd₀; cases hd₀
      obtain ⟨b, hb, hb', -⟩ := hend.ended
      rw [ha' b hb] at hb'; cases hb'
  obtain ⟨htr, -, b, hb, hbs, hbr⟩ :=
    rest_move hI hm hj h.track (hI.not_head hj hd) (by rw [h0]; exact Nat.zero_le _)
  obtain ⟨hs, hr⟩ := h.object job hj
  refine ⟨?_, htr, howed⟩
  intro job' hj'
  rw [hb] at hj'; cases hj'
  refine ⟨?_, hbr.trans hr⟩
  rcases hbs with hbs | hbs
  · rwa [hbs]
  · exact .inr hbs

/-- A new job depends on none, or on the head of the chain created with it. -/
theorem move_new (hI : c.Inv) (hm : Move ℓ c c') {k : JobId} (hk : c.fresh ≤ k)
    (hb : c'.obj k = some job) :
    job.dependsOn = none ∨ ℓ = .chain ∧ job.dependsOn = some c.fresh ∧ k = c.fresh + 1 ∧
      .chain c.fresh k ∈ c'.tokens ∧ ∃ head, c'.obj c.fresh = some head ∧ head.dependsOn = none := by
  have hne : ∀ a, c.obj k ≠ some a := fun a ha => Nat.not_lt.2 hk (hI.ids ha).2
  have hobj := (move_objects hI hm).2 k job hb
  cases hm with
  | create job₀ hn hd | submit job₀ hn hd =>
    by_cases hkf : k = c.fresh
    · subst hkf
      left; simp at hb; subst hb; exact hd
    · simp [hkf] at hb; exact absurd hb (hne _)
  | submitChain head dep hh hhd hdn hdd =>
    by_cases hkf : k = c.fresh + 1
    · subst hkf
      simp at hb; subst hb
      exact .inr ⟨rfl, hdd, rfl, by simp, head, by simp, hhd⟩
    · by_cases hkf' : k = c.fresh
      · subst hkf'
        left; simp at hb; subst hb; exact hhd
      · simp [hkf, hkf'] at hb; exact absurd hb (hne _)
  | _ =>
    rcases hobj with ⟨a, ha, -⟩ | ⟨-, hlt, -⟩
    · exact absurd ha (hne a)
    · exact absurd hlt (Nat.not_lt.2 hk)

/-- An old job that depends on another, after a move, and what both were before. -/
theorem move_dependent (hI : c.Inv) (hm : Move ℓ c c') {d p : JobId} {b : FirmwareJob}
    (hb : c'.obj d = some b) (hd : b.dependsOn = some p) (hlt : d < c.fresh) :
    ∃ a, c.obj d = some a ∧ Kept a b ∧ a.dependsOn = some p ∧ p < d := by
  rcases (move_objects hI hm).2 d b hb with ⟨a, ha, hk⟩ | ⟨hle, -⟩
  · have hda := dependsOn_of_identity hk.1 ▸ hd
    exact ⟨a, ha, hk, hda, hI.deps.lt ha hda⟩
  · exact absurd hlt (Nat.not_lt.2 hle)

theorem move_old (hI : c.Inv) (hm : Move ℓ c c') {k : JobId} {b : FirmwareJob}
    (hb : c'.obj k = some b) (hlt : k < c.fresh) : ∃ a, c.obj k = some a ∧ Kept a b := by
  rcases (move_objects hI hm).2 k b hb with ⟨a, ha, hk⟩ | ⟨hle, -⟩
  · exact ⟨a, ha, hk⟩
  · exact absurd hlt (Nat.not_lt.2 hle)

theorem deps_move (hI : c.Inv) (hm : Move ℓ c c') : DepsOk c'.obj := by
  have new : ∀ {d b p}, c'.obj d = some b → b.dependsOn = some p → c.fresh ≤ d →
      p = c.fresh ∧ d = c.fresh + 1 ∧ ∃ head, c'.obj c.fresh = some head ∧ head.dependsOn = none := by
    intro d b p hb hd hle
    rcases move_new hI hm hle hb with hn | ⟨-, hn, he, -, hh⟩
    · rw [hn] at hd; cases hd
    · rw [hn] at hd; cases hd; exact ⟨rfl, he, hh⟩
  constructor
  case lt =>
    intro d b p hb hd
    rcases Nat.lt_or_ge d c.fresh with hlt | hle
    · obtain ⟨a, -, -, -, h⟩ := move_dependent hI hm hb hd hlt; exact h
    · obtain ⟨rfl, rfl, -⟩ := new hb hd hle; exact Nat.lt_succ_self _
  case depth =>
    intro d b p prereq hb hd hp
    rcases Nat.lt_or_ge d c.fresh with hlt | hle
    · obtain ⟨a, ha, -, hda, hpd⟩ := move_dependent hI hm hb hd hlt
      obtain ⟨q, hq, hkq⟩ := move_old hI hm hp (Nat.lt_trans hpd hlt)
      rw [dependsOn_of_identity hkq.1]
      exact hI.deps.depth ha hda hq
    · obtain ⟨rfl, -, head, hh, hhd⟩ := new hb hd hle
      rw [hp] at hh; cases hh; exact hhd
  case unique =>
    intro d d' b b' p hb hd hb' hd'
    rcases Nat.lt_or_ge d c.fresh with hlt | hle <;> rcases Nat.lt_or_ge d' c.fresh with hlt' | hle'
    · obtain ⟨a, ha, -, hda, -⟩ := move_dependent hI hm hb hd hlt
      obtain ⟨a', ha', -, hda', -⟩ := move_dependent hI hm hb' hd' hlt'
      exact hI.deps.unique ha hda ha' hda'
    · obtain ⟨-, -, -, -, hpd⟩ := move_dependent hI hm hb hd hlt
      obtain ⟨rfl, -⟩ := new hb' hd' hle'
      exact absurd (Nat.lt_trans hpd hlt) (Nat.lt_irrefl _)
    · obtain ⟨-, -, -, -, hpd⟩ := move_dependent hI hm hb' hd' hlt'
      obtain ⟨rfl, -⟩ := new hb hd hle
      exact absurd (Nat.lt_trans hpd hlt') (Nat.lt_irrefl _)
    · rw [(new hb hd hle).2.1, (new hb' hd' hle').2.1]
  case held =>
    intro d b p prereq hb hd hp hact
    rcases Nat.lt_or_ge d c.fresh with hlt | hle
    · obtain ⟨a, ha, -, hda, hpd⟩ := move_dependent hI hm hb hd hlt
      obtain ⟨q, hq, hkq⟩ := move_old hI hm hp (Nat.lt_trans hpd hlt)
      refine (held_move hI hm ha hda hq (hkq.active hact) ?_).object b hb
      intro b' hb'; rw [hp] at hb'; cases hb'; exact hact
    · rcases (move_objects hI hm).2 d b hb with ⟨a, ha, -⟩ | ⟨-, -, hn⟩
      · exact absurd (hI.ids ha).2 (Nat.not_lt.2 hle)
      · exact ⟨.inl hn.2.1, hn.2.2⟩

theorem idle_move (hI : c.Inv) (hm : Move ℓ c c') {d p : JobId} {b prereq : FirmwareJob}
    (hb : c'.obj d = some b) (hd : b.dependsOn = some p) (hp : c'.obj p = some prereq)
    (ha : prereq.isActive = true) :
    (c'.view d).track = (c'.view d).chain ∧ .owed d ∉ c'.tokens := by
  rcases Nat.lt_or_ge d c.fresh with hlt | hle
  · obtain ⟨a, hja, -, hda, hpd⟩ := move_dependent hI hm hb hd hlt
    obtain ⟨q, hq, hkq⟩ := move_old hI hm hp (Nat.lt_trans hpd hlt)
    have := held_move hI hm hja hda hq (hkq.active ha) (by
      intro b' hb'; rw [hp] at hb'; cases hb'; exact ha)
    exact ⟨this.track, this.owed⟩
  · have habs : c.obj d = none := by
      cases ho : c.obj d with
      | none => rfl
      | some a => exact absurd (hI.ids ho).2 (Nat.not_lt.2 hle)
    constructor
    · rcases move_new hI hm hle hb with hn | ⟨-, -, rfl, ht, -⟩
      · rw [hn] at hd; cases hd
      · have hpos : 0 < (c'.view (c.fresh + 1)).chain := by
          obtain ⟨ts, hts⟩ := Multiset.exists_cons_of_mem ht
          simp [view, hts, Token.chains] <;> omega
        have := (view_move hI hm (c.fresh + 1)).elsewhere.2.1 hpos
        have hone := (view_move hI hm (c.fresh + 1)).one
        simp only [View.track] at *; omega
    · have h0 : c.tokens.count (.owed d) = 0 := by
        rw [Multiset.count_eq_zero]
        intro hmem
        obtain ⟨a, -, -, ha', -⟩ := hI.owed hmem
        rw [habs] at ha'; cases ha'
      rw [← Multiset.count_eq_zero]
      rcases move_owed hI hm d with hle' | ⟨p', hend⟩
      · omega
      · obtain ⟨-, a, ha', -⟩ := mem_dependents.1 hend.held
        rw [habs] at ha'; cases ha'

/-- A job whose release is owed and that nothing holds. -/
def Free (c : Ledger) (d : JobId) : Prop :=
  c.tokens.count (.owed d) = 1 ∧ (c.view d).track = 0 ∧ (c.view d).Waiting

/-- A free job stays free until it is released, while its prerequisite is completed. -/
theorem free_move (hI : c.Inv) (hm : Move ℓ c c') {d p : JobId} {prereq : FirmwareJob}
    (hj : c.obj d = some job) (hd : job.dependsOn = some p) (hp : c.obj p = some prereq)
    (hs : prereq.status = .completed) (hs' : ∀ b, c'.obj p = some b → b.status = .completed)
    (hf : c.Free d) (ht : .owed d ∈ c'.tokens) : c'.Free d := by
  obtain ⟨h1, h2, h3⟩ := hf
  have hcount : c'.tokens.count (.owed d) = 1 := by
    have hpos := Multiset.count_pos.2 ht
    rcases move_owed hI hm d with hle | ⟨p', hend⟩
    · omega
    · obtain ⟨-, a, ha, hda⟩ := mem_dependents.1 hend.held
      rw [hj] at ha; cases ha
      rw [hd] at hda; cases hda
      obtain ⟨b, hb, -, htok⟩ := hend.ended
      have hrun : prereq.status = .running := by
        rcases htok (hs' b hb) with h | h
        · exact hI.active_of_exec hp h
        · exact hI.active_of_drive hp h
      rw [hs] at hrun; cases hrun
  have hch : (c.view d).chain = 0 := by unfold View.track at h2; omega
  obtain ⟨htr, hle, b, hb, hbs, -⟩ :=
    rest_move hI hm hj (h2.trans hch.symm) (hI.not_head hj hd) (by rw [h1, hcount])
  refine ⟨hcount, by omega, ?_⟩
  simp only [View.Waiting, view, hj, hb, Option.map_some, Option.some.injEq] at h3 ⊢
  rcases hbs with hbs | hbs
  · rwa [hbs]
  · exact .inr hbs

theorem owed_move (hI : c.Inv) (hm : Move ℓ c c') {d : JobId} (ht : .owed d ∈ c'.tokens) :
    ∃ job p prereq, c'.obj d = some job ∧ job.dependsOn = some p ∧ c'.obj p = some prereq ∧
      prereq.isActive = false ∧ (prereq.status = .completed → c'.Free d) := by
  have hpos := Multiset.count_pos.2 ht
  by_cases hend : ∃ p, EndsFor c c' p d
  · obtain ⟨p, hend⟩ := hend
    obtain ⟨b, hb, hba, htok⟩ := hend.ended
    obtain ⟨-, a, ha, hda⟩ := mem_dependents.1 hend.held
    have hpd := hI.deps.lt ha hda
    obtain ⟨b', hb', hk⟩ := (move_objects hI hm).1 d a ha
    obtain ⟨q, hq, -⟩ := move_old hI hm hb (Nat.lt_trans hpd (hI.ids ha).2)
    refine ⟨b', p, b, hb', by rw [dependsOn_of_identity hk.1]; exact hda, hb, hba, fun hc => ?_⟩
    -- the prerequisite ended just now, and nothing else held its dependent
    have hrun : q.status = .running ∧ (c.view p).chain = 0 := by
      have hone := (hI.view p).one
      rcases htok hc with h | h
      · refine ⟨hI.active_of_exec hq h, ?_⟩
        have : 0 < (c.view p).exec := Multiset.count_pos.2 h
        unfold View.track at hone; omega
      · refine ⟨hI.active_of_drive hq h, ?_⟩
        have : 0 < (c.view p).drive := Multiset.count_pos.2 h
        unfold View.track at hone; omega
    have hact : q.isActive = true := by simp [FirmwareJob.isActive_iff, hrun.1]
    have hheld := hI.heldOn ha hda hq hact
    have h0 : c.tokens.count (.owed d) = 0 := Multiset.count_eq_zero.2 hheld.owed
    have hcount := hend.count
    obtain ⟨htr, hle, b'', hb'', hs, -⟩ :=
      rest_move hI hm ha hheld.track (hI.not_head ha hda) (by omega)
    have hchain : (c.view d).chain = 0 := by
      by_contra hne
      obtain ⟨x, y, hxy, hor⟩ := chain_of_chainCount (Nat.pos_of_ne_zero hne)
      rcases hor with rfl | rfl
      · exact hI.not_head ha hda y hxy
      · obtain ⟨-, j, -, hj, hjd⟩ := hI.chain hxy
        rw [ha] at hj; cases hj
        rw [hda] at hjd; cases hjd
        exact absurd hrun.2 (Nat.ne_of_gt (chainCount_pos hxy (.inl rfl)))
    refine ⟨by omega, by omega, ?_⟩
    obtain ⟨hst, -⟩ := hheld.object a ha
    simp only [View.Waiting, view, hb'', Option.map_some, Option.some.injEq]
    rcases hs with hs | hs
    · rwa [hs]
    · exact .inr hs
  · have hle : c'.tokens.count (.owed d) ≤ c.tokens.count (.owed d) := by
      rcases move_owed hI hm d with hle | h
      · exact hle
      · exact absurd h hend
    have hmem : .owed d ∈ c.tokens := Multiset.count_pos.1 (by omega)
    obtain ⟨a, p, q, ha, hda, hq, hqa, hfree⟩ := hI.owed hmem
    obtain ⟨b, hb, hk⟩ := (move_objects hI hm).1 d a ha
    obtain ⟨b', hb', hk'⟩ := (move_objects hI hm).1 p q hq
    refine ⟨b, p, b', hb, by rw [dependsOn_of_identity hk.1]; exact hda, hb', ?_, fun hc => ?_⟩
    · by_contra hact
      rw [hk'.active (by simpa using hact)] at hqa; cases hqa
    · have hqc : q.status = .completed := by
        rcases hk'.2 with h | h
        · rw [← h, hc]
        · rw [hqa] at h; cases h
      refine free_move hI hm ha hda hq hqc ?_ (hfree hqc) ht
      intro b'' hb''
      rw [hb'] at hb''; cases hb''; exact hc

theorem owedRow_move (hI : c.Inv) (hm : Move ℓ c c') {d : JobId} (ht : .owed d ∈ c'.tokens)
    (hj : c'.obj d = some job) (ha : job.isActive = true) : d ∈ c'.table := by
  obtain ⟨hmem, a, hja, hact⟩ : d ∈ c.table ∧ ∃ a, c.obj d = some a ∧ a.isActive = true := by
    have hpos := Multiset.count_pos.2 ht
    rcases move_owed hI hm d with hle | ⟨p, hend⟩
    · have howed : .owed d ∈ c.tokens := Multiset.count_pos.1 (by omega)
      obtain ⟨a, -, -, hja, -⟩ := hI.owed howed
      obtain ⟨b, hb, hk⟩ := (move_objects hI hm).1 d a hja
      rw [hj] at hb; cases hb
      exact ⟨hI.owedRow howed a hja (hk.active ha), a, hja, hk.active ha⟩
    · obtain ⟨hmem, a, hja, -⟩ := mem_dependents.1 hend.held
      obtain ⟨b, hb, hk⟩ := (move_objects hI hm).1 d a hja
      rw [hj] at hb; cases hb
      exact ⟨hmem, a, hja, hk.active ha⟩
  cases hm with
  | create | submit => exact List.mem_append_left _ hmem
  | submitChain => exact List.mem_append_left _ (List.mem_append_left _ hmem)
  | unstage hts ho =>
    exact KeyList.mem_drop.2 ⟨hmem, by rintro rfl; exact ho (hts ▸ Multiset.mem_cons_of_mem ht)⟩
  | unstageChain hts ho => exact absurd (hts ▸ Multiset.mem_cons_of_mem ht) (ho d)
  | prune table hn hs hkeep => exact hkeep d hmem a hja hact
  | clear table hn hs ho => exact absurd ht (ho d)
  | _ => exact hmem

theorem lookup_some {rows : List FirmwareJob} {j : JobId} (h : lookup rows j = some job) :
    job ∈ rows ∧ job.jobId = j :=
  ⟨List.mem_of_find?_eq_some h, by simpa using List.find?_some h⟩

theorem disk_move (hI : c.Inv) (hm : Move ℓ c c') : DepsOk (lookup c'.disk) ∧
    (c'.disk.map (·.jobId)).Nodup ∧ ∀ row ∈ c'.disk, row.jobId < c'.fresh := by
  have same : DepsOk (lookup c.disk) ∧ (c.disk.map (·.jobId)).Nodup ∧
      ∀ row ∈ c.disk, row.jobId < c'.fresh :=
    ⟨hI.disk, hI.diskNodup, fun row hr => Nat.lt_of_lt_of_le (hI.diskIds row hr) (move_fresh hm)⟩
  cases hm with
  | @save _ ids hs ho =>
    have hrow : ∀ row ∈ ids.filterMap c.obj, c.obj row.jobId = some row := by
      intro row hr
      obtain ⟨j, -, hj⟩ := List.mem_filterMap.1 hr
      rw [(hI.ids hj).1]; exact hj
    have hget : ∀ {j job}, lookup (ids.filterMap c.obj) j = some job → c.obj j = some job := by
      intro j job hj
      obtain ⟨hr, rfl⟩ := lookup_some hj
      exact hrow job hr
    have hd := hI.deps
    refine ⟨?_, ?_, fun row hr => (hI.ids (hrow row hr)).2⟩
    · constructor
      · exact fun h1 => hd.lt (hget h1)
      · exact fun h1 h2 h3 => hd.depth (hget h1) h2 (hget h3)
      · exact fun h1 h2 h3 => hd.unique (hget h1) h2 (hget h3)
      · exact fun h1 h2 h3 => hd.held (hget h1) h2 (hget h3)
    · have hn : ids.Nodup := hI.saving hs
      simp only
      clear same hrow hget hs
      induction ids with
      | nil => simp
      | cons j ids ih =>
        obtain ⟨hj, hn⟩ := List.nodup_cons.1 hn
        cases ho : c.obj j with
        | none => simpa [ho] using ih hn
        | some job =>
          simp only [List.filterMap_cons, ho, List.map_cons, List.nodup_cons]
          refine ⟨?_, ih hn⟩
          rw [List.mem_map]
          rintro ⟨row, hr, he⟩
          obtain ⟨k, hk, hkr⟩ := List.mem_filterMap.1 hr
          rw [(hI.ids hkr).1, (hI.ids ho).1] at he
          exact hj (he ▸ hk)
  | _ => exact same

/-- **Every move preserves the invariant.** -/
theorem Inv.move (hI : c.Inv) (hm : Move ℓ c c') : c'.Inv where
  view := view_move hI hm
  ids := by
    intro j job hj
    rcases (move_objects hI hm).2 j job hj with ⟨a, ha, hk⟩ | ⟨-, hlt, hn⟩
    · obtain ⟨h1, h2⟩ := hI.ids ha
      exact ⟨(jobId_of_identity hk.1).trans h1, Nat.lt_of_lt_of_le h2 (move_fresh hm)⟩
    · exact ⟨hn.1, hlt⟩
  nodup := (move_table hI hm).1
  rows := by
    intro j hj
    rcases (move_table hI hm).2.1 j hj with h | ⟨-, h⟩
    · obtain ⟨a, ha⟩ := hI.rows h
      obtain ⟨b, hb, -⟩ := (move_objects hI hm).1 j a ha
      exact ⟨b, hb⟩
    · exact h
  saving := (move_table hI hm).2.2 _
  pendingNodup := (move_pool hI hm).1
  inFlightNodup := (move_pool hI hm).2.1
  peerKeys := (move_pool hI hm).2.2.1
  peerPins := (move_pool hI hm).2.2.2
  deps := deps_move hI hm
  stage := by
    intro j hj job hjob
    rcases move_stage hm hj with h | ⟨job', hjob', hd⟩
    · obtain ⟨b, hb⟩ : ∃ b, c.obj j = some b := by
        cases ho : c.obj j with
        | some b => exact ⟨b, rfl⟩
        | none =>
          have h0 := ((hI.view j).absent (by simp [Ledger.view, ho])).1
          have : 0 < (c.view j).stage := Multiset.count_pos.2 h
          unfold View.track at h0; omega
      obtain ⟨b', hb', hk⟩ := (move_objects hI hm).1 j b hb
      rw [hjob] at hb'; cases hb'
      rw [dependsOn_of_identity hk.1]; exact hI.stage h b hb
    · rw [hjob] at hjob'; cases hjob'; exact hd
  chain := by
    intro p d ht
    rcases move_chain hm ht with h | h
    · obtain ⟨head, job, hp, hd, hdep⟩ := hI.chain h
      obtain ⟨b, hb, -⟩ := (move_objects hI hm).1 p head hp
      obtain ⟨b', hb', hk⟩ := (move_objects hI hm).1 d job hd
      exact ⟨b, b', hb, hb', by rw [dependsOn_of_identity hk.1]; exact hdep⟩
    · exact h
  idle := idle_move hI hm
  owed := owed_move hI hm
  owedRow := fun ht job hj ha => owedRow_move hI hm ht hj ha
  disk := (disk_move hI hm).1
  diskNodup := (disk_move hI hm).2.1
  diskIds := (disk_move hI hm).2.2

/-! ### Chains of moves -/

variable {ok : Label → Prop}

theorem Inv.chainMove (hI : c.Inv) (hc : Runs.Chain Move ok c c') : c'.Inv :=
  hc.invariant hI fun _ _ _ _ hm hI => hI.move hm

/-- A job stays the same job. -/
theorem chain_identity (hI : c.Inv) (hc : Runs.Chain Move ok c c') {j : JobId}
    (hj : c.obj j = some job) : ∃ b, c'.obj j = some b ∧ b.identity = job.identity := by
  let R (c c' : Ledger) : Prop := ∀ j a, c.obj j = some a →
    ∃ b, c'.obj j = some b ∧ b.identity = a.identity
  have hR : R c c' := by
    refine hc.rel hI (fun _ _ _ _ hm hI => hI.move hm) (fun _ _ a ha => ⟨a, ha, rfl⟩) ?_ ?_
    · intro c₁ c₂ c₃ h₁ h₂ j a ha
      obtain ⟨b, hb, hid⟩ := h₁ j a ha
      obtain ⟨b', hb', hid'⟩ := h₂ j b hb
      exact ⟨b', hb', hid'.trans hid⟩
    · intro ℓ c₁ c₂ hℓ hm hI j a ha
      obtain ⟨b, hb, hk⟩ := (move_objects hI hm).1 j a ha
      exact ⟨b, hb, hk.1⟩
  exact hR j job hj

/-- **A job that ended keeps its status.** -/
theorem chain_ended (hI : c.Inv) (hc : Runs.Chain Move ok c c') {j : JobId}
    (hj : c.obj j = some job) (ha : job.isActive = false) :
    ∃ b, c'.obj j = some b ∧ b.identity = job.identity ∧ b.status = job.status := by
  let R (c c' : Ledger) : Prop := ∀ j a, c.obj j = some a → a.isActive = false →
    ∃ b, c'.obj j = some b ∧ b.identity = a.identity ∧ b.status = a.status
  have hR : R c c' := by
    refine hc.rel hI (fun _ _ _ _ hm hI => hI.move hm) (fun _ _ a ha _ => ⟨a, ha, rfl, rfl⟩) ?_ ?_
    · intro c₁ c₂ c₃ h₁ h₂ j a ha hact
      obtain ⟨b, hb, hid, hs⟩ := h₁ j a ha hact
      obtain ⟨b', hb', hid', hs'⟩ := h₂ j b hb (by rw [isActive_congr hs]; exact hact)
      exact ⟨b', hb', hid'.trans hid, hs'.trans hs⟩
    · intro ℓ c₁ c₂ hℓ hm hI j a ha hact
      obtain ⟨b, hb, hk⟩ := (move_objects hI hm).1 j a ha
      refine ⟨b, hb, hk.1, ?_⟩
      rcases hk.2 with h | h
      · exact h
      · rw [hact] at h; cases h
  exact hR j job hj ha

/-- **No job gets a new dependent** where no chain is created. -/
theorem chain_dependents (hI : c.Inv) (hc : Runs.Chain Move ok c c') (hok : ¬ ok .chain)
    {j d : JobId} (hd : d ∈ c'.dependents j) : d ∈ c.dependents j := by
  let R (c c' : Ledger) : Prop := ∀ j d, d ∈ c'.dependents j → d ∈ c.dependents j
  have hR : R c c' := by
    refine hc.rel hI (fun _ _ _ _ hm hI => hI.move hm) (fun _ _ _ => id)
      (fun _ _ _ h₁ h₂ j d hd => h₁ j d (h₂ j d hd)) ?_
    intro ℓ c₁ c₂ hℓ hm hI j d hd
    obtain ⟨hmem, b, hb, hdep⟩ := mem_dependents.1 hd
    rcases Nat.lt_or_ge d c₁.fresh with hlt | hle
    · obtain ⟨a, ha, -, hda, -⟩ := move_dependent hI hm hb hdep hlt
      rcases (move_table hI hm).2.1 d hmem with h | ⟨h, -⟩
      · exact mem_dependents.2 ⟨h, a, ha, hda⟩
      · exact absurd hlt (Nat.not_lt.2 h)
    · rcases move_new hI hm hle hb with hn | ⟨rfl, -⟩
      · rw [hn] at hdep; cases hdep
      · exact absurd hℓ hok
  exact hR j d hd

/-- A job is in the pool, or does not wait any more. -/
def PooledOrGone (c : Ledger) (j : JobId) : Prop :=
  ∃ job, c.obj j = some job ∧ (job.status = .queued → j ∈ c.pending)

/-- Only the pool's own moves take a waiting job out of the pool. -/
theorem pooledOrGone_move (hI : c.Inv) (hm : Move ℓ c c') (hp : ℓ ≠ .pool)
    (hl : ∀ t, ℓ ≠ .toLocal t) (hv : ∀ t, ℓ ≠ .provision t) {j : JobId} (h : c.PooledOrGone j) : c'.PooledOrGone j := by
  obtain ⟨job, hj, hq⟩ := h
  obtain ⟨b, hb, hk⟩ := (move_objects hI hm).1 j job hj
  refine ⟨b, hb, fun hbs => ?_⟩
  have hlt := (hI.ids hj).2
  have hroute : ∀ {k : JobId} (a : FirmwareJob), j ≠ k → j ∈ c.pending →
      j ∈ (c.route k a).pending := by
    intro k a hne hmem
    simp only [route]
    split
    · exact KeyList.mem_add.2 (.inl hmem)
    · exact KeyList.mem_drop.2 ⟨hmem, hne⟩
  have hpool : j ∈ c.pending → (c.view j).stage = 0 ∧ (c.view j).chain = 0 ∧
      (c.view j).track ≠ 0 := by
    intro hmem
    have hone := (hI.view j).one
    have hpos : 0 < (c.view j).pending := List.count_pos_iff.2 hmem
    unfold View.track at *; omega
  have same : ∀ {b' : FirmwareJob}, c.obj j = some b' → b'.status = .queued → j ∈ c.pending := by
    intro b' hb' hs
    rw [hj] at hb'; cases hb'
    exact hq hs
  have other : ∀ {k : JobId} {a : FirmwareJob}, j ≠ k →
      Function.update c.obj k (some a) j = some b → j ∈ c.pending := by
    intro k a hne hb'
    rw [Function.update_of_ne hne] at hb'
    exact same hb' hbs
  cases hm with
  | @edit _ k a a' hk he =>
    by_cases hne : j = k
    · subst hne
      rw [hj] at hk; cases hk
      simp only [set, Function.update_self, Option.some.injEq] at hb
      subst hb
      exact hq (he.2.1 ▸ hbs)
    · exact other hne hb
  | create | submit => exact other (Nat.ne_of_lt hlt) hb
  | submitChain =>
    have hne : j ≠ c.fresh := Nat.ne_of_lt hlt
    have hne' : j ≠ c.fresh + 1 := Nat.ne_of_lt (Nat.lt_succ_of_lt hlt)
    exact same (by simpa [hne, hne'] using hb) hbs
  | @place _ k a ts hk ht =>
    have hne : j ≠ k := by
      rintro rfl
      rw [hj] at hk; cases hk
      have hw : b.status = job.status := by
        simp only [withTokens, route, Function.update_self, Option.some.injEq] at hb
        rw [← hb]; exact latched_status
      have := (hpool (hq (hw ▸ hbs))).1
      simp [view, ht] at this
    exact hroute a hne (other hne hb)
  | @placeChain _ k d a ts hk ht =>
    have hne : j ≠ k := by
      rintro rfl
      rw [hj] at hk; cases hk
      have hw : b.status = job.status := by
        simp only [withTokens, route, Function.update_self, Option.some.injEq] at hb
        rw [← hb]; exact latched_status
      have := (hpool (hq (hw ▸ hbs))).2.1
      exact absurd this (Nat.ne_of_gt (chainCount_pos (ht ▸ Multiset.mem_cons_self _ _) (.inl rfl)))
    exact hroute a hne (other hne hb)
  | @placeOwed _ p k prereq a ts ht hk hd hpr hps hpd hs =>
    have hne : j ≠ k := by
      rintro rfl
      obtain ⟨job₀, p₀, prereq₀, hj₀, hd₀, hp₀, -, hc⟩ := hI.owed (ht ▸ Multiset.mem_cons_self _ _)
      rw [hk] at hj₀; cases hj₀
      rw [hd] at hd₀; cases hd₀
      rw [hpr] at hp₀; cases hp₀
      rw [hj] at hk; cases hk
      exact (hpool (hq hs)).2.2 (hc hps).2.1
    exact hroute a hne (other hne hb)
  | @startExec _ k a ts ht hk =>
    by_cases hne : j = k
    · subst hne
      simp only [withTokens, emit, setActive, set, Function.update_self, Option.some.injEq] at hb
      subst hb; cases hbs
    · exact other hne hb
  | @finishExec _ k a b' ts ht hk | @finishDrive _ k a b' ts ht hk
  | @finishQueued _ k a b' hk | @refinish _ k a b' hk =>
    by_cases hne : j = k
    · subst hne
      rw [hj] at hk; cases hk
      simp_all [FirmwareJob.EndsAs, FirmwareJob.isActive, JobStatus.isTerminal]
    · exact other hne hb
  | @failPending _ k a b' hpk hk hs he =>
    by_cases hne : j = k
    · subst hne
      simp_all [FirmwareJob.EndsAs, FirmwareJob.isActive, JobStatus.isTerminal]
    · exact KeyList.mem_drop.2 ⟨other hne hb, hne⟩
  | @cancelMark _ k a hk hs hr =>
    by_cases hne : j = k
    · subst hne
      simp only [withTokens, release, unpend, set, Function.update_self, Option.some.injEq] at hb
      subst hb; cases hbs
    · exact KeyList.mem_drop.2 ⟨other hne hb, hne⟩
  | @unpend _ k a hk hs =>
    by_cases hne : j = k
    · subst hne
      have hb' : c.obj j = some b := hb
      rw [hk] at hb'; cases hb'
      exact absurd hbs hs
    · exact KeyList.mem_drop.2 ⟨same hb hbs, hne⟩
  | startDrive | reroute => exact absurd rfl hp
  | provision => exact absurd rfl (hv _)
  | toLocal => exact absurd rfl (hl _)
  | _ => exact same hb hbs

theorem chain_pooledOrGone (hI : c.Inv) (hc : Runs.Chain Move ok c c') (hp : ¬ ok .pool)
    (hl : ∀ t, ¬ ok (.toLocal t)) (hv : ∀ t, ¬ ok (.provision t)) {j : JobId} (h : c.PooledOrGone j) :
    c'.PooledOrGone j := by
  let R (c c' : Ledger) : Prop := c.PooledOrGone j → c'.PooledOrGone j
  have hR : R c c' := by
    refine hc.rel hI (fun _ _ _ _ hm hI => hI.move hm) (fun _ => id) (fun _ _ _ h₁ h₂ h => h₂ (h₁ h)) ?_
    intro ℓ c₁ c₂ hℓ hm hI h
    refine pooledOrGone_move hI hm ?_ (fun t => ?_) (fun t => ?_) h <;> rintro rfl
    · exact hp hℓ
    · exact hl t hℓ
    · exact hv t hℓ
  exact hR h

/-- A job has at most one dependent. -/
theorem Inv.dependents_le (hI : c.Inv) (j : JobId) :
    c.dependents j = [] ∨ ∃ d, c.dependents j = [d] := by
  have hall : ∀ d ∈ c.dependents j, ∀ d' ∈ c.dependents j, d = d' := by
    intro d hd d' hd'
    obtain ⟨-, a, ha, hda⟩ := mem_dependents.1 hd
    obtain ⟨-, b, hb, hdb⟩ := mem_dependents.1 hd'
    exact hI.deps.unique ha hda hb hdb
  have hn : (c.dependents j).Nodup := hI.nodup.filter _
  match hl : c.dependents j with
  | [] => exact .inl rfl
  | [d] => exact .inr ⟨d, rfl⟩
  | d :: d' :: l =>
    rw [hl] at hall hn
    have := hall d (by simp) d' (by simp)
    simp [this] at hn

end Ledger

end DeviceBuilder
