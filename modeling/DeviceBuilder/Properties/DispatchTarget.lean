import DeviceBuilder.Helpers.BuildScheduler
import Mathlib.Data.String.Basic
import Mathlib.Data.Prod.Lex

/-!
# Two deciders of where a compile runs

A submission asks `pickBuildPath`, the dispatch pool asks `pickDispatchTarget`.
Both read the same filter, so its result is first given in closed form
(`eligiblePairings_eq`): which servers are free, and how many were left out for
each reason. The free servers are listed by pairing time and pin, so the order
in which the table of pairings is walked does not show (`eligiblePairings_perm`).

* `deciders_agree`: what the two answer on one snapshot, and what an answer
  that names a server says about it.
-/

namespace DeviceBuilder

variable {i i' : BuildSchedulerInputs} {p q : StoredPairing} {pin : Pin}

/-- The user means this server to take builds. -/
def Intended (p : StoredPairing) : Prop := p.status = .approved ∧ p.enabled = true

instance : DecidablePred Intended := fun p => by unfold Intended; infer_instance

instance : DecidablePred (Dispatchable i) := fun p => by unfold Dispatchable; infer_instance

/-- A server that could take the compile now. -/
def Free (i : BuildSchedulerInputs) (p : StoredPairing) : Prop :=
  Dispatchable i p ∧ p.pin ∉ i.busyBuildServerPins

/-- A server that could take it, if it were not busy. -/
def Busy (i : BuildSchedulerInputs) (p : StoredPairing) : Prop :=
  Dispatchable i p ∧ p.pin ∈ i.busyBuildServerPins

/-- An intended server without an open link. -/
def Offline (i : BuildSchedulerInputs) (p : StoredPairing) : Prop :=
  Intended p ∧ p.pin ∉ i.openPeerLinks

/-- A connected server left out for its version. -/
def Mismatched (i : BuildSchedulerInputs) (p : StoredPairing) : Prop :=
  Intended p ∧ p.pin ∈ i.openPeerLinks ∧ ¬ Dispatchable i p

instance : DecidablePred (Free i) := fun p => by unfold Free; infer_instance
instance : DecidablePred (Busy i) := fun p => by unfold Busy; infer_instance
instance : DecidablePred (Offline i) := fun p => by unfold Offline; infer_instance
instance : DecidablePred (Mismatched i) := fun p => by unfold Mismatched; infer_instance

/-- **One round of the filter** puts a pairing in exactly one of its classes. -/
theorem eligibleStep_eq (r : FilterResult) (p : StoredPairing) :
    eligibleStep i r p =
      { eligible := r.eligible ++ if Free i p then [p.pin] else []
        intentional := r.intentional + if Intended p then 1 else 0
        versionFiltered := r.versionFiltered + if Mismatched i p then 1 else 0
        disconnected := r.disconnected + if Offline i p then 1 else 0
        busyEligible := r.busyEligible + if Busy i p then 1 else 0 } := by
  unfold eligibleStep Free Busy Offline Mismatched Dispatchable Intended
  by_cases hs : p.status = .approved <;> by_cases he : p.enabled = true <;>
    by_cases ho : p.pin ∈ i.openPeerLinks <;>
    by_cases hv : versionSatisfiesPolicy i.offloaderEsphomeVersion p.esphomeVersion
      i.versionMatchPolicy = true <;>
    by_cases hc : canProvision p i.offloaderEsphomeVersion = true <;>
    by_cases hb : p.pin ∈ i.busyBuildServerPins <;>
    simp [hs, he, ho, hv, hc, hb]

theorem foldl_eligibleStep (l : List StoredPairing) (r : FilterResult) :
    l.foldl (eligibleStep i) r =
      { eligible := r.eligible ++ (l.filter (Free i)).map (·.pin)
        intentional := r.intentional + l.countP Intended
        versionFiltered := r.versionFiltered + l.countP (Mismatched i)
        disconnected := r.disconnected + l.countP (Offline i)
        busyEligible := r.busyEligible + l.countP (Busy i) } := by
  induction l generalizing r with
  | nil => simp
  | cons p l ih =>
    rw [List.foldl_cons, ih, eligibleStep_eq]
    simp only [List.countP_cons, List.filter_cons, decide_eq_true_eq, FilterResult.mk.injEq]
    refine ⟨?_, by omega, by omega, by omega, by omega⟩
    by_cases hf : Free i p <;> simp [hf]

/-- **The filter's result**: the free servers in pairing order, and how many of each other class. -/
theorem eligiblePairings_eq :
    eligiblePairings i =
      { eligible := ((i.pairings.insertionSort (fun p q => pairedBefore p q)).filter
          (Free i)).map (·.pin)
        intentional := i.pairings.countP Intended
        versionFiltered := i.pairings.countP (Mismatched i)
        disconnected := i.pairings.countP (Offline i)
        busyEligible := i.pairings.countP (Busy i) } := by
  have hp := List.perm_insertionSort (fun p q => pairedBefore p q = true) i.pairings
  have hc : ∀ P : StoredPairing → Bool, _ = i.pairings.countP P := fun P => hp.countP_eq P
  unfold eligiblePairings
  rw [foldl_eligibleStep, hc, hc, hc, hc]
  simp

/-! ### The walk order does not show -/

/-- The key the pairings are sorted by. -/
def pairingKey (p : StoredPairing) : ℕ ×ₗ String := toLex (p.pairedAt, p.pin)

theorem pairedBefore_iff : pairedBefore p q = true ↔ pairingKey p ≤ pairingKey q := by
  unfold pairedBefore pairingKey
  rw [Prod.Lex.toLex_le_toLex]
  simp

/-- The pins of a sorted table, read off its keys. -/
theorem map_pin_eq (l : List StoredPairing) :
    l.map (·.pin) = (l.map pairingKey).map fun k => (ofLex k).2 := by
  rw [List.map_map]; rfl

theorem sorted_keys (l : List StoredPairing) (P : StoredPairing → Bool) :
    (((l.insertionSort (fun p q => pairedBefore p q)).filter P).map pairingKey).Pairwise
      (· ≤ ·) := by
  have htotal : Std.Total (fun p q : StoredPairing => pairedBefore p q = true) :=
    ⟨fun p q => by simp only [pairedBefore_iff]; exact le_total _ _⟩
  have htrans : IsTrans _ (fun p q : StoredPairing => pairedBefore p q = true) :=
    ⟨fun p q r => by simp only [pairedBefore_iff]; exact le_trans⟩
  have hs := List.pairwise_insertionSort (fun p q : StoredPairing => pairedBefore p q = true) l
  rw [List.pairwise_map]
  exact (hs.filter P).imp pairedBefore_iff.1

/-- **The order of the table does not show** in what the filter finds. -/
theorem eligiblePairings_perm {l : List StoredPairing} (h : i.pairings.Perm l) :
    eligiblePairings { i with pairings := l } = eligiblePairings i := by
  rw [eligiblePairings_eq, eligiblePairings_eq]
  have hp : ((i.pairings.insertionSort (fun p q => pairedBefore p q)).filter (Free i)).Perm
      ((l.insertionSort (fun p q => pairedBefore p q)).filter (Free i)) := by
    apply List.Perm.filter
    exact (List.perm_insertionSort _ _).trans (h.trans (List.perm_insertionSort _ _).symm)
  have hkeys := List.Perm.eq_of_pairwise' (sorted_keys i.pairings (Free i))
    (sorted_keys l (Free i)) (hp.map pairingKey)
  have hpins := congrArg (List.map fun k => (ofLex k).2) hkeys
  rw [← map_pin_eq, ← map_pin_eq] at hpins
  simp only [FilterResult.mk.injEq]
  exact ⟨hpins.symm, (h.countP_eq _).symm, (h.countP_eq _).symm, (h.countP_eq _).symm,
    (h.countP_eq _).symm⟩

theorem pickBuildPath_perm {l : List StoredPairing} (h : i.pairings.Perm l) :
    pickBuildPath { i with pairings := l } = pickBuildPath i := by
  unfold pickBuildPath
  rw [eligiblePairings_perm h]
  rfl

theorem pickDispatchTarget_perm {l : List StoredPairing} (h : i.pairings.Perm l) :
    pickDispatchTarget { i with pairings := l } = pickDispatchTarget i := by
  unfold pickDispatchTarget
  rw [eligiblePairings_perm h]
  rfl

/-! ### What an answer says -/

theorem mem_eligible_iff :
    pin ∈ (eligiblePairings i).eligible ↔ ∃ p ∈ i.pairings, p.pin = pin ∧ Free i p := by
  rw [mem_eligible]
  exact exists_congr fun p => and_congr_right fun _ => and_congr_left fun _ => eq_comm

/-- **An idle server is preferred**: with one among the free, the pick is idle. -/
theorem pickFreePin_idle {r : FilterResult} {status : Pin → Option Bool}
    (h : pickFreePin r status = some pin) (hi : ∃ q ∈ r.eligible, status q = some true) :
    status pin = some true := by
  obtain ⟨q, hq, hs⟩ := hi
  unfold pickFreePin at h
  split at h
  · rename_i found hf
    cases h
    simpa using List.find?_some hf
  · rename_i hf
    exact absurd hs (by simpa using List.find?_eq_none.1 hf q hq)

/-- With every server free, nobody is left out for being busy. -/
theorem busyEligible_zero (h : i.busyBuildServerPins = []) :
    (eligiblePairings i).busyEligible = 0 := by
  rw [eligiblePairings_eq]
  apply List.countP_eq_zero.2
  intro p _
  simp [Busy, h]

theorem disconnected_pos : 0 < (eligiblePairings i).disconnected ↔
    ∃ p ∈ i.pairings, Intended p ∧ p.pin ∉ i.openPeerLinks := by
  rw [eligiblePairings_eq, List.countP_pos_iff]
  simp only [decide_eq_true_eq]
  rfl

/-- **The two deciders, server by server**: they name the same one, whatever is busy. -/
theorem remote_iff :
    pickDispatchTarget i = .remote pin ↔ pickBuildPath i = .ok ⟨.remote, some pin⟩ := by
  unfold pickDispatchTarget pickBuildPath
  cases hen : i.remoteBuildsEnabled with
  | false => simp
  | true =>
    simp only [Bool.not_true, Bool.false_eq_true, if_false]
    cases hp : pickFreePin (eligiblePairings i) i.peerQueueStatus with
    | some pin' => simp
    | none => split_ifs <;> simp

/-- A server is named only when builds are sent out at all, and it is the filter's pick. -/
theorem pick_of_remote (h : pickDispatchTarget i = .remote pin) :
    pickFreePin (eligiblePairings i) i.peerQueueStatus = some pin := by
  unfold pickDispatchTarget at h
  split at h
  · cases h
  dsimp only at h
  split at h
  · rename_i hp
    cases h
    exact hp
  · split_ifs at h

theorem local_iff (hb : i.busyBuildServerPins = []) :
    pickDispatchTarget i = .local ↔ pickBuildPath i = .ok ⟨.local, none⟩ := by
  have hz : ¬ (eligiblePairings i).busyEligible > 0 := by rw [busyEligible_zero hb]; omega
  unfold pickDispatchTarget pickBuildPath
  cases hen : i.remoteBuildsEnabled with
  | false => simp
  | true =>
    simp only [Bool.not_true, Bool.false_eq_true, if_false]
    cases hp : pickFreePin (eligiblePairings i) i.peerQueueStatus with
    | some pin' => simp
    | none =>
      dsimp only
      rw [if_neg hz]
      split_ifs <;> simp

/-- The submission fails where the dispatch would fail, or would wait for an offline server. -/
theorem error_iff (hb : i.busyBuildServerPins = []) :
    (∃ m, pickBuildPath i = .error m) ↔ (∃ m, pickDispatchTarget i = .noCompatiblePeer m) ∨
      (pickDispatchTarget i = .wait ∧ ∃ p ∈ i.pairings, Intended p ∧ p.pin ∉ i.openPeerLinks) := by
  have hz : ¬ (eligiblePairings i).busyEligible > 0 := by rw [busyEligible_zero hb]; omega
  rw [← disconnected_pos]
  unfold pickDispatchTarget pickBuildPath
  cases hen : i.remoteBuildsEnabled with
  | false => simp
  | true =>
    simp only [Bool.not_true, Bool.false_eq_true, if_false]
    cases hp : pickFreePin (eligiblePairings i) i.peerQueueStatus with
    | some pin' => simp
    | none =>
      dsimp only
      rw [if_neg hz]
      by_cases hx : (eligiblePairings i).intentional > 0 ∧ i.versionMatchPolicy = .exactRequired
      · rw [if_pos hx, if_pos hx]
        by_cases hd : (eligiblePairings i).disconnected > 0
        · simp [hd]
        · simp [hd]
      · rw [if_neg hx, if_neg hx]
        simp

/-- **The two deciders agree**: with no server busy, the dispatch names a server or this machine
exactly when the submission does, and the submission refuses exactly when the dispatch refuses or
waits for an intended server that is offline. With any servers busy, a named server can take the
compile, is idle if one such server is, and does not depend on the order of the table. -/
theorem deciders_agree (i : BuildSchedulerInputs) :
    (i.busyBuildServerPins = [] →
      (∀ pin, pickDispatchTarget i = .remote pin ↔ pickBuildPath i = .ok ⟨.remote, some pin⟩) ∧
      (pickDispatchTarget i = .local ↔ pickBuildPath i = .ok ⟨.local, none⟩) ∧
      ((∃ m, pickBuildPath i = .error m) ↔ (∃ m, pickDispatchTarget i = .noCompatiblePeer m) ∨
        (pickDispatchTarget i = .wait ∧
          ∃ p ∈ i.pairings, p.status = .approved ∧ p.enabled = true ∧
            p.pin ∉ i.openPeerLinks))) ∧
    (∀ pin, pickDispatchTarget i = .remote pin →
      (∃ p ∈ i.pairings, p.pin = pin ∧ p.status = .approved ∧ p.enabled = true ∧
        pin ∈ i.openPeerLinks ∧
        (versionSatisfiesPolicy i.offloaderEsphomeVersion p.esphomeVersion
            i.versionMatchPolicy = true ∨
          canProvision p i.offloaderEsphomeVersion = true) ∧
        pin ∉ i.busyBuildServerPins) ∧
      ((∃ q ∈ i.pairings, Free i q ∧ i.peerQueueStatus q.pin = some true) →
        i.peerQueueStatus pin = some true)) ∧
    ∀ l, i.pairings.Perm l →
      pickDispatchTarget { i with pairings := l } = pickDispatchTarget i ∧
      pickBuildPath { i with pairings := l } = pickBuildPath i := by
  refine ⟨fun hb => ⟨fun pin => remote_iff, local_iff hb, ?_⟩, fun pin h => ⟨?_, ?_⟩, fun l hl =>
    ⟨pickDispatchTarget_perm hl, pickBuildPath_perm hl⟩⟩
  · rw [error_iff hb]
    simp only [Intended, and_assoc]
  · have hp := pickFreePin_mem (pick_of_remote h)
    obtain ⟨p, hmem, rfl, ⟨hs, he, ho, hv⟩, hbusy⟩ := mem_eligible_iff.1 hp
    exact ⟨p, hmem, rfl, hs, he, ho, hv, hbusy⟩
  · rintro ⟨q, hq, hfree, hidle⟩
    have hp := pick_of_remote h
    exact pickFreePin_idle hp ⟨q.pin, mem_eligible_iff.2 ⟨q, hq, rfl, hfree⟩, hidle⟩

/-- Two servers of one version: the idle one is named, before the older pairing. -/
theorem deciders_agree_idle :
    let i : BuildSchedulerInputs :=
      { remoteBuildsEnabled := true
        pairings := [{ pin := "a", pairedAt := 1 }, { pin := "b", pairedAt := 2 }]
        openPeerLinks := ["a", "b"]
        peerQueueStatus := fun pin => some (pin == "b") }
    pickBuildPath i = .ok ⟨.remote, some "b"⟩ ∧ i.peerQueueStatus "b" = some true := by
  intro i
  have h : pickDispatchTarget i = .remote "b" := by decide +kernel
  have hall := deciders_agree i
  have hidle : ∃ q ∈ i.pairings, Free i q ∧ i.peerQueueStatus q.pin = some true :=
    ⟨{ pin := "b", pairedAt := 2 }, by simp [i], by decide +kernel, by decide +kernel⟩
  exact ⟨((hall.1 rfl).1 "b").1 h, (hall.2.1 "b" h).2 hidle⟩

end DeviceBuilder
