import DeviceBuilder.Helpers.StorageFlow
import DeviceBuilder.Helpers.StorageKept
import DeviceBuilder.Properties.PeerLinks
import DeviceBuilder.RemoteBuild.PairingMoves
import DeviceBuilder.RemoteBuild.PairingStores

/-!
# What a restart loads

A step either asks for a save or leaves what the serializer returns as it is, so the
store's own invariant carries over: at rest after a write that succeeded, the file
holds the rows in RAM. The offloader has one exception. `request_pair` saves an
APPROVED row only, and a PENDING one may replace, or sweep, an APPROVED row.

* `PairingsWorld.Good`, `PeersWorld.Good`: the store is durable and the rows in step.
* `stores_agree`: both files are right at rest, in runs of steady steps.
* `pending_replaces`: a receiver that forgot its peer answers PENDING; the file keeps
  the APPROVED row.
-/

namespace DeviceBuilder

open Runs

namespace Storage.Store

variable {V P : Type*} {encode : V → P} {s : Store V P}

/-- A change with a save is a mutation of the store. -/
theorem delaySave_ram (s : Store V P) (value : V) (delay : ℕ) :
    { asyncDelaySave { s with gen := s.gen + 1 } delay with ram := value } =
      asyncDelaySave { s with ram := value, gen := s.gen + 1 } delay := by
  unfold asyncDelaySave
  cases s.delayHandle with
  | none => rfl
  | some due =>
    simp only
    split <;> rfl

theorem own_covered (s : Store V P) {a : StoreAction V} (h : a.isOwn = true) : s.Covered a := by
  cases a with
  | cancel i => cases h
  | _ => trivial

theorem own_ram (encode : V → P) (s : Store V P) {a : StoreAction V} (h : a.isOwn = true) :
    (s.step encode a).ram = s.ram := by
  cases a with
  | mutate | saveNow | cancel => cases h
  | tick => rfl
  | timerFires => exact (timerFires_flows s : Flows encode s _).ram
  | resume i => exact (resume_flows s i : Flows encode s _).ram
  | jobStarts k => exact (jobStarts_flows s k : Flows encode s _).ram
  | jobEnds k ok => exact (jobEnds_flows s k ok).ram

theorem durable_reopened (value : V) (file : Option P) :
    Durable encode { Store.fresh P value with file := file.map fun f => (0, f) } :=
  { ordered_reopened value file with
    values := fun _ _ hk => nomatch hk
    kept := fun _ => .inl ⟨rfl, rfl⟩
    owed := nofun }

end Storage.Store

namespace RemoteBuild

open Storage

namespace OffloaderWorld

variable {lib : Library} {w w' v : OffloaderWorld} {a : OffloaderAction} {pin : Pin}

/-- Nothing that is saved changes. -/
structure SameRows (w w' : OffloaderWorld) : Prop where
  rows : w'.rows = w.rows
  pairings : w'.pairings = w.pairings
  enabled : w'.remoteBuildsEnabled = w.remoteBuildsEnabled

theorem SameRows.refl (w : OffloaderWorld) : SameRows w w := ⟨rfl, rfl, rfl⟩

theorem SameRows.trans (h : SameRows w v) (h' : SameRows v w') : SameRows w w' :=
  ⟨h'.rows.trans h.rows, h'.pairings.trans h.pairings, h'.enabled.trans h.enabled⟩

theorem SameRows.keyed (h : SameRows w w') (hk : w.Keyed) : w'.Keyed := by
  intro q r hq
  obtain ⟨p, hp, hpin⟩ := hk q r (h.pairings ▸ hq)
  exact ⟨p, h.rows ▸ hp, hpin⟩

theorem cancelClient_same (w : OffloaderWorld) (pin : Pin) : SameRows w (w.cancelPeerLinkClient pin) := by
  unfold cancelPeerLinkClient
  split <;> exact ⟨rfl, rfl, rfl⟩

theorem cancelListener_same (w : OffloaderWorld) (pin : Pin) : SameRows w (w.cancelPairStatusListener pin) := by
  unfold cancelPairStatusListener
  split <;> exact ⟨rfl, rfl, rfl⟩

theorem spawnListener_same (w : OffloaderWorld) (r : RowId) : SameRows w (w.spawnPairStatusListener r) := by
  unfold spawnPairStatusListener
  split
  · exact .refl w
  · split <;> exact ⟨rfl, rfl, rfl⟩

theorem endListener_same (w : OffloaderWorld) (i : ℕ) (pin : Pin) : SameRows w (w.endListener i pin) := by
  unfold endListener
  split <;> exact ⟨rfl, rfl, rfl⟩

theorem spawnClient_same (w : OffloaderWorld) (r : RowId) : SameRows w (w.spawnPeerLinkClient r) := by
  unfold spawnPeerLinkClient
  split
  · exact .refl w
  · split <;> exact ⟨rfl, rfl, rfl⟩

theorem claimAndProbe_same (w : OffloaderWorld) (r : RowId) (pin : Pin) (hostname : String) (port : ℕ)
    (connectBack tracked : Bool) : SameRows w (w.claimAndProbe r pin hostname port connectBack tracked) := by
  unfold claimAndProbe
  split <;> exact ⟨rfl, rfl, rfl⟩

theorem withApproved_same {f : RowId → StoredPairing → OffloaderWorld} (h : ∀ r p, SameRows w (f r p)) (pin : Pin) :
    SameRows w (w.withApproved pin f) := by
  unfold withApproved
  split
  · exact .refl w
  · split
    · exact .refl w
    · split
      · exact h _ _
      · exact .refl w

/-- A row that is dropped: nothing but its pin goes. -/
theorem dropPairing_rows (w : OffloaderWorld) (pin : Pin) : (w.dropPairing pin).rows = w.rows ∧
    (w.dropPairing pin).pairings = w.pairings.erase pin ∧
    (w.dropPairing pin).remoteBuildsEnabled = w.remoteBuildsEnabled := by
  have h := (cancelListener_same w pin).trans (cancelClient_same (w.cancelPairStatusListener pin) pin)
  unfold dropPairing
  simp only [h.pairings]
  split
  · rename_i hn
    exact ⟨h.rows, h.pairings.trans (Dict.erase_absent hn).symm, h.enabled⟩
  · exact ⟨h.rows, rfl, h.enabled⟩

theorem resume_same (hstop : ∀ i, a = .resume i → ∀ ph, w.tasks[i]? ≠ some (.stop ph)) {i : ℕ} (ha : a = .resume i) :
    SameRows w (w.step lib (.resume i)) := by
  have hs := hstop i ha
  simp only [step]
  cases hi : w.tasks[i]? with
  | none => exact .refl w
  | some t =>
    cases t with
    | converge r =>
      simp only [resumeTask]
      split
      · exact .refl w
      · exact (spawnClient_same w r).trans (endListener_same _ _ _)
    | respawn r k tracked =>
      simp only [resumeTask]
      split
      · exact .refl w
      · split
        · exact .refl w
        · exact (spawnClient_same w r).trans ⟨rfl, rfl, rfl⟩
    | stop ph => exact absurd hi (hs ph)
    | requestPair => exact .refl w
    | pairStatus => exact .refl w
    | probe => exact .refl w
    | ended => exact .refl w

/-- A status answer for a row that is gone. -/
theorem applyPairStatusResult_same {i : ℕ} {p : StoredPairing} {answer : StatusAnswer}
    (h : answer ≠ .other → w.pairings.get? p.pinSha256 = none) : SameRows w (w.applyPairStatusResult i p answer) := by
  have gone : w.pairings.get? p.pinSha256 = none →
      SameRows w (({ w with pairings := w.pairings.erase p.pinSha256 } : OffloaderWorld).endListener i p.pinSha256) := by
    intro hn
    rw [Dict.erase_absent hn]
    exact endListener_same w _ _
  cases answer with
  | approved observed =>
    have hn := h (by simp)
    simp only [applyPairStatusResult]
    split
    · exact gone hn
    · rw [hn]
      exact endListener_same w _ _
  | rejected => exact gone (h (by simp))
  | other => exact .refl w

/-- A probe that moves no endpoint. -/
theorem probeAnswer_same {i : ℕ} {observed : Option Pin} (h : w.commits i observed = false) :
    SameRows w (w.step lib (.probeAnswer i observed)) := by
  simp only [step]
  split
  · rename_i r hostname port connectBack tracked hi
    split
    · exact .refl w
    · rename_i p hr
      simp only [commits, hi, hr, Option.any_some] at h
      unfold probed
      split
      · exact ⟨rfl, rfl, rfl⟩
      · rename_i obs
        split
        · exact ⟨rfl, rfl, rfl⟩
        · rename_i hno
          split
          · exact ⟨rfl, rfl, rfl⟩
          · rename_i hguard
            exfalso
            simp only [ne_eq, not_or, not_not] at hno
            obtain ⟨rfl, hkey, happ⟩ := hno
            simp only [hkey, happ, decide_true, Bool.true_and, Bool.not_eq_false', Bool.and_eq_true,
              decide_eq_true_eq] at h
            exact hguard h
  · exact .refl w

/-- **A step without a save leaves the rows alone.** -/
theorem step_same (w : OffloaderWorld) (ha : a.isElsewhere = false) (hs : w.savesPairings a = false) (hstop : a ≠ .stop)
    (hres : ∀ i, a = .resume i → ∀ ph, w.tasks[i]? ≠ some (.stop ph)) : SameRows w (w.step lib a) := by
  cases a with
  | requestPair => exact ⟨rfl, rfl, rfl⟩
  | pairAnswer => cases ha
  | pairFailed i =>
    simp only [step]
    split <;> exact ⟨rfl, rfl, rfl⟩
  | statusAnswer i answer =>
    simp only [step]
    split
    · rename_i r hi
      split
      · exact .refl w
      · rename_i p hr
        refine applyPairStatusResult_same fun hne => ?_
        simp only [savesPairings, hi, hr, Option.any_some, Bool.and_eq_false_iff, decide_eq_false_iff_not] at hs
        rcases hs with hs | hs
        · exact absurd hne hs
        · simpa using hs
    · exact .refl w
  | unpair pin =>
    have hn : w.pairings.get? pin = none := by simpa [savesPairings] using hs
    obtain ⟨hr, hp, he⟩ := dropPairing_rows w pin
    exact ⟨hr, hp.trans (Dict.erase_absent hn), he⟩
  | discovered hostname port pin =>
    simp only [step]
    split
    · exact .refl w
    · refine withApproved_same (fun r p => ?_) pin
      split
      · exact .refl w
      · exact claimAndProbe_same w _ _ _ _ _ _
  | editEndpoint pin hostname port =>
    refine withApproved_same (fun r p => ?_) pin
    split
    · exact .refl w
    · exact ⟨rfl, rfl, rfl⟩
  | connectBack pin peerIp port =>
    refine withApproved_same (fun r p => ?_) pin
    split
    · exact .refl w
    · exact claimAndProbe_same w _ _ _ _ _ _
  | probeAnswer i observed => exact probeAnswer_same hs
  | resume i => exact resume_same hres rfl
  | clientEnds k => exact ⟨rfl, rfl, rfl⟩
  | peerLinkOpened => cases ha
  | peerLinkClosed pin => exact ⟨rfl, rfl, rfl⟩
  | setPairingEnabled pin enabled =>
    have hn : w.pairings.get? pin = none := by simpa [savesPairings] using hs
    simp only [step, hn]
    exact .refl w
  | setRemoteBuildsEnabled => cases ha
  | tick dt => exact ⟨rfl, rfl, rfl⟩
  | stop => exact absurd rfl hstop

/-- Where there is a save, each row stays under its pin. -/
theorem step_keyed (w : OffloaderWorld) (hk : w.Keyed) (ha : a.isElsewhere = false) (hstop : a ≠ .stop)
    (hres : ∀ i, a = .resume i → ∀ ph, w.tasks[i]? ≠ some (.stop ph)) : (w.step lib a).Keyed := by
  cases hs : w.savesPairings a with
  | false => exact (step_same w ha hs hstop hres).keyed hk
  | true =>
    have keyed : ∀ w', Turns (fun _ => False) w w' → w'.Keyed := fun w' ht => ht.keyed hk
    cases a with
    | statusAnswer i answer =>
      simp only [step]
      split
      · split
        · exact hk
        · exact keyed _ (applyPairStatusResult_turns w i _ answer)
      · exact hk
    | unpair pin => exact keyed _ (dropPairing_turns w pin)
    | probeAnswer i observed =>
      simp only [step]
      split
      · split
        · exact hk
        · rename_i hr
          exact keyed _ (probed_turns hr i _ _ _ _ observed)
      · exact hk
    | setPairingEnabled pin enabled =>
      simp only [step]
      split
      · exact hk
      · exact keyed _ (modify_turns w _ _ fun _ => rfl)
    | _ => cases hs

end OffloaderWorld

namespace PairingsWorld

variable {P : Type*} {lib : Library} {second : ℕ} {encode : OffloaderRemoteBuildSettings → P} {w w' : PairingsWorld P}
  {a : PairingsAction} {pin : Pin} {r : RowId} {p : StoredPairing}

/-! ### What is saved -/

/-- What of row `r` is saved. -/
def savedRow (rows : List StoredPairing) (details : RowId → PairingDetails) (r : RowId) :
    Option (StoredPairing × PairingDetails) :=
  match rows[r]? with
  | none => none
  | some p => if p.status = .approved then some (p, details r) else none

/-- The APPROVED rows. -/
def approvedRows (pairings : Dict Pin RowId) (rows : List StoredPairing) (details : RowId → PairingDetails) :
    List (StoredPairing × PairingDetails) := pairings.values.filterMap (savedRow rows details)

theorem serialize_rows (w : PairingsWorld P) : w.serializePairings.pairings = approvedRows w.pairings w.rows w.details := rfl

theorem savedRow_none (rows : List StoredPairing) (details : RowId → PairingDetails) :
    savedRow rows details r = none ↔ ∀ p, rows[r]? = some p → p.status ≠ .approved := by
  unfold savedRow
  cases rows[r]? with
  | none => simp
  | some p => simp

theorem mem_serialize (w : PairingsWorld P) (d : PairingDetails) : (p, d) ∈ w.serializePairings.pairings ↔
    ∃ pin r, w.pairings.get? pin = some r ∧ w.rows[r]? = some p ∧ p.status = .approved ∧ w.details r = d := by
  rw [serialize_rows]
  unfold approvedRows
  rw [List.mem_filterMap]
  constructor
  · rintro ⟨r, hr, hs⟩
    obtain ⟨pin, hpin⟩ := Dict.mem_values.1 hr
    unfold savedRow at hs
    cases hp : w.rows[r]? with
    | none => rw [hp] at hs; cases hs
    | some p' =>
      rw [hp] at hs
      simp only at hs
      split at hs
      · rename_i happ
        cases hs
        exact ⟨pin, r, hpin, hp, happ, rfl⟩
      · cases hs
  · rintro ⟨pin, r, hpin, hp, happ, rfl⟩
    refine ⟨r, Dict.mem_values.2 ⟨pin, hpin⟩, ?_⟩
    unfold savedRow
    rw [hp]
    exact if_pos happ

theorem serialize_same (h : OffloaderWorld.SameRows w.toOffloaderWorld w'.toOffloaderWorld) (hd : w'.details = w.details)
    (hv : w'.versionMatchPolicy = w.versionMatchPolicy) (hl : w'.includeLocalInPool = w.includeLocalInPool) :
    w'.serializePairings = w.serializePairings := by
  unfold serializePairings
  rw [h.pairings, h.rows, h.enabled, hd, hv, hl]

/-! ### A PENDING answer -/

/-- No APPROVED row is at this endpoint. -/
def Vacant (w : OffloaderWorld) (hostname : String) (port : ℕ) (keep : Pin) : Prop :=
  ∀ q r p, w.pairings.get? q = some r → w.rows[r]? = some p → p.status = .approved →
    q = keep ∨ ¬(p.receiverHostname = hostname ∧ p.receiverPort = port)

/-- The sweep of an endpoint without APPROVED rows. -/
theorem sweep_approved (hostname : String) (port : ℕ) (keep : Pin) (details : RowId → PairingDetails) (w : OffloaderWorld)
    (h : Vacant w hostname port keep) :
    approvedRows (w.sweepStalePairingsAtEndpoint hostname port keep).pairings w.rows details =
      approvedRows w.pairings w.rows details ∧
    (w.sweepStalePairingsAtEndpoint hostname port keep).remoteBuildsEnabled = w.remoteBuildsEnabled ∧
    ∀ q r, (w.sweepStalePairingsAtEndpoint hostname port keep).pairings.get? q = some r → w.pairings.get? q = some r := by
  unfold OffloaderWorld.sweepStalePairingsAtEndpoint
  generalize w.pairings.keys = pins
  induction pins generalizing w with
  | nil => exact ⟨rfl, rfl, fun _ _ hq => hq⟩
  | cons pin pins ih =>
    rw [List.foldl_cons]
    cases hpin : w.pairing pin with
    | none => exact ih w h
    | some p =>
      simp only
      split
      · rename_i hhere
        obtain ⟨hrows, hpair, hen⟩ := OffloaderWorld.dropPairing_rows w pin
        have hsub : ∀ q r, (w.dropPairing pin).pairings.get? q = some r → w.pairings.get? q = some r := by
          intro q r hq
          rw [hpair] at hq
          exact (Dict.of_get?_erase hq).2
        have hvac : Vacant (w.dropPairing pin) hostname port keep := by
          intro q r p' hq hr happ
          rw [hrows] at hr
          exact h q r p' (hsub q r hq) hr happ
        obtain ⟨hs, he, hq⟩ := ih (w.dropPairing pin) hvac
        rw [hrows] at hs
        refine ⟨hs.trans ?_, he.trans hen, fun q r hqr => hsub q r (hq q r hqr)⟩
        rw [hpair]
        -- the row that goes is PENDING: it is at the endpoint
        refine Dict.filterMap_erase fun r hr => (savedRow_none w.rows details).2 fun p' hp' happ => ?_
        have hpr : w.pairing pin = some p' := by
          unfold OffloaderWorld.pairing
          rw [hr]
          exact hp'
        rw [hpin] at hpr
        cases hpr
        rcases h pin r p hr hp' happ with hk | hk
        · exact hhere.1 hk
        · exact hk hhere.2
      · exact ih w h

/-- A new row, and new details for it, are nothing to the rows that are there. -/
theorem approvedRows_append (hk : w.Keyed) (row : StoredPairing) (d : PairingDetails) {pairings : Dict Pin RowId}
    (hsub : ∀ q r, pairings.get? q = some r → w.pairings.get? q = some r) :
    approvedRows pairings (w.rows ++ [row]) (Function.update w.details w.rows.length d) =
      approvedRows pairings w.rows w.details := by
  refine List.filterMap_congr fun r hr => ?_
  obtain ⟨q, hq⟩ := Dict.mem_values.1 hr
  obtain ⟨p, hp, -⟩ := hk q r (hsub q r hq)
  obtain ⟨hlt, -⟩ := List.getElem?_eq_some_iff.1 hp
  unfold savedRow
  rw [List.getElem?_append_left hlt, Function.update_of_ne (Nat.ne_of_lt hlt)]

/-- **A PENDING answer that replaces and sweeps no APPROVED row** changes nothing that is saved. -/
theorem pending_same (hk : w.Keyed) (i : ℕ) (hostname : String) (port : ℕ) (label : String) (pub : PublicKey)
    (d : PairingDetails) (hfree : ∀ r p, w.pairings.get? pin = some r → w.rows[r]? = some p → p.status ≠ .approved)
    (hvac : Vacant w.toOffloaderWorld hostname port pin) :
    serializePairings { w with
      toOffloaderWorld := w.toOffloaderWorld.pairAnswered i hostname port pin label .pending pub
      details := Function.update w.details w.rows.length d } = w.serializePairings := by
  unfold OffloaderWorld.pairAnswered
  simp only
  generalize hrow : StoredPairing.mk hostname port pin pub label .pending _ = row
  have hstatus : row.status = .pending := by rw [← hrow]
  have hk' : OffloaderWorld.Keyed { w.toOffloaderWorld with rows := w.rows ++ [row] } := by
    intro q r hq
    obtain ⟨p, hp, hpin⟩ := hk q r hq
    obtain ⟨hlt, -⟩ := List.getElem?_eq_some_iff.1 hp
    exact ⟨p, (List.getElem?_append_left hlt).trans hp, hpin⟩
  have hvac' : Vacant { w.toOffloaderWorld with rows := w.rows ++ [row] } hostname port pin := by
    intro q r p hq hr happ
    obtain ⟨p', hp', -⟩ := hk q r hq
    obtain ⟨hlt, -⟩ := List.getElem?_eq_some_iff.1 hp'
    exact hvac q r p hq ((List.getElem?_append_left hlt).symm.trans hr) happ
  obtain ⟨hsw, hen, hsub⟩ := sweep_approved hostname port pin (Function.update w.details w.rows.length d) _ hvac'
  have hrows := OffloaderWorld.sweep_rows hostname port pin { w.toOffloaderWorld with rows := w.rows ++ [row] }
  generalize OffloaderWorld.sweepStalePairingsAtEndpoint { w.toOffloaderWorld with rows := w.rows ++ [row] } hostname port
    pin = v at hsw hen hsub hrows ⊢
  have hcl := OffloaderWorld.cancelListener_same { v with pairings := v.pairings.set pin w.rows.length } pin
  have hsame := hcl.trans (OffloaderWorld.spawnListener_same _ w.rows.length)
  generalize (OffloaderWorld.cancelPairStatusListener { v with pairings := v.pairings.set pin w.rows.length }
    pin).spawnPairStatusListener w.rows.length = u at hsame ⊢
  have hset : approvedRows (v.pairings.set pin w.rows.length) (w.rows ++ [row])
      (Function.update w.details w.rows.length d) = approvedRows w.pairings w.rows w.details := by
    refine (Dict.filterMap_set (fun r hr => ?_) ?_).trans (hsw.trans (approvedRows_append hk row d fun _ _ hq => hq))
    · -- the row that was under the pin
      refine (savedRow_none _ _).2 fun p hp => ?_
      obtain ⟨p', hp', -⟩ := hk pin r (hsub pin r hr)
      obtain ⟨hlt, -⟩ := List.getElem?_eq_some_iff.1 hp'
      exact hfree r p (hsub pin r hr) ((List.getElem?_append_left hlt).symm.trans hp)
    · -- the new one
      refine (savedRow_none _ _).2 fun p hp => ?_
      rw [List.getElem?_concat_length] at hp
      cases hp
      rw [hstatus]
      exact nofun
  have hfinal : approvedRows u.pairings u.rows (Function.update w.details w.rows.length d) =
      approvedRows w.pairings w.rows w.details := by
    rw [hsame.pairings, hsame.rows]
    change approvedRows (v.pairings.set pin w.rows.length) v.rows _ = _
    rw [hrows]
    exact hset
  have henabled : u.remoteBuildsEnabled = w.remoteBuildsEnabled := hsame.enabled.trans hen
  unfold serializePairings
  simp only [OffloaderRemoteBuildSettings.mk.injEq]
  exact ⟨hfinal, henabled, trivial, trivial⟩

/-! ### Runs -/

/-- **The store is durable, and the rows it would write are those in RAM.** -/
structure Good (encode : OffloaderRemoteBuildSettings → P) (w : PairingsWorld P) : Prop where
  durable : w.store.Durable encode
  synced : w.store.ram = w.serializePairings
  keyed : w.Keyed

/-- The controller is not stopped; a PENDING answer replaces and sweeps no APPROVED row. -/
def Steady (w : PairingsWorld P) : PairingsAction → Prop
  | .base .stop => False
  | .base (.resume i) => ∀ ph, w.tasks[i]? ≠ some (.stop ph)
  | .pairAnswer i .pending _ _ _ => ∀ hostname port pin label, w.tasks[i]? = some (.requestPair hostname port pin label) →
    ∀ q r p, w.pairings.get? q = some r → w.rows[r]? = some p → p.status = .approved →
      q ≠ pin ∧ ¬(p.receiverHostname = hostname ∧ p.receiverPort = port)
  | _ => True

/-- A change with a save, or none of what is saved. -/
theorem Good.saved (h : Good encode w) {save : Bool} (hsame : save = false → w'.serializePairings = w.serializePairings)
    (hk : w'.Keyed) (hs : w'.store = w.store) :
    Good encode (sync (PairingsWorld.saved w' second save)) := by
  cases save with
  | true =>
    refine ⟨?_, rfl, hk⟩
    have hd := Store.durable_mutate h.durable w'.serializePairings (pairingsSaveDelaySeconds * second)
    rw [← Store.delaySave_ram, ← hs] at hd
    exact hd
  | false =>
    refine ⟨?_, rfl, hk⟩
    have hstore : (sync (PairingsWorld.saved w' second false)).store = w.store := by
      change ({ w'.store with ram := w'.serializePairings } : Store _ _) = w.store
      rw [hs, hsame rfl, ← h.synced]
    rw [hstore]
    exact h.durable

theorem Good.synced_self (h : Good encode w) : Good encode (sync w) := by
  have hg : Good encode (sync (PairingsWorld.saved w 0 false)) := h.saved (fun _ => rfl) h.keyed rfl
  exact hg

/-- An answer to a pairing request. -/
theorem good_pairAnswer (h : Good encode w) (i : ℕ) (status : PeerStatus) (pub : PublicKey) (pairedAt : ℕ)
    (auto : Option Bool) (hs : w.Steady (.pairAnswer i status pub pairedAt auto)) :
    Good encode (sync (w.pairAnswered second i status pub pairedAt auto)) := by
  unfold pairAnswered
  split
  · rename_i hostname port pin label hi
    have hk := (OffloaderWorld.pairAnswered_turns w.toOffloaderWorld i hostname port pin label status pub).keyed h.keyed
    refine h.saved (fun hsave => ?_) hk rfl
    have hpending : status = .pending := by
      cases status with
      | pending => rfl
      | approved => simp at hsave
    subst hpending
    have hno := hs hostname port pin label hi
    refine pending_same h.keyed i hostname port label pub _ (fun r p hq hr happ => ?_) fun q r p hq hr happ => ?_
    · exact (hno pin r p hq hr happ).1 rfl
    · exact .inr (hno q r p hq hr happ).2
  · exact h.synced_self

/-- A session's news of its receiver. -/
theorem good_peerLinkOpened (h : Good encode w) (data : OffloaderPeerLinkOpenedData) :
    Good encode (sync (w.peerLinkOpened second data)) := by
  unfold peerLinkOpened
  simp only
  split
  · have ho : Good encode { w with openPeerLinks := w.openPeerLinks ++ [data.pinSha256] } := ⟨h.durable, h.synced, h.keyed⟩
    exact ho.synced_self
  · rename_i r hr
    refine h.saved (fun hsave => ?_) ?_ ?_
    rotate_left
    · exact h.keyed
    · rfl
    have heq : (w.details r).opened data = w.details r := by simpa using hsave
    refine serialize_same ⟨rfl, rfl, rfl⟩ ?_ rfl rfl
    change Function.update w.details r _ = w.details
    rw [heq]
    exact Function.update_eq_self r w.details

theorem good_settings (h : Good encode w) (remoteBuildsEnabled : Option Bool) (policy : Option VersionMatchPolicy)
    (includeLocal : Option Bool) : Good encode (sync (w.setOffloaderSettings second remoteBuildsEnabled policy includeLocal)) := by
  unfold setOffloaderSettings
  refine h.saved (fun hsave => ?_) ?_ ?_
  rotate_left
  · exact h.keyed
  · rfl
  simp only [decide_eq_false_iff_not, not_or, not_not] at hsave
  obtain ⟨he, hp, hl⟩ := hsave
  unfold serializePairings
  simp only [he, hp, hl]

theorem good_step (h : Good encode w) (hs : w.Steady a) : Good encode (w.step lib second encode a) := by
  cases a with
  | base a =>
    simp only [step]
    split
    · exact h
    · rename_i ha
      have ha : a.isElsewhere = false := by simpa using ha
      have hstop : a ≠ .stop := by
        rintro rfl
        exact hs
      have hres : ∀ i, a = .resume i → ∀ ph, w.tasks[i]? ≠ some (.stop ph) := by
        rintro i rfl
        exact hs
      have hk := @OffloaderWorld.step_keyed lib _ w.toOffloaderWorld h.keyed ha hstop hres
      refine h.saved (fun hsave => ?_) hk rfl
      exact serialize_same (OffloaderWorld.step_same w.toOffloaderWorld ha hsave hstop hres) rfl rfl rfl
  | pairAnswer i status pub pairedAt auto => exact good_pairAnswer h i status pub pairedAt auto hs
  | peerLinkOpened data => exact good_peerLinkOpened h data
  | setOffloaderSettings remoteBuildsEnabled policy includeLocal => exact good_settings h remoteBuildsEnabled policy includeLocal
  | store a =>
    simp only [step]
    split
    · rename_i ha
      exact ⟨Store.durable_step h.durable a (Store.own_covered w.store ha),
        (Store.own_ram encode w.store ha).trans h.synced, h.keyed⟩
    · exact h

theorem good_start (file : PairingsFile) (details : RowId → PairingDetails) (settings : OffloaderRemoteBuildSettings)
    (saved : Option P) : Good encode (start file details settings saved) where
  durable := Store.durable_reopened _ saved
  synced := rfl
  keyed := (OffloaderWorld.start_turns (e := fun _ => False) file).keyed fun _ _ => OffloaderWorld.seed_pairing file

end PairingsWorld

end RemoteBuild

/-! ### The receiver -/

namespace PeersWorld

open Storage

variable {P : Type*} {cfg : PairingSettings} {encode : List StoredPeer → P} {w w' : PeersWorld P} {a : PeersAction}

/-- **The store is durable, and the rows it would write are those in RAM.** -/
structure Good (encode : List StoredPeer → P) (w : PeersWorld P) : Prop where
  durable : w.store.Durable encode
  synced : w.store.ram = w.serializePeers

/-- A pairing request without a save. -/
theorem pairRequest_same (s : PairingState) (q : PairRequest) (h : s.savesPeers cfg (.dispatch (.pairRequest q)) = none) :
    (s.step cfg (.dispatch (.pairRequest q))).approvedPeers = s.approvedPeers := by
  simp only [PairingState.savesPeers] at h
  simp only [PairingState.step, PairingState.dispatchIntent]
  generalize q.handshake cfg.lib = q at h ⊢
  split
  · rename_i hid
    rw [if_pos hid] at h
    unfold PairingState.recordPairRequest
    split
    · rename_i peer hp
      rw [hp] at h
      simp only [ite_eq_right_iff, reduceCtorEq, imp_false, not_and, ne_eq, not_not] at h
      unfold PairingState.rePair
      simp only
      split
      · rfl
      · rename_i hpin
        have hrow := h (not_not.1 hpin)
        simp only [hrow, ne_eq, not_true_eq_false, if_false]
        exact Dict.set_same hp
    · rename_i hp
      rw [hp] at h
      simp only [ite_eq_right_iff, reduceCtorEq, imp_false, Bool.not_eq_true] at h
      split
      · rename_i hwin
        split
        · rename_i harm
          -- the bootstrap's gates are shut
          have hno : s.prune.autoApproveAllowed cfg q = false := by
            simpa [PairingState.autoApproves, hp, hwin, harm.1, harm.2] using h
          unfold PairingState.autoApproveOrRefuse
          rw [hno]
          rfl
        · unfold PairingState.recordPending
          simp only
          split
          · split <;> rfl
          · rfl
      · rfl
  · rfl

/-- **A step of the pair flow without a save** leaves the APPROVED rows alone. -/
theorem step_same (s : PairingState) (b : PairAction) (h : s.savesPeers cfg b = none) :
    (s.step cfg b).approvedPeers = s.approvedPeers := by
  obtain ⟨W, hm, -⟩ := PairingState.step_moves cfg s b
  generalize hs : (s.step cfg b).pendingPeers = pending at hm
  generalize ha : (s.step cfg b).approvedPeers = approved at hm ⊢
  cases hm with
  | keep => rfl
  | rePair => exact ha ▸ pairRequest_same s _ h
  | autoApprove => exact ha ▸ pairRequest_same s _ h
  | record => rfl
  | approve hd hp => simp [PairingState.savesPeers, PairingState.approvePeer, hd, hp] at h
  | reject => rfl
  | revoke hd hn hp => simp [PairingState.savesPeers, hd, hn, hp] at h
  | refresh =>
    refine Dict.adjust_same fun p hp => ?_
    simpa [PairingState.savesPeers, hp] using h
  | close => rfl
  | flushed => rfl

/-- A cancelled auto-approval leaves no flush undone. -/
def Steady (w : PeersWorld P) : PeersAction → Prop
  | .act (.raise i) => ∀ t, w.flushOf i = some t → w.store.Covered (.cancel t)
  | _ => True

theorem good_act (h : Good encode w) (b : PairAction) : Good encode (w.act cfg b) := by
  unfold act
  have hsaved : Good encode (sync (saved { w with toPairingState := w.toPairingState.step cfg b } (w.savesPeers cfg b))) := by
    cases hs : w.savesPeers cfg b with
    | some delay =>
      refine ⟨?_, rfl⟩
      have hd := Store.durable_mutate h.durable (w.toPairingState.step cfg b).approvedPeers.values delay
      rw [← Store.delaySave_ram] at hd
      exact hd
    | none =>
      refine ⟨?_, rfl⟩
      have hsame : (w.toPairingState.step cfg b).approvedPeers.values = w.store.ram := by
        rw [step_same w.toPairingState b hs]
        exact h.synced.symm
      change Store.Durable encode { w.store with ram := (w.toPairingState.step cfg b).approvedPeers.values }
      rw [hsame]
      exact h.durable
  unfold flushed
  split
  · exact ⟨Store.durable_saveNow hsaved.durable, (Store.asyncSaveNow_flows _ : Store.Flows encode _ _).ram.trans hsaved.synced⟩
  · exact hsaved

theorem good_step (h : Good encode w) (hs : w.Steady a) : Good encode (w.step cfg encode a) := by
  cases a with
  | act b =>
    cases b with
    | resume i =>
      simp only [step]
      split
      · exact good_act h _
      · split
        · exact h
        · exact good_act h _
    | raise i =>
      simp only [step]
      split
      · exact good_act h _
      · rename_i t ht
        refine good_act (w := { w with store := w.store.cancel t }) ⟨?_, ?_⟩ _
        · exact Store.durable_cancel h.durable t (hs t ht)
        · exact (Store.cancel_fields w.store t).2.2.2.1.trans h.synced
    | _ => exact good_act h _
  | store a =>
    simp only [step]
    split
    · rename_i ha
      exact ⟨Store.durable_step h.durable a (Store.own_covered w.store ha),
        (Store.own_ram encode w.store ha).trans h.synced⟩
    · exact h

theorem good_start (file : PeersFile cfg.lib) (saved : Option P) : Good encode (start cfg file saved) where
  durable := Store.durable_reopened _ saved
  synced := rfl

end PeersWorld

namespace RemoteBuild

open Storage

/-- **At rest after a write that succeeded, both files hold what is in RAM**: on the offloader the APPROVED rows and
the settings, on the receiver the APPROVED rows. -/
theorem stores_agree {P Q : Type*} :
    (∀ (lib : Library) (second : ℕ) (encode : OffloaderRemoteBuildSettings → P) (file : PairingsFile)
      (details : RowId → PairingDetails) (settings : OffloaderRemoteBuildSettings) (saved : Option P) (w : PairingsWorld P),
      Reaches (PairingsWorld.step lib second encode) PairingsWorld.Steady (.start file details settings saved) w →
      w.store.AtRest → w.store.lastWrite = some true →
        w.store.file = some (w.store.gen, encode w.serializePairings) ∧
        ∀ p d, (p, d) ∈ w.serializePairings.pairings ↔
          ∃ pin r, w.pairings.get? pin = some r ∧ w.rows[r]? = some p ∧ p.status = .approved ∧ w.details r = d) ∧
    ∀ (cfg : PairingSettings) (encode : List StoredPeer → Q) (file : PeersFile cfg.lib) (saved : Option Q)
      (w : PeersWorld Q), Reaches (PeersWorld.step cfg encode) PeersWorld.Steady (.start cfg file saved) w →
      w.store.AtRest → w.store.lastWrite = some true →
        w.store.file = some (w.store.gen, encode w.approvedPeers.values) := by
  constructor
  · intro lib second encode file details settings saved w h hrest hlast
    have hg := h.invariant (PairingsWorld.good_start file details settings saved) fun _ _ hs hg =>
      PairingsWorld.good_step hg hs
    refine ⟨?_, fun p d => PairingsWorld.mem_serialize w d⟩
    rw [← hg.synced]
    exact hg.durable.quiet hrest hlast
  · intro cfg encode file saved w h hrest hlast
    have hg := h.invariant (PeersWorld.good_start file saved) fun _ _ hs hg => PeersWorld.good_step hg hs
    change w.store.file = some (w.store.gen, encode w.serializePeers)
    rw [← hg.synced]
    exact hg.durable.quiet hrest hlast

/-- The test for `AtRest`. -/
def restTest {V P : Type*} (s : Store V P) : Bool :=
  s.delayHandle.isNone && s.tasks.all (·.point.ended) && s.jobs.all (!·.state.unfinished)

theorem atRest_of_test {V P : Type*} {s : Store V P} (h : restTest s = true) : s.AtRest := by
  unfold restTest at h
  rw [Bool.and_eq_true, Bool.and_eq_true, Option.isNone_iff_eq_none] at h
  obtain ⟨⟨hdue, htasks⟩, hjobs⟩ := h
  refine ⟨hdue, List.all_eq_true.1 htasks, fun k job hu => ?_⟩
  have hj := List.all_eq_true.1 hjobs job (List.mem_of_getElem? hu.1)
  rw [hu.2] at hj
  cases hj

/-- The timer fires after a second, and its task writes. -/
def writeOnce {V : Type*} : List (StoreAction V) := [.tick, .timerFires, .resume 0, .jobStarts 0, .jobEnds 0 true, .resume 0]

def disableAndSave : List PairingsAction :=
  .base (.setPairingEnabled "72cd6e84" false) :: writeOnce.map .store

def approveAndSave : List PeersAction :=
  .act (.setPairingWindow true 0) :: .act (.dispatch (.pairRequest PairingState.someRequest)) ::
    .act (.approvePeer "kitchen") :: writeOnce.map .store

/-- Actions that are steady in every state. -/
def steadyTest (_ : PairingsWorld OffloaderRemoteBuildSettings) : PairingsAction → Bool
  | .base (.setPairingEnabled _ _) | .store _ => true
  | _ => false

def steadyPeersTest (_ : PeersWorld (List StoredPeer)) : PeersAction → Bool
  | .act (.raise _) => false
  | _ => true

theorem steady_of_test (w : PairingsWorld OffloaderRemoteBuildSettings) (a : PairingsAction) (h : steadyTest w a = true) :
    w.Steady a := by
  unfold steadyTest at h
  split at h
  · trivial
  · trivial
  · cases h

theorem steadyPeers_of_test (w : PeersWorld (List StoredPeer)) (a : PeersAction) (h : steadyPeersTest w a = true) :
    w.Steady a := by
  unfold steadyPeersTest at h
  split at h
  · cases h
  · rename_i hno
    unfold PeersWorld.Steady
    split
    · exact absurd rfl (hno _)
    · trivial

theorem stores_agree_saved :
    (let w := disableAndSave.foldl (PairingsWorld.step PairingState.someLibrary 1 id)
      (.start LinkWorld.someFile (fun _ => {}) {} none)
    w.store.file = some (1, w.serializePairings)) ∧
    (let w := approveAndSave.foldl (PeersWorld.step PairingState.someSettings id)
      (.start PairingState.someSettings (.none _) none)
    w.store.file = some (1, w.approvedPeers.values)) :=
  ⟨(stores_agree (Q := List StoredPeer).1 PairingState.someLibrary 1 id LinkWorld.someFile (fun _ => {}) {} none _
      (Reaches.foldl_checks steady_of_test disableAndSave _ (by decide)) (atRest_of_test (by decide)) (by decide)).1,
    stores_agree (P := OffloaderRemoteBuildSettings).2 PairingState.someSettings id (.none _) none _
      (Reaches.foldl_checks steadyPeers_of_test approveAndSave _ (by decide)) (atRest_of_test (by decide)) (by decide)⟩

/-- The receiver forgot its peer: the re-pair is answered PENDING. -/
def repairPending : List PairingsAction :=
  disableAndSave ++ [.base (.requestPair "attic.local" 6055 "72cd6e84" "Attic"), .pairAnswer 0 .pending [] 1 none]

/-- The row in RAM is PENDING, the file's is APPROVED, and nothing is left to write. -/
theorem pending_replaces : ¬∀ (lib : Library) (second : ℕ) (file : PairingsFile) (details : RowId → PairingDetails)
    (settings : OffloaderRemoteBuildSettings) (saved : Option OffloaderRemoteBuildSettings)
    (w : PairingsWorld OffloaderRemoteBuildSettings),
    Reaches (PairingsWorld.step lib second id) any (.start file details settings saved) w → w.store.AtRest →
      w.store.lastWrite = some true → w.store.file = some (w.store.gen, w.serializePairings) := by
  intro h
  have hfile := h PairingState.someLibrary 1 LinkWorld.someFile (fun _ => {}) {} none _
    (Reaches.foldl repairPending (PairingsWorld.start LinkWorld.someFile (fun _ => {}) {} none)) (atRest_of_test (by decide)) (by decide)
  revert hfile
  decide

end RemoteBuild

end DeviceBuilder
