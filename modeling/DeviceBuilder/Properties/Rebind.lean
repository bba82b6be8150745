import DeviceBuilder.Properties.PairingStores

/-!
# Endpoints move on proof only

A probe carries the endpoint it was sent to, and the row it was sent for. What the
answer may do is decided and done in one step: `Verified` is the test.

* `endpoint_moves`: no other step of the controller changes the endpoint of a row.
* `unverified_same`: an announce, and an answer that verifies nothing, change nothing.
* `rebind_proved`: both, and in orderly runs no `connect_back` ends an open session.
* `connect_back_ends_session`: what a late CLOSED makes of that.
-/

namespace DeviceBuilder.RemoteBuild

open Runs

namespace OffloaderWorld

variable {lib : Library} {w w' : OffloaderWorld} {a : OffloaderAction} {i : ℕ} {r : RowId} {pin : Pin}
  {p p' : StoredPairing} {hostname : String} {port : ℕ} {connectBack tracked : Bool} {observed : Option Pin}

/-- The answer to probe `i` shows the key of the row it was sent for, which is still the pin's, and APPROVED. -/
def Verified (w : OffloaderWorld) (i : ℕ) (observed : Option Pin) (r : RowId) (p : StoredPairing) (hostname : String)
    (port : ℕ) : Prop :=
  (∃ connectBack tracked, w.tasks[i]? = some (.probe r hostname port connectBack tracked)) ∧ w.rows[r]? = some p ∧
    observed = some p.pinSha256 ∧ w.pairings.get? p.pinSha256 = some r ∧ p.status = .approved

/-- An announce, or the answer to a probe that verifies nothing. -/
def Unverified (w : OffloaderWorld) : OffloaderAction → Prop
  | .discovered .. | .connectBack .. => True
  | .probeAnswer i observed => ∀ r p hostname port, ¬w.Verified i observed r p hostname port
  | _ => False

/-- Rows, clients and sessions are the same. -/
structure Untouched (w w' : OffloaderWorld) : Prop extends SameRows w w' where
  clients : w'.clients = w.clients
  table : w'.peerLinkClients = w.peerLinkClients
  sessions : w'.openPeerLinks = w.openPeerLinks

theorem Untouched.refl (w : OffloaderWorld) : Untouched w w := ⟨.refl w, rfl, rfl, rfl⟩

theorem untouched_setTask (w : OffloaderWorld) (i : ℕ) (t : OffloaderTask) : Untouched w (w.setTask i t) :=
  ⟨⟨rfl, rfl, rfl⟩, rfl, rfl, rfl⟩

theorem untouched_claimAndProbe (w : OffloaderWorld) (r : RowId) (pin : Pin) (hostname : String) (port : ℕ)
    (connectBack tracked : Bool) : Untouched w (w.claimAndProbe r pin hostname port connectBack tracked) := by
  have h := claimAndProbe_same w r pin hostname port connectBack tracked
  unfold claimAndProbe at h ⊢
  split
  · exact .refl w
  · exact ⟨⟨rfl, rfl, rfl⟩, rfl, rfl, rfl⟩

theorem untouched_withApproved {f : RowId → StoredPairing → OffloaderWorld} (h : ∀ r p, Untouched w (f r p)) (pin : Pin) :
    Untouched w (w.withApproved pin f) := by
  unfold withApproved
  split
  · exact .refl w
  · split
    · exact .refl w
    · split
      · exact h _ _
      · exact .refl w

/-- **What an answer does**: its coroutine ends, or the row is verified and the endpoint committed. -/
theorem probeAnswer_cases (w : OffloaderWorld) (i : ℕ) (observed : Option Pin) :
    Untouched w (w.step lib (.probeAnswer i observed)) ∨
    ∃ r p hostname port connectBack tracked, w.tasks[i]? = some (.probe r hostname port connectBack tracked) ∧
      w.Verified i observed r p hostname port ∧ (connectBack = true → p.pinSha256 ∉ w.openPeerLinks) ∧
      w.step lib (.probeAnswer i observed) = w.commitEndpointRebind i r p.pinSha256 hostname port tracked := by
  simp only [step]
  split
  · rename_i r hostname port connectBack tracked hi
    split
    · exact .inl (.refl w)
    · rename_i p hr
      unfold probed
      split
      · exact .inl (untouched_setTask w i _)
      · rename_i pin
        split
        · exact .inl (untouched_setTask w i _)
        · rename_i hno
          split
          · exact .inl (untouched_setTask w i _)
          · rename_i hguard
            simp only [ne_eq, not_or, not_not] at hno
            obtain ⟨hpin, hkey, happ⟩ := hno
            refine .inr ⟨r, p, hostname, port, connectBack, tracked, hi, ⟨⟨connectBack, tracked, hi⟩, hr, ?_, hkey, happ⟩,
              fun hb ho => hguard ⟨hb, ho⟩, rfl⟩
            rw [hpin]
  · exact .inl (.refl w)

/-- **What verifies nothing changes nothing**, and asks for no save. -/
theorem unverified_same (h : w.Unverified a) : Untouched w (w.step lib a) ∧ w.savesPairings a = false := by
  cases a with
  | discovered hostname port pin =>
    refine ⟨?_, rfl⟩
    simp only [step]
    split
    · exact .refl w
    · refine untouched_withApproved (fun r p => ?_) pin
      split
      · exact .refl w
      · exact untouched_claimAndProbe w _ _ _ _ _ _
  | connectBack pin peerIp port =>
    refine ⟨untouched_withApproved (fun r p => ?_) pin, rfl⟩
    split
    · exact .refl w
    · exact untouched_claimAndProbe w _ _ _ _ _ _
  | probeAnswer i observed =>
    constructor
    · rcases @probeAnswer_cases lib w i observed with hu | ⟨r, p, hostname, port, -, -, -, hv, -⟩
      · exact hu
      · exact absurd hv (h r p hostname port)
    · simp only [savesPairings, commits]
      split
      · rename_i r hostname port connectBack tracked hi
        cases hr : w.rows[r]? with
        | none => rfl
        | some p =>
          have hno := h r p hostname port
          simp only [Option.any_some, Bool.and_eq_false_iff, decide_eq_false_iff_not]
          by_contra hc
          simp only [not_or, not_not] at hc
          exact hno ⟨⟨connectBack, tracked, hi⟩, hr, hc.1.1.1, hc.1.1.2, hc.1.2⟩
      · rfl
  | _ => exact absurd h id

/-! ### Rows -/

/-- Every row keeps its endpoint. -/
def EndpointsKept (w w' : OffloaderWorld) : Prop := ∀ (r : RowId) (p p' : StoredPairing), w.rows[r]? = some p →
  w'.rows[r]? = some p' → p'.receiverHostname = p.receiverHostname ∧ p'.receiverPort = p.receiverPort

theorem EndpointsKept.of_eq (h : w'.rows = w.rows) : EndpointsKept w w' := by
  intro r p p' hp hp'
  rw [h, hp] at hp'
  cases hp'
  exact ⟨rfl, rfl⟩

theorem EndpointsKept.modify {f : StoredPairing → StoredPairing} (h : w'.rows = w.rows.modify r f)
    (hf : ∀ p, (f p).receiverHostname = p.receiverHostname ∧ (f p).receiverPort = p.receiverPort) :
    EndpointsKept w w' := by
  intro k p p' hp hp'
  rw [h, List.getElem?_modify, hp] at hp'
  by_cases hk : r = k
  · simp only [hk, if_pos, Option.map_eq_map, Option.map_some, Option.some.injEq] at hp'
    rw [← hp']
    exact hf p
  · simp only [if_neg hk, Option.map_eq_map, Option.map_some, Option.some.injEq] at hp'
    rw [← hp']
    exact ⟨rfl, rfl⟩

theorem pairAnswered_rows (w : OffloaderWorld) (i : ℕ) (hostname : String) (port : ℕ) (pin : Pin) (label : String)
    (status : PeerStatus) (pub : PublicKey) :
    ∃ row, (w.pairAnswered i hostname port pin label status pub).rows = w.rows ++ [row] := by
  unfold pairAnswered
  simp only
  generalize StoredPairing.mk hostname port pin pub label status _ = row
  have hrows := sweep_rows hostname port pin { w with rows := w.rows ++ [row] }
  generalize sweepStalePairingsAtEndpoint { w with rows := w.rows ++ [row] } hostname port pin = v at hrows
  have hcl := cancelListener_same { v with pairings := v.pairings.set pin w.rows.length } pin
  refine ⟨row, ?_⟩
  cases status with
  | approved => exact hcl.rows.trans hrows
  | pending => exact (hcl.trans (spawnListener_same _ _)).rows.trans hrows

theorem commit_rows (w : OffloaderWorld) (i : ℕ) (r : RowId) (pin : Pin) (hostname : String) (port : ℕ) (tracked : Bool) :
    (w.commitEndpointRebind i r pin hostname port tracked).rows =
      w.rows.modify r fun p => { p with receiverHostname := hostname, receiverPort := port } := by
  unfold commitEndpointRebind
  generalize hv : ({ w with rows := w.rows.modify r fun p =>
    { p with receiverHostname := hostname, receiverPort := port } } : OffloaderWorld) = v
  have hrows : v.rows = w.rows.modify r fun p => { p with receiverHostname := hostname, receiverPort := port } := by
    rw [← hv]
  obtain ⟨hw, -⟩ := cancelAndWait_fields v pin
  simp only
  split
  · rename_i u hu
    rw [hu] at hw
    exact (spawnClient_same u r).rows.trans (hw.trans hrows)
  · rename_i k u hu
    rw [hu] at hw
    exact hw.trans hrows

theorem statusAnswer_rows (w : OffloaderWorld) (i : ℕ) (p : StoredPairing) (answer : StatusAnswer) :
    EndpointsKept w (w.applyPairStatusResult i p answer) := by
  cases answer with
  | approved observed =>
    simp only [applyPairStatusResult]
    split
    · exact .of_eq (endListener_same _ i _).rows
    · split
      · exact .of_eq (endListener_same _ i _).rows
      · exact .modify rfl fun _ => ⟨rfl, rfl⟩
  | rejected => exact .of_eq (endListener_same _ i _).rows
  | other => exact .of_eq rfl

theorem stopTasks_rows (js : List ℕ) (w : OffloaderWorld) : (js.foldl (fun w j => w.setTask j .ended) w).rows = w.rows := by
  induction js generalizing w with
  | nil => rfl
  | cons j js ih => exact ih _

theorem stopClients_rows (ks : List ClientId) (w : OffloaderWorld) : (ks.foldl (fun w k => w.cancelClient k) w).rows = w.rows := by
  induction ks generalizing w with
  | nil => rfl
  | cons k ks ih => exact ih _

theorem resume_rows (w : OffloaderWorld) (i : ℕ) : (w.step lib (.resume i)).rows = w.rows := by
  by_cases hs : ∃ ph, w.tasks[i]? = some (.stop ph)
  · obtain ⟨ph, hi⟩ := hs
    simp only [step, hi, resumeTask]
    cases ph with
    | tasks => exact stopTasks_rows _ w
    | listeners => exact stopClients_rows _ _
    | clients ks =>
      simp only [resumeStop]
      split <;> rfl
    | callbacks => rfl
  · refine (resume_same (a := .resume i) (fun j hj ph hp => ?_) rfl).rows
    cases hj
    exact hs ⟨ph, hp⟩

/-- **No other step of the controller changes the endpoint of a row.** -/
theorem endpoint_moves (w : OffloaderWorld) (a : OffloaderAction) (hp : w.rows[r]? = some p)
    (hp' : (w.step lib a).rows[r]? = some p')
    (hne : ¬(p'.receiverHostname = p.receiverHostname ∧ p'.receiverPort = p.receiverPort)) :
    ∃ i observed hostname port, a = .probeAnswer i observed ∧ w.Verified i observed r p hostname port ∧
      p' = { p with receiverHostname := hostname, receiverPort := port } := by
  have kept : EndpointsKept w (w.step lib a) → ∃ i observed hostname port, a = .probeAnswer i observed ∧
      w.Verified i observed r p hostname port ∧ p' = { p with receiverHostname := hostname, receiverPort := port } :=
    fun hk => absurd (hk r p p' hp hp') hne
  cases a with
  | pairAnswer i status pub =>
    refine kept ?_
    simp only [step]
    split
    · rename_i host port pin label hi
      obtain ⟨row, hrows⟩ := pairAnswered_rows w i host port pin label status pub
      intro k q q' hq hq'
      obtain ⟨hlt, -⟩ := List.getElem?_eq_some_iff.1 hq
      rw [hrows, List.getElem?_append_left hlt, hq] at hq'
      cases hq'
      exact ⟨rfl, rfl⟩
    · exact .of_eq rfl
  | statusAnswer i answer =>
    refine kept ?_
    simp only [step]
    split
    · split
      · exact .of_eq rfl
      · exact statusAnswer_rows w i _ answer
    · exact .of_eq rfl
  | unpair pin => exact kept (.of_eq (dropPairing_rows w pin).1)
  | probeAnswer i observed =>
    rcases @probeAnswer_cases lib w i observed with hu | ⟨k, q, hostname, port, connectBack, tracked, -, hv, -, he⟩
    · exact kept (.of_eq hu.rows)
    · rw [he, commit_rows, List.getElem?_modify, hp] at hp'
      by_cases hk : k = r
      · subst hk
        obtain ⟨ht, hr, ho, hkey, happ⟩ := hv
        rw [hp] at hr
        cases hr
        simp only [if_pos, Option.map_eq_map, Option.map_some, Option.some.injEq] at hp'
        exact ⟨i, observed, hostname, port, rfl, ⟨ht, hp, ho, hkey, happ⟩, hp'.symm⟩
      · simp only [if_neg hk, Option.map_eq_map, Option.map_some, Option.some.injEq] at hp'
        rw [← hp'] at hne
        exact absurd ⟨rfl, rfl⟩ hne
  | resume i => exact kept (.of_eq (resume_rows w i))
  | setPairingEnabled pin enabled =>
    refine kept ?_
    simp only [step]
    split
    · exact .of_eq rfl
    · exact .modify rfl fun _ => ⟨rfl, rfl⟩
  | discovered hostname port pin => exact kept (.of_eq (unverified_same (a := .discovered hostname port pin) trivial).1.rows)
  | connectBack pin peerIp port => exact kept (.of_eq (unverified_same (a := .connectBack pin peerIp port) trivial).1.rows)
  | editEndpoint pin hostname port =>
    refine kept (.of_eq (withApproved_same (fun r p => ?_) pin).rows)
    split
    · exact .refl w
    · exact ⟨rfl, rfl, rfl⟩
  | pairFailed i =>
    refine kept (.of_eq ?_)
    simp only [step]
    split <;> rfl
  | _ => exact kept (.of_eq rfl)

/-! ### Clients -/

/-- A commit cancels the registered client of the pin, and no other. -/
theorem commit_clients {k : ClientId} {c : PeerLinkClient} (hc : w.clients[k]? = some c)
    (hk : w.peerLinkClients.get? pin ≠ some k) (i : ℕ) (r : RowId) (hostname : String) (port : ℕ) (tracked : Bool) :
    (w.commitEndpointRebind i r pin hostname port tracked).clients[k]? = some c := by
  have spawned : ∀ (v : OffloaderWorld) (r : RowId), v.clients[k]? = some c → (v.spawnPeerLinkClient r).clients[k]? = some c := by
    intro v r hv
    unfold spawnPeerLinkClient
    obtain ⟨hlt, -⟩ := List.getElem?_eq_some_iff.1 hv
    split
    · exact hv
    · split
      · exact hv
      · exact (List.getElem?_append_left hlt).trans hv
  unfold commitEndpointRebind cancelPeerLinkClientAndWait
  simp only
  cases he : w.peerLinkClients.get? pin with
  | none => exact spawned _ r hc
  | some k' =>
    have hu := unlinked { w with rows := w.rows.modify r fun p =>
      { p with receiverHostname := hostname, receiverPort := port } } pin
    have hck := (hu.client k).trans ((if_neg hk).trans hc)
    simp only
    split
    · rename_i v hv
      cases (Prod.mk.injEq ..).mp hv |>.2
      exact spawned _ r hck
    · rename_i j v hv
      cases (Prod.mk.injEq ..).mp hv |>.2
      exact hck

end OffloaderWorld

namespace LinkWorld

open OffloaderWorld

variable {lib : Library} {w : LinkWorld} {a : LinkAction}

theorem respawnClients_rows (pins : List Pin) (w : OffloaderWorld) : (w.respawnClients pins).1.rows = w.rows := by
  induction pins generalizing w with
  | nil => rfl
  | cons pin rest ih =>
    unfold respawnClients
    split
    · exact ih w
    · split
      · obtain ⟨hw, -⟩ := cancelAndWait_fields w pin
        split
        · rename_i v hv
          rw [hv] at hw
          exact (ih _).trans ((spawnClient_same v _).rows.trans hw)
        · rename_i k v hv
          rw [hv] at hw
          exact hw
      · exact ih w

theorem resumeRotation_rows (w : LinkWorld) (j : ℕ) : (w.resumeRotation j).rows = w.rows := by
  unfold resumeRotation
  split
  · exact respawnClients_rows _ _
  · split
    · rfl
    · exact (respawnClients_rows _ _).trans (spawnClient_same _ _).rows
  · rfl

/-- A step of a client or of a rotation changes no row. -/
theorem step_rows (ha : ∀ b, a ≠ .base b) : (w.step lib a).rows = w.rows := by
  cases a with
  | base b => exact absurd rfl (ha b)
  | opens k =>
    simp only [step, opens]
    split
    · rfl
    · split <;> rfl
  | closes k =>
    simp only [step, closes]
    split
    · rfl
    · split <;> rfl
  | ends k =>
    simp only [step, ends]
    split
    · rfl
    · split <;> rfl
  | rotated => rfl
  | resumeRotation j => exact resumeRotation_rows w j

/-- **Endpoints move on proof only.** -/
theorem rebind_proved (lib : Library) (w : LinkWorld) :
    -- an endpoint is changed by a verified answer to a probe of that endpoint
    (∀ a r p p', w.rows[r]? = some p → (w.step lib a).rows[r]? = some p' →
      ¬(p'.receiverHostname = p.receiverHostname ∧ p'.receiverPort = p.receiverPort) →
      ∃ i observed hostname port, a = .base (.probeAnswer i observed) ∧ w.Verified i observed r p hostname port ∧
        p' = { p with receiverHostname := hostname, receiverPort := port }) ∧
    -- what verifies nothing changes nothing and saves nothing
    (∀ b, w.Unverified b → Untouched w.toOffloaderWorld (w.step lib (.base b)).toOffloaderWorld ∧
      (w.step lib (.base b)).linked = w.linked ∧ w.savesPairings b = false) ∧
    -- in orderly runs a `connect_back` leaves the clients alone whose session is open
    ∀ file, Reaches (step lib) Orderly (start file) w → ∀ i observed r hostname port tracked, w.tasks[i]? = some (.probe r hostname port true tracked) →
      ∀ k ∈ w.linked, ∀ c, w.clients[k]? = some c → (w.step lib (.base (.probeAnswer i observed))).clients[k]? = some c := by
  refine ⟨fun a r p p' hp hp' hne => ?_, fun b hb => ?_, fun file h i observed r hostname port tracked hi k hk c hc => ?_⟩
  · by_cases ha : ∃ b, a = .base b
    · obtain ⟨b, rfl⟩ := ha
      simp only [step] at hp'
      split at hp'
      · rw [hp] at hp'
        cases hp'
        exact absurd ⟨rfl, rfl⟩ hne
      · obtain ⟨i, observed, hostname, port, rfl, hv, he⟩ := endpoint_moves w.toOffloaderWorld b hp hp' hne
        exact ⟨i, observed, hostname, port, rfl, hv, he⟩
    · rw [step_rows fun b hb => ha ⟨b, hb⟩, hp] at hp'
      cases hp'
      exact absurd ⟨rfl, rfl⟩ hne
  · obtain ⟨hu, hs⟩ := @unverified_same lib _ _ hb
    simp only [step]
    split
    · exact ⟨.refl _, rfl, hs⟩
    · exact ⟨hu, rfl, hs⟩
  · have hA : Agree w.toOffloaderWorld w.linked := agree_of_reaches h (start_agree file)
    change (w.toOffloaderWorld.step lib (.probeAnswer i observed)).clients[k]? = some c
    rcases @probeAnswer_cases lib w.toOffloaderWorld i observed with hu | ⟨r', p, host, port', cb, tr, hi', -, hopen, he⟩
    · rw [hu.clients]
      exact hc
    · rw [hi] at hi'
      cases hi'
      rw [he]
      -- a registered client with a session would have kept the guard shut
      refine commit_clients hc (fun hreg => hopen rfl ?_) _ _ _ _ _
      exact hA.seen p.pinSha256 k hreg hk

def announced : LinkAction := .base (.connectBack "72cd6e84" "192.0.2.7" 6055)

/-- The receiver announces itself; while the probe is out, the client's own session opens. -/
def announcedFirst : List LinkAction := [announced, .opens 0]

theorem rebind_proved_announced :
    let w := announcedFirst.foldl (step PairingState.someLibrary) (start someFile)
    (Untouched w.toOffloaderWorld (w.step PairingState.someLibrary announced).toOffloaderWorld ∧
      (w.step PairingState.someLibrary announced).linked = w.linked ∧
      w.savesPairings (.connectBack "72cd6e84" "192.0.2.7" 6055) = false) ∧
    (w.step PairingState.someLibrary (.base (.probeAnswer 0 (some "72cd6e84")))).clients[0]? =
      some ⟨"attic.local", 6055, [], "72cd6e84", .running⟩ :=
  ⟨(rebind_proved PairingState.someLibrary _).2.1 (.connectBack "72cd6e84" "192.0.2.7" 6055) trivial,
    (rebind_proved PairingState.someLibrary _).2.2 someFile
      (Reaches.foldl_checks (fun _ _ => orderly_of_test) announcedFirst _ (by decide)) 0 (some "72cd6e84") 0 "192.0.2.7" 6055
      false (by decide) 0 (by decide) _ (by decide)⟩

/-- The old client's late CLOSED has taken the pin out of the set: the guard of `connect_back` is open. -/
def announcedEarly : List LinkAction := pairEarly ++ [announced]

/-- The answer of the probe cancels the new client, whose session is open. -/
theorem connect_back_ends_session : ¬∀ (lib : Library) (file : PairingsFile) (w : LinkWorld),
    Reaches (step lib) any (start file) w → ∀ i observed r hostname port tracked,
      w.tasks[i]? = some (.probe r hostname port true tracked) → ∀ k ∈ w.linked, ∀ c, w.clients[k]? = some c →
        (w.step lib (.base (.probeAnswer i observed))).clients[k]? = some c := by
  intro h
  have hc := h PairingState.someLibrary someFile _ (Reaches.foldl announcedEarly (start someFile)) 1 (some "72cd6e84") 1
    "192.0.2.7" 6055 false (by decide) 1 (by decide) ⟨"attic.local", 6055, [], "72cd6e84", .running⟩ (by decide)
  revert hc
  decide

end LinkWorld

end DeviceBuilder.RemoteBuild
