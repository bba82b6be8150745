import DeviceBuilder.RemoteBuild.PeerLinks
import DeviceBuilder.RemoteBuild.OffloaderMoves
import DeviceBuilder.Properties.Clients
import DeviceBuilder.Properties.Trust

/-!
# Who is connected

Every step of the controller is a chain of a few changes of the client table
(`Turn`), so what is said of clients, their sessions and `open_peer_links` is proved
for these and for the clients' own events.

The events name a pin, not a client. `Orderly` excludes the steps that this cannot
tell apart: a session that opens while an older client of its pin still tears down,
and a client spawned for a pin that has no row any more.

* `links_agree`: in runs of orderly steps the set is right.
* `late_close`: unpair, pair again; the old client's CLOSED takes the new one down.
-/

namespace DeviceBuilder.RemoteBuild

open Runs

namespace OffloaderWorld

variable {lib : Library} {e : Pin → Prop} {w w' : OffloaderWorld} {i : ℕ} {k : ClientId} {r : RowId} {pin q : Pin}
  {p : StoredPairing} {c : PeerLinkClient}

/-- Row `r` is a row of `pin`. -/
def HasRow (w : OffloaderWorld) (r : RowId) (pin : Pin) : Prop := ∃ p, w.rows[r]? = some p ∧ p.pinSha256 = pin

/-- A row keeps its pin. -/
def RowsKept (w w' : OffloaderWorld) : Prop := ∀ (r : RowId) (pin : Pin), w.HasRow r pin → w'.HasRow r pin

theorem RowsKept.of_eq (h : w'.rows = w.rows) : RowsKept w w' := fun _ _ ⟨p, hp, hq⟩ => ⟨p, h ▸ hp, hq⟩

/-- Each row is under its pin. -/
def Keyed (w : OffloaderWorld) : Prop := ∀ pin r, w.pairings.get? pin = some r → w.HasRow r pin

/-- **One change of the client table.** Only the pins of `e` may gain a row. -/
inductive Turn (e : Pin → Prop) : OffloaderWorld → OffloaderWorld → Prop
  | keep {w w' : OffloaderWorld} (hc : w'.clients = w.clients) (ht : w'.peerLinkClients = w.peerLinkClients)
      (ho : w'.openPeerLinks = w.openPeerLinks) (hr : RowsKept w w')
      (hp : ∀ q r, w'.pairings.get? q = some r → w.pairings.get? q = some r ∨ e q ∧ HasRow w' r q) : Turn e w w'
  | spawn {w : OffloaderWorld} {r : RowId} {p : StoredPairing} (hr : w.rows[r]? = some p)
      (hp : w.pairings.get? p.pinSha256 ≠ none) : Turn e w (w.spawnPeerLinkClient r)
  | cancel (w : OffloaderWorld) (pin : Pin) : Turn e w (w.cancelPeerLinkClient pin)
  | discard {w : OffloaderWorld} {pin : Pin} (h : w.peerLinkClients.get? pin = none) :
      Turn e w { w with openPeerLinks := w.openPeerLinks.filter (· ≠ pin) }

/-- A sequence of such changes. -/
def Turns (e : Pin → Prop) : OffloaderWorld → OffloaderWorld → Prop := Relation.ReflTransGen (Turn e)

theorem Turns.one (h : Turn e w w') : Turns e w w' := Relation.ReflTransGen.single h

theorem Turns.trans {v : OffloaderWorld} (h : Turns e w v) (h' : Turns e v w') : Turns e w w' :=
  Relation.ReflTransGen.trans h h'

theorem Turns.refl (w : OffloaderWorld) : Turns e w w := Relation.ReflTransGen.refl

theorem Turns.mono {e' : Pin → Prop} (h : Turns e w w') (he : ∀ q, e q → e' q) : Turns e' w w' := by
  unfold Turns at h
  induction h with
  | refl => exact .refl w
  | tail _ huv ih =>
    refine ih.trans (.one ?_)
    cases huv with
    | keep hc ht ho hr hp => exact .keep hc ht ho hr fun q r hq => (hp q r hq).imp_right fun hx => ⟨he q hx.1, hx.2⟩
    | spawn hr hp => exact .spawn hr hp
    | cancel => exact .cancel ..
    | discard hn => exact .discard hn

/-- Nothing of the table changes, nor the pairings. -/
theorem Turns.same (hc : w'.clients = w.clients) (ht : w'.peerLinkClients = w.peerLinkClients)
    (ho : w'.openPeerLinks = w.openPeerLinks) (hp : w'.pairings = w.pairings) (hr : w'.rows = w.rows) : Turns e w w' :=
  .one (.keep hc ht ho (.of_eq hr) fun _ _ hq => .inl (hp ▸ hq))

/-- A row is changed in place. -/
theorem modify_turns (w : OffloaderWorld) (r : RowId) (f : StoredPairing → StoredPairing)
    (hf : ∀ p, (f p).pinSha256 = p.pinSha256) : Turns e w { w with rows := w.rows.modify r f } := by
  refine .one (.keep rfl rfl rfl (fun r' pin h => ?_) fun q r' hq => .inl hq)
  obtain ⟨p, hp, hpin⟩ := h
  by_cases hr : r = r'
  · refine ⟨f p, ?_, (hf p).trans hpin⟩
    change (w.rows.modify r f)[r']? = some (f p)
    rw [List.getElem?_modify, hp]
    simp [hr]
  · exact ⟨p, (List.getElem?_modify_ne _ _ hr).trans hp, hpin⟩

/-! ### The operations -/

theorem cancelListener_turns (w : OffloaderWorld) (pin : Pin) : Turns e w (w.cancelPairStatusListener pin) := by
  unfold cancelPairStatusListener
  split <;> exact .same rfl rfl rfl rfl rfl

theorem endListener_turns (w : OffloaderWorld) (i : ℕ) (pin : Pin) : Turns e w (w.endListener i pin) := by
  unfold endListener
  split <;> exact .same rfl rfl rfl rfl rfl

theorem spawnListener_turns (w : OffloaderWorld) (r : RowId) : Turns e w (w.spawnPairStatusListener r) := by
  unfold spawnPairStatusListener
  split
  · exact .refl w
  · split
    · exact .refl w
    · exact .same rfl rfl rfl rfl rfl

theorem cancelClient_entry (w : OffloaderWorld) (pin : Pin) : (w.cancelPeerLinkClient pin).peerLinkClients.get? pin = none := by
  rw [(unlinked w pin).entry, if_pos rfl]

theorem erase_turns (w : OffloaderWorld) (pin : Pin) : Turns e w { w with pairings := w.pairings.erase pin } :=
  .one (.keep rfl rfl rfl (.of_eq rfl) fun _ _ hq => .inl (Dict.of_get?_erase hq).2)

theorem dropPairing_turns (w : OffloaderWorld) (pin : Pin) : Turns e w (w.dropPairing pin) := by
  have hl := cancelListener_turns (e := e) w pin
  have hc : Turns e (w.cancelPairStatusListener pin) _ := .one (.cancel (w.cancelPairStatusListener pin) pin)
  have hn := cancelClient_entry (w.cancelPairStatusListener pin) pin
  unfold dropPairing
  simp only
  generalize (w.cancelPairStatusListener pin).cancelPeerLinkClient pin = v at hc hn ⊢
  split
  · exact hl.trans hc
  · have hd : Turns e v _ := .one (.discard hn)
    exact hl.trans (hc.trans (hd.trans (erase_turns _ pin)))

theorem sweep_turns (hostname : String) (port : ℕ) (keep : Pin) (w : OffloaderWorld) :
    Turns e w (w.sweepStalePairingsAtEndpoint hostname port keep) := by
  unfold sweepStalePairingsAtEndpoint
  generalize w.pairings.keys = pins
  induction pins generalizing w with
  | nil => exact .refl w
  | cons pin pins ih =>
    rw [List.foldl_cons]
    refine Turns.trans ?_ (ih _)
    split
    · exact .refl w
    · split
      · exact dropPairing_turns w pin
      · exact .refl w

theorem sweep_rows (hostname : String) (port : ℕ) (keep : Pin) (w : OffloaderWorld) :
    (w.sweepStalePairingsAtEndpoint hostname port keep).rows = w.rows := by
  unfold sweepStalePairingsAtEndpoint
  generalize w.pairings.keys = pins
  induction pins generalizing w with
  | nil => rfl
  | cons pin pins ih =>
    rw [List.foldl_cons, ih]
    split
    · rfl
    · split
      · exact (dropped w pin).rows
      · rfl

theorem pairAnswered_turns (w : OffloaderWorld) (i : ℕ) (hostname : String) (port : ℕ) (pin : Pin) (label : String)
    (status : PeerStatus) (pub : PublicKey) :
    Turns (fun q => q = pin) w (w.pairAnswered i hostname port pin label status pub) := by
  unfold pairAnswered
  simp only
  generalize hrow : StoredPairing.mk hostname port pin pub label status _ = row
  have hpin : row.pinSha256 = pin := by rw [← hrow]
  have h₁ : Turns (fun q => q = pin) w { w with rows := w.rows ++ [row] } := by
    refine .one (.keep rfl rfl rfl (fun r q h => ?_) fun _ _ hq => .inl hq)
    obtain ⟨p, hp, hq⟩ := h
    obtain ⟨hlt, -⟩ := List.getElem?_eq_some_iff.1 hp
    exact ⟨p, (List.getElem?_append_left hlt).trans hp, hq⟩
  have hrows := sweep_rows hostname port pin { w with rows := w.rows ++ [row] }
  have h₂ := sweep_turns (e := fun q => q = pin) hostname port pin { w with rows := w.rows ++ [row] }
  generalize sweepStalePairingsAtEndpoint { w with rows := w.rows ++ [row] } hostname port pin = v at hrows h₂
  have h₃ : Turns (fun q => q = pin) v { v with pairings := v.pairings.set pin w.rows.length } := by
    refine .one (.keep rfl rfl rfl (.of_eq rfl) fun q r hq => ?_)
    change (v.pairings.set pin w.rows.length).get? q = some r at hq
    rw [Dict.get?_set] at hq
    split at hq
    · rename_i hqp
      cases hq
      refine .inr ⟨hqp, row, ?_, hpin.trans hqp.symm⟩
      rw [show v.rows = w.rows ++ [row] from hrows]
      exact List.getElem?_concat_length
    · exact .inl hq
  have h₄ := cancelListener_turns (e := fun q => q = pin) { v with pairings := v.pairings.set pin w.rows.length } pin
  have h := h₁.trans (h₂.trans (h₃.trans h₄))
  cases status with
  | approved => exact h.trans (.same rfl rfl rfl rfl rfl)
  | pending => exact h.trans ((spawnListener_turns _ _).trans (.same rfl rfl rfl rfl rfl))

theorem applyPairStatusResult_turns (w : OffloaderWorld) (i : ℕ) (p : StoredPairing) (a : StatusAnswer) :
    Turns e w (w.applyPairStatusResult i p a) := by
  unfold applyPairStatusResult
  split
  · split
    · exact (erase_turns w _).trans (endListener_turns _ _ _)
    · split
      · exact endListener_turns w _ _
      · rename_i r' _
        have h : Turns e w _ := modify_turns w r' (fun p => { p with status := .approved }) fun _ => rfl
        exact h.trans (.same rfl rfl rfl rfl rfl)
  · exact (erase_turns w _).trans (endListener_turns _ _ _)
  · exact .refl w

theorem finishRebind_turns (hr : w.rows[r]? = some p) (hp : w.pairings.get? p.pinSha256 ≠ none) (i : ℕ) (pin : Pin) :
    Turns e w (w.finishRebind i r pin) := by
  have h : Turns e w _ := .one (.spawn hr hp)
  exact h.trans (.same rfl rfl rfl rfl rfl)

theorem cancelAndWait_turns (w : OffloaderWorld) (pin : Pin) : Turns e w (w.cancelPeerLinkClientAndWait pin).2 := by
  unfold cancelPeerLinkClientAndWait
  split
  · exact .refl w
  · exact .one (.cancel w pin)

theorem cancelAndWait_fields (w : OffloaderWorld) (pin : Pin) :
    (w.cancelPeerLinkClientAndWait pin).2.rows = w.rows ∧ (w.cancelPeerLinkClientAndWait pin).2.pairings = w.pairings := by
  unfold cancelPeerLinkClientAndWait
  split
  · exact ⟨rfl, rfl⟩
  · exact ⟨(unlinked w pin).rows, (unlinked w pin).pairings⟩

/-- The old client is cancelled; the new one follows at once, or after the teardown. -/
theorem replace_turns (hr : w.HasRow r pin) (hp : w.pairings.get? pin ≠ none) (i : ℕ) (tracked : Bool) :
    Turns e w (match w.cancelPeerLinkClientAndWait pin with
      | (none, w) => w.finishRebind i r pin
      | (some k, w) => w.setTask i (.respawn r k tracked)) := by
  have hc := cancelAndWait_turns (e := e) w pin
  obtain ⟨hrows, hpair⟩ := cancelAndWait_fields w pin
  obtain ⟨p, hp', rfl⟩ := hr
  cases hv : w.cancelPeerLinkClientAndWait p.pinSha256 with
  | mk k v =>
    rw [hv] at hc hrows hpair
    cases k with
    | none => exact hc.trans (finishRebind_turns (hrows ▸ hp') (by rw [hpair]; exact hp) i _)
    | some k => exact hc.trans (.same rfl rfl rfl rfl rfl)

theorem commitEndpointRebind_turns (hr : w.HasRow r pin) (hp : w.pairings.get? pin ≠ none) (i : ℕ) (hostname : String)
    (port : ℕ) (tracked : Bool) : Turns e w (w.commitEndpointRebind i r pin hostname port tracked) := by
  have hm : ∀ p : StoredPairing, ({ p with receiverHostname := hostname, receiverPort := port } : StoredPairing).pinSha256 =
      p.pinSha256 := fun _ => rfl
  refine (modify_turns w r _ hm).trans (replace_turns (w := { w with
    rows := w.rows.modify r fun p => { p with receiverHostname := hostname, receiverPort := port } }) ?_ hp i tracked)
  obtain ⟨p, hp, hq⟩ := hr
  refine ⟨{ p with receiverHostname := hostname, receiverPort := port }, ?_, hq⟩
  change (w.rows.modify r _)[r]? = _
  rw [List.getElem?_modify, hp]
  simp

theorem probed_turns (hr : w.rows[r]? = some p) (i : ℕ) (hostname : String) (port : ℕ) (connectBack tracked : Bool)
    (observed : Option Pin) : Turns e w (w.probed i r p hostname port connectBack tracked observed) := by
  unfold probed
  split
  · exact .same rfl rfl rfl rfl rfl
  · split
    · exact .same rfl rfl rfl rfl rfl
    · rename_i hn
      split
      · exact .same rfl rfl rfl rfl rfl
      · refine commitEndpointRebind_turns ⟨p, hr, rfl⟩ ?_ i hostname port tracked
        intro hnone
        exact hn (.inr (.inl (by rw [hnone]; exact nofun)))

/-- Who gets a row while a step is taken. -/
def Adds (w : OffloaderWorld) (a : OffloaderAction) (pin : Pin) : Prop :=
  ∃ i status pub hostname port label, a = .pairAnswer i status pub ∧
    w.tasks[i]? = some (.requestPair hostname port pin label)

/-- The rows whose client task `i` spawns when it goes on. -/
def Revives (w : OffloaderWorld) (i : ℕ) (r : RowId) : Prop :=
  w.tasks[i]? = some (.converge r) ∨ ∃ k tracked, w.tasks[i]? = some (.respawn r k tracked)

/-- The controller is not stopped; a client it spawns late is one of a row that is still there. -/
def Current (w : OffloaderWorld) : OffloaderAction → Prop
  | .stop => False
  | .resume i => (∀ ph, w.tasks[i]? ≠ some (.stop ph)) ∧
    ∀ r p, w.Revives i r → w.rows[r]? = some p → w.pairings.get? p.pinSha256 ≠ none
  | _ => True

theorem resume_turns (h : w.Current (.resume i)) : Turns e w (w.step lib (.resume i)) := by
  obtain ⟨hstop, hrev⟩ := h
  simp only [step]
  cases hi : w.tasks[i]? with
  | none => exact .refl w
  | some t =>
    cases t with
    | converge r =>
      simp only [resumeTask]
      cases hr : w.rows[r]? with
      | none => exact .refl w
      | some p =>
        have hs : Turns e w (w.spawnPeerLinkClient r) := .one (.spawn hr (hrev r p (.inl hi) hr))
        exact hs.trans (endListener_turns _ _ _)
    | respawn r k tracked =>
      simp only [resumeTask]
      cases hr : w.rows[r]? with
      | none => exact .refl w
      | some p =>
        simp only
        split
        · exact .refl w
        · exact finishRebind_turns hr (hrev r p (.inr ⟨k, tracked, hi⟩) hr) i _
    | stop ph => exact absurd hi (hstop ph)
    | requestPair => exact .refl w
    | pairStatus => exact .refl w
    | probe => exact .refl w
    | ended => exact .refl w

theorem claimAndProbe_turns (w : OffloaderWorld) (r : RowId) (pin : Pin) (hostname : String) (port : ℕ)
    (connectBack tracked : Bool) : Turns e w (w.claimAndProbe r pin hostname port connectBack tracked) := by
  unfold claimAndProbe
  split
  · exact .refl w
  · exact .same rfl rfl rfl rfl rfl

theorem withApproved_turns {f : RowId → StoredPairing → OffloaderWorld} (h : ∀ r p, Turns e w (f r p)) (pin : Pin) :
    Turns e w (w.withApproved pin f) := by
  unfold withApproved
  split
  · exact .refl w
  · split
    · exact .refl w
    · split
      · exact h _ _
      · exact .refl w

/-- **Every step of the controller is a chain of turns.** -/
theorem step_turns (w : OffloaderWorld) {a : OffloaderAction} (ha : a.isClients = false) (h : w.Current a) :
    Turns (w.Adds a) w (w.step lib a) := by
  cases a with
  | requestPair hostname port pin label => exact .same rfl rfl rfl rfl rfl
  | pairAnswer i status pub =>
    simp only [step]
    split
    · rename_i hostname port pin label hi
      refine (pairAnswered_turns w i hostname port pin label status pub).mono ?_
      rintro q rfl
      exact ⟨i, status, pub, hostname, port, label, rfl, hi⟩
    · exact .refl w
  | pairFailed i =>
    simp only [step]
    split
    · exact .same rfl rfl rfl rfl rfl
    · exact .refl w
  | statusAnswer i answer =>
    simp only [step]
    split
    · split
      · exact .refl w
      · exact applyPairStatusResult_turns w i _ answer
    · exact .refl w
  | unpair pin => exact dropPairing_turns w pin
  | discovered hostname port pin =>
    simp only [step]
    split
    · exact .refl w
    · refine withApproved_turns (fun r p => ?_) pin
      split
      · exact .refl w
      · exact claimAndProbe_turns ..
  | editEndpoint pin hostname port =>
    refine withApproved_turns (fun r p => ?_) pin
    split
    · exact .refl w
    · exact .same rfl rfl rfl rfl rfl
  | connectBack pin peerIp announcedPort =>
    refine withApproved_turns (fun r p => ?_) pin
    split
    · exact .refl w
    · exact claimAndProbe_turns ..
  | probeAnswer i observed =>
    simp only [step]
    split
    · split
      · exact .refl w
      · rename_i hr
        exact probed_turns hr ..
    · exact .refl w
  | resume i => exact resume_turns h
  | clientEnds k => cases ha
  | peerLinkOpened pin => cases ha
  | peerLinkClosed pin => cases ha
  | setPairingEnabled pin enabled =>
    simp only [step]
    split
    · exact .refl w
    · exact modify_turns w _ _ fun _ => rfl
  | setRemoteBuildsEnabled enabled => exact .same rfl rfl rfl rfl rfl
  | tick dt => exact .same rfl rfl rfl rfl rfl
  | stop => exact h.elim

/-! ### The invariant -/

/-- **Clients, sessions and the set.** `linked` are the clients with an open session. -/
structure Agree (w : OffloaderWorld) (linked : List ClientId) : Prop where
  keyed : w.Keyed
  entry : ∀ pin k, w.peerLinkClients.get? pin = some k → ∃ c, w.clients[k]? = some c ∧ c.pinSha256 = pin
  live : ∀ k ∈ linked, ∃ c, w.clients[k]? = some c ∧ c.phase ≠ .done
  shown : ∀ pin ∈ w.openPeerLinks, ∃ k ∈ linked, ∃ c, w.clients[k]? = some c ∧ c.pinSha256 = pin
  seen : ∀ pin k, w.peerLinkClients.get? pin = some k → k ∈ linked → pin ∈ w.openPeerLinks
  sole : ∀ pin k, w.peerLinkClients.get? pin = some k → k ∈ linked → ∀ (k' : ClientId) (c : PeerLinkClient),
    w.clients[k']? = some c → c.pinSha256 = pin → k' ≠ k → c.phase = .done

variable {linked : List ClientId}

theorem Turn.keyed (h : Turn e w w') (hk : w.Keyed) : w'.Keyed := by
  cases h with
  | keep hc ht ho hr hp =>
    intro q r hq
    rcases hp q r hq with hq | ⟨-, hx⟩
    · exact hr r q (hk q r hq)
    · exact hx
  | @spawn r p hr hp =>
    rcases spawn_cases hr with ⟨-, he⟩ | ⟨-, he⟩
    · rw [he]
      exact hk
    · rw [he]
      exact hk
  | cancel pin =>
    intro q r hq
    rw [(unlinked w pin).pairings] at hq
    obtain ⟨p, hp, hpin⟩ := hk q r hq
    exact ⟨p, (unlinked w pin).rows ▸ hp, hpin⟩
  | discard hn => exact hk

theorem Agree.spawn (h : Agree w linked) (hr : w.rows[r]? = some p) (hk : (w.spawnPeerLinkClient r).Keyed) :
    Agree (w.spawnPeerLinkClient r) linked := by
  rcases spawn_cases hr with ⟨-, he⟩ | ⟨ha, he⟩
  · rw [he]
    exact h
  rw [he] at hk ⊢
  have hold : ∀ {k : ClientId} {c c' : PeerLinkClient}, w.clients[k]? = some c → (w.clients ++ [c'])[k]? = some c := by
    intro k c c' hc
    obtain ⟨hlt, -⟩ := List.getElem?_eq_some_iff.1 hc
    exact (List.getElem?_append_left hlt).trans hc
  -- the new client is at the end, with no session
  have hnew : w.clients.length ∉ linked := fun hl => by
    obtain ⟨c, hc, -⟩ := h.live _ hl
    rw [List.getElem?_eq_none (Nat.le_refl _)] at hc
    cases hc
  have hentry : ∀ {q : Pin} {k : ClientId}, (w.peerLinkClients.set p.pinSha256 w.clients.length).get? q = some k →
      k ∈ linked → q ≠ p.pinSha256 ∧ w.peerLinkClients.get? q = some k := by
    intro q k hq hl
    rw [Dict.get?_set] at hq
    split at hq
    · cases hq
      exact absurd hl hnew
    · exact ⟨by assumption, hq⟩
  refine ⟨hk, fun q k hq => ?_, fun k hl => ?_, fun q hq => ?_, fun q k hq hl => ?_, fun q k hq hl k' c hc hcp hne => ?_⟩
  · change (w.peerLinkClients.set p.pinSha256 w.clients.length).get? q = some k at hq
    rw [Dict.get?_set] at hq
    split at hq
    · rename_i hqp
      cases hq
      exact ⟨_, List.getElem?_concat_length, hqp.symm⟩
    · obtain ⟨c, hc, hcp⟩ := h.entry q k hq
      exact ⟨c, hold hc, hcp⟩
  · obtain ⟨c, hc, hd⟩ := h.live k hl
    exact ⟨c, hold hc, hd⟩
  · obtain ⟨k, hl, c, hc, hcp⟩ := h.shown q hq
    exact ⟨k, hl, c, hold hc, hcp⟩
  · exact h.seen q k (hentry hq hl).2 hl
  · obtain ⟨hqp, hq⟩ := hentry hq hl
    rcases Nat.lt_or_ge k' w.clients.length with hlt | hge
    · exact h.sole q k hq hl k' c ((List.getElem?_append_left hlt).symm.trans hc) hcp hne
    · have hc' := (List.getElem?_append_right hge).symm.trans hc
      cases List.mem_singleton.1 (List.mem_of_getElem? hc')
      exact absurd hcp.symm hqp

theorem cancel_phase (c : PeerLinkClient) : c.cancel.phase = .done ↔ c.phase = .done := by
  unfold PeerLinkClient.cancel
  cases c.phase <;> simp

/-- A client that is cancelled, or not. -/
theorem cancelClient_cases (w : OffloaderWorld) (pin : Pin) (k : ClientId) :
    ∃ f : PeerLinkClient → PeerLinkClient, (∀ c, (f c).pinSha256 = c.pinSha256 ∧ ((f c).phase = .done ↔ c.phase = .done)) ∧
      (w.cancelPeerLinkClient pin).clients[k]? = (w.clients[k]?).map f := by
  rw [(unlinked w pin).client]
  split
  · exact ⟨PeerLinkClient.cancel, fun c => ⟨rfl, cancel_phase c⟩, rfl⟩
  · exact ⟨id, fun c => ⟨rfl, Iff.rfl⟩, by rw [Option.map_id]; rfl⟩

theorem Agree.cancel (h : Agree w linked) (pin : Pin) (hk : (w.cancelPeerLinkClient pin).Keyed) :
    Agree (w.cancelPeerLinkClient pin) linked := by
  have hopen : (w.cancelPeerLinkClient pin).openPeerLinks = w.openPeerLinks := by
    unfold cancelPeerLinkClient
    split <;> rfl
  have hclient : ∀ {k : ClientId} {c : PeerLinkClient}, w.clients[k]? = some c →
      ∃ c', (w.cancelPeerLinkClient pin).clients[k]? = some c' ∧ c'.pinSha256 = c.pinSha256 ∧
        (c'.phase = .done ↔ c.phase = .done) := by
    intro k c hc
    obtain ⟨f, hf, he⟩ := cancelClient_cases w pin k
    exact ⟨f c, by rw [he, hc]; rfl, hf c⟩
  have hentry : ∀ {q : Pin} {k : ClientId}, (w.cancelPeerLinkClient pin).peerLinkClients.get? q = some k →
      w.peerLinkClients.get? q = some k := by
    intro q k hq
    rw [(unlinked w pin).entry] at hq
    split at hq
    · cases hq
    · exact hq
  refine ⟨hk, fun q k hq => ?_, fun k hl => ?_, fun q hq => ?_, fun q k hq hl => ?_, fun q k hq hl k' c hc hcp hne => ?_⟩
  · obtain ⟨c, hc, hcp⟩ := h.entry q k (hentry hq)
    obtain ⟨c', hc', hp, -⟩ := hclient hc
    exact ⟨c', hc', hp.trans hcp⟩
  · obtain ⟨c, hc, hd⟩ := h.live k hl
    obtain ⟨c', hc', -, hd'⟩ := hclient hc
    exact ⟨c', hc', fun hx => hd (hd'.1 hx)⟩
  · rw [hopen] at hq
    obtain ⟨k, hl, c, hc, hcp⟩ := h.shown q hq
    obtain ⟨c', hc', hp, -⟩ := hclient hc
    exact ⟨k, hl, c', hc', hp.trans hcp⟩
  · rw [hopen]
    exact h.seen q k (hentry hq) hl
  · obtain ⟨f, hf, he⟩ := cancelClient_cases w pin k'
    rw [he] at hc
    obtain ⟨c₀, hc₀, rfl⟩ := Option.map_eq_some_iff.1 hc
    exact (hf c₀).2.2 (h.sole q k (hentry hq) hl k' c₀ hc₀ ((hf c₀).1.symm.trans hcp) hne)

theorem Agree.discard (h : Agree w linked) (hn : w.peerLinkClients.get? pin = none) :
    Agree { w with openPeerLinks := w.openPeerLinks.filter (· ≠ pin) } linked :=
  { h with
    keyed := h.keyed
    shown := fun q hq => h.shown q (List.mem_filter.1 hq).1
    seen := fun q k hq hl => by
      refine List.mem_filter.2 ⟨h.seen q k hq hl, ?_⟩
      rw [decide_eq_true_eq]
      rintro rfl
      exact absurd (hn.symm.trans hq) nofun }

/-- **One turn** keeps clients, sessions and set in step. -/
theorem Agree.turn (h : Agree w linked) (ht : Turn e w w') : Agree w' linked := by
  have hk := ht.keyed h.keyed
  cases ht with
  | keep hc ht ho hr hp =>
    exact ⟨hk, by rw [hc, ht]; exact h.entry, by rw [hc]; exact h.live, by rw [hc, ho]; exact h.shown,
      by rw [ht, ho]; exact h.seen, by rw [ht, hc]; exact h.sole⟩
  | spawn hr hp => exact h.spawn hr hk
  | cancel pin => exact h.cancel pin hk
  | discard hn => exact h.discard hn

theorem Agree.turns (h : Agree w linked) (ht : Turns e w w') : Agree w' linked := by
  unfold Turns at ht
  induction ht with
  | refl => exact h
  | tail _ huv ih => exact ih.turn huv

/-- A pin with neither row nor client. -/
def Absent (pin : Pin) (w : OffloaderWorld) : Prop := w.pairings.get? pin = none ∧ w.peerLinkClients.get? pin = none

theorem Absent.turn (h : Absent pin w) (he : ¬e pin) (ht : Turn e w w') : Absent pin w' := by
  cases ht with
  | keep hc ht ho hr hp =>
    refine ⟨Option.eq_none_iff_forall_ne_some.2 fun r hr => ?_, by rw [ht]; exact h.2⟩
    rcases hp pin r hr with hq | ⟨hx, -⟩
    · exact absurd (h.1.symm.trans hq) nofun
    · exact he hx
  | @spawn r p hr hp =>
    rcases spawn_cases hr with ⟨-, hs⟩ | ⟨-, hs⟩
    · rw [hs]
      exact h
    · rw [hs]
      refine ⟨h.1, (Dict.get?_set_ne ?_).trans h.2⟩
      rintro rfl
      exact hp h.1
  | cancel q =>
    refine ⟨by rw [(unlinked w q).pairings]; exact h.1, ?_⟩
    rw [(unlinked w q).entry, h.2, ite_self]
  | discard hn => exact h

theorem Absent.turns (h : Absent pin w) (he : ¬e pin) (ht : Turns e w w') : Absent pin w' := by
  unfold Turns at ht
  induction ht with
  | refl => exact h
  | tail _ huv ih => exact ih.turn he huv

theorem Turns.keyed (h : Turns e w w') (hk : w.Keyed) : w'.Keyed := by
  unfold Turns at h
  induction h with
  | refl => exact hk
  | tail _ huv ih => exact huv.keyed ih

/-- A rotation replaces clients of rows that are there. -/
theorem respawnClients_turns (hk : w.Keyed) (pins : List Pin) : Turns e w (w.respawnClients pins).1 := by
  induction pins generalizing w with
  | nil => exact .refl w
  | cons pin pins ih =>
    unfold respawnClients
    split
    · exact ih hk
    · rename_i r hr
      split
      · have hc := cancelAndWait_turns (e := e) w pin
        obtain ⟨hrows, hpair⟩ := cancelAndWait_fields w pin
        obtain ⟨p, hp, hpin⟩ := hk pin r hr
        cases hv : w.cancelPeerLinkClientAndWait pin with
        | mk k v =>
          rw [hv] at hc hrows hpair
          cases k with
          | none =>
            have hs : Turns e v (v.spawnPeerLinkClient r) := by
              refine .one (.spawn (p := p) (hrows ▸ hp) ?_)
              rw [hpair, hpin, hr]
              exact nofun
            exact hc.trans (hs.trans (ih (hs.keyed (hc.keyed hk))))
          | some k => exact hc
      · exact ih hk

/-! ### The start -/

theorem Agree.seed (file : PairingsFile) : Agree (seed file) [] where
  keyed := fun _ _ => seed_pairing file
  entry := nofun
  live := nofun
  shown := nofun
  seen := nofun
  sole := nofun

theorem start_turns (file : PairingsFile) : Turns e (seed file) (start file) := by
  have hloop : ∀ (rs : List RowId) (w : OffloaderWorld), w.Keyed → (∀ r ∈ rs, ∃ q, w.pairings.get? q = some r) →
      Turns e w (rs.foldl startRow w) := by
    intro rs
    induction rs with
    | nil => exact fun w _ _ => .refl w
    | cons r rs ih =>
      intro w hk hrs
      rw [List.foldl_cons]
      have hrest : ∀ r' ∈ rs, ∃ q, w.pairings.get? q = some r' := fun r' hr' => hrs r' (List.mem_cons_of_mem r hr')
      obtain ⟨q, hq⟩ := hrs r (List.mem_cons_self ..)
      obtain ⟨p, hp, hpq⟩ := hk q r hq
      rw [startRow_of hp]
      split
      · have hs : Turns e w (w.spawnPeerLinkClient r) := by
          refine .one (.spawn hp ?_)
          rw [hpq, hq]
          simp
        refine hs.trans (ih _ (hs.keyed hk) fun r' hr' => ?_)
        obtain ⟨q', hq'⟩ := hrest r' hr'
        refine ⟨q', ?_⟩
        rcases spawn_cases hp with ⟨-, he⟩ | ⟨-, he⟩
        · rw [he]
          exact hq'
        · rw [he]
          exact hq'
      · exact ih w hk hrest
  rw [start_eq]
  exact hloop _ _ (fun _ _ => seed_pairing file) fun r hr => Dict.mem_values.1 hr

theorem dropPairing_open (h : w.pairings.get? pin ≠ none) : pin ∉ (w.dropPairing pin).openPeerLinks := by
  have hl := unlistened w pin
  have hc := unlinked (w.cancelPairStatusListener pin) pin
  unfold dropPairing
  simp only [hc.pairings, hl.pairings]
  split
  · rename_i hn
    exact absurd hn h
  · simp

end OffloaderWorld

namespace LinkWorld

open OffloaderWorld

variable {lib : Library} {w : LinkWorld} {k : ClientId} {pin : Pin} {a : LinkAction}

/-- Every client of the pin but the registered one has ended, so all its events are handled. -/
def Quiet (w : LinkWorld) (pin : Pin) : Prop := ∀ (k : ClientId) (c : PeerLinkClient), w.clients[k]? = some c →
  c.pinSha256 = pin → w.peerLinkClients.get? pin ≠ some k → c.phase = .done

/-- A session opens only when the pin's other clients have ended; what is spawned late has a row. -/
def Orderly (w : LinkWorld) : LinkAction → Prop
  | .base a => w.Current a
  | .opens k => ∀ c, w.clients[k]? = some c → ∀ (k' : ClientId) (c' : PeerLinkClient), w.clients[k']? = some c' →
    c'.pinSha256 = c.pinSha256 → k' ≠ k → c'.phase = .done
  | .resumeRotation j => ∀ r k rest p, w.rotations[j]? = some (.awaiting r k rest) → w.rows[r]? = some p →
    w.pairings.get? p.pinSha256 ≠ none
  | _ => True

/-- The step puts a row under the pin. -/
def Pairs (pin : Pin) (w : LinkWorld) : LinkAction → Prop
  | .base a => w.Adds a pin
  | _ => False

/-! ### The clients' events -/

theorem agree_opens (h : Agree w.toOffloaderWorld w.linked) (ho : w.Orderly (.opens k)) :
    Agree (w.opens k).toOffloaderWorld (w.opens k).linked := by
  unfold opens
  split
  · exact h
  · rename_i c hc
    split
    · rename_i hrun
      have hsole := ho c hc
      refine { h with
        keyed := h.keyed
        live := fun j hj => ?_
        shown := fun q hq => ?_
        seen := fun q j hq hj => ?_
        sole := fun q j hq hj k' c' hc' hcp hne => ?_ }
      · rcases List.mem_cons.1 hj with rfl | hj
        · exact ⟨c, hc, by rw [hrun.1]; exact nofun⟩
        · exact h.live j hj
      · rcases List.mem_append.1 hq with hq | hq
        · obtain ⟨j, hj, hx⟩ := h.shown q hq
          exact ⟨j, List.mem_cons_of_mem k hj, hx⟩
        · cases List.mem_singleton.1 hq
          exact ⟨k, List.mem_cons_self .., c, hc, rfl⟩
      · rcases List.mem_cons.1 hj with rfl | hj
        · obtain ⟨c', hc', rfl⟩ := h.entry q j hq
          cases hc.symm.trans hc'
          exact List.mem_append_right _ (List.mem_singleton_self _)
        · exact List.mem_append_left _ (h.seen q j hq hj)
      · rcases List.mem_cons.1 hj with rfl | hj
        · obtain ⟨c₀, hc₀, hq₀⟩ := h.entry q j hq
          cases hc.symm.trans hc₀
          exact hsole k' c' hc' (hcp.trans hq₀.symm) hne
        · exact h.sole q j hq hj k' c' hc' hcp hne
    · exact h

/-- CLOSED of a client that has not ended: no other client of its pin is registered with a session. -/
theorem agree_closed (h : Agree w.toOffloaderWorld w.linked) {c : PeerLinkClient} (hc : w.clients[k]? = some c)
    (hd : c.phase ≠ .done) : Agree (w.closed c.pinSha256).toOffloaderWorld (w.linked.filter (· ≠ k)) := by
  have hmem : ∀ j, j ∈ w.linked.filter (· ≠ k) → j ∈ w.linked ∧ j ≠ k := fun j hj => by
    obtain ⟨hj, hne⟩ := List.mem_filter.1 hj
    exact ⟨hj, by simpa using hne⟩
  refine { h with
    keyed := h.keyed
    live := fun j hj => h.live j (hmem j hj).1
    shown := fun q hq => ?_
    seen := fun q j hq hj => ?_
    sole := fun q j hq hj => h.sole q j hq (hmem j hj).1 }
  · obtain ⟨hq, hne⟩ := List.mem_filter.1 hq
    obtain ⟨j, hj, c', hc', rfl⟩ := h.shown q hq
    refine ⟨j, List.mem_filter.2 ⟨hj, ?_⟩, c', hc', rfl⟩
    rw [decide_eq_true_eq] at hne ⊢
    rintro rfl
    cases hc.symm.trans hc'
    exact hne rfl
  · obtain ⟨hj, hne⟩ := hmem j hj
    refine List.mem_filter.2 ⟨h.seen q j hq hj, ?_⟩
    rw [decide_eq_true_eq]
    rintro rfl
    exact hd (h.sole _ j hq hj k c hc rfl hne.symm)

theorem agree_done (h : Agree w.toOffloaderWorld w.linked) (hk : k ∉ w.linked) :
    Agree { w.toOffloaderWorld with clients := w.clients.modify k fun c => { c with phase := .done } } w.linked := by
  have hget : ∀ j, (w.clients.modify k fun c => { c with phase := .done })[j]? =
      (w.clients[j]?).map fun c => if k = j then { c with phase := .done } else c := by
    intro j
    rw [List.getElem?_modify]
    cases w.clients[j]? with
    | none => rfl
    | some c => by_cases hkj : k = j <;> simp [hkj]
  refine { h with
    keyed := h.keyed
    entry := fun q j hq => ?_
    live := fun j hj => ?_
    shown := fun q hq => ?_
    sole := fun q j hq hj k' c' hc' hcp hne => ?_ }
  · obtain ⟨c, hc, hcp⟩ := h.entry q j hq
    refine ⟨_, (hget j).trans (by rw [hc]; rfl), ?_⟩
    split <;> exact hcp
  · obtain ⟨c, hc, hd⟩ := h.live j hj
    have hne : k ≠ j := by
      rintro rfl
      exact hk hj
    refine ⟨_, (hget j).trans (by rw [hc]; rfl), ?_⟩
    simp only [if_neg hne]
    exact hd
  · obtain ⟨j, hj, c, hc, hcp⟩ := h.shown q hq
    refine ⟨j, hj, _, (hget j).trans (by rw [hc]; rfl), ?_⟩
    split <;> exact hcp
  · obtain ⟨c, hc, rfl⟩ := Option.map_eq_some_iff.1 ((hget k').symm.trans hc')
    by_cases hkk : k = k'
    · rw [if_pos hkk]
    · rw [if_neg hkk] at hcp ⊢
      exact h.sole q j hq hj k' c hc hcp hne

theorem agree_step (h : Agree w.toOffloaderWorld w.linked) (ho : w.Orderly a) :
    Agree (w.step lib a).toOffloaderWorld (w.step lib a).linked := by
  cases a with
  | base a =>
    simp only [step]
    split
    · exact h
    · rename_i ha
      exact h.turns (step_turns w.toOffloaderWorld (by simpa using ha) ho)
  | opens k => exact agree_opens h ho
  | closes k =>
    simp only [step, closes]
    split
    · exact h
    · rename_i c hc
      split
      · rename_i hrun
        exact agree_closed h hc (by rw [hrun]; exact nofun)
      · exact h
  | ends k =>
    simp only [step, ends]
    split
    · exact h
    · rename_i c hc
      split
      · exact h
      · rename_i hd
        have hcl := agree_closed h hc hd
        refine agree_done (w := { w.closed c.pinSha256 with linked := w.linked.filter (· ≠ k) }) hcl fun hk => ?_
        simpa using (List.mem_filter.1 hk).2
  | rotated => exact h
  | resumeRotation j =>
    simp only [step, resumeRotation]
    split
    · exact h.turns (e := fun _ => False) (respawnClients_turns h.keyed _)
    · rename_i r k rest hj
      split
      · exact h
      · cases hr : w.rows[r]? with
        | none =>
          have he : w.spawnPeerLinkClient r = w.toOffloaderWorld := by
            unfold spawnPeerLinkClient
            rw [hr]
          simp only [he]
          exact h.turns (e := fun _ => False) (respawnClients_turns h.keyed _)
        | some p =>
          have hs : Turns (fun _ => False) w.toOffloaderWorld (w.spawnPeerLinkClient r) :=
            .one (.spawn hr (ho r k rest p hj hr))
          exact h.turns (hs.trans (respawnClients_turns (hs.keyed h.keyed) rest))
    · exact h

theorem absent_step (h : Absent pin w.toOffloaderWorld) (hA : Agree w.toOffloaderWorld w.linked) (ho : w.Orderly a)
    (hp : ¬w.Pairs pin a) : Absent pin (w.step lib a).toOffloaderWorld := by
  cases a with
  | base a =>
    simp only [step]
    split
    · exact h
    · rename_i ha
      exact h.turns hp (step_turns w.toOffloaderWorld (by simpa using ha) ho)
  | opens k =>
    simp only [step, opens]
    split
    · exact h
    · split <;> exact h
  | closes k =>
    simp only [step, closes]
    split
    · exact h
    · split <;> exact h
  | ends k =>
    simp only [step, ends]
    split
    · exact h
    · split <;> exact h
  | rotated => exact h
  | resumeRotation j =>
    simp only [step, resumeRotation]
    split
    · exact h.turns (e := fun _ => False) id (respawnClients_turns hA.keyed _)
    · rename_i r k rest hj
      split
      · exact h
      · cases hr : w.rows[r]? with
        | none =>
          have he : w.spawnPeerLinkClient r = w.toOffloaderWorld := by
            unfold spawnPeerLinkClient
            rw [hr]
          simp only [he]
          exact h.turns (e := fun _ => False) id (respawnClients_turns hA.keyed _)
        | some p =>
          have hs : Turns (fun _ => False) w.toOffloaderWorld (w.spawnPeerLinkClient r) :=
            .one (.spawn hr (ho r k rest p hj hr))
          exact h.turns id (hs.trans (respawnClients_turns (hs.keyed hA.keyed) rest))
    · exact h

/-! ### Runs -/

theorem start_agree (file : PairingsFile) : Agree (start file).toOffloaderWorld (start file).linked :=
  (Agree.seed file).turns (e := fun _ => False) (start_turns file)

theorem agree_of_reaches {v : LinkWorld} (h : Reaches (step lib) Orderly v w) (hv : Agree v.toOffloaderWorld v.linked) :
    Agree w.toOffloaderWorld w.linked :=
  h.invariant (I := fun w => Agree w.toOffloaderWorld w.linked) hv fun _ _ ho hA => agree_step hA ho

/-- The registered client of the pin has an open session. -/
def Connected (w : LinkWorld) (pin : Pin) : Prop := ∃ k, w.peerLinkClients.get? pin = some k ∧ k ∈ w.linked

theorem connected_open (h : Agree w.toOffloaderWorld w.linked) (hc : w.Connected pin) : pin ∈ w.openPeerLinks := by
  obtain ⟨k, hk, hl⟩ := hc
  exact h.seen pin k hk hl

theorem quiet_open (h : Agree w.toOffloaderWorld w.linked) (hq : w.Quiet pin) :
    pin ∈ w.openPeerLinks ↔ w.Connected pin := by
  refine ⟨fun ho => ?_, connected_open h⟩
  -- the pin is shown for a client with a session, which has not ended: it is the registered one
  obtain ⟨k, hk, c, hc, hpin⟩ := h.shown pin ho
  by_cases hreg : w.peerLinkClients.get? pin = some k
  · exact ⟨k, hreg, hk⟩
  · obtain ⟨c', hc', hlive⟩ := h.live k hk
    cases hc.symm.trans hc'
    exact absurd (hq k c hc hpin hreg) hlive

theorem absent_open (h : Agree w.toOffloaderWorld w.linked) (ha : Absent pin w.toOffloaderWorld) (hq : w.Quiet pin) :
    pin ∉ w.openPeerLinks := by
  intro ho
  obtain ⟨k, hk, -⟩ := (quiet_open h hq).1 ho
  rw [ha.2] at hk
  cases hk

theorem absent_unpair (w : LinkWorld) (pin : Pin) : Absent pin (w.step lib (.base (.unpair pin))).toOffloaderWorld := by
  have hd := dropped w.toOffloaderWorld pin
  constructor
  · change (w.dropPairing pin).pairings.get? pin = none
    rw [hd.pairings, if_pos rfl]
  · change (w.dropPairing pin).peerLinkClients.get? pin = none
    rw [hd.entry, if_pos rfl]

/-- **The set of connected peers is right in orderly runs.** -/
theorem links_agree (file : PairingsFile) (h : Reaches (step lib) Orderly (start file) w) (pin : Pin) :
    (w.Connected pin → pin ∈ w.openPeerLinks) ∧
    (w.Quiet pin → (pin ∈ w.openPeerLinks ↔ w.Connected pin)) ∧
    (w.pairings.get? pin ≠ none → pin ∉ (w.step lib (.base (.unpair pin))).openPeerLinks) ∧
    ∀ w', Reaches (step lib) (fun w a => w.Orderly a ∧ ¬w.Pairs pin a) (w.step lib (.base (.unpair pin))) w' →
      w'.Quiet pin → pin ∉ w'.openPeerLinks := by
  have hA : Agree w.toOffloaderWorld w.linked := agree_of_reaches h (start_agree file)
  refine ⟨connected_open hA, quiet_open hA, fun hp => dropPairing_open hp, fun w' h' hq => ?_⟩
  have hU : Agree (w.step lib (.base (.unpair pin))).toOffloaderWorld (w.step lib (.base (.unpair pin))).linked :=
    agree_step hA trivial
  have hrun := h'.invariant (I := fun w => Agree w.toOffloaderWorld w.linked ∧ Absent pin w.toOffloaderWorld)
    ⟨hU, absent_unpair w pin⟩ fun v a ho hv => ⟨agree_step hv.1 ho.1, absent_step hv.2 hv.1 ho.1 ho.2⟩
  exact absent_open hrun.1 hrun.2 hq

/-- Every client of the list passes the test. -/
theorem clients_all {f : PeerLinkClient × ClientId → Bool} (h : w.clients.zipIdx.all f = true) {c : PeerLinkClient}
    (hk : w.clients[k]? = some c) : f (c, k) = true := by
  have hm : (c, k) ∈ w.clients.zipIdx := List.mem_zipIdx_iff_getElem?.2 hk
  exact List.all_eq_true.1 h _ hm

def someReceiver : StoredPairing where
  receiverHostname := "attic.local"
  receiverPort := 6055
  pinSha256 := "72cd6e84"
  staticX25519Pub := []
  label := "Attic"
  status := .approved

def someFile : PairingsFile where
  rows := [someReceiver]
  distinct := by decide

/-- The receiver is unpaired while its session is open, and paired again; the test is for `Orderly`. -/
def orderlyTest (w : LinkWorld) : LinkAction → Bool
  | .base .stop => false
  | .base (.resume i) => (w.tasks[i]?).all fun
      | .converge r => (w.rows[r]?).all fun p => (w.pairings.get? p.pinSha256).isSome
      | .respawn .. => false
      | .stop _ => false
      | _ => true
  | .opens k => w.clients.zipIdx.all fun e => e.2 = k || e.1.phase = .done
  | .resumeRotation _ => false
  | _ => true

theorem orderly_of_test (h : orderlyTest w a = true) : w.Orderly a := by
  cases a with
  | base a =>
    cases a with
    | resume i =>
      refine ⟨fun ph hi => ?_, fun r p hr hp => ?_⟩
      · simp [orderlyTest, hi] at h
      · rcases hr with hi | ⟨k, tracked, hi⟩
        · simp only [orderlyTest, hi, hp, Option.all_some] at h
          exact Option.isSome_iff_ne_none.1 h
        · simp [orderlyTest, hi] at h
    | stop => cases h
    | _ => trivial
  | opens k =>
    intro c hc k' c' hk' _ hne
    have ht := clients_all h hk'
    simpa [hne] using ht
  | resumeRotation j => cases h
  | _ => trivial

/-- The old client has ended before the new one's session opens. -/
def pairAgain : List LinkAction :=
  [.opens 0, .base (.unpair "72cd6e84"), .ends 0, .base (.requestPair "attic.local" 6055 "72cd6e84" "Attic"),
    .base (.pairAnswer 0 .approved []), .base (.resume 0), .opens 1]

theorem links_agree_pairAgain :
    let w := pairAgain.foldl (step PairingState.someLibrary) (start someFile)
    (w.Connected "72cd6e84" → "72cd6e84" ∈ w.openPeerLinks) ∧
    (w.Quiet "72cd6e84" → ("72cd6e84" ∈ w.openPeerLinks ↔ w.Connected "72cd6e84")) ∧
    (w.pairings.get? "72cd6e84" ≠ none →
      "72cd6e84" ∉ (w.step PairingState.someLibrary (.base (.unpair "72cd6e84"))).openPeerLinks) ∧
    ∀ w', Reaches (step PairingState.someLibrary) (fun w a => w.Orderly a ∧ ¬w.Pairs "72cd6e84" a)
        (w.step PairingState.someLibrary (.base (.unpair "72cd6e84"))) w' →
      w'.Quiet "72cd6e84" → "72cd6e84" ∉ w'.openPeerLinks :=
  links_agree someFile (Reaches.foldl_checks (fun _ _ => orderly_of_test) pairAgain _ (by decide)) "72cd6e84"

/-- The new client's session opens before the old client has ended. -/
def pairEarly : List LinkAction :=
  [.opens 0, .base (.unpair "72cd6e84"), .base (.requestPair "attic.local" 6055 "72cd6e84" "Attic"),
    .base (.pairAnswer 0 .approved []), .base (.resume 0), .opens 1, .ends 0]

theorem quiet_of_test {pin : Pin}
    (h : w.clients.zipIdx.all fun e => w.peerLinkClients.get? pin = some e.2 || e.1.phase = .done) : w.Quiet pin := by
  intro k c hc _ hne
  have ht := clients_all h hc
  simpa [hne] using ht

/-- The old client's CLOSED takes the new one's session for its own. -/
theorem late_close : ¬∀ (lib : Library) (file : PairingsFile) (w : LinkWorld) (pin : Pin),
    Reaches (step lib) any (start file) w → w.Quiet pin → (pin ∈ w.openPeerLinks ↔ w.Connected pin) := by
  intro h
  have hq : (pairEarly.foldl (step PairingState.someLibrary) (start someFile)).Quiet "72cd6e84" :=
    quiet_of_test (by decide)
  have hopen := (h PairingState.someLibrary someFile _ "72cd6e84" (Reaches.foldl pairEarly (start someFile)) hq).2
    ⟨1, by decide, by decide⟩
  revert hopen
  decide

end LinkWorld

end DeviceBuilder.RemoteBuild
