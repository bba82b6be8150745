import DeviceBuilder.RemoteBuild.OffloaderStep

/-!
# What the offloader's operations do to rows, clients and coroutines

One lemma for each operation, in terms of look-ups: rows, the row and the client
under a pin, the phase of a client, the coroutine at an index.
-/

namespace DeviceBuilder.RemoteBuild

/-- A cancelled client. -/
def PeerLinkClient.cancel (c : PeerLinkClient) : PeerLinkClient :=
  { c with phase := if c.phase = .done then .done else .cancelled }

namespace OffloaderWorld

variable {w w' : OffloaderWorld} {i j : ℕ} {k : ClientId} {r : RowId} {pin q : Pin}
  {t t' : OffloaderTask} {p : StoredPairing} {c : PeerLinkClient}

/-! ### Coroutines -/

theorem setTask_get (w : OffloaderWorld) (i : ℕ) (t : OffloaderTask) (j : ℕ) :
    (w.setTask i t).tasks[j]? = if j = i then (w.tasks[i]?).map fun _ => t else w.tasks[j]? := by
  simp only [setTask, List.getElem?_set]
  by_cases h : j = i
  · subst h
    rw [if_pos rfl, if_pos rfl]
    by_cases hj : j < w.tasks.length
    · rw [if_pos hj, List.getElem?_eq_getElem hj]
      rfl
    · rw [if_neg hj, List.getElem?_eq_none (Nat.le_of_not_lt hj)]
      rfl
  · rw [if_neg (Ne.symm h), if_neg h]

theorem spawn_get (w : OffloaderWorld) (t : OffloaderTask) (j : ℕ) :
    (w.spawn t).tasks[j]? = if j = w.tasks.length then some t else w.tasks[j]? := by
  simp only [spawn]
  rcases Nat.lt_trichotomy j w.tasks.length with h | h | h
  · rw [List.getElem?_append_left h, if_neg (Nat.ne_of_lt h)]
  · rw [if_pos h, h, List.getElem?_concat_length]
  · rw [if_neg (Nat.ne_of_gt h), List.getElem?_eq_none (by simp; omega), List.getElem?_eq_none (by omega)]

/-- What a set or a new coroutine is. -/
theorem of_setTask (h : (w.setTask i t).tasks[j]? = some t') : j = i ∧ t' = t ∨ j ≠ i ∧ w.tasks[j]? = some t' := by
  rw [setTask_get] at h
  split at h
  next hj =>
    obtain ⟨-, -, rfl⟩ := Option.map_eq_some_iff.1 h
    exact .inl ⟨hj, rfl⟩
  next hj => exact .inr ⟨hj, h⟩

theorem of_spawn (h : (w.spawn t).tasks[j]? = some t') :
    j = w.tasks.length ∧ t' = t ∨ w.tasks[j]? = some t' := by
  rw [spawn_get] at h
  split at h
  next hj => exact .inl ⟨hj, (Option.some.inj h).symm⟩
  next hj => exact .inr h

/-! ### Clients -/

theorem cancelClient_get (w : OffloaderWorld) (k k' : ClientId) : (w.cancelClient k).clients[k']? =
    if k' = k then (w.clients[k']?).map PeerLinkClient.cancel else w.clients[k']? := by
  simp only [cancelClient, List.getElem?_modify]
  by_cases h : k' = k
  · rw [if_pos h, h]
    cases w.clients[k]? with
    | none => rfl
    | some c => simp [PeerLinkClient.cancel]
  · rw [if_neg h]
    cases w.clients[k']? with
    | none => rfl
    | some c => simp [Ne.symm h]

/-- What `spawn_peer_link_client` does for a row: nothing beside a live client, else a new one. -/
theorem spawn_cases (hp : w.rows[r]? = some p) :
    ((w.peerLinkClients.get? p.pinSha256).any w.isAlive = true ∧ w.spawnPeerLinkClient r = w) ∨
    ((w.peerLinkClients.get? p.pinSha256).any w.isAlive = false ∧ w.spawnPeerLinkClient r = { w with
      clients := w.clients ++ [{
        receiverHostname := p.receiverHostname, receiverPort := p.receiverPort
        pinnedStaticX25519Pub := p.staticX25519Pub, pinSha256 := p.pinSha256 }]
      peerLinkClients := w.peerLinkClients.set p.pinSha256 w.clients.length }) := by
  unfold spawnPeerLinkClient
  rw [hp]
  simp only
  cases h : (w.peerLinkClients.get? p.pinSha256).any w.isAlive with
  | true => exact .inl ⟨rfl, if_pos rfl⟩
  | false => exact .inr ⟨rfl, if_neg nofun⟩

/-! ### Dropping a row -/

/-- What dropping the row under `pin` does. -/
structure Dropped (pin : Pin) (w w' : OffloaderWorld) : Prop where
  rows : w'.rows = w.rows
  pairings : ∀ q, w'.pairings.get? q = if q = pin then none else w.pairings.get? q
  entry : ∀ q, w'.peerLinkClients.get? q = if q = pin then none else w.peerLinkClients.get? q
  slot : ∀ q, w'.pairStatusListeners.get? q = if q = pin then none else w.pairStatusListeners.get? q
  client : ∀ k, w'.clients[k]? = if w.peerLinkClients.get? pin = some k
    then (w.clients[k]?).map PeerLinkClient.cancel else w.clients[k]?
  task : ∀ j, w'.tasks[j]? = if w.pairStatusListeners.get? pin = some j
    then (w.tasks[j]?).map fun _ => .ended else w.tasks[j]?

/-- What cancelling the listener of `pin` does. -/
structure Unlistened (pin : Pin) (w w' : OffloaderWorld) : Prop where
  rows : w'.rows = w.rows
  pairings : w'.pairings = w.pairings
  entry : w'.peerLinkClients = w.peerLinkClients
  clients : w'.clients = w.clients
  slot : ∀ q, w'.pairStatusListeners.get? q = if q = pin then none else w.pairStatusListeners.get? q
  task : ∀ j, w'.tasks[j]? = if w.pairStatusListeners.get? pin = some j
    then (w.tasks[j]?).map fun _ => .ended else w.tasks[j]?

theorem unlistened (w : OffloaderWorld) (pin : Pin) : Unlistened pin w (w.cancelPairStatusListener pin) := by
  unfold cancelPairStatusListener
  split
  next h =>
    refine ⟨rfl, rfl, rfl, rfl, fun q => ?_, fun j => ?_⟩
    · split
      next hq => rw [hq, h]
      next => rfl
    · rw [h, if_neg nofun]
  next i h =>
    refine ⟨rfl, rfl, rfl, rfl, fun q => Dict.get?_erase, fun j => ?_⟩
    rw [setTask_get, h]
    by_cases hj : j = i
    · rw [if_pos hj, if_pos (by rw [hj]), hj]
    · rw [if_neg hj, if_neg fun he => hj (Option.some.inj he).symm]

/-- What cancelling the client of `pin` does. -/
structure Unlinked (pin : Pin) (w w' : OffloaderWorld) : Prop where
  rows : w'.rows = w.rows
  pairings : w'.pairings = w.pairings
  slot : w'.pairStatusListeners = w.pairStatusListeners
  tasks : w'.tasks = w.tasks
  entry : ∀ q, w'.peerLinkClients.get? q = if q = pin then none else w.peerLinkClients.get? q
  client : ∀ k, w'.clients[k]? = if w.peerLinkClients.get? pin = some k
    then (w.clients[k]?).map PeerLinkClient.cancel else w.clients[k]?

theorem unlinked (w : OffloaderWorld) (pin : Pin) : Unlinked pin w (w.cancelPeerLinkClient pin) := by
  unfold cancelPeerLinkClient
  split
  next h =>
    refine ⟨rfl, rfl, rfl, rfl, fun q => ?_, fun k => ?_⟩
    · split
      next hq => rw [hq, h]
      next => rfl
    · rw [h, if_neg nofun]
  next k h =>
    refine ⟨rfl, rfl, rfl, rfl, fun q => Dict.get?_erase, fun k' => ?_⟩
    rw [cancelClient_get, h]
    by_cases hk : k' = k
    · rw [if_pos hk, if_pos (by rw [hk])]
    · rw [if_neg hk, if_neg fun he => hk (Option.some.inj he).symm]

theorem dropped (w : OffloaderWorld) (pin : Pin) : Dropped pin w (w.dropPairing pin) := by
  have hl := unlistened w pin
  have hc := unlinked (w.cancelPairStatusListener pin) pin
  have hpair : ((w.cancelPairStatusListener pin).cancelPeerLinkClient pin).pairings = w.pairings :=
    hc.pairings.trans hl.pairings
  -- the look-ups after the two cancellations
  have base : ∀ v : OffloaderWorld, v.rows = ((w.cancelPairStatusListener pin).cancelPeerLinkClient pin).rows →
      v.peerLinkClients = ((w.cancelPairStatusListener pin).cancelPeerLinkClient pin).peerLinkClients →
      v.pairStatusListeners = ((w.cancelPairStatusListener pin).cancelPeerLinkClient pin).pairStatusListeners →
      v.clients = ((w.cancelPairStatusListener pin).cancelPeerLinkClient pin).clients →
      v.tasks = ((w.cancelPairStatusListener pin).cancelPeerLinkClient pin).tasks →
      (∀ q, v.pairings.get? q = if q = pin then none else w.pairings.get? q) → Dropped pin w v := by
    intro v h₁ h₂ h₃ h₄ h₅ h₆
    refine ⟨by rw [h₁, hc.rows, hl.rows], h₆, fun q => ?_, fun q => ?_, fun k => ?_, fun j => ?_⟩
    · rw [h₂, hc.entry, hl.entry]
    · rw [h₃, hc.slot, hl.slot]
    · rw [h₄, hc.client, hl.entry, hl.clients]
    · rw [h₅, hc.tasks, hl.task]
  unfold dropPairing
  simp only
  split
  next h =>
    refine base _ rfl rfl rfl rfl rfl fun q => ?_
    rw [hpair] at h ⊢
    split
    next hq => rw [hq, h]
    next => rfl
  next h =>
    refine base _ rfl rfl rfl rfl rfl fun q => ?_
    rw [← hpair]
    exact Dict.get?_erase

end OffloaderWorld

end DeviceBuilder.RemoteBuild
