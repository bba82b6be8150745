import DeviceBuilder.RemoteBuild.OffloaderMoves

/-!
# What holds of the offloader's rows and clients between awaits

A client is spawned for a row past an await, and `spawn_peer_link_client` does
nothing beside a client that is alive. So the row can be gone or replaced when the
client comes, and a re-pair of a known pin at another endpoint leaves the old
client. `Follows` excludes these.

* `Followed`: what holds of rows, clients, listeners and drains at every await.
* `Followed.dropped`, `Followed.retasked`, `Followed.spawnClient`, `Followed.settled`,
  `Followed.repaired`: the moves that keep it.
-/

namespace DeviceBuilder.RemoteBuild

open Runs

/-- The coroutine is about to spawn a client for row `r`. -/
def OffloaderTask.Spawns (r : RowId) : OffloaderTask → Prop
  | .converge r' => r' = r
  | .respawn r' _ _ => r' = r
  | _ => False

/-- A coroutine that holds nothing: it has ended, or is in its first round trip. -/
def OffloaderTask.IsQuiet : OffloaderTask → Prop
  | .requestPair .. | .probe .. | .ended => True
  | _ => False

theorem OffloaderTask.IsQuiet.not_spawns {t : OffloaderTask} (h : t.IsQuiet) (r : RowId) : ¬t.Spawns r := by
  cases t <;> first | exact id | exact h.elim

theorem OffloaderTask.Spawns.unique {t : OffloaderTask} {r r' : RowId} (h : t.Spawns r) (h' : t.Spawns r') :
    r = r' := by
  cases t <;> first | exact h.symm.trans h' | exact h.elim

namespace OffloaderWorld

variable {lib : Library} {w w' : OffloaderWorld} {a : OffloaderAction} {i j : ℕ} {k : ClientId}
  {r : RowId} {pin q : Pin} {t : OffloaderTask} {p : StoredPairing} {c : PeerLinkClient}
  {file : PairingsFile}

def Pending (w : OffloaderWorld) (r : RowId) : Prop := ∃ (i : ℕ) (t : OffloaderTask), w.tasks[i]? = some t ∧ t.Spawns r

/-- A `stop` is suspended. -/
def Stopping (w : OffloaderWorld) : Prop := ∃ (i : ℕ) (ph : StopPhase), w.tasks[i]? = some (.stop ph)

/-- A `stop` drains the listeners. -/
def Draining (w : OffloaderWorld) : Prop := ∃ i : ℕ, w.tasks[i]? = some (.stop .listeners)

/-- A `stop` drains the clients, or is past that. -/
def Clearing (w : OffloaderWorld) : Prop := ∃ (i : ℕ) (ph : StopPhase), w.tasks[i]? = some (.stop ph) ∧
  (ph = .callbacks ∨ ∃ ks, ph = .clients ks)

/-- The client dials the row's endpoint, with the row's key. -/
def Dials (c : PeerLinkClient) (p : StoredPairing) : Prop :=
  c.receiverHostname = p.receiverHostname ∧ c.receiverPort = p.receiverPort ∧
    c.pinnedStaticX25519Pub = p.staticX25519Pub

/-- The step handles no answer that leaves a client behind, and spawns no client for a row that is
gone. -/
def Follows (w : OffloaderWorld) : OffloaderAction → Prop
  | .pairAnswer i status pub => ∀ hostname port pin label,
      w.tasks[i]? = some (.requestPair hostname port pin label) →
      (∀ k c, w.peerLinkClients.get? pin = some k → w.clients[k]? = some c → status = .approved ∧
        (c.phase ≠ .done → c.receiverHostname = hostname ∧ c.receiverPort = port ∧
          c.pinnedStaticX25519Pub = pub)) ∧
      (status = .pending → ¬w.Draining)
  | .resume i => ∀ t r p, w.tasks[i]? = some t → t.Spawns r → w.rows[r]? = some p →
      (w.peerLinkClients.get? p.pinSha256).any w.isAlive = false →
      (∀ r' k tracked, t = .respawn r' k tracked → w.isAlive k = false) →
      w.pairings.get? p.pinSha256 = some r ∧ ¬w.Clearing
  | .probeAnswer i observed => ∀ r hostname port connectBack tracked p,
      w.tasks[i]? = some (.probe r hostname port connectBack tracked) → w.rows[r]? = some p →
      observed = some p.pinSha256 → (w.peerLinkClients.get? p.pinSha256).any w.isAlive = false →
      ¬w.Clearing
  | _ => True

/-- Rows, clients, listeners and drains, at every await. -/
structure Followed (w : OffloaderWorld) : Prop where
  row : ∀ pin r, w.pairings.get? pin = some r → ∃ p, w.rows[r]? = some p ∧ p.pinSha256 = pin
  client : ∀ pin k, w.peerLinkClients.get? pin = some k → ∃ c, w.clients[k]? = some c ∧ c.pinSha256 = pin
  running : ∀ (k : ClientId) c, w.clients[k]? = some c → c.phase = .running → w.peerLinkClients.get? c.pinSha256 = some k
  entry : ∀ pin k c, w.peerLinkClients.get? pin = some k → w.clients[k]? = some c →
    ∃ r p, w.pairings.get? pin = some r ∧ w.rows[r]? = some p ∧ p.status = .approved ∧
      (Dials c p ∨ c.phase = .done ∧ (w.Pending r ∨ w.Stopping))
  approved : ∀ pin r p, w.pairings.get? pin = some r → w.rows[r]? = some p → p.status = .approved →
    (w.peerLinkClients.get? pin).isSome = true ∨ w.Pending r ∨ w.Stopping
  pending : ∀ r, w.Pending r → ∃ p, w.rows[r]? = some p ∧ p.status = .approved
  slot : ∀ pin i, w.pairStatusListeners.get? pin = some i → ∃ t, w.tasks[i]? = some t ∧
    (t = .ended ∨ ∃ r p, w.rows[r]? = some p ∧ p.pinSha256 = pin ∧ (t = .pairStatus r ∨ t = .converge r))
  listener : ∀ (i : ℕ) r, w.tasks[i]? = some (.pairStatus r) → ∃ p, w.rows[r]? = some p ∧
    w.pairStatusListeners.get? p.pinSha256 = some i ∧ ∀ r' p', w.pairings.get? p.pinSha256 = some r' →
      w.rows[r']? = some p' → p'.status = .pending
  clearing : w.Clearing → ∀ (k : ClientId) c, w.clients[k]? = some c → c.phase ≠ .running
  cleared : ∀ (i : ℕ), w.tasks[i]? = some (.stop .callbacks) → ∀ pin, w.peerLinkClients.get? pin = none
  draining : w.Draining → ∀ (i : ℕ) r, w.tasks[i]? ≠ some (.pairStatus r)

/-! ### Coroutines that end -/

/-- From `w` to `w'` some coroutines end, and no other changes. -/
def Ends (w w' : OffloaderWorld) : Prop :=
  ∀ (j : ℕ) t, w'.tasks[j]? = some t → t = .ended ∨ w.tasks[j]? = some t

theorem Ends.pending (h : Ends w w') (hp : w'.Pending r) : w.Pending r := by
  obtain ⟨i, t, ht, hs⟩ := hp
  rcases h i t ht with rfl | ht
  · exact hs.elim
  · exact ⟨i, t, ht, hs⟩

theorem Ends.clearing (h : Ends w w') (hp : w'.Clearing) : w.Clearing := by
  obtain ⟨i, ph, ht, hph⟩ := hp
  exact ⟨i, ph, (h i _ ht).resolve_left nofun, hph⟩

theorem Ends.draining (h : Ends w w') (hp : w'.Draining) : w.Draining := by
  obtain ⟨i, ht⟩ := hp
  exact ⟨i, (h i _ ht).resolve_left nofun⟩

theorem dropped_ends (h : Dropped pin w w') : Ends w w' := by
  intro j t ht
  rw [h.task] at ht
  split at ht
  · obtain ⟨-, -, rfl⟩ := Option.map_eq_some_iff.1 ht
    exact .inl rfl
  · exact .inr ht

/-- A coroutine that is not the listener of the dropped pin goes on. -/
theorem dropped_task (h : Dropped pin w w') (hj : w.pairStatusListeners.get? pin ≠ some j)
    (ht : w.tasks[j]? = some t) : w'.tasks[j]? = some t := by
  rw [h.task, if_neg hj]
  exact ht

theorem dropped_pending (hw : Followed w) (h : Dropped pin w w') (hr : w.rows[r]? = some p)
    (hp : p.pinSha256 ≠ pin) (hpend : w.Pending r) : w'.Pending r := by
  obtain ⟨i, t, ht, hs⟩ := hpend
  refine ⟨i, t, dropped_task h (fun hslot => ?_) ht, hs⟩
  obtain ⟨t', ht', hcase⟩ := hw.slot pin i hslot
  rw [ht] at ht'
  obtain rfl := Option.some.inj ht'
  rcases hcase with rfl | ⟨r', p', hr', hp', rfl | rfl⟩
  · exact hs
  · exact hs
  · obtain rfl : r' = r := hs
    rw [hr] at hr'
    exact hp (Option.some.inj hr' ▸ hp')

theorem dropped_stopping (hw : Followed w) (h : Dropped pin w w') (hs : w.Stopping) : w'.Stopping := by
  obtain ⟨i, ph, ht⟩ := hs
  refine ⟨i, ph, dropped_task h (fun hslot => ?_) ht⟩
  obtain ⟨t, ht', hcase⟩ := hw.slot pin i hslot
  rw [ht] at ht'
  obtain rfl := Option.some.inj ht'
  rcases hcase with h | ⟨r, p, -, -, h | h⟩ <;> cases h

/-- A client of another pin is not cancelled. -/
theorem dropped_client (hw : Followed w) (h : Dropped pin w w') (hq : q ≠ pin)
    (hk : w.peerLinkClients.get? q = some k) : w'.clients[k]? = w.clients[k]? := by
  rw [h.client, if_neg]
  intro hk'
  obtain ⟨c, hc, hcq⟩ := hw.client q k hk
  obtain ⟨c', hc', hcp⟩ := hw.client pin k hk'
  rw [hc] at hc'
  obtain rfl := Option.some.inj hc'
  exact hq (hcq.symm.trans hcp)

theorem Followed.dropped (hw : Followed w) (h : Dropped pin w w') : Followed w' where
  row := by
    intro q r hr
    rw [h.pairings] at hr
    split at hr
    · cases hr
    · rw [h.rows]
      exact hw.row q r hr
  client := by
    intro q k hk
    rw [h.entry] at hk
    split at hk
    · cases hk
    next hq =>
      rw [dropped_client hw h hq hk]
      exact hw.client q k hk
  running := by
    intro k c hc hrun
    rw [h.client] at hc
    split at hc
    next hk =>
      obtain ⟨c', -, rfl⟩ := Option.map_eq_some_iff.1 hc
      simp only [PeerLinkClient.cancel] at hrun
      split at hrun <;> cases hrun
    next hk =>
      have hold := hw.running k c hc hrun
      rw [h.entry, if_neg]
      · exact hold
      · intro hq
        rw [hq] at hold
        exact hk hold
  entry := by
    intro q k c hk hc
    rw [h.entry] at hk
    split at hk
    · cases hk
    next hq =>
      rw [dropped_client hw h hq hk] at hc
      obtain ⟨r, p, hr, hp, hst, hd⟩ := hw.entry q k c hk hc
      refine ⟨r, p, by rw [h.pairings, if_neg hq]; exact hr, by rw [h.rows]; exact hp, hst, ?_⟩
      rcases hd with hd | ⟨hdone, hpend | hstop⟩
      · exact .inl hd
      · obtain ⟨p', hp', hpq⟩ := hw.row q r hr
        rw [hp] at hp'
        obtain rfl := Option.some.inj hp'
        exact .inr ⟨hdone, .inl (dropped_pending hw h hp (hpq ▸ hq) hpend)⟩
      · exact .inr ⟨hdone, .inr (dropped_stopping hw h hstop)⟩
  approved := by
    intro q r p hr hp hst
    rw [h.pairings] at hr
    rw [h.rows] at hp
    split at hr
    · cases hr
    next hq =>
      obtain ⟨p', hp', hpq⟩ := hw.row q r hr
      rw [hp] at hp'
      obtain rfl := Option.some.inj hp'
      rcases hw.approved q r p hr hp hst with he | hpend | hstop
      · rw [h.entry, if_neg hq]
        exact .inl he
      · exact .inr (.inl (dropped_pending hw h hp (hpq ▸ hq) hpend))
      · exact .inr (.inr (dropped_stopping hw h hstop))
  pending := by
    intro r hpend
    rw [h.rows]
    exact hw.pending r ((dropped_ends h).pending hpend)
  slot := by
    intro q i hi
    rw [h.slot] at hi
    rw [h.rows]
    split at hi
    · cases hi
    · obtain ⟨t, ht, hcase⟩ := hw.slot q i hi
      rw [h.task]
      split
      · exact ⟨.ended, by rw [ht]; rfl, .inl rfl⟩
      · exact ⟨t, ht, hcase⟩
  listener := by
    intro i r ht
    have hold := (dropped_ends h i _ ht).resolve_left (by simp)
    obtain ⟨p, hp, hi, hrow⟩ := hw.listener i r hold
    have hne : p.pinSha256 ≠ pin := by
      intro he
      rw [h.task, if_pos (he ▸ hi), hold] at ht
      cases ht
    rw [h.rows]
    refine ⟨p, hp, by rw [h.slot, if_neg hne]; exact hi, fun r' p' hr' hp' => ?_⟩
    rw [h.pairings, if_neg hne] at hr'
    exact hrow r' p' hr' hp'
  clearing := by
    intro hclear k c hc
    rw [h.client] at hc
    split at hc
    · obtain ⟨c', -, rfl⟩ := Option.map_eq_some_iff.1 hc
      simp only [PeerLinkClient.cancel]
      split <;> simp
    · exact hw.clearing ((dropped_ends h).clearing hclear) k c hc
  cleared := by
    intro i ht q
    rw [h.entry]
    split
    · rfl
    · exact hw.cleared i ((dropped_ends h i _ ht).resolve_left (by simp)) q
  draining := by
    intro hdrain i r ht
    exact hw.draining ((dropped_ends h).draining hdrain) i r ((dropped_ends h i _ ht).resolve_left (by simp))

/-! ### Other coroutines -/

/-- From `w` to `w'` only quiet coroutines that have not ended, or were not there, change, to quiet ones. -/
structure Retasked (w w' : OffloaderWorld) : Prop where
  rows : w'.rows = w.rows
  pairings : w'.pairings = w.pairings
  clients : w'.clients = w.clients
  entry : w'.peerLinkClients = w.peerLinkClients
  slot : w'.pairStatusListeners = w.pairStatusListeners
  kept : ∀ (j : ℕ) t, w.tasks[j]? = some t → ¬t.IsQuiet → w'.tasks[j]? = some t
  new : ∀ (j : ℕ) t, w'.tasks[j]? = some t → w.tasks[j]? = some t ∨ t.IsQuiet
  ended : ∀ j : ℕ, w.tasks[j]? = some .ended → w'.tasks[j]? = some .ended

theorem Retasked.task (h : Retasked w w') (hq : ¬t.IsQuiet) : w'.tasks[j]? = some t ↔ w.tasks[j]? = some t :=
  ⟨fun ht => (h.new j t ht).resolve_right hq, fun ht => h.kept j t ht hq⟩

theorem Retasked.pending (h : Retasked w w') (r : RowId) : w'.Pending r ↔ w.Pending r := by
  constructor
  · rintro ⟨i, t, ht, hs⟩
    exact ⟨i, t, (h.task fun hq => hq.not_spawns r hs).1 ht, hs⟩
  · rintro ⟨i, t, ht, hs⟩
    exact ⟨i, t, (h.task fun hq => hq.not_spawns r hs).2 ht, hs⟩

theorem Retasked.stopping (h : Retasked w w') : w'.Stopping ↔ w.Stopping := by
  constructor
  · rintro ⟨i, ph, ht⟩
    exact ⟨i, ph, (h.task id).1 ht⟩
  · rintro ⟨i, ph, ht⟩
    exact ⟨i, ph, (h.task id).2 ht⟩

theorem Followed.retasked (hw : Followed w) (h : Retasked w w') : Followed w' where
  row := by rw [h.pairings, h.rows]; exact hw.row
  client := by rw [h.entry, h.clients]; exact hw.client
  running := by rw [h.clients, h.entry]; exact hw.running
  entry := by
    rw [h.entry, h.clients, h.pairings, h.rows]
    intro pin k c hk hc
    obtain ⟨r, p, hr, hp, hst, hd⟩ := hw.entry pin k c hk hc
    exact ⟨r, p, hr, hp, hst, by rw [h.pending, h.stopping]; exact hd⟩
  approved := by
    rw [h.entry, h.pairings, h.rows]
    intro pin r p hr hp hst
    rw [h.pending, h.stopping]
    exact hw.approved pin r p hr hp hst
  pending := by
    intro r hp
    rw [h.rows]
    exact hw.pending r ((h.pending r).1 hp)
  slot := by
    rw [h.slot, h.rows]
    intro pin i hi
    obtain ⟨t, ht, hcase⟩ := hw.slot pin i hi
    refine ⟨t, ?_, hcase⟩
    rcases hcase with rfl | ⟨r, p, -, -, rfl | rfl⟩
    · exact h.ended i ht
    · exact h.kept i _ ht id
    · exact h.kept i _ ht id
  listener := by
    rw [h.slot, h.rows, h.pairings]
    intro i r ht
    exact hw.listener i r ((h.task id).1 ht)
  clearing := by
    rintro ⟨i, ph, ht, hph⟩
    rw [h.clients]
    exact hw.clearing ⟨i, ph, (h.task id).1 ht, hph⟩
  cleared := by
    rw [h.entry]
    intro i ht
    exact hw.cleared i ((h.task id).1 ht)
  draining := by
    rintro ⟨j, hj⟩ i r ht
    exact hw.draining ⟨j, (h.task id).1 hj⟩ i r ((h.task id).1 ht)

/-- A quiet coroutine is set to another. -/
theorem retasked_set (ht : w.tasks[i]? = some t) (hq : t.IsQuiet) (he : t ≠ .ended) {t' : OffloaderTask}
    (hq' : t'.IsQuiet) : Retasked w (w.setTask i t') where
  rows := rfl
  pairings := rfl
  clients := rfl
  entry := rfl
  slot := rfl
  kept := by
    intro j u hu hnq
    rw [setTask_get, if_neg]
    · exact hu
    · rintro rfl
      rw [ht] at hu
      exact hnq (Option.some.inj hu ▸ hq)
  new := by
    intro j u hu
    rcases of_setTask hu with ⟨-, rfl⟩ | ⟨-, hu⟩
    · exact .inr hq'
    · exact .inl hu
  ended := by
    intro j hj
    rw [setTask_get, if_neg]
    · exact hj
    · rintro rfl
      rw [ht] at hj
      exact he (Option.some.inj hj)

theorem retasked_spawn (hq : t.IsQuiet) (w : OffloaderWorld) : Retasked w (w.spawn t) where
  rows := rfl
  pairings := rfl
  clients := rfl
  entry := rfl
  slot := rfl
  kept := by
    intro j u hu _
    have hj := (List.getElem?_eq_some_iff.1 hu).1
    rw [spawn_get, if_neg (Nat.ne_of_lt hj)]
    exact hu
  new := by
    intro j u hu
    rcases of_spawn hu with ⟨-, rfl⟩ | hu
    · exact .inr hq
    · exact .inl hu
  ended := by
    intro j hj
    have hlt := (List.getElem?_eq_some_iff.1 hj).1
    rw [spawn_get, if_neg (Nat.ne_of_lt hlt)]
    exact hj

/-- A change of the other fields. -/
theorem retasked_fields (h₁ : w'.rows = w.rows) (h₂ : w'.pairings = w.pairings) (h₃ : w'.clients = w.clients)
    (h₄ : w'.peerLinkClients = w.peerLinkClients) (h₅ : w'.pairStatusListeners = w.pairStatusListeners)
    (h₆ : w'.tasks = w.tasks) : Retasked w w' where
  rows := h₁
  pairings := h₂
  clients := h₃
  entry := h₄
  slot := h₅
  kept := fun j t ht _ => by rw [h₆]; exact ht
  new := fun j t ht => by rw [h₆] at ht; exact .inl ht
  ended := fun j ht => by rw [h₆]; exact ht

/-! ### Spawning a client -/

/-- A live client is under `pin`. -/
def Alive (w : OffloaderWorld) (pin : Pin) : Prop := (w.peerLinkClients.get? pin).any w.isAlive = true

theorem alive_iff : w.Alive pin ↔ ∃ k c, w.peerLinkClients.get? pin = some k ∧ w.clients[k]? = some c ∧ c.phase ≠ .done := by
  unfold Alive isAlive
  constructor
  · intro h
    cases hk : w.peerLinkClients.get? pin with
    | none => rw [hk] at h; cases h
    | some k =>
      rw [hk, Option.any_some] at h
      cases hc : w.clients[k]? with
      | none => rw [hc] at h; cases h
      | some c =>
        rw [hc, Option.any_some, decide_eq_true_eq] at h
        exact ⟨k, c, rfl, hc, h⟩
  · rintro ⟨k, c, hk, hc, hd⟩
    rw [hk, Option.any_some, hc, Option.any_some, decide_eq_true_eq]
    exact hd

/-- After the call a live client is under the row's pin. -/
theorem spawn_alive (hp : w.rows[r]? = some p) : (w.spawnPeerLinkClient r).Alive p.pinSha256 := by
  rcases spawn_cases hp with ⟨ha, he⟩ | ⟨-, he⟩
  · rw [he]
    exact ha
  · rw [he, alive_iff]
    exact ⟨w.clients.length, _, Dict.get?_set_self, List.getElem?_concat_length, nofun⟩

theorem spawn_tasks (w : OffloaderWorld) (r : RowId) : (w.spawnPeerLinkClient r).tasks = w.tasks := by
  unfold spawnPeerLinkClient
  split
  · rfl
  · split <;> rfl

theorem spawn_rows (w : OffloaderWorld) (r : RowId) : (w.spawnPeerLinkClient r).rows = w.rows := by
  unfold spawnPeerLinkClient
  split
  · rfl
  · split <;> rfl

theorem Followed.spawnClient (hw : Followed w) (hp : w.rows[r]? = some p) (hst : p.status = .approved)
    (hcur : ¬w.Alive p.pinSha256 → w.pairings.get? p.pinSha256 = some r ∧ ¬w.Clearing) :
    Followed (w.spawnPeerLinkClient r) := by
  rcases spawn_cases hp with ⟨-, he⟩ | ⟨ha, he⟩
  · rw [he]
    exact hw
  have hna : ¬w.Alive p.pinSha256 := by
    unfold Alive
    rw [ha]
    exact nofun
  obtain ⟨hr, hnc⟩ := hcur hna
  rw [he]
  -- the look-ups in the two tables
  have hnew : ∀ {k : ClientId} {c c' : PeerLinkClient}, (w.clients ++ [c'])[k]? = some c →
      k = w.clients.length ∧ c = c' ∨ w.clients[k]? = some c := by
    intro k c c' h
    rcases Nat.lt_or_ge k w.clients.length with hk | hk
    · rw [List.getElem?_append_left hk] at h
      exact .inr h
    · obtain ⟨hlt, -⟩ := List.getElem?_eq_some_iff.1 h
      obtain rfl : k = w.clients.length := by
        have : k < w.clients.length + 1 := by simpa using hlt
        exact Nat.le_antisymm (Nat.le_of_lt_succ this) hk
      rw [List.getElem?_concat_length] at h
      exact .inl ⟨rfl, (Option.some.inj h).symm⟩
  have hold : ∀ {k : ClientId} {c c' : PeerLinkClient}, w.clients[k]? = some c →
      (w.clients ++ [c'])[k]? = some c := by
    intro k c c' h
    rw [List.getElem?_append_left (List.getElem?_eq_some_iff.1 h).1]
    exact h
  exact {
    row := hw.row
    client := by
      intro q k hk
      rw [Dict.get?_set] at hk
      split at hk
      next hq =>
        obtain rfl := Option.some.inj hk
        exact ⟨_, List.getElem?_concat_length, hq.symm⟩
      next =>
        obtain ⟨c, hc, hcq⟩ := hw.client q k hk
        exact ⟨c, hold hc, hcq⟩
    running := by
      intro k c hc hrun
      rcases hnew hc with ⟨rfl, rfl⟩ | hc
      · exact Dict.get?_set_self
      · have hk := hw.running k c hc hrun
        rw [Dict.get?_set, if_neg]
        · exact hk
        · intro hq
          refine hna (alive_iff.2 ⟨k, c, hq ▸ hk, hc, ?_⟩)
          rw [hrun]
          exact nofun
    entry := by
      intro q k c hk hc
      rw [Dict.get?_set] at hk
      split at hk
      next hq =>
        obtain rfl := Option.some.inj hk
        rcases hnew hc with ⟨-, rfl⟩ | hc
        · exact ⟨r, p, hq ▸ hr, hp, hst, .inl ⟨rfl, rfl, rfl⟩⟩
        · exact absurd (List.getElem?_eq_some_iff.1 hc).1 (Nat.lt_irrefl _)
      next hq =>
        rcases hnew hc with ⟨rfl, -⟩ | hc
        · obtain ⟨c', hc', -⟩ := hw.client q _ hk
          exact absurd (List.getElem?_eq_some_iff.1 hc').1 (Nat.lt_irrefl _)
        · exact hw.entry q k c hk hc
    approved := by
      intro q r' p' hr' hp' hst'
      rcases hw.approved q r' p' hr' hp' hst' with hs | hs
      · left
        rw [Dict.get?_set]
        split
        · rfl
        · exact hs
      · exact .inr hs
    pending := hw.pending
    slot := hw.slot
    listener := hw.listener
    clearing := fun h => absurd h hnc
    cleared := fun i ht => absurd ⟨i, .callbacks, ht, .inl rfl⟩ hnc
    draining := hw.draining }

/-- A coroutine that has spawned its client ends; a slot that held it may be cleared. -/
structure Settled (i : ℕ) (w w' : OffloaderWorld) : Prop where
  rows : w'.rows = w.rows
  pairings : w'.pairings = w.pairings
  clients : w'.clients = w.clients
  entry : w'.peerLinkClients = w.peerLinkClients
  slot : ∀ q j, w'.pairStatusListeners.get? q = some j → w.pairStatusListeners.get? q = some j
  other : ∀ q j, j ≠ i → w.pairStatusListeners.get? q = some j → w'.pairStatusListeners.get? q = some j
  task : ∀ j, w'.tasks[j]? = if j = i then (w.tasks[j]?).map fun _ => .ended else w.tasks[j]?

theorem settled_set (w : OffloaderWorld) (i : ℕ) : Settled i w (w.setTask i .ended) where
  rows := rfl
  pairings := rfl
  clients := rfl
  entry := rfl
  slot := fun _ _ h => h
  other := fun _ _ _ h => h
  task := fun j => by
    rw [setTask_get]
    by_cases hj : j = i
    · rw [if_pos hj, if_pos hj, hj]
    · rw [if_neg hj, if_neg hj]

theorem settled_endListener (w : OffloaderWorld) (i : ℕ) (pin : Pin) : Settled i w (w.endListener i pin) := by
  unfold endListener
  split
  next h =>
    refine { settled_set _ i with slot := fun q j hj => ?_, other := fun q j hne hj => ?_ }
    · exact (Dict.of_get?_erase hj).2
    · refine (Dict.get?_erase_ne fun hq => ?_).trans hj
      rw [hq, h] at hj
      exact hne (Option.some.inj hj).symm
  next => exact settled_set w i

theorem Settled.ends (h : Settled i w w') : Ends w w' := by
  intro j t ht
  rw [h.task] at ht
  split at ht
  · obtain ⟨-, -, rfl⟩ := Option.map_eq_some_iff.1 ht
    exact .inl rfl
  · exact .inr ht

theorem Settled.kept (h : Settled i w w') (hj : j ≠ i) : w'.tasks[j]? = w.tasks[j]? := by
  rw [h.task, if_neg hj]

theorem Settled.stopping (h : Settled i w w') (hi : w.tasks[i]? = some t) (ht : ∀ ph, t ≠ .stop ph)
    (hs : w.Stopping) : w'.Stopping := by
  obtain ⟨j, ph, hj⟩ := hs
  refine ⟨j, ph, ?_⟩
  rw [h.kept]
  · exact hj
  · rintro rfl
    rw [hi] at hj
    exact ht ph (Option.some.inj hj)

/-- What settling keeps, but for the two fields that count on the coroutine. -/
theorem Followed.settled (hw : Followed w) (h : Settled i w w')
    (hentry : ∀ pin k c, w.peerLinkClients.get? pin = some k → w.clients[k]? = some c →
      ∃ r p, w.pairings.get? pin = some r ∧ w.rows[r]? = some p ∧ p.status = .approved ∧
        (Dials c p ∨ c.phase = .done ∧ (w'.Pending r ∨ w'.Stopping)))
    (happ : ∀ pin r p, w.pairings.get? pin = some r → w.rows[r]? = some p → p.status = .approved →
      (w.peerLinkClients.get? pin).isSome = true ∨ w'.Pending r ∨ w'.Stopping) : Followed w' where
  row := by rw [h.pairings, h.rows]; exact hw.row
  client := by rw [h.entry, h.clients]; exact hw.client
  running := by rw [h.clients, h.entry]; exact hw.running
  entry := by rw [h.entry, h.clients, h.pairings, h.rows]; exact hentry
  approved := by rw [h.entry, h.pairings, h.rows]; exact happ
  pending := by
    intro r hp
    rw [h.rows]
    exact hw.pending r (h.ends.pending hp)
  slot := by
    intro pin j hj
    obtain ⟨t, ht, hcase⟩ := hw.slot pin j (h.slot pin j hj)
    rw [h.rows, h.task]
    split
    · exact ⟨.ended, by rw [ht]; rfl, .inl rfl⟩
    · exact ⟨t, ht, hcase⟩
  listener := by
    intro j r ht
    have hj : j ≠ i := by
      rintro rfl
      rw [h.task, if_pos rfl] at ht
      obtain ⟨-, -, he⟩ := Option.map_eq_some_iff.1 ht
      cases he
    rw [h.kept hj] at ht
    obtain ⟨p, hp, hs, hrow⟩ := hw.listener j r ht
    rw [h.rows, h.pairings]
    exact ⟨p, hp, h.other _ j hj hs, hrow⟩
  clearing := by
    rw [h.clients]
    exact fun hc => hw.clearing (h.ends.clearing hc)
  cleared := by
    rw [h.entry]
    exact fun j ht => hw.cleared j ((h.ends j _ ht).resolve_left nofun)
  draining := by
    intro hd j r ht
    exact hw.draining (h.ends.draining hd) j r ((h.ends j _ ht).resolve_left nofun)

/-- The coroutine that spawned the client of row `r` ends. -/
theorem Followed.settle (hw : Followed w) (h : Settled i w w') (hi : w.tasks[i]? = some t) (ht : t.Spawns r)
    (hp : w.rows[r]? = some p) (ha : w.Alive p.pinSha256) : Followed w' := by
  have hstop : w.Stopping → w'.Stopping := by
    refine h.stopping hi ?_
    rintro ph rfl
    exact ht
  -- a pending row is pending still, or it is `r` and has a live client
  have hpend : ∀ r', w.Pending r' → w'.Pending r' ∨ r' = r := by
    rintro r' ⟨j, u, hj, hu⟩
    by_cases hji : j = i
    · subst hji
      rw [hi] at hj
      obtain rfl := Option.some.inj hj
      exact .inr (hu.unique ht)
    · exact .inl ⟨j, u, by rw [h.kept hji]; exact hj, hu⟩
  have hpin : ∀ pin, w.pairings.get? pin = some r → pin = p.pinSha256 := by
    intro pin hr
    obtain ⟨p', hp', hq⟩ := hw.row pin r hr
    rw [hp] at hp'
    rw [← hq, ← Option.some.inj hp']
  obtain ⟨k₀, c₀, hk₀, hc₀, hd₀⟩ := alive_iff.1 ha
  refine hw.settled h ?_ ?_
  · intro pin k c hk hc
    obtain ⟨r', p', hr', hp', hst, hd⟩ := hw.entry pin k c hk hc
    refine ⟨r', p', hr', hp', hst, ?_⟩
    rcases hd with hd | ⟨hdone, hpe | hs⟩
    · exact .inl hd
    · rcases hpend r' hpe with hpe | rfl
      · exact .inr ⟨hdone, .inl hpe⟩
      · rw [hpin pin hr', hk₀] at hk
        obtain rfl := Option.some.inj hk
        rw [hc₀] at hc
        exact absurd (Option.some.inj hc ▸ hdone) hd₀
    · exact .inr ⟨hdone, .inr (hstop hs)⟩
  · intro pin r' p' hr' hp' hst
    rcases hw.approved pin r' p' hr' hp' hst with he | hpe | hs
    · exact .inl he
    · rcases hpend r' hpe with hpe | rfl
      · exact .inr (.inl hpe)
      · left
        rw [hpin pin hr', hk₀]
        rfl
    · exact .inr (.inr (hstop hs))

/-! ### Pairing -/

/-- What the sweep at an endpoint leaves of the pin it keeps. -/
structure Kept (pin : Pin) (i : ℕ) (w w' : OffloaderWorld) : Prop where
  rows : w'.rows = w.rows
  pairings : ∀ q r, w'.pairings.get? q = some r → w.pairings.get? q = some r
  entry : w'.peerLinkClients.get? pin = w.peerLinkClients.get? pin
  client : ∀ k, w.peerLinkClients.get? pin = some k → w'.clients[k]? = w.clients[k]?
  task : w'.tasks[i]? = w.tasks[i]?
  ends : Ends w w'

theorem sweep_kept {hostname label : String} {port : ℕ} (hw : Followed w)
    (hi : w.tasks[i]? = some (.requestPair hostname port pin label)) (host : String) (n : ℕ) :
    Followed (w.sweepStalePairingsAtEndpoint host n pin) ∧ Kept pin i w (w.sweepStalePairingsAtEndpoint host n pin) := by
  unfold sweepStalePairingsAtEndpoint
  generalize w.pairings.keys = ks
  induction ks generalizing w with
  | nil => exact ⟨hw, rfl, fun _ _ h => h, rfl, fun _ _ => rfl, rfl, fun _ _ h => .inr h⟩
  | cons q ks ih =>
    rw [List.foldl_cons]
    split
    · exact ih hw hi
    split
    next hq =>
      have hd := dropped w q
      have hslot : w.pairStatusListeners.get? q ≠ some i := by
        intro hs
        obtain ⟨t, ht, hcase⟩ := hw.slot q i hs
        rw [hi] at ht
        obtain rfl := Option.some.inj ht
        rcases hcase with h | ⟨r, p, -, -, h | h⟩ <;> cases h
      have hti : (w.dropPairing q).tasks[i]? = some (.requestPair hostname port pin label) :=
        dropped_task hd hslot hi
      have he : (w.dropPairing q).peerLinkClients.get? pin = w.peerLinkClients.get? pin := by
        rw [hd.entry, if_neg (Ne.symm hq.1)]
      obtain ⟨hf, hk⟩ := ih (hw.dropped hd) hti
      refine ⟨hf, hk.rows.trans hd.rows, fun q' r h => ?_, hk.entry.trans he, fun k h => ?_, ?_, ?_⟩
      · have h := hk.pairings q' r h
        rw [hd.pairings] at h
        split at h
        · cases h
        · exact h
      · rw [hk.client k (he.trans h)]
        exact dropped_client hw hd (Ne.symm hq.1) h
      · rw [hk.task, hti, hi]
      · intro j t ht
        rcases hk.ends j t ht with he | ht
        · exact .inl he
        · exact dropped_ends hd j t ht
    next => exact ih hw hi

/-- A row that nothing refers to is added. -/
theorem Followed.addRow (hw : Followed w) (row : StoredPairing) : Followed { w with rows := w.rows ++ [row] } := by
  have hold : ∀ {r : RowId} {p : StoredPairing}, w.rows[r]? = some p → (w.rows ++ [row])[r]? = some p := by
    intro r p h
    rw [List.getElem?_append_left (List.getElem?_eq_some_iff.1 h).1]
    exact h
  -- a row under a pin is an old one
  have hback : ∀ {q : Pin} {r : RowId} {p : StoredPairing}, w.pairings.get? q = some r →
      (w.rows ++ [row])[r]? = some p → w.rows[r]? = some p := by
    intro q r p hr hp
    obtain ⟨p', hp', -⟩ := hw.row q r hr
    rw [hold hp'] at hp
    rw [hp', Option.some.inj hp]
  exact {
    hw with
    row := by
      intro q r hr
      obtain ⟨p, hp, hq⟩ := hw.row q r hr
      exact ⟨p, hold hp, hq⟩
    entry := by
      intro q k c hk hc
      obtain ⟨r, p, hr, hp, hst⟩ := hw.entry q k c hk hc
      exact ⟨r, p, hr, hold hp, hst⟩
    approved := fun q r p hr hp hst => hw.approved q r p hr (hback hr hp) hst
    pending := by
      intro r hpe
      obtain ⟨p, hp, hst⟩ := hw.pending r hpe
      exact ⟨p, hold hp, hst⟩
    slot := by
      intro q j hj
      obtain ⟨t, ht, hcase⟩ := hw.slot q j hj
      refine ⟨t, ht, hcase.imp_right ?_⟩
      rintro ⟨r, p, hp, hq, h⟩
      exact ⟨r, p, hold hp, hq, h⟩
    listener := by
      intro j r ht
      obtain ⟨p, hp, hs, hrow⟩ := hw.listener j r ht
      exact ⟨p, hold hp, hs, fun r' p' hr' hp' => hrow r' p' hr' (hback hr' hp')⟩ }

/-- The row `r` under `pin` is new; the coroutine `i` goes on as `u`, the one at `n` as `v`; the old
listener of the pin has ended. -/
structure Repaired (pin : Pin) (r : RowId) (i : ℕ) (u : OffloaderTask) (w w' : OffloaderWorld) : Prop where
  rows : w'.rows = w.rows
  clients : w'.clients = w.clients
  entry : w'.peerLinkClients = w.peerLinkClients
  pairings : ∀ q, w'.pairings.get? q = if q = pin then some r else w.pairings.get? q
  slot : ∀ q, q ≠ pin → w'.pairStatusListeners.get? q = w.pairStatusListeners.get? q
  here : w'.tasks[i]? = some u
  old : ∀ (j : ℕ) t, j ≠ i → w.tasks[j]? = some t →
    w'.tasks[j]? = if w.pairStatusListeners.get? pin = some j then some .ended else some t

theorem Repaired.pending (hw : Followed w) (h : Repaired pin r i t w w')
    (hi : ∀ u r, w.tasks[i]? = some u → ¬u.Spawns r) {r' : RowId} (hp : w.rows[r']? = some p)
    (hq : p.pinSha256 ≠ pin) (hpe : w.Pending r') : w'.Pending r' := by
  obtain ⟨j, u, hj, hu⟩ := hpe
  have hji : j ≠ i := by
    rintro rfl
    exact hi u r' hj hu
  have hslot : w.pairStatusListeners.get? pin ≠ some j := by
    intro hs
    obtain ⟨t', ht', hcase⟩ := hw.slot pin j hs
    rw [hj] at ht'
    obtain rfl := Option.some.inj ht'
    rcases hcase with rfl | ⟨r'', p', hr', hp', rfl | rfl⟩
    · exact hu
    · exact hu
    · obtain rfl : r'' = r' := hu
      rw [hp] at hr'
      exact hq (Option.some.inj hr' ▸ hp')
  exact ⟨j, u, by rw [h.old j u hji hj, if_neg hslot], hu⟩

theorem Repaired.stopping (hw : Followed w) (h : Repaired pin r i t w w')
    (hi : ∀ ph, w.tasks[i]? ≠ some (.stop ph)) (hs : w.Stopping) : w'.Stopping := by
  obtain ⟨j, ph, hj⟩ := hs
  have hji : j ≠ i := by
    rintro rfl
    exact hi ph hj
  refine ⟨j, ph, ?_⟩
  rw [h.old j _ hji hj, if_neg]
  intro hslot
  obtain ⟨t', ht', hcase⟩ := hw.slot pin j hslot
  rw [hj] at ht'
  obtain rfl := Option.some.inj ht'
  rcases hcase with h | ⟨r'', p', -, -, h | h⟩ <;> cases h

/-- A new row is put under its pin; it is announced by a coroutine, or listened to. -/
theorem Followed.repaired {hostname label : String} {port : ℕ} (hw : Followed w) (h : Repaired pin r i t w w')
    (hi : w.tasks[i]? = some (.requestPair hostname port pin label)) (hp : w.rows[r]? = some p)
    (hpin : p.pinSha256 = pin)
    (hcases : ∀ (j : ℕ) u, w'.tasks[j]? = some u → u = .ended ∨ (u = .converge r ∧ p.status = .approved) ∨
      (u = .pairStatus r ∧ w'.pairStatusListeners.get? pin = some j ∧ p.status = .pending) ∨
      w.tasks[j]? = some u ∧ w.pairStatusListeners.get? pin ≠ some j)
    (hslot : ∀ j, w'.pairStatusListeners.get? pin = some j → w'.tasks[j]? = some (.pairStatus r))
    (happ : p.status = .approved → w'.Pending r)
    (hguard : ∀ k c, w.peerLinkClients.get? pin = some k → w.clients[k]? = some c →
      p.status = .approved ∧ (c.phase ≠ .done → Dials c p))
    (hdrain : p.status = .pending → ¬w.Draining) : Followed w' := by
  have hreq : ∀ u r, w.tasks[i]? = some u → ¬u.Spawns r := by
    intro u r' hu
    rw [hi] at hu
    rw [← Option.some.inj hu]
    exact id
  have hstop : w.Stopping → w'.Stopping := by
    refine h.stopping hw fun ph hph => ?_
    rw [hi] at hph
    cases hph
  have hpe : ∀ {q : Pin} {r' : RowId} {p' : StoredPairing}, q ≠ pin → w.pairings.get? q = some r' →
      w.rows[r']? = some p' → w.Pending r' → w'.Pending r' := by
    intro q r' p' hq hr hp' hpend
    obtain ⟨p'', hp'', hpq⟩ := hw.row q r' hr
    rw [hp'] at hp''
    obtain rfl := Option.some.inj hp''
    exact h.pending hw hreq hp' (hpq ▸ hq) hpend
  have hstopOld : ∀ {j : ℕ} {ph : StopPhase}, w'.tasks[j]? = some (.stop ph) → w.tasks[j]? = some (.stop ph) := by
    intro j ph hj
    rcases hcases j _ hj with h | ⟨h, -⟩ | ⟨h, -⟩ | ⟨h, -⟩
    · cases h
    · cases h
    · cases h
    · exact h
  refine {
    row := ?_
    client := by rw [h.entry, h.clients]; exact hw.client
    running := by rw [h.clients, h.entry]; exact hw.running
    entry := ?_
    approved := ?_
    pending := ?_
    slot := ?_
    listener := ?_
    clearing := by
      rintro ⟨j, ph, hj, hph⟩
      rw [h.clients]
      exact hw.clearing ⟨j, ph, hstopOld hj, hph⟩
    cleared := by
      rw [h.entry]
      exact fun j hj => hw.cleared j (hstopOld hj)
    draining := ?_ }
  · intro q r' hr
    rw [h.pairings] at hr
    rw [h.rows]
    split at hr
    next hq =>
      obtain rfl := Option.some.inj hr
      exact ⟨p, hp, hq ▸ hpin⟩
    next => exact hw.row q r' hr
  · intro q k c hk hc
    rw [h.entry] at hk
    rw [h.clients] at hc
    rw [h.pairings, h.rows]
    split
    next hq =>
      subst hq
      obtain ⟨hst, hd⟩ := hguard k c hk hc
      refine ⟨r, p, rfl, hp, hst, ?_⟩
      by_cases hdone : c.phase = .done
      · exact .inr ⟨hdone, .inl (happ hst)⟩
      · exact .inl (hd hdone)
    next hq =>
      obtain ⟨r', p', hr', hp', hst, hd⟩ := hw.entry q k c hk hc
      refine ⟨r', p', hr', hp', hst, ?_⟩
      rcases hd with hd | ⟨hdone, hpend | hs⟩
      · exact .inl hd
      · exact .inr ⟨hdone, .inl (hpe hq hr' hp' hpend)⟩
      · exact .inr ⟨hdone, .inr (hstop hs)⟩
  · intro q r' p' hr' hp' hst
    rw [h.pairings] at hr'
    rw [h.rows] at hp'
    rw [h.entry]
    split at hr'
    next hq =>
      obtain rfl := Option.some.inj hr'
      rw [hp] at hp'
      exact .inr (.inl (happ (Option.some.inj hp' ▸ hst)))
    next hq =>
      rcases hw.approved q r' p' hr' hp' hst with he | hpend | hs
      · exact .inl he
      · exact .inr (.inl (hpe hq hr' hp' hpend))
      · exact .inr (.inr (hstop hs))
  · rintro r' ⟨j, u, hj, hu⟩
    rw [h.rows]
    rcases hcases j u hj with rfl | ⟨rfl, hst⟩ | ⟨rfl, -⟩ | ⟨hj, -⟩
    · exact hu.elim
    · obtain rfl : r = r' := hu
      exact ⟨p, hp, hst⟩
    · exact hu.elim
    · exact hw.pending r' ⟨j, u, hj, hu⟩
  · intro q j hj
    rw [h.rows]
    by_cases hq : q = pin
    · subst hq
      exact ⟨_, hslot j hj, .inr ⟨r, p, hp, hpin, .inl rfl⟩⟩
    · rw [h.slot q hq] at hj
      obtain ⟨u, hu, hcase⟩ := hw.slot q j hj
      have hji : j ≠ i := by
        rintro rfl
        rw [hi] at hu
        obtain rfl := Option.some.inj hu
        rcases hcase with h | ⟨r', p', -, -, h | h⟩ <;> cases h
      rw [h.old j u hji hu]
      split
      · exact ⟨.ended, rfl, .inl rfl⟩
      · exact ⟨u, rfl, hcase⟩
  · intro j r' hj
    rw [h.rows]
    rcases hcases j _ hj with he | ⟨he, -⟩ | ⟨he, hs, hst⟩ | ⟨hold, hne⟩
    · cases he
    · cases he
    · cases he
      refine ⟨p, hp, by rw [hpin]; exact hs, fun r' p' hr' hp' => ?_⟩
      rw [h.pairings, if_pos hpin] at hr'
      obtain rfl := Option.some.inj hr'
      rw [hp] at hp'
      exact Option.some.inj hp' ▸ hst
    · obtain ⟨p', hp', hs, hrow⟩ := hw.listener j r' hold
      have hq : p'.pinSha256 ≠ pin := by
        intro hq
        exact hne (hq ▸ hs)
      refine ⟨p', hp', by rw [h.slot _ hq]; exact hs, fun r'' p'' hr'' hp'' => ?_⟩
      rw [h.pairings, if_neg hq] at hr''
      exact hrow r'' p'' hr'' hp''
  · rintro ⟨j₀, hj₀⟩ j r' hj
    have hd : w.Draining := ⟨j₀, hstopOld hj₀⟩
    rcases hcases j _ hj with he | ⟨he, -⟩ | ⟨-, -, hst⟩ | ⟨hold, -⟩
    · cases he
    · cases he
    · exact hdrain hst hd
    · exact hw.draining hd j r' hold

end OffloaderWorld

end DeviceBuilder.RemoteBuild
