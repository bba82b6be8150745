import DeviceBuilder.Properties.Trust
import DeviceBuilder.RemoteBuild.Followed

/-!
# The offloader's clients follow its pairings

* `Followed.step`: every action that meets `Follows` keeps the rows and the clients
  in step.
* `clients_follow`: the law, in every state such a run reaches.
* `client_stays`: a re-pair after which the client dials the old endpoint.
-/

namespace DeviceBuilder.RemoteBuild

open Runs

namespace OffloaderWorld

variable {lib : Library} {w w' : OffloaderWorld} {a : OffloaderAction} {i j : ℕ} {k : ClientId}
  {r : RowId} {pin q : Pin} {t : OffloaderTask} {p : StoredPairing} {c : PeerLinkClient}
  {hostname label : String} {port : ℕ} {file : PairingsFile}

/-! ### Pairing -/

theorem Followed.pairAnswered (hw : Followed w) {status : PeerStatus} {pub : PublicKey}
    (hi : w.tasks[i]? = some (.requestPair hostname port pin label))
    (hguard : ∀ k c, w.peerLinkClients.get? pin = some k → w.clients[k]? = some c → status = .approved ∧
      (c.phase ≠ .done → c.receiverHostname = hostname ∧ c.receiverPort = port ∧ c.pinnedStaticX25519Pub = pub))
    (hdrain : status = .pending → ¬w.Draining) :
    Followed (w.pairAnswered i hostname port pin label status pub) := by
  unfold OffloaderWorld.pairAnswered
  simp only
  generalize hrow : StoredPairing.mk hostname port pin pub label status _ = row
  have hst : row.status = status := by rw [← hrow]
  have hpin : row.pinSha256 = pin := by rw [← hrow]
  -- the row is added, and the endpoint swept
  have h₁ := hw.addRow row
  obtain ⟨h₂, hk⟩ := sweep_kept h₁ hi hostname port
  generalize hw₂ : OffloaderWorld.sweepStalePairingsAtEndpoint { w with rows := w.rows ++ [row] } hostname port pin
    = w₂ at h₂ hk
  have hi₂ : w₂.tasks[i]? = some (.requestPair hostname port pin label) := by
    rw [hk.task]
    exact hi
  have hr₂ : w₂.rows[w.rows.length]? = some row := by
    rw [hk.rows]
    exact List.getElem?_concat_length
  have hguard₂ : ∀ k c, w₂.peerLinkClients.get? pin = some k → w₂.clients[k]? = some c →
      row.status = .approved ∧ (c.phase ≠ .done → Dials c row) := by
    intro k c hpk hc
    rw [hk.entry] at hpk
    rw [hk.client k hpk] at hc
    obtain ⟨hs, hd⟩ := hguard k c hpk hc
    refine ⟨hst.trans hs, fun hne => ?_⟩
    rw [← hrow]
    exact hd hne
  have hdrain₂ : row.status = .pending → ¬w₂.Draining := by
    intro hs hd
    exact hdrain (hst.symm.trans hs) (hk.ends.draining hd)
  -- the row is put under the pin, and the old listener cancelled
  have hu := unlistened { w₂ with pairings := w₂.pairings.set pin w.rows.length } pin
  generalize hw₃ : OffloaderWorld.cancelPairStatusListener { w₂ with pairings := w₂.pairings.set pin w.rows.length } pin
    = w₃ at hu
  have hpair : ∀ q, w₃.pairings.get? q = if q = pin then some w.rows.length else w₂.pairings.get? q := by
    intro q
    rw [hu.pairings]
    exact Dict.get?_set
  have hfree : w₃.pairStatusListeners.get? pin = none := by rw [hu.slot, if_pos rfl]
  have hslot : ∀ q, q ≠ pin → w₃.pairStatusListeners.get? q = w₂.pairStatusListeners.get? q := by
    intro q hq
    rw [hu.slot, if_neg hq]
  have hold : ∀ (j : ℕ) t, w₂.tasks[j]? = some t →
      w₃.tasks[j]? = if w₂.pairStatusListeners.get? pin = some j then some .ended else some t := by
    intro j t ht
    rw [hu.task]
    change (if w₂.pairStatusListeners.get? pin = some j then (w₂.tasks[j]?).map fun _ => .ended else w₂.tasks[j]?) = _
    rw [ht]
    rfl
  have hback : ∀ (j : ℕ) t, w₃.tasks[j]? = some t →
      t = .ended ∨ w₂.tasks[j]? = some t ∧ w₂.pairStatusListeners.get? pin ≠ some j := by
    intro j t ht
    rw [hu.task] at ht
    split at ht
    · obtain ⟨-, -, rfl⟩ := Option.map_eq_some_iff.1 ht
      exact .inl rfl
    next hne => exact .inr ⟨ht, hne⟩
  have hlt : i < w₃.tasks.length := by
    refine (List.getElem?_eq_some_iff (a := if w₂.pairStatusListeners.get? pin = some i then OffloaderTask.ended
      else .requestPair hostname port pin label)).1 ?_ |>.1
    rw [hold i _ hi₂]
    split <;> rfl
  cases status with
  | approved =>
    refine h₂.repaired (?_ : Repaired pin w.rows.length i (.converge w.rows.length) w₂ _) hi₂ hr₂ hpin
      ?_ ?_ ?_ hguard₂ hdrain₂
    · refine ⟨hu.rows, hu.clients, hu.entry, hpair, hslot, ?_, fun j t hj ht => ?_⟩
      · rw [setTask_get, if_pos rfl, List.getElem?_eq_getElem hlt]
        rfl
      · rw [setTask_get, if_neg hj]
        exact hold j t ht
    · intro j u hj
      rcases of_setTask hj with ⟨-, rfl⟩ | ⟨-, hj⟩
      · exact .inr (.inl ⟨rfl, hst⟩)
      · exact (hback j u hj).imp_right fun h => .inr (.inr h)
    · intro j hj
      rw [show (w₃.setTask i (.converge w.rows.length)).pairStatusListeners = w₃.pairStatusListeners from rfl, hfree] at hj
      cases hj
    · intro _
      refine ⟨i, .converge w.rows.length, ?_, rfl⟩
      rw [setTask_get, if_pos rfl, List.getElem?_eq_getElem hlt]
      rfl
  | pending =>
    have hr₃ : w₃.rows[w.rows.length]? = some row := by
      rw [hu.rows]
      exact hr₂
    have hspawn : w₃.spawnPairStatusListener w.rows.length = OffloaderWorld.spawn
        { w₃ with pairStatusListeners := w₃.pairStatusListeners.set pin w₃.tasks.length } (.pairStatus w.rows.length) := by
      unfold spawnPairStatusListener
      rw [hr₃]
      simp only
      rw [hpin, hfree, Option.any_none, if_neg nofun]
    rw [hspawn]
    have hne : w₃.tasks.length ≠ i := Nat.ne_of_gt hlt
    refine h₂.repaired (?_ : Repaired pin w.rows.length i .ended w₂ _) hi₂ hr₂ hpin
      ?_ ?_ ?_ hguard₂ hdrain₂
    · refine ⟨hu.rows, hu.clients, hu.entry, hpair, fun q hq => ?_, ?_, fun j t hj ht => ?_⟩
      · exact (Dict.get?_set_ne hq).trans (hslot q hq)
      · rw [setTask_get, if_pos rfl, spawn_get, if_neg hne.symm]
        change (w₃.tasks[i]?).map _ = _
        rw [List.getElem?_eq_getElem hlt]
        rfl
      · have hjlt : j < w₃.tasks.length := by
          by_contra hge
          have hnone := hold j t ht
          rw [List.getElem?_eq_none (Nat.le_of_not_lt hge)] at hnone
          split at hnone <;> cases hnone
        rw [setTask_get, if_neg hj, spawn_get, if_neg (Nat.ne_of_lt hjlt)]
        exact hold j t ht
    · intro j u hj
      rcases of_setTask hj with ⟨-, rfl⟩ | ⟨-, hj⟩
      · exact .inl rfl
      rcases of_spawn hj with ⟨rfl, rfl⟩ | hj
      · exact .inr (.inr (.inl ⟨rfl, Dict.get?_set_self, hst⟩))
      · exact (hback j u hj).imp_right fun h => .inr (.inr h)
    · intro j hj
      obtain rfl : w₃.tasks.length = j := Option.some.inj (Dict.get?_set_self.symm.trans hj)
      rw [setTask_get, if_neg hne, spawn_get]
      exact if_pos rfl
    · intro happ
      rw [hst] at happ
      cases happ

/-! ### Answers to a listener -/

/-- A coroutine that was not to spawn a client ends. -/
theorem Followed.finish (hw : Followed w) (h : Settled i w w') (hi : w.tasks[i]? = some t)
    (hns : ∀ r, ¬t.Spawns r) (hnt : ∀ ph, t ≠ .stop ph) : Followed w' := by
  have hpend : ∀ {r : RowId}, w.Pending r → w'.Pending r := by
    rintro r ⟨j, u, hj, hu⟩
    refine ⟨j, u, ?_, hu⟩
    rw [h.kept]
    · exact hj
    · rintro rfl
      rw [hi] at hj
      exact hns r (Option.some.inj hj ▸ hu)
  have hstop : w.Stopping → w'.Stopping := h.stopping hi hnt
  refine hw.settled h ?_ ?_
  · intro pin k c hk hc
    obtain ⟨r, p, hr, hp, hst, hd⟩ := hw.entry pin k c hk hc
    refine ⟨r, p, hr, hp, hst, ?_⟩
    rcases hd with hd | ⟨hdone, hpe | hs⟩
    · exact .inl hd
    · exact .inr ⟨hdone, .inl (hpend hpe)⟩
    · exact .inr ⟨hdone, .inr (hstop hs)⟩
  · intro pin r p hr hp hst
    rcases hw.approved pin r p hr hp hst with he | hpe | hs
    · exact .inl he
    · exact .inr (.inl (hpend hpe))
    · exact .inr (.inr (hstop hs))

/-- A row that is not APPROVED goes. -/
theorem Followed.unpinned (hw : Followed w)
    (hst : ∀ r p, w.pairings.get? pin = some r → w.rows[r]? = some p → p.status = .pending) :
    Followed { w with pairings := w.pairings.erase pin } := by
  have hsub : ∀ {q : Pin} {r : RowId}, (w.pairings.erase pin).get? q = some r → w.pairings.get? q = some r :=
    fun h => (Dict.of_get?_erase h).2
  exact {
    hw with
    row := fun q r hr => hw.row q r (hsub hr)
    entry := by
      intro q k c hk hc
      obtain ⟨r, p, hr, hp, happ, hd⟩ := hw.entry q k c hk hc
      have hq : q ≠ pin := by
        rintro rfl
        rw [hst r p hr hp] at happ
        cases happ
      exact ⟨r, p, (Dict.get?_erase_ne hq).trans hr, hp, happ, hd⟩
    approved := fun q r p hr hp happ => hw.approved q r p (hsub hr) hp happ
    listener := by
      intro j r ht
      obtain ⟨p, hp, hs, hrow⟩ := hw.listener j r ht
      exact ⟨p, hp, hs, fun r' p' hr' hp' => hrow r' p' (hsub hr') hp'⟩ }

theorem modify_get {rows : List StoredPairing} {f : StoredPairing → StoredPairing} {r r' : RowId}
    (h : (rows.modify r f)[r']? = some p) :
    ∃ p₀, rows[r']? = some p₀ ∧ (r' = r ∧ p = f p₀ ∨ r' ≠ r ∧ p = p₀) := by
  rw [List.getElem?_modify] at h
  obtain ⟨p₀, hp₀, rfl⟩ := Option.map_eq_some_iff.1 h
  by_cases hr : r' = r
  · refine ⟨p₀, hp₀, .inl ⟨hr, ?_⟩⟩
    rw [if_pos hr.symm]
  · refine ⟨p₀, hp₀, .inr ⟨hr, ?_⟩⟩
    rw [if_neg (Ne.symm hr)]

theorem get_modify {rows : List StoredPairing} {f : StoredPairing → StoredPairing} {r r' : RowId}
    (h : rows[r']? = some p) : (rows.modify r f)[r']? = some (if r = r' then f p else p) := by
  rw [List.getElem?_modify, h]
  rfl

/-- The row under the pin of listener `i` becomes APPROVED, and the listener spawns its client. -/
theorem Followed.approve (hw : Followed w) (hi : w.tasks[i]? = some (.pairStatus r)) (hp : w.rows[r]? = some p)
    {r' : RowId} (hr' : w.pairings.get? p.pinSha256 = some r') :
    Followed (OffloaderWorld.setTask { w with rows := w.rows.modify r' fun p => { p with status := .approved } } i
      (.converge r')) := by
  obtain ⟨p₀, hp₀, hslot, hpending⟩ := hw.listener i r hi
  rw [hp] at hp₀
  obtain rfl := Option.some.inj hp₀
  obtain ⟨p', hp', hpin⟩ := hw.row _ r' hr'
  have hst := hpending r' p' hr' hp'
  generalize hw' : OffloaderWorld.setTask _ i (.converge r') = w'
  have hrows : w'.rows = w.rows.modify r' fun p => { p with status := .approved } := by rw [← hw']; rfl
  have hkept : w'.pairings = w.pairings ∧ w'.clients = w.clients ∧ w'.peerLinkClients = w.peerLinkClients ∧
      w'.pairStatusListeners = w.pairStatusListeners := by
    rw [← hw']
    exact ⟨rfl, rfl, rfl, rfl⟩
  obtain ⟨hpair, hclients, hentry, hslots⟩ := hkept
  have htask : ∀ j, w'.tasks[j]? = if j = i then some (.converge r') else w.tasks[j]? := by
    intro j
    rw [← hw', setTask_get]
    refine if_congr Iff.rfl ?_ rfl
    change (w.tasks[i]?).map _ = _
    rw [hi]
    rfl
  have hpend : ∀ {r₂ : RowId}, w.Pending r₂ → w'.Pending r₂ := by
    rintro r₂ ⟨j, u, hj, hu⟩
    refine ⟨j, u, ?_, hu⟩
    rw [htask, if_neg]
    · exact hj
    · rintro rfl
      rw [hi] at hj
      obtain rfl := Option.some.inj hj
      exact hu
  have hstop : w.Stopping → w'.Stopping := by
    rintro ⟨j, ph, hj⟩
    refine ⟨j, ph, ?_⟩
    rw [htask, if_neg]
    · exact hj
    · rintro rfl
      rw [hi] at hj
      cases hj
  have hold : ∀ {j : ℕ} {u : OffloaderTask}, w'.tasks[j]? = some u → u = .converge r' ∨ j ≠ i ∧ w.tasks[j]? = some u := by
    intro j u hj
    rw [htask] at hj
    split at hj
    · exact .inl (Option.some.inj hj).symm
    next hne => exact .inr ⟨hne, hj⟩
  have hself : w'.Pending r' := ⟨i, .converge r', by rw [htask, if_pos rfl], rfl⟩
  -- a row under another pin is another row
  have hother : ∀ {q : Pin} {r₂ : RowId}, w.pairings.get? q = some r₂ → q ≠ p.pinSha256 → r₂ ≠ r' := by
    rintro q r₂ hq hne rfl
    obtain ⟨p₂, hp₂, hpq⟩ := hw.row q r₂ hq
    rw [hp'] at hp₂
    rw [← hpq, ← Option.some.inj hp₂] at hne
    exact hne hpin
  exact {
    row := by
      intro q r₂ hr₂
      rw [hpair] at hr₂
      obtain ⟨p₂, hp₂, hpq⟩ := hw.row q r₂ hr₂
      rw [hrows]
      refine ⟨_, get_modify hp₂, ?_⟩
      split <;> exact hpq
    client := by rw [hentry, hclients]; exact hw.client
    running := by rw [hclients, hentry]; exact hw.running
    entry := by
      intro q k c hk hc
      rw [hentry] at hk
      rw [hclients] at hc
      obtain ⟨r₂, p₂, hr₂, hp₂, happ, hd⟩ := hw.entry q k c hk hc
      have hq : q ≠ p.pinSha256 := by
        rintro rfl
        rw [hr'] at hr₂
        obtain rfl := Option.some.inj hr₂
        rw [hp'] at hp₂
        rw [← Option.some.inj hp₂, hst] at happ
        cases happ
      rw [hpair, hrows]
      refine ⟨r₂, p₂, hr₂, ?_, happ, ?_⟩
      · rw [get_modify hp₂, if_neg (hother hr₂ hq).symm]
      · exact hd.imp_right fun h => ⟨h.1, h.2.imp hpend hstop⟩
    approved := by
      intro q r₂ p₂ hr₂ hp₂ happ
      rw [hpair] at hr₂
      rw [hrows] at hp₂
      rw [hentry]
      obtain ⟨p₃, hp₃, ⟨rfl, -⟩ | ⟨-, rfl⟩⟩ := modify_get hp₂
      · exact .inr (.inl hself)
      · exact (hw.approved q r₂ p₂ hr₂ hp₃ happ).imp_right fun h => h.imp hpend hstop
    pending := by
      rintro r₂ ⟨j, u, hj, hu⟩
      rw [hrows]
      rcases hold hj with rfl | ⟨-, hj⟩
      · obtain rfl : r' = r₂ := hu
        refine ⟨_, get_modify hp', ?_⟩
        rw [if_pos rfl]
      · obtain ⟨p₂, hp₂, happ⟩ := hw.pending r₂ ⟨j, u, hj, hu⟩
        refine ⟨_, get_modify hp₂, ?_⟩
        split
        · rfl
        · exact happ
    slot := by
      intro q j hj
      rw [hslots] at hj
      obtain ⟨u, hu, hcase⟩ := hw.slot q j hj
      rw [htask, hrows]
      split
      next hji =>
        -- the slot of `i` is that of its pin
        subst hji
        rw [hi] at hu
        obtain rfl := Option.some.inj hu
        rcases hcase with h | ⟨r₂, p₂, hp₂, hpq, h | h⟩
        · cases h
        · cases h
          rw [hp] at hp₂
          refine ⟨_, rfl, .inr ⟨r', _, get_modify hp', ?_, .inr rfl⟩⟩
          rw [if_pos rfl, ← hpq, ← Option.some.inj hp₂]
          exact hpin
        · cases h
      next =>
        refine ⟨u, hu, hcase.imp_right ?_⟩
        rintro ⟨r₂, p₂, hp₂, hpq, h⟩
        refine ⟨r₂, _, get_modify hp₂, ?_, h⟩
        split <;> exact hpq
    listener := by
      intro j r₂ hj
      rcases hold hj with h | ⟨hne, hj⟩
      · cases h
      obtain ⟨p₂, hp₂, hs, hrow⟩ := hw.listener j r₂ hj
      have hq : p₂.pinSha256 ≠ p.pinSha256 := by
        intro hq
        rw [hq, hslot] at hs
        exact hne (Option.some.inj hs).symm
      rw [hrows, hslots, hpair]
      have hpin₂ : (if r' = r₂ then { p₂ with status := .approved } else p₂ : StoredPairing).pinSha256 = p₂.pinSha256 := by
        split <;> rfl
      refine ⟨_, get_modify hp₂, by rw [hpin₂]; exact hs, fun r₃ p₃ hr₃ hp₃ => ?_⟩
      rw [hpin₂] at hr₃
      obtain ⟨p₄, hp₄, ⟨rfl, -⟩ | ⟨-, rfl⟩⟩ := modify_get hp₃
      · exact absurd rfl (hother hr₃ hq)
      · exact hrow r₃ p₃ hr₃ hp₄
    clearing := by
      rintro ⟨j, ph, hj, hph⟩
      rw [hclients]
      exact hw.clearing ⟨j, ph, ((hold hj).resolve_left nofun).2, hph⟩
    cleared := by
      intro j hj
      rw [hentry]
      exact hw.cleared j ((hold hj).resolve_left nofun).2
    draining := by
      rintro ⟨j₀, hj₀⟩ j r₂ hj
      exact hw.draining ⟨j₀, ((hold hj₀).resolve_left nofun).2⟩ j r₂ ((hold hj).resolve_left nofun).2 }

theorem Followed.applyPairStatusResult (hw : Followed w) (hi : w.tasks[i]? = some (.pairStatus r))
    (hp : w.rows[r]? = some p) (answer : StatusAnswer) : Followed (w.applyPairStatusResult i p answer) := by
  obtain ⟨p₀, hp₀, -, hpending⟩ := hw.listener i r hi
  rw [hp] at hp₀
  obtain rfl := Option.some.inj hp₀
  -- the row goes with its listener
  have hgone : Followed (OffloaderWorld.endListener { w with pairings := w.pairings.erase p.pinSha256 } i p.pinSha256) :=
    (hw.unpinned hpending).finish (settled_endListener _ i _) hi (fun _ => id) nofun
  cases answer with
  | approved observed =>
    simp only [OffloaderWorld.applyPairStatusResult]
    split
    · exact hgone
    split
    · exact hw.finish (settled_endListener w i _) hi (fun _ => id) nofun
    next hr => exact hw.approve hi hp hr
  | rejected => exact hgone
  | other => exact hw

/-! ### Rebinding -/

/-- A row changes, but not its pin or its status; a client under its pin dials it still. -/
theorem Followed.modified (hw : Followed w) {f : StoredPairing → StoredPairing}
    (hf : ∀ p, (f p).pinSha256 = p.pinSha256 ∧ (f p).status = p.status)
    (hd : ∀ p k c, w.rows[r]? = some p → w.pairings.get? p.pinSha256 = some r →
      w.peerLinkClients.get? p.pinSha256 = some k → w.clients[k]? = some c → Dials c p → Dials c (f p)) :
    Followed { w with rows := w.rows.modify r f } := by
  have hkeep : ∀ (r' : RowId) (p : StoredPairing), (if r = r' then f p else p).pinSha256 = p.pinSha256 ∧
      (if r = r' then f p else p).status = p.status := by
    intro r' p
    split
    · exact hf p
    · exact ⟨rfl, rfl⟩
  have hback : ∀ {r' : RowId} {p : StoredPairing}, (w.rows.modify r f)[r']? = some p →
      ∃ p₀, w.rows[r']? = some p₀ ∧ p₀.pinSha256 = p.pinSha256 ∧ p₀.status = p.status := by
    intro r' p h
    obtain ⟨p₀, hp₀, ⟨-, rfl⟩ | ⟨-, rfl⟩⟩ := modify_get h
    · exact ⟨p₀, hp₀, (hf p₀).1.symm, (hf p₀).2.symm⟩
    · exact ⟨p, hp₀, rfl, rfl⟩
  exact {
    hw with
    row := by
      intro q r' hr'
      obtain ⟨p, hp, hpq⟩ := hw.row q r' hr'
      exact ⟨_, get_modify hp, (hkeep r' p).1.trans hpq⟩
    entry := by
      intro q k c hk hc
      obtain ⟨r', p, hr', hp, happ, hcase⟩ := hw.entry q k c hk hc
      refine ⟨r', _, hr', get_modify hp, (hkeep r' p).2.trans happ, hcase.imp_left fun hdial => ?_⟩
      split
      next h =>
        subst h
        obtain ⟨p', hp', hpq⟩ := hw.row q r hr'
        rw [hp] at hp'
        obtain rfl := Option.some.inj hp'
        subst hpq
        exact hd p k c hp hr' hk hc hdial
      next => exact hdial
    approved := by
      intro q r' p hr' hp happ
      obtain ⟨p₀, hp₀, -, hst⟩ := hback hp
      exact hw.approved q r' p₀ hr' hp₀ (hst.trans happ)
    pending := by
      intro r' hpe
      obtain ⟨p, hp, happ⟩ := hw.pending r' hpe
      exact ⟨_, get_modify hp, (hkeep r' p).2.trans happ⟩
    slot := by
      intro q j hj
      obtain ⟨t, ht, hcase⟩ := hw.slot q j hj
      refine ⟨t, ht, hcase.imp_right ?_⟩
      rintro ⟨r', p, hp, hpq, h⟩
      exact ⟨r', _, get_modify hp, (hkeep r' p).1.trans hpq, h⟩
    listener := by
      intro j r' ht
      obtain ⟨p, hp, hs, hrow⟩ := hw.listener j r' ht
      refine ⟨_, get_modify hp, by rw [(hkeep r' p).1]; exact hs, fun r₂ p₂ hr₂ hp₂ => ?_⟩
      rw [(hkeep r' p).1] at hr₂
      obtain ⟨p₀, hp₀, -, hst⟩ := hback hp₂
      rw [← hst]
      exact hrow r₂ p₀ hr₂ hp₀ }

/-- The client of an APPROVED row is cancelled, and coroutine `i` is to spawn another. -/
theorem Followed.unlink (hw : Followed w) (hi : w.tasks[i]? = some t) (hq : t.IsQuiet) (hne : t ≠ .ended)
    (hr : w.pairings.get? pin = some r) (hp : w.rows[r]? = some p) (happ : p.status = .approved) (k : ClientId)
    (tracked : Bool) : Followed ((w.cancelPeerLinkClient pin).setTask i (.respawn r k tracked)) := by
  have hu := unlinked w pin
  generalize hw' : (w.cancelPeerLinkClient pin).setTask i (.respawn r k tracked) = w'
  have hrows : w'.rows = w.rows := by
    rw [← hw']
    exact hu.rows
  have hpair : w'.pairings = w.pairings := by
    rw [← hw']
    exact hu.pairings
  have hslots : w'.pairStatusListeners = w.pairStatusListeners := by
    rw [← hw']
    exact hu.slot
  have hentry : ∀ q, w'.peerLinkClients.get? q = if q = pin then none else w.peerLinkClients.get? q := by
    rw [← hw']
    exact hu.entry
  have hclient : ∀ k, w'.clients[k]? = if w.peerLinkClients.get? pin = some k
      then (w.clients[k]?).map PeerLinkClient.cancel else w.clients[k]? := by
    rw [← hw']
    exact hu.client
  have htask : ∀ j, w'.tasks[j]? = if j = i then some (.respawn r k tracked) else w.tasks[j]? := by
    intro j
    rw [← hw', setTask_get, hu.tasks, hi]
    rfl
  have hpend : ∀ {r₂ : RowId}, w.Pending r₂ → w'.Pending r₂ := by
    rintro r₂ ⟨j, u, hj, hu⟩
    refine ⟨j, u, ?_, hu⟩
    rw [htask, if_neg]
    · exact hj
    · rintro rfl
      rw [hi] at hj
      exact hq.not_spawns r₂ (Option.some.inj hj ▸ hu)
  have hstop : w.Stopping → w'.Stopping := by
    rintro ⟨j, ph, hj⟩
    refine ⟨j, ph, ?_⟩
    rw [htask, if_neg]
    · exact hj
    · rintro rfl
      rw [hi] at hj
      obtain rfl := Option.some.inj hj
      exact hq
  have hold : ∀ {j : ℕ} {u : OffloaderTask}, w'.tasks[j]? = some u →
      u = .respawn r k tracked ∨ j ≠ i ∧ w.tasks[j]? = some u := by
    intro j u hj
    rw [htask] at hj
    split at hj
    · exact .inl (Option.some.inj hj).symm
    next hji => exact .inr ⟨hji, hj⟩
  -- a client under another pin, or a running one, is as before
  have hsame : ∀ {k' : ClientId} {c : PeerLinkClient}, w'.clients[k']? = some c → c.phase = .running →
      w.clients[k']? = some c ∧ w.peerLinkClients.get? pin ≠ some k' := by
    intro k' c hc hrun
    rw [hclient] at hc
    split at hc
    · obtain ⟨c', -, rfl⟩ := Option.map_eq_some_iff.1 hc
      simp only [PeerLinkClient.cancel] at hrun
      split at hrun <;> cases hrun
    next hk => exact ⟨hc, hk⟩
  have hkept : ∀ {q : Pin} {k' : ClientId}, q ≠ pin → w.peerLinkClients.get? q = some k' →
      w'.clients[k']? = w.clients[k']? := by
    intro q k' hqp hk'
    rw [hclient, if_neg]
    intro hkp
    obtain ⟨c, hc, hcq⟩ := hw.client q k' hk'
    obtain ⟨c', hc', hcp⟩ := hw.client pin k' hkp
    rw [hc] at hc'
    exact hqp (hcq.symm.trans (Option.some.inj hc' ▸ hcp))
  exact {
    row := by rw [hpair, hrows]; exact hw.row
    client := by
      intro q k' hk'
      rw [hentry] at hk'
      split at hk'
      · cases hk'
      next hqp =>
        rw [hkept hqp hk']
        exact hw.client q k' hk'
    running := by
      intro k' c hc hrun
      obtain ⟨hc, hk'⟩ := hsame hc hrun
      have hin := hw.running k' c hc hrun
      rw [hentry, if_neg]
      · exact hin
      · intro he
        exact hk' (he ▸ hin)
    entry := by
      intro q k' c hk' hc
      rw [hentry] at hk'
      split at hk'
      · cases hk'
      next hqp =>
        rw [hkept hqp hk'] at hc
        obtain ⟨r₂, p₂, hr₂, hp₂, hst, hd⟩ := hw.entry q k' c hk' hc
        rw [hpair, hrows]
        exact ⟨r₂, p₂, hr₂, hp₂, hst, hd.imp_right fun h => ⟨h.1, h.2.imp hpend hstop⟩⟩
    approved := by
      intro q r₂ p₂ hr₂ hp₂ hst
      rw [hpair] at hr₂
      rw [hrows] at hp₂
      rw [hentry]
      split
      next hqp =>
        rw [hqp, hr] at hr₂
        obtain rfl := Option.some.inj hr₂
        exact .inr (.inl ⟨i, .respawn r k tracked, by rw [htask, if_pos rfl], rfl⟩)
      next => exact (hw.approved q r₂ p₂ hr₂ hp₂ hst).imp_right fun h => h.imp hpend hstop
    pending := by
      rintro r₂ ⟨j, u, hj, hu⟩
      rw [hrows]
      rcases hold hj with rfl | ⟨-, hj⟩
      · obtain rfl : r = r₂ := hu
        exact ⟨p, hp, happ⟩
      · exact hw.pending r₂ ⟨j, u, hj, hu⟩
    slot := by
      intro q j hj
      rw [hslots] at hj
      obtain ⟨u, hu, hcase⟩ := hw.slot q j hj
      rw [hrows, htask, if_neg]
      · exact ⟨u, hu, hcase⟩
      · rintro rfl
        rw [hi] at hu
        obtain rfl := Option.some.inj hu
        rcases hcase with h | ⟨r₂, p₂, -, -, rfl | rfl⟩
        · exact hne h
        · exact hq
        · exact hq
    listener := by
      intro j r₂ hj
      rw [hrows, hslots, hpair]
      exact hw.listener j r₂ ((hold hj).resolve_left (by simp)).2
    clearing := by
      rintro ⟨j, ph, hj, hph⟩ k' c hc hrun
      exact hw.clearing ⟨j, ph, ((hold hj).resolve_left (by simp)).2, hph⟩ k' c (hsame hc hrun).1 hrun
    cleared := by
      intro j hj q
      rw [hentry]
      split
      · rfl
      · exact hw.cleared j ((hold hj).resolve_left (by simp)).2 q
    draining := by
      rintro ⟨j₀, hj₀⟩ j r₂ hj
      exact hw.draining ⟨j₀, ((hold hj₀).resolve_left (by simp)).2⟩ j r₂ ((hold hj).resolve_left (by simp)).2 }

/-- A rebind spawns its client and ends. -/
theorem Followed.finishRebind (hw : Followed w) (hi : w.tasks[i]? = some t) (hs : t.Spawns r)
    (hp : w.rows[r]? = some p) (hcur : ¬w.Alive p.pinSha256 → w.pairings.get? p.pinSha256 = some r ∧ ¬w.Clearing)
    (pin : Pin) : Followed (w.finishRebind i r pin) := by
  obtain ⟨p', hp', happ⟩ := hw.pending r ⟨i, t, hi, hs⟩
  rw [hp] at hp'
  obtain rfl := Option.some.inj hp'
  have hsp : Followed { w.spawnPeerLinkClient r with
      rebindProbeUntil := (w.spawnPeerLinkClient r).rebindProbeUntil.erase pin } :=
    (hw.spawnClient hp happ hcur).retasked (retasked_fields rfl rfl rfl rfl rfl rfl)
  refine hsp.settle (settled_set _ i) ?_ hs (p := p) ?_ (spawn_alive hp)
  · exact (congrArg (·[i]?) (spawn_tasks w r)).trans hi
  · exact (congrArg (·[r]?) (spawn_rows w r)).trans hp

/-- `spawn_peer_link_client` does not look at the coroutines. -/
theorem spawn_withTasks (w : OffloaderWorld) (ts : List OffloaderTask) (r : RowId) :
    spawnPeerLinkClient { w with tasks := ts } r = { w.spawnPeerLinkClient r with tasks := ts } := by
  cases hp : w.rows[r]? with
  | none =>
    unfold spawnPeerLinkClient
    simp only [hp]
  | some p =>
    have hn : ({ w with tasks := ts } : OffloaderWorld).rows[r]? = some p := hp
    rcases spawn_cases hp with ⟨ha, he⟩ | ⟨ha, he⟩
    · rcases spawn_cases hn with ⟨-, he'⟩ | ⟨ha', -⟩
      · rw [he, he']
      · exact absurd (ha.symm.trans ha') nofun
    · rcases spawn_cases hn with ⟨ha', -⟩ | ⟨-, he'⟩
      · exact absurd (ha.symm.trans ha') nofun
      · rw [he, he']

/-- The end of a rebind does not look at where the rebind waited. -/
theorem finishRebind_setTask (w : OffloaderWorld) (i : ℕ) (t : OffloaderTask) (r : RowId) (pin : Pin) :
    (w.setTask i t).finishRebind i r pin = w.finishRebind i r pin := by
  unfold OffloaderWorld.finishRebind setTask
  simp only [spawn_withTasks, spawn_tasks, List.set_set]

theorem Followed.commitEndpointRebind (hw : Followed w) {connectBack tracked : Bool}
    (hi : w.tasks[i]? = some (.probe r hostname port connectBack tracked))
    (hr : w.pairings.get? p.pinSha256 = some r) (hp : w.rows[r]? = some p) (happ : p.status = .approved)
    (hguard : ¬w.Alive p.pinSha256 → ¬w.Clearing) (host : String) (n : ℕ) :
    Followed (w.commitEndpointRebind i r p.pinSha256 host n tracked) := by
  -- the row at its new endpoint, with its client cancelled
  set rebind : StoredPairing → StoredPairing := fun p => { p with receiverHostname := host, receiverPort := n }
    with hrebind
  have hrespawn : ∀ k, Followed (OffloaderWorld.setTask
      (cancelPeerLinkClient { w with rows := w.rows.modify r rebind } p.pinSha256) i (.respawn r k tracked)) := by
    intro k
    have hb := hw.unlink hi trivial (by simp) hr hp happ k tracked
    have hm := hb.modified (r := r) (f := rebind) (fun _ => ⟨rfl, rfl⟩) ?_
    · refine cast (congrArg Followed ?_) hm
      have hu := unlinked w p.pinSha256
      simp only [setTask, cancelPeerLinkClient]
      cases w.peerLinkClients.get? p.pinSha256 <;> rfl
    · intro p₂ k₂ c₂ hp₂ hr₂ hk₂
      -- the pin has no client now
      have hu := unlinked w p.pinSha256
      change (w.cancelPeerLinkClient p.pinSha256).rows[r]? = some p₂ at hp₂
      rw [hu.rows, hp] at hp₂
      obtain rfl := Option.some.inj hp₂
      change (w.cancelPeerLinkClient p.pinSha256).peerLinkClients.get? p.pinSha256 = some k₂ at hk₂
      rw [hu.entry, if_pos rfl] at hk₂
      cases hk₂
  have hlt := (List.getElem?_eq_some_iff.1 hi).1
  unfold OffloaderWorld.commitEndpointRebind
  simp only
  rw [← hrebind]
  -- with no client to wait for, the new one is spawned at once
  have hnow : ¬w.Alive p.pinSha256 → Followed
      ((cancelPeerLinkClient { w with rows := w.rows.modify r rebind } p.pinSha256).finishRebind i r p.pinSha256) := by
    intro hna
    have hf := hrespawn 0
    rw [← finishRebind_setTask _ i (.respawn r 0 tracked)]
    generalize hw₁ : cancelPeerLinkClient { w with rows := w.rows.modify r rebind } p.pinSha256 = w₁ at hf ⊢
    have hu := unlinked { w with rows := w.rows.modify r rebind } p.pinSha256
    rw [hw₁] at hu
    have hi₁ : (w₁.setTask i (.respawn r 0 tracked)).tasks[i]? = some (.respawn r 0 tracked) := by
      rw [setTask_get, if_pos rfl, hu.tasks]
      change (w.tasks[i]?).map _ = _
      rw [hi]
      rfl
    refine hf.finishRebind hi₁ rfl (p := rebind p) ?_ ?_ _
    · change w₁.rows[r]? = _
      rw [hu.rows]
      change (w.rows.modify r rebind)[r]? = _
      rw [get_modify hp, if_pos rfl]
    · intro _
      constructor
      · change w₁.pairings.get? p.pinSha256 = some r
        rw [hu.pairings]
        exact hr
      · rintro ⟨j, ph, hj, hph⟩
        rcases of_setTask hj with ⟨-, h⟩ | ⟨-, hj⟩
        · cases h
        · rw [hu.tasks] at hj
          exact hguard hna ⟨j, ph, hj, hph⟩
  unfold cancelPeerLinkClientAndWait
  simp only
  split
  next h =>
    -- no entry
    split at h
    next hnone =>
      obtain ⟨-, rfl⟩ := Prod.mk.inj h
      have hna : ¬w.Alive p.pinSha256 := by
        unfold Alive
        rw [hnone]
        simp
      have := hnow hna
      unfold cancelPeerLinkClient at this
      simp only at this
      rw [hnone] at this
      exact this
    next k hk =>
      obtain ⟨hdead, rfl⟩ := Prod.mk.inj h
      refine hnow fun hal => ?_
      unfold Alive at hal
      rw [hk, Option.any_some] at hal
      rw [show isAlive { w with rows := w.rows.modify r rebind } k = w.isAlive k from rfl, hal] at hdead
      cases hdead
  next k' w₂ h =>
    split at h
    · cases (Prod.mk.inj h).1
    next k hk =>
      obtain ⟨-, rfl⟩ := Prod.mk.inj h
      exact hrespawn k'

theorem Followed.probed (hw : Followed w) {connectBack tracked : Bool}
    (hi : w.tasks[i]? = some (.probe r hostname port connectBack tracked)) (hp : w.rows[r]? = some p)
    {observed : Option Pin}
    (hguard : observed = some p.pinSha256 → ¬w.Alive p.pinSha256 → ¬w.Clearing) (host : String) (n : ℕ) :
    Followed (w.probed i r p host n connectBack tracked observed) := by
  have hend : Followed (w.setTask i .ended) := hw.retasked (retasked_set hi trivial nofun trivial)
  unfold OffloaderWorld.probed
  split
  · exact hend
  next observed =>
    split
    · exact hend
    next hno =>
      rw [not_or, not_or, not_not, not_not, not_not] at hno
      obtain ⟨hobs, hr, happ⟩ := hno
      split
      · exact hend
      · exact hw.commitEndpointRebind hi hr hp happ (hguard (congrArg some hobs)) host n

/-! ### Stopping -/

theorem Followed.beginStop (hw : Followed w) : Followed w.beginStop := by
  have hnew : w.beginStop.Stopping := ⟨w.tasks.length, .tasks, by
    simp only [OffloaderWorld.beginStop]
    rw [List.getElem?_append_right (by simp)]
    simp⟩
  -- an old coroutine goes on, or ends
  have hback : ∀ {j : ℕ} {u : OffloaderTask}, w.beginStop.tasks[j]? = some u →
      u = .ended ∨ u = .stop .tasks ∨ w.tasks[j]? = some u := by
    intro j u hj
    simp only [OffloaderWorld.beginStop] at hj
    rcases Nat.lt_or_ge j w.tasks.length with hlt | hge
    · rw [List.getElem?_append_left (by simpa using hlt), List.getElem?_map] at hj
      obtain ⟨t, ht, rfl⟩ := Option.map_eq_some_iff.1 hj
      split
      · exact .inl rfl
      · exact .inr (.inr ht)
    · rw [List.getElem?_append_right (by simpa using hge)] at hj
      have hu := List.mem_of_getElem? hj
      exact .inr (.inl (List.mem_singleton.1 hu))
  have hkept : ∀ {j : ℕ} {u : OffloaderTask}, w.tasks[j]? = some u → u.isTracked = false →
      w.beginStop.tasks[j]? = some u := by
    intro j u hj hu
    simp only [OffloaderWorld.beginStop]
    rw [List.getElem?_append_left (by simpa using (List.getElem?_eq_some_iff.1 hj).1), List.getElem?_map, hj]
    simp [hu]
  exact {
    row := hw.row
    client := hw.client
    running := hw.running
    entry := by
      intro q k c hk hc
      obtain ⟨r, p, hr, hp, hst, hd⟩ := hw.entry q k c hk hc
      exact ⟨r, p, hr, hp, hst, hd.imp_right fun h => ⟨h.1, .inr hnew⟩⟩
    approved := fun _ _ _ _ _ _ => .inr (.inr hnew)
    pending := by
      rintro r ⟨j, u, hj, hu⟩
      rcases hback hj with rfl | rfl | hj
      · exact hu.elim
      · exact hu.elim
      · exact hw.pending r ⟨j, u, hj, hu⟩
    slot := by
      intro q j hj
      obtain ⟨u, hu, hcase⟩ := hw.slot q j hj
      refine ⟨u, hkept hu ?_, hcase⟩
      rcases hcase with rfl | ⟨_, _, -, -, rfl | rfl⟩ <;> rfl
    listener := fun j r hj => hw.listener j r (((hback hj).resolve_left nofun).resolve_left nofun)
    clearing := by
      rintro ⟨j, ph, hj, hph⟩
      refine hw.clearing ⟨j, ph, ((hback hj).resolve_left nofun).resolve_left ?_, hph⟩
      intro h
      cases h
      rcases hph with hph | ⟨_, hph⟩ <;> cases hph
    cleared := fun j hj => hw.cleared j (((hback hj).resolve_left nofun).resolve_left nofun)
    draining := by
      rintro ⟨j₀, hj₀⟩ j r hj
      exact hw.draining ⟨j₀, ((hback hj₀).resolve_left nofun).resolve_left nofun⟩ j r
        (((hback hj).resolve_left nofun).resolve_left nofun) }

/-- Coroutines end one after another. -/
theorem endAll (is : List ℕ) (w : OffloaderWorld) :
    ∃ ts, is.foldl (fun w j => w.setTask j .ended) w = { w with tasks := ts } ∧
      ∀ j, ts[j]? = if j ∈ is then (w.tasks[j]?).map fun _ => .ended else w.tasks[j]? := by
  induction is generalizing w with
  | nil => exact ⟨w.tasks, rfl, fun j => (if_neg List.not_mem_nil).symm⟩
  | cons i is ih =>
    obtain ⟨ts, he, hts⟩ := ih (w.setTask i .ended)
    refine ⟨ts, he, fun j => ?_⟩
    rw [hts, setTask_get]
    by_cases hj : j = i
    · subst hj
      rw [if_pos rfl, if_pos List.mem_cons_self]
      split
      · cases w.tasks[j]? <;> rfl
      · rfl
    · rw [if_neg hj]
      refine if_congr ?_ rfl rfl
      rw [List.mem_cons, or_iff_right hj]

/-- Clients are cancelled one after another. -/
theorem cancelAll (ks : List ClientId) (w : OffloaderWorld) :
    ∃ cs, ks.foldl (fun w k => w.cancelClient k) w = { w with clients := cs } ∧
      (∀ (k : ClientId) c, w.clients[k]? = some c → ∃ c', cs[k]? = some c' ∧ c'.pinSha256 = c.pinSha256) ∧
      ∀ (k : ClientId) c, cs[k]? = some c → (k ∈ ks → c.phase ≠ .running) ∧ ∃ c₀, w.clients[k]? = some c₀ ∧
        c.pinSha256 = c₀.pinSha256 ∧ (∀ p, Dials c₀ p → Dials c p) ∧
        (c₀.phase = .done → c.phase = .done) ∧ (c.phase = .running → c₀.phase = .running) := by
  induction ks generalizing w with
  | nil =>
    exact ⟨w.clients, rfl, fun k c hc => ⟨c, hc, rfl⟩,
      fun k c hc => ⟨fun h => absurd h List.not_mem_nil, c, hc, rfl, fun _ h => h, id, id⟩⟩
  | cons k₀ ks ih =>
    obtain ⟨cs, he, hfwd, hback⟩ := ih (w.cancelClient k₀)
    refine ⟨cs, he, fun k c hc => ?_, fun k c hc => ?_⟩
    · have hk := cancelClient_get w k₀ k
      rw [hc] at hk
      split at hk
      · obtain ⟨c', hc', hp⟩ := hfwd k _ hk
        exact ⟨c', hc', hp⟩
      · exact hfwd k c hk
    · obtain ⟨hrun, c₁, hc₁, hpin, hd, hdone, hrun'⟩ := hback k c hc
      rw [cancelClient_get] at hc₁
      split at hc₁
      next hk =>
        -- the client is cancelled here
        obtain ⟨c₀, hc₀, rfl⟩ := Option.map_eq_some_iff.1 hc₁
        have hnot : c₀.cancel.phase ≠ .running := by
          simp only [PeerLinkClient.cancel]
          split <;> simp
        refine ⟨fun _ h => hnot (hrun' h), c₀, hc₀, hpin, hd, fun h => hdone ?_, fun h => absurd (hrun' h) hnot⟩
        simp only [PeerLinkClient.cancel, h, if_true]
      next hk =>
        refine ⟨fun h => hrun ?_, c₁, hc₁, hpin, hd, hdone, hrun'⟩
        exact (List.mem_cons.1 h).resolve_left hk

/-- The phase of a `stop` moves on. -/
theorem stop_moves {ts : List OffloaderTask} {ph ph' : StopPhase} (hi : ts[i]? = some (.stop ph)) (j : ℕ) :
    (ts.set i (.stop ph'))[j]? = if j = i then some (.stop ph') else ts[j]? := by
  rw [List.getElem?_set]
  by_cases hj : j = i
  · rw [if_pos hj.symm, if_pos hj, if_pos]
    exact (List.getElem?_eq_some_iff.1 hi).1
  · rw [if_neg (Ne.symm hj), if_neg hj]

theorem Followed.resumeTasks (hw : Followed w) (hi : w.tasks[i]? = some (.stop .tasks)) :
    Followed (w.resumeStop i .tasks) := by
  obtain ⟨ts, he, hts⟩ := endAll w.pairStatusListeners.values w
  have hlistened : ∀ j, j ∈ w.pairStatusListeners.values ↔ ∃ q, w.pairStatusListeners.get? q = some j :=
    fun j => Dict.mem_values
  have hti : ts[i]? = some (.stop .tasks) := by
    rw [hts, if_neg]
    · exact hi
    · rw [hlistened]
      rintro ⟨q, hq⟩
      obtain ⟨t, ht, hcase⟩ := hw.slot q i hq
      rw [hi] at ht
      obtain rfl := Option.some.inj ht
      rcases hcase with hcase | ⟨_, _, -, -, hcase | hcase⟩ <;> cases hcase
  unfold OffloaderWorld.resumeStop
  simp only
  rw [he]
  generalize hw' : OffloaderWorld.setTask { w with tasks := ts } i (.stop .listeners) = w'
  have htask : ∀ j, w'.tasks[j]? = if j = i then some (.stop .listeners) else ts[j]? := by
    rw [← hw']
    exact stop_moves hti
  have hsame : w'.rows = w.rows ∧ w'.pairings = w.pairings ∧ w'.clients = w.clients ∧
      w'.peerLinkClients = w.peerLinkClients ∧ w'.pairStatusListeners = w.pairStatusListeners := by
    rw [← hw']
    exact ⟨rfl, rfl, rfl, rfl, rfl⟩
  obtain ⟨hrows, hpair, hclients, hentry, hslots⟩ := hsame
  have hstop : w'.Stopping := ⟨i, .listeners, by rw [htask, if_pos rfl]⟩
  have hback : ∀ {j : ℕ} {u : OffloaderTask}, w'.tasks[j]? = some u →
      u = .stop .listeners ∨ u = .ended ∨ w.tasks[j]? = some u ∧ ∀ q, w.pairStatusListeners.get? q ≠ some j := by
    intro j u hj
    rw [htask] at hj
    split at hj
    · exact .inl (Option.some.inj hj).symm
    rw [hts] at hj
    split at hj
    · obtain ⟨-, -, rfl⟩ := Option.map_eq_some_iff.1 hj
      exact .inr (.inl rfl)
    next hn =>
      refine .inr (.inr ⟨hj, fun q hq => hn ?_⟩)
      exact (hlistened j).2 ⟨q, hq⟩
  -- no listener is left
  have hnone : ∀ (j : ℕ) r, w'.tasks[j]? ≠ some (.pairStatus r) := by
    intro j r hj
    obtain ⟨hj, hns⟩ := ((hback hj).resolve_left nofun).resolve_left nofun
    obtain ⟨p, -, hs, -⟩ := hw.listener j r hj
    exact hns _ hs
  exact {
    row := by rw [hpair, hrows]; exact hw.row
    client := by rw [hentry, hclients]; exact hw.client
    running := by rw [hclients, hentry]; exact hw.running
    entry := by
      rw [hentry, hclients, hpair, hrows]
      intro q k c hk hc
      obtain ⟨r, p, hr, hp, hst, hd⟩ := hw.entry q k c hk hc
      exact ⟨r, p, hr, hp, hst, hd.imp_right fun h => ⟨h.1, .inr hstop⟩⟩
    approved := fun _ _ _ _ _ _ => .inr (.inr hstop)
    pending := by
      rintro r ⟨j, u, hj, hu⟩
      rw [hrows]
      rcases hback hj with rfl | rfl | ⟨hj, -⟩
      · exact hu.elim
      · exact hu.elim
      · exact hw.pending r ⟨j, u, hj, hu⟩
    slot := by
      rw [hslots]
      intro q j hj
      obtain ⟨u, hu, -⟩ := hw.slot q j hj
      refine ⟨.ended, ?_, .inl rfl⟩
      rw [htask, if_neg, hts, if_pos ((hlistened j).2 ⟨q, hj⟩), hu]
      · rfl
      · rintro rfl
        rw [hts, if_pos ((hlistened j).2 ⟨q, hj⟩), hu] at hti
        cases hti
    listener := fun j r hj => absurd hj (hnone j r)
    clearing := by
      rintro ⟨j, ph, hj, hph⟩
      rw [hclients]
      refine hw.clearing ⟨j, ph, (((hback hj).resolve_left ?_).resolve_left nofun).1, hph⟩
      intro h
      cases h
      rcases hph with hph | ⟨_, hph⟩ <;> cases hph
    cleared := by
      rw [hentry]
      exact fun j hj => hw.cleared j (((hback hj).resolve_left nofun).resolve_left nofun).1
    draining := fun _ => hnone }

theorem Followed.resumeListeners (hw : Followed w) (hi : w.tasks[i]? = some (.stop .listeners)) :
    Followed (w.resumeStop i .listeners) := by
  obtain ⟨cs, he, hfwd, hback⟩ := cancelAll w.peerLinkClients.values { w with pairStatusListeners := ∅ }
  unfold OffloaderWorld.resumeStop
  simp only
  rw [he]
  generalize hw' : OffloaderWorld.setTask { w with pairStatusListeners := ∅, clients := cs } i
    (.stop (.clients w.peerLinkClients.values)) = w'
  have htask : ∀ j, w'.tasks[j]? = if j = i then some (.stop (.clients w.peerLinkClients.values)) else w.tasks[j]? := by
    rw [← hw']
    exact stop_moves hi
  have hsame : w'.rows = w.rows ∧ w'.pairings = w.pairings ∧ w'.clients = cs ∧
      w'.peerLinkClients = w.peerLinkClients ∧ w'.pairStatusListeners = ∅ := by
    rw [← hw']
    exact ⟨rfl, rfl, rfl, rfl, rfl⟩
  obtain ⟨hrows, hpair, hclients, hentry, hslots⟩ := hsame
  have hstop : w'.Stopping := ⟨i, _, by rw [htask, if_pos rfl]⟩
  have hold : ∀ {j : ℕ} {u : OffloaderTask}, w'.tasks[j]? = some u →
      u = .stop (.clients w.peerLinkClients.values) ∨ w.tasks[j]? = some u := by
    intro j u hj
    rw [htask] at hj
    split at hj
    · exact .inl (Option.some.inj hj).symm
    · exact .inr hj
  have hnone : ∀ (j : ℕ) r, w'.tasks[j]? ≠ some (.pairStatus r) :=
    fun j r hj => hw.draining ⟨i, hi⟩ j r ((hold hj).resolve_left nofun)
  -- a running client would be in the table, and so cancelled
  have hidle : ∀ (k : ClientId) c, cs[k]? = some c → c.phase ≠ .running := by
    intro k c hc hrun
    obtain ⟨hcancel, c₀, hc₀, hpin, -, -, hrun'⟩ := hback k c hc
    have hin := hw.running k c₀ hc₀ (hrun' hrun)
    exact hcancel (Dict.mem_values.2 ⟨_, hin⟩) hrun
  exact {
    row := by rw [hpair, hrows]; exact hw.row
    client := by
      rw [hentry, hclients]
      intro q k hk
      obtain ⟨c, hc, hq⟩ := hw.client q k hk
      obtain ⟨c', hc', hp⟩ := hfwd k c hc
      exact ⟨c', hc', hp.trans hq⟩
    running := by
      rw [hclients]
      exact fun k c hc hrun => absurd hrun (hidle k c hc)
    entry := by
      rw [hentry, hclients, hpair, hrows]
      intro q k c hk hc
      obtain ⟨-, c₀, hc₀, -, hdial, hdone, -⟩ := hback k c hc
      obtain ⟨r, p, hr, hp, hst, hd⟩ := hw.entry q k c₀ hk hc₀
      exact ⟨r, p, hr, hp, hst, hd.imp (hdial p) fun h => ⟨hdone h.1, .inr hstop⟩⟩
    approved := fun _ _ _ _ _ _ => .inr (.inr hstop)
    pending := by
      rintro r ⟨j, u, hj, hu⟩
      rw [hrows]
      rcases hold hj with rfl | hj
      · exact hu.elim
      · exact hw.pending r ⟨j, u, hj, hu⟩
    slot := by
      rw [hslots]
      intro q j hj
      cases hj
    listener := fun j r hj => absurd hj (hnone j r)
    clearing := by
      rw [hclients]
      exact fun _ => hidle
    cleared := by
      rw [hentry]
      exact fun j hj => hw.cleared j ((hold hj).resolve_left nofun)
    draining := fun _ => hnone }

/-- The drain of the clients and the callbacks: the table and the rows are cleared. -/
theorem Followed.resumeClients (hw : Followed w) {ks : List ClientId} (hi : w.tasks[i]? = some (.stop (.clients ks))) :
    Followed (w.resumeStop i (.clients ks)) := by
  unfold OffloaderWorld.resumeStop
  simp only
  split
  · exact hw
  generalize hw' : OffloaderWorld.setTask { w with peerLinkClients := ∅ } i (.stop .callbacks) = w'
  have htask : ∀ j, w'.tasks[j]? = if j = i then some (.stop .callbacks) else w.tasks[j]? := by
    rw [← hw']
    exact stop_moves hi
  have hsame : w'.rows = w.rows ∧ w'.pairings = w.pairings ∧ w'.clients = w.clients ∧
      w'.peerLinkClients = ∅ ∧ w'.pairStatusListeners = w.pairStatusListeners := by
    rw [← hw']
    exact ⟨rfl, rfl, rfl, rfl, rfl⟩
  obtain ⟨hrows, hpair, hclients, hentry, hslots⟩ := hsame
  have hstop : w'.Stopping := ⟨i, .callbacks, by rw [htask, if_pos rfl]⟩
  have hold : ∀ {j : ℕ} {u : OffloaderTask}, w'.tasks[j]? = some u → u = .stop .callbacks ∨ w.tasks[j]? = some u := by
    intro j u hj
    rw [htask] at hj
    split at hj
    · exact .inl (Option.some.inj hj).symm
    · exact .inr hj
  have hidle := hw.clearing ⟨i, _, hi, .inr ⟨ks, rfl⟩⟩
  exact {
    row := by rw [hpair, hrows]; exact hw.row
    client := by rw [hentry]; nofun
    running := by
      rw [hclients]
      exact fun k c hc hrun => absurd hrun (hidle k c hc)
    entry := by rw [hentry]; nofun
    approved := fun _ _ _ _ _ _ => .inr (.inr hstop)
    pending := by
      rintro r ⟨j, u, hj, hu⟩
      rw [hrows]
      rcases hold hj with rfl | hj
      · exact hu.elim
      · exact hw.pending r ⟨j, u, hj, hu⟩
    slot := by
      rw [hslots, hrows]
      intro q j hj
      obtain ⟨u, hu, hcase⟩ := hw.slot q j hj
      refine ⟨u, ?_, hcase⟩
      rw [htask, if_neg]
      · exact hu
      · rintro rfl
        rw [hi] at hu
        obtain rfl := Option.some.inj hu
        rcases hcase with hcase | ⟨_, _, -, -, hcase | hcase⟩ <;> cases hcase
    listener := by
      rw [hrows, hslots, hpair]
      exact fun j r hj => hw.listener j r ((hold hj).resolve_left nofun)
    clearing := by
      rw [hclients]
      exact fun _ => hidle
    cleared := by
      rw [hentry]
      exact fun _ _ _ => rfl
    draining := by
      rintro ⟨j₀, hj₀⟩ j r hj
      exact hw.draining ⟨j₀, (hold hj₀).resolve_left nofun⟩ j r ((hold hj).resolve_left nofun) }

theorem Followed.resumeCallbacks (hw : Followed w) (hi : w.tasks[i]? = some (.stop .callbacks)) :
    Followed (w.resumeStop i .callbacks) := by
  have hempty := hw.cleared i hi
  have hidle := hw.clearing ⟨i, _, hi, .inl rfl⟩
  have h := settled_set { w with openPeerLinks := [], rebindProbeUntil := ∅, pairings := ∅ } i
  have hbase : Followed { w with openPeerLinks := [], rebindProbeUntil := ∅, pairings := ∅ } := {
    hw with
    row := nofun
    entry := by
      intro q k c hk
      rw [show w.peerLinkClients.get? q = none from hempty q] at hk
      cases hk
    approved := nofun
    listener := by
      intro j r hj
      obtain ⟨p, hp, hs, -⟩ := hw.listener j r hj
      exact ⟨p, hp, hs, nofun⟩ }
  refine hbase.settled h ?_ nofun
  intro q k c hk
  rw [show w.peerLinkClients.get? q = none from hempty q] at hk
  cases hk

theorem Followed.resumeStop (hw : Followed w) {ph : StopPhase} (hi : w.tasks[i]? = some (.stop ph)) :
    Followed (w.resumeStop i ph) := by
  cases ph with
  | tasks => exact hw.resumeTasks hi
  | listeners => exact hw.resumeListeners hi
  | clients ks => exact hw.resumeClients hi
  | callbacks => exact hw.resumeCallbacks hi

/-! ### Steps -/

theorem Followed.resumeTask (hw : Followed w) (hi : w.tasks[i]? = some t) (ha : Follows w (.resume i)) :
    Followed (w.resumeTask i t) := by
  -- the row is current when a client comes
  have hcur : ∀ {r : RowId} {p : StoredPairing}, t.Spawns r → w.rows[r]? = some p →
      (∀ r' k tracked, t = .respawn r' k tracked → w.isAlive k = false) →
      ¬w.Alive p.pinSha256 → w.pairings.get? p.pinSha256 = some r ∧ ¬w.Clearing := by
    intro r p hs hp hk hna
    exact ha t r p hi hs hp (Bool.eq_false_iff.2 hna) hk
  cases t with
  | converge r =>
    simp only [OffloaderWorld.resumeTask]
    split
    · exact hw
    next p hp =>
      obtain ⟨p', hp', happ⟩ := hw.pending r ⟨i, _, hi, rfl⟩
      rw [hp] at hp'
      obtain rfl := Option.some.inj hp'
      have hsp := hw.spawnClient hp happ (hcur rfl hp nofun)
      refine hsp.settle (settled_endListener _ i _) ?_ (t := .converge r) rfl (p := p) ?_ (spawn_alive hp)
      · rw [spawn_tasks]
        exact hi
      · rw [spawn_rows]
        exact hp
  | respawn r k tracked =>
    simp only [OffloaderWorld.resumeTask]
    split
    · exact hw
    next p hp =>
      split
      · exact hw
      next hk =>
        refine hw.finishRebind hi rfl hp (hcur rfl hp ?_) _
        intro r' k' tracked' he
        cases he
        exact Bool.eq_false_iff.2 hk
  | stop ph => exact hw.resumeStop hi
  | requestPair hostname port pin label => exact hw
  | pairStatus r => exact hw
  | probe r hostname port connectBack tracked => exact hw
  | ended => exact hw

theorem Followed.spawnProbe (hw : Followed w) (r : RowId) (host : String) (n : ℕ) (connectBack tracked : Bool) :
    Followed (w.spawn (.probe r host n connectBack tracked)) :=
  hw.retasked (retasked_spawn (t := .probe r host n connectBack tracked) trivial w)

theorem Followed.claimAndProbe (hw : Followed w) (r : RowId) (pin : Pin) (host : String) (n : ℕ)
    (connectBack tracked : Bool) : Followed (w.claimAndProbe r pin host n connectBack tracked) := by
  unfold OffloaderWorld.claimAndProbe
  split
  · exact hw
  next =>
    have hclaimed : Followed { w with
        rebindProbeUntil := w.rebindProbeUntil.set pin (w.now + rebindProbeCooldownSeconds) } :=
      hw.retasked (retasked_fields rfl rfl rfl rfl rfl rfl)
    exact hclaimed.spawnProbe r host n connectBack tracked

theorem Followed.withApproved (hw : Followed w) {f : RowId → StoredPairing → OffloaderWorld}
    (hf : ∀ r p, Followed (f r p)) (pin : Pin) : Followed (w.withApproved pin f) := by
  unfold OffloaderWorld.withApproved
  split
  · exact hw
  split
  · exact hw
  split
  · exact hf _ _
  · exact hw

/-- The end of a client's run. -/
theorem Followed.clientEnds (hw : Followed w) (k : ClientId) :
    Followed { w with clients := w.clients.modify k fun c => { c with phase := .done } } := by
  have hget : ∀ {k' : ClientId} {c : PeerLinkClient},
      (w.clients.modify k fun c => { c with phase := .done })[k']? = some c →
      ∃ c₀, w.clients[k']? = some c₀ ∧ (c = c₀ ∨ c = { c₀ with phase := .done }) := by
    intro k' c h
    rw [List.getElem?_modify] at h
    obtain ⟨c₀, hc₀, rfl⟩ := Option.map_eq_some_iff.1 h
    refine ⟨c₀, hc₀, ?_⟩
    split
    · exact .inr rfl
    · exact .inl rfl
  have hrun : ∀ {k' : ClientId} {c : PeerLinkClient},
      (w.clients.modify k fun c => { c with phase := .done })[k']? = some c → c.phase = .running →
      w.clients[k']? = some c := by
    intro k' c h hr
    obtain ⟨c₀, hc₀, rfl | rfl⟩ := hget h
    · exact hc₀
    · cases hr
  exact {
    hw with
    client := by
      intro q k' hk'
      obtain ⟨c, hc, hq⟩ := hw.client q k' hk'
      refine ⟨if k = k' then { c with phase := .done } else c, ?_, ?_⟩
      · change (w.clients.modify k _)[k']? = _
        rw [List.getElem?_modify, hc]
        rfl
      · split <;> exact hq
    running := fun k' c hc hr => hw.running k' c (hrun hc hr) hr
    entry := by
      intro q k' c hk' hc
      obtain ⟨c₀, hc₀, he⟩ := hget hc
      obtain ⟨r, p, hr, hp, hst, hd⟩ := hw.entry q k' c₀ hk' hc₀
      refine ⟨r, p, hr, hp, hst, ?_⟩
      rcases he with rfl | rfl
      · exact hd
      · exact hd.imp_right fun h => ⟨rfl, h.2⟩
    clearing := fun h k' c hc hr => hw.clearing h k' c (hrun hc hr) hr }

theorem Followed.step (hw : Followed w) (ha : Follows w a) : Followed (step lib w a) := by
  cases a with
  | requestPair hostname port pin label =>
    exact hw.retasked (retasked_spawn (t := .requestPair hostname port pin label) trivial w)
  | pairAnswer i status pub =>
    simp only [OffloaderWorld.step]
    split
    next hostname port pin label hi =>
      obtain ⟨hguard, hdrain⟩ := ha hostname port pin label hi
      exact hw.pairAnswered hi hguard hdrain
    next => exact hw
  | pairFailed i =>
    simp only [OffloaderWorld.step]
    split
    next hi => exact hw.retasked (retasked_set hi trivial nofun trivial)
    next => exact hw
  | statusAnswer i answer =>
    simp only [OffloaderWorld.step]
    split
    next r hi =>
      split
      · exact hw
      next p hp => exact hw.applyPairStatusResult hi hp answer
    next => exact hw
  | unpair pin => exact hw.dropped (OffloaderWorld.dropped w pin)
  | discovered hostname port pin =>
    simp only [OffloaderWorld.step]
    split
    · exact hw
    refine hw.withApproved (fun r p => ?_) pin
    split
    · exact hw
    · exact hw.claimAndProbe r pin _ port false true
  | editEndpoint pin hostname port =>
    refine hw.withApproved (fun r p => ?_) pin
    split
    · exact hw
    · exact hw.spawnProbe r hostname port false false
  | connectBack pin peerIp announcedPort =>
    refine hw.withApproved (fun r p => ?_) pin
    split
    · exact hw
    · exact hw.claimAndProbe r pin peerIp announcedPort true false
  | probeAnswer i observed =>
    simp only [OffloaderWorld.step]
    split
    next r hostname port connectBack tracked hi =>
      split
      · exact hw
      next p hp =>
        refine hw.probed hi hp (fun hobs hna => ?_) hostname port
        exact ha r hostname port connectBack tracked p hi hp hobs (Bool.eq_false_iff.2 hna)
    next => exact hw
  | resume i =>
    simp only [OffloaderWorld.step]
    split
    next t hi => exact hw.resumeTask hi ha
    next => exact hw
  | clientEnds k => exact hw.clientEnds k
  | peerLinkOpened pin => exact hw.retasked (retasked_fields rfl rfl rfl rfl rfl rfl)
  | peerLinkClosed pin => exact hw.retasked (retasked_fields rfl rfl rfl rfl rfl rfl)
  | setPairingEnabled pin enabled =>
    simp only [OffloaderWorld.step]
    split
    · exact hw
    · exact hw.modified (fun _ => ⟨rfl, rfl⟩) fun _ _ _ _ _ _ _ hd => hd
  | setRemoteBuildsEnabled enabled => exact hw.retasked (retasked_fields rfl rfl rfl rfl rfl rfl)
  | tick dt => exact hw.retasked (retasked_fields rfl rfl rfl rfl rfl rfl)
  | stop => exact hw.beginStop

/-! ### The start -/

/-- Every row of the file is under its pin, or hidden by a later one. -/
theorem seed_pairing (file : PairingsFile) (h : (seed file).pairings.get? pin = some r) :
    ∃ p, file.rows[r]? = some p ∧ p.pinSha256 = pin := by
  -- what the rows from `n` on add
  have hfold : ∀ (es : List (StoredPairing × ℕ)) (d : Dict Pin RowId),
      (∀ e ∈ es, file.rows[e.2]? = some e.1) →
      (∀ q r, d.get? q = some r → ∃ p, file.rows[r]? = some p ∧ p.pinSha256 = q) →
      ∀ q r, (es.foldl (fun d e => d.set e.1.pinSha256 e.2) d).get? q = some r →
        ∃ p, file.rows[r]? = some p ∧ p.pinSha256 = q := by
    intro es
    induction es with
    | nil => exact fun d _ hd => hd
    | cons e es ih =>
      intro d hes hd
      refine ih _ (fun e' he' => hes e' (List.mem_cons_of_mem e he')) fun q r hr => ?_
      rw [Dict.get?_set] at hr
      split at hr
      next hq =>
        obtain rfl := Option.some.inj hr
        exact ⟨e.1, hes e List.mem_cons_self, hq.symm⟩
      next => exact hd q r hr
  refine hfold file.rows.zipIdx ∅ (fun e he => ?_) nofun pin r h
  exact List.mk_mem_zipIdx_iff_getElem?.1 he

/-- `w` while a `stop` is suspended, so that rows may lack their clients. -/
def paused (w : OffloaderWorld) : OffloaderWorld := { w with tasks := [.stop .tasks] }

/-- A world in the loop of `start`. -/
structure Booting (w₀ w : OffloaderWorld) : Prop where
  rows : w.rows = w₀.rows
  pairings : w.pairings = w₀.pairings
  slots : w.pairStatusListeners = w₀.pairStatusListeners
  tasks : w.tasks = w₀.tasks
  followed : Followed (paused w)
  running : ∀ (k : ClientId) c, w.clients[k]? = some c → c.phase = .running
  entries : ∀ q, (w₀.peerLinkClients.get? q).isSome = true → (w.peerLinkClients.get? q).isSome = true

theorem Booting.spawn (h : Booting w w') (hp : w'.rows[r]? = some p) (hr : w'.pairings.get? p.pinSha256 = some r)
    (hst : p.status = .approved) : Booting w (w'.spawnPeerLinkClient r) ∧
      ((w'.spawnPeerLinkClient r).peerLinkClients.get? p.pinSha256).isSome = true := by
  have hclear : ¬w'.paused.Clearing := by
    rintro ⟨j, ph, hj, hph⟩
    cases List.mem_singleton.1 (List.mem_of_getElem? hj)
    rcases hph with hph | ⟨_, hph⟩ <;> cases hph
  have hf : Followed (w'.spawnPeerLinkClient r).paused := by
    have := h.followed.spawnClient (r := r) (p := p) hp hst fun _ => ⟨hr, hclear⟩
    unfold paused at this ⊢
    rw [spawn_withTasks] at this
    exact this
  constructor
  · rcases spawn_cases hp with ⟨-, he⟩ | ⟨-, he⟩
    · rw [he]
      exact h
    · rw [he] at hf ⊢
      refine { h with followed := hf, running := fun k c hc => ?_, entries := fun q hq => ?_ }
      · rcases List.mem_append.1 (List.mem_of_getElem? hc) with hc | hc
        · obtain ⟨k', hk'⟩ := List.getElem?_of_mem hc
          exact h.running k' c hk'
        · rw [List.mem_singleton.1 hc]
      · rw [Dict.get?_set]
        split
        · rfl
        · exact h.entries q hq
  · obtain ⟨k, c, hk, -⟩ := alive_iff.1 (spawn_alive hp)
    rw [hk]
    rfl

/-- One round of the loop of `start`. -/
def startRow (w : OffloaderWorld) (r : RowId) : OffloaderWorld :=
  match w.rows[r]? with
  | none => w
  | some p => if p.status = .approved then w.spawnPeerLinkClient r else w

theorem startRow_of (hp : w.rows[r]? = some p) :
    w.startRow r = if p.status = .approved then w.spawnPeerLinkClient r else w := by
  unfold startRow
  rw [hp]

theorem start_eq (file : PairingsFile) :
    start file = (seed file).pairings.values.foldl startRow (seed file) := rfl

/-- No operation is suspended but for round trips: no converge, no teardown, no stop. -/
def Quiet (w : OffloaderWorld) : Prop :=
  ∀ (i : ℕ) t, w.tasks[i]? = some t → (∀ r, ¬t.Spawns r) ∧ ∀ ph, t ≠ .stop ph

/-- `request_pair` with that receiver at a host, answered APPROVED, then the converge. -/
def pair (file : PairingsFile) (hostname : String) : OffloaderWorld :=
  [.requestPair hostname 6055 PairingState.somePin "", .pairAnswer 0 .approved PairingState.someKey, .resume 0].foldl
    (step PairingState.someLibrary) (start file)

end OffloaderWorld

end DeviceBuilder.RemoteBuild
