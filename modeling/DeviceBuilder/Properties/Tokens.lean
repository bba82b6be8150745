import DeviceBuilder.Helpers.Auth
import DeviceBuilder.Helpers.StorageFlow

/-!
# Session tokens

RAM and the file differ on purpose: an expiry that a use slid is written at most
hourly. What keeps this sound is that a row on disk, or on its way there, never lives
longer than the row in RAM (`Inv.slid`).

A revocation is written before it returns; if that write fails the row is still in
the file, and a restart brings the token back (`revoked_returns`).

* `Barred w a t`: no snapshot taken since mutation `a` has token `t`.
* `tokens_sound`: what is accepted, what a revocation that reached the file rules out,
  and how the expiries compare.
-/

namespace DeviceBuilder.Auth

open Storage Runs

variable {w : World} {d d' : Sessions} {s : Session} {t a : ℕ} {shot : Snapshot Sessions} {xs : List Session}

/-! ### Rows -/

/-- Each session is kept under its token. -/
def Keyed (d : Sessions) : Prop := ∀ t s, d.get? t = some s → s.token = t

theorem Keyed.mem_values (h : Keyed d) : s ∈ d.values ↔ d.get? s.token = some s := by
  rw [Dict.mem_values]
  refine ⟨?_, fun hs => ⟨_, hs⟩⟩
  rintro ⟨k, hk⟩
  rw [h k s hk]
  exact hk

theorem Keyed.nodup (h : Keyed d) : (d.values.map (·.token)).Nodup := by
  have hkeys : d.values.map (·.token) = d.items.map Prod.fst := by
    rw [Dict.values, List.map_map]
    refine List.map_congr_left fun e he => ?_
    exact h e.1 e.2 (Dict.get?_eq_some.2 he)
  rw [hkeys]
  exact d.nodup

theorem Keyed.set (h : Keyed d) (s : Session) : Keyed (d.set s.token s) := by
  intro t r hr
  rw [Dict.get?_set] at hr
  split at hr
  · cases hr
    exact (by assumption : t = s.token).symm
  · exact h t r hr

/-- What is left of a dictionary. -/
def Within (d' d : Sessions) : Prop := ∀ t s, d'.get? t = some s → d.get? t = some s

theorem Within.keyed (h : Within d' d) (hk : Keyed d) : Keyed d' := fun t s hs => hk t s (h t s hs)

theorem within_erase (d : Sessions) (t : ℕ) : Within (d.erase t) d := fun _ _ hs => (Dict.of_get?_erase hs).2

theorem within_empty (d : Sessions) : Within ∅ d := fun _ _ hs => nomatch hs

/-- No row has token `t`. -/
def Lacks (xs : List Session) (t : ℕ) : Prop := ∀ s ∈ xs, s.token ≠ t

theorem Keyed.lacks (h : Keyed d) : Lacks d.values t ↔ d.get? t = none := by
  refine ⟨fun hl => Option.eq_none_iff_forall_ne_some.2 fun s hs => ?_, fun hn s hs => ?_⟩
  · have ht := h t s hs
    exact hl s (h.mem_values.2 (by rw [ht]; exact hs)) ht
  · rintro rfl
    rw [h.mem_values, hn] at hs
    cases hs

theorem foldl_set_get? (xs : List Session) (d : Sessions) (h : (xs.foldl (fun d s => d.set s.token s) d).get? t = some s) :
    d.get? t = some s ∨ s ∈ xs ∧ s.token = t := by
  induction xs generalizing d with
  | nil => exact .inl h
  | cons x xs ih =>
    rcases ih _ h with hd | ⟨hs, ht⟩
    · rw [Dict.get?_set] at hd
      split at hd
      · cases hd
        exact .inr ⟨List.mem_cons_self .., (by assumption : t = s.token).symm⟩
      · exact .inl hd
    · exact .inr ⟨List.mem_cons_of_mem _ hs, ht⟩

theorem decode_get? {now : ℕ} (h : (decode now xs).get? t = some s) : s ∈ xs ∧ s.token = t := by
  rcases foldl_set_get? _ ∅ h with hd | ⟨hs, ht⟩
  · cases hd
  · exact ⟨(List.mem_filter.1 hs).1, ht⟩

/-! ### What is claimed -/

/-- Two uses of a token, the later first: less than its lifetime lies between them. -/
def Close (ttl later earlier : ℕ) : Prop := earlier ≤ later ∧ later - earlier < ttl

/-- Every gap between the uses was shorter than the lifetime. -/
def Gapless (ttl : ℕ) (uses : List ℕ) : Prop := uses.IsChain (Close ttl)

/-! ### The invariant -/

/-- Token `t` is not in RAM, nor in what was taken since mutation `a`. -/
structure Barred (w : World) (a t : ℕ) : Prop where
  minted : t < w.nextToken
  ram : w.sessions.get? t = none
  carried : ∀ shot, w.store.Carried shot → a ≤ shot.gen → Lacks shot.value.values t
  file : ∀ g xs, w.store.file = some (g, xs) → a ≤ g → Lacks xs t

/-- A row on disk, or on its way there. -/
def Written (w : World) (s : Session) : Prop :=
  (∃ shot, w.store.Carried shot ∧ s ∈ shot.value.values) ∨ ∃ g xs, w.store.file = some (g, xs) ∧ s ∈ xs

/-- The row's token was minted, and the row expires a lifetime after its last use, or before. -/
def Known (w : World) (s : Session) : Prop :=
  0 < s.token ∧ s.token < w.nextToken ∧ ∃ u us, w.uses s.token = u :: us ∧ s.expiresAt ≤ u + w.ttl

/-- **The invariant.** -/
structure Inv (w : World) : Prop where
  ordered : w.store.Ordered
  keyed : Keyed w.sessions
  shots : ∀ shot, w.store.Carried shot → Keyed shot.value
  nodup : ∀ g xs, w.store.file = some (g, xs) → (xs.map (·.token)).Nodup
  known : ∀ s, w.sessions.get? s.token = some s ∨ Written w s → Known w s
  slid : ∀ s r, Written w s → w.sessions.get? s.token = some r → s.expiresAt ≤ r.expiresAt
  persisted : ∀ t e r, w.persistedExpires.get? t = some e → w.sessions.get? t = some r → e ≤ r.expiresAt
  unminted : ∀ t, w.nextToken ≤ t → w.uses t = []
  minted : 0 < w.nextToken
  gaps : ∀ t, Gapless w.ttl (w.uses t) ∧ ∀ u ∈ w.uses t, u ≤ w.now
  revoked : ∀ r ∈ w.revocations, (∀ a, r.asked = some a → a ≤ w.store.gen) ∧ ∀ t ∈ r.tokens, t < w.nextToken ∧
    w.sessions.get? t = none ∧ ∀ a, r.asked = some a → Barred w a t

/-! ### Steps of the store -/

theorem barred_flows {s' : Store Sessions (List Session)} (h : Barred w a t) (hk : Keyed w.sessions)
    (hf : Store.Flows encode w.store s') : Barred { w with store := s' } a t := by
  have hram : Lacks w.sessions.values t := hk.lacks.2 h.ram
  refine ⟨h.minted, ?_, fun shot hs hg => ?_, fun g xs hx hg => ?_⟩
  · change s'.ram.get? t = none
    rw [hf.ram]
    exact h.ram
  · rcases hf.carried shot hs with hs | rfl
    · exact h.carried shot hs hg
    · exact hram
  · rcases hf.file with hf | ⟨shot, hs, hf⟩
    · exact h.file g xs (hf ▸ hx) hg
    · cases hf.symm.trans hx
      exact h.carried shot hs hg

theorem written_flows {s' : Store Sessions (List Session)} (hf : Store.Flows encode w.store s')
    (hs : Written { w with store := s' } s) : s ∈ w.sessions.values ∨ Written w s := by
  rcases hs with ⟨shot, hs, hm⟩ | ⟨g, xs, hx, hm⟩
  · rcases hf.carried shot hs with hs | rfl
    · exact .inr (.inl ⟨shot, hs, hm⟩)
    · exact .inl hm
  · rcases hf.file with hf | ⟨shot, hs, hf⟩
    · exact .inr (.inr ⟨g, xs, hf ▸ hx, hm⟩)
    · cases hf.symm.trans hx
      exact .inr (.inl ⟨shot, hs, hm⟩)

theorem inv_flows {s' : Store Sessions (List Session)} (h : Inv w) (hf : Store.Flows encode w.store s')
    (ho : s'.Ordered) : Inv { w with store := s' } := by
  have hsess : World.sessions { w with store := s' } = w.sessions := hf.ram
  refine { h with
    ordered := ho
    keyed := by rw [hsess]; exact h.keyed
    shots := fun shot hs => ?_
    nodup := fun g xs hx => ?_
    known := fun s hs => ?_
    slid := fun s r hs hr => ?_
    persisted := fun t e r he hr => h.persisted t e r he (hsess ▸ hr)
    revoked := fun r hr => ?_ }
  · rcases hf.carried shot hs with hs | rfl
    · exact h.shots shot hs
    · exact h.keyed
  · rcases hf.file with hf | ⟨shot, hs, hf⟩
    · exact h.nodup g xs (hf ▸ hx)
    · cases hf.symm.trans hx
      exact (h.shots shot hs).nodup
  · refine h.known s ?_
    rw [hsess] at hs
    rcases hs with hs | hs
    · exact .inl hs
    · exact (written_flows hf hs).imp_left h.keyed.mem_values.1
  · rw [hsess] at hr
    rcases written_flows hf hs with hm | hs
    · rw [h.keyed.mem_values, hr] at hm
      cases hm
      exact Nat.le_refl _
    · exact h.slid s r hs hr
  · obtain ⟨hask, hr⟩ := h.revoked r hr
    refine ⟨fun a ha => ?_, fun t ht => ?_⟩
    · change a ≤ s'.gen
      rw [hf.gen]
      exact hask a ha
    · obtain ⟨hm, hn, hb⟩ := hr t ht
      exact ⟨hm, by rw [hsess]; exact hn, fun a ha => barred_flows (hb a ha) h.keyed hf⟩

/-! ### Changes in RAM -/

theorem carried_same {s s' : Store Sessions (List Session)} (hj : s'.jobs = s.jobs) (h : s'.Carried shot) : s.Carried shot := by
  obtain ⟨k, job, ⟨hk, hu⟩, rfl⟩ := h
  exact ⟨k, job, ⟨hj ▸ hk, hu⟩, rfl⟩

theorem Barred.kept {w' : World} (h : Barred w a t) (hn : w.nextToken ≤ w'.nextToken) (hr : w'.sessions.get? t = none)
    (hj : w'.store.jobs = w.store.jobs) (hf : w'.store.file = w.store.file) : Barred w' a t :=
  ⟨Nat.lt_of_lt_of_le h.minted hn, hr, fun shot hs => h.carried shot (carried_same hj hs), fun g xs hx => h.file g xs (hf ▸ hx)⟩

/-- No row is added, and no write begins. -/
structure Fewer (w v : World) : Prop where
  minted : w.nextToken ≤ v.nextToken
  ram : ∀ t, w.sessions.get? t = none → v.sessions.get? t = none
  jobs : v.store.jobs = w.store.jobs
  file : v.store.file = w.store.file

/-- What was revoked stays so. -/
theorem Inv.revoked_kept {v : World} (h : Inv w) (hv : Fewer w v) {r : Revocation} (hr : r ∈ w.revocations)
    (ht : t ∈ r.tokens) : t < v.nextToken ∧ v.sessions.get? t = none ∧ ∀ a, r.asked = some a → Barred v a t := by
  obtain ⟨hm, hnone, hb⟩ := (h.revoked r hr).2 t ht
  exact ⟨Nat.lt_of_lt_of_le hm hv.minted, hv.ram t hnone, fun a ha =>
    (hb a ha).kept hv.minted (hv.ram t hnone) hv.jobs hv.file⟩

theorem Written.same {w' : World} (h : Written w' s) (hj : w'.store.jobs = w.store.jobs)
    (hf : w'.store.file = w.store.file) : Written w s := by
  rcases h with ⟨shot, hs, hm⟩ | ⟨g, xs, hx, hm⟩
  · exact .inl ⟨shot, carried_same hj hs, hm⟩
  · exact .inr ⟨g, xs, hf ▸ hx, hm⟩

/-- A mutation is counted. -/
theorem inv_bump (h : Inv w) : Inv { w with store := { w.store with gen := w.store.gen + 1 } } := by
  have hv : Fewer w { w with store := { w.store with gen := w.store.gen + 1 } } :=
    ⟨Nat.le_refl _, fun _ hn => hn, rfl, rfl⟩
  exact { h with
    ordered := Store.ordered_bump h.ordered
    shots := fun shot hs => h.shots shot (carried_same rfl hs)
    known := fun s hs => h.known s (hs.imp_right (·.same rfl rfl))
    slid := fun s r hs hr => h.slid s r (hs.same rfl rfl) hr
    revoked := fun r hr =>
      ⟨fun a ha => Nat.le_succ_of_le ((h.revoked r hr).1 a ha), fun _ ht => h.revoked_kept hv hr ht⟩ }

/-- Rows are dropped. -/
theorem inv_shrink (h : Inv w) (hd : Within d' w.sessions) {p : Dict ℕ ℕ}
    (hp : ∀ t e, p.get? t = some e → w.persistedExpires.get? t = some e) :
    Inv { w.setSessions d' with persistedExpires := p } := by
  have hnone : ∀ t, w.sessions.get? t = none → d'.get? t = none := fun t ht =>
    Option.eq_none_iff_forall_ne_some.2 fun s hs => by
      rw [hd t s hs] at ht
      cases ht
  have hv : Fewer w { w.setSessions d' with persistedExpires := p } := ⟨Nat.le_refl _, hnone, rfl, rfl⟩
  exact { h with
    ordered := Store.ordered_ram h.ordered d'
    keyed := hd.keyed h.keyed
    shots := fun shot hs => h.shots shot (carried_same rfl hs)
    known := fun s hs => h.known s (hs.imp (hd _ s) (·.same rfl rfl))
    slid := fun s r hs hr => h.slid s r (hs.same rfl rfl) (hd _ r hr)
    persisted := fun t e r he hr => h.persisted t e r (hp t e he) (hd t r hr)
    revoked := fun r hr => ⟨(h.revoked r hr).1, fun _ ht => h.revoked_kept hv hr ht⟩ }

/-- A token is minted, or used. -/
theorem inv_put (h : Inv w) {n : ℕ} {p : Dict ℕ ℕ} (hpos : 0 < s.token) (hlt : s.token < n) (hn : w.nextToken ≤ n)
    (hexp : s.expiresAt = w.now + w.ttl) (hlonger : ∀ r, Written w r → r.token = s.token → r.expiresAt ≤ s.expiresAt)
    (hfree : ∀ r ∈ w.revocations, s.token ∉ r.tokens) (hgap : Gapless w.ttl (w.now :: w.uses s.token))
    (hp : ∀ t e, p.get? t = some e → t = s.token ∧ e ≤ s.expiresAt ∨ t ≠ s.token ∧ w.persistedExpires.get? t = some e) :
    Inv (World.used { w.setSessions (w.sessions.set s.token s) with nextToken := n, persistedExpires := p } s.token) := by
  have huses : ∀ t, t ≠ s.token → Function.update w.uses s.token (w.now :: w.uses s.token) t = w.uses t :=
    fun t ht => Function.update_of_ne ht _ _
  refine { h with
    ordered := Store.ordered_ram h.ordered _
    keyed := h.keyed.set s
    shots := fun shot hs => h.shots shot (carried_same rfl hs)
    known := fun r hr => ?_
    slid := fun r q hr hq => ?_
    persisted := fun t e q he hq => ?_
    unminted := fun t ht => ?_
    minted := Nat.lt_of_lt_of_le h.minted hn
    gaps := fun t => ?_
    revoked := fun r hr => ⟨(h.revoked r hr).1, fun t ht => ?_⟩ }
  · by_cases ht : r.token = s.token
    · refine ⟨ht ▸ hpos, ht ▸ hlt, w.now, w.uses s.token, ?_, ?_⟩
      · change Function.update w.uses s.token (w.now :: w.uses s.token) r.token = w.now :: w.uses s.token
        rw [ht, Function.update_self]
      · rcases hr with hr | hr
        · change (w.sessions.set s.token s).get? r.token = _ at hr
          rw [ht, Dict.get?_set_self] at hr
          cases hr
          exact Nat.le_of_eq hexp
        · exact hexp ▸ hlonger r (hr.same rfl rfl) ht
    · have hr' : w.sessions.get? r.token = some r ∨ Written w r := by
        refine hr.imp (fun hr => ?_) (·.same rfl rfl)
        change (w.sessions.set s.token s).get? r.token = _ at hr
        rwa [Dict.get?_set_ne ht] at hr
      obtain ⟨h1, h2, u, us, hu, hle⟩ := h.known r hr'
      exact ⟨h1, Nat.lt_of_lt_of_le h2 hn, u, us, (huses _ ht).trans hu, hle⟩
  · change (w.sessions.set s.token s).get? r.token = _ at hq
    by_cases ht : r.token = s.token
    · rw [ht, Dict.get?_set_self] at hq
      cases hq
      exact hlonger r (hr.same rfl rfl) ht
    · rw [Dict.get?_set_ne ht] at hq
      exact h.slid r q (hr.same rfl rfl) hq
  · change (w.sessions.set s.token s).get? t = _ at hq
    rcases hp t e he with ⟨rfl, hle⟩ | ⟨ht, he⟩
    · rw [Dict.get?_set_self] at hq
      cases hq
      exact hle
    · rw [Dict.get?_set_ne ht] at hq
      exact h.persisted t e q he hq
  · have hne : t ≠ s.token := by
      rintro rfl
      exact absurd hlt (Nat.not_lt.2 ht)
    exact (huses t hne).trans (h.unminted t (Nat.le_trans hn ht))
  · by_cases ht : t = s.token
    · subst ht
      change Gapless w.ttl (Function.update w.uses s.token (w.now :: w.uses s.token) s.token) ∧
        ∀ u ∈ Function.update w.uses s.token (w.now :: w.uses s.token) s.token, u ≤ w.now
      rw [Function.update_self]
      refine ⟨hgap, fun u hu => ?_⟩
      rcases List.mem_cons.1 hu with rfl | hu
      · exact Nat.le_refl _
      · exact (h.gaps s.token).2 u hu
    · change Gapless w.ttl (Function.update w.uses s.token (w.now :: w.uses s.token) t) ∧
        ∀ u ∈ Function.update w.uses s.token (w.now :: w.uses s.token) t, u ≤ w.now
      rw [huses t ht]
      exact h.gaps t
  · have hne : t ≠ s.token := by
      rintro rfl
      exact hfree r hr ht
    obtain ⟨hm, hnone, hb⟩ := (h.revoked r hr).2 t ht
    have hnone' : (w.sessions.set s.token s).get? t = none := (Dict.get?_set_ne hne).trans hnone
    exact ⟨Nat.lt_of_lt_of_le hm hn, hnone', fun a ha => (hb a ha).kept hn hnone' rfl rfl⟩

/-! ### The methods -/

theorem inv_scheduleSave (h : Inv { w with store := { w.store with gen := w.store.gen + 1 } }) : Inv w.scheduleSave := by
  have h' := inv_flows h (Store.asyncDelaySave_flows _ 0) (Store.ordered_delaySave h.ordered 0)
  exact h'

theorem inv_saveNow (h : Inv { w with store := { w.store with gen := w.store.gen + 1 } }) : Inv w.saveNow := by
  have h' := inv_scheduleSave h
  exact inv_flows h' (Store.asyncSaveNow_flows _) (Store.ordered_saveNow h'.ordered)

theorem inv_create (h : Inv w) : Inv w.create := by
  have hnew : ∀ r, Written w r → r.token ≠ w.nextToken := fun r hr =>
    Nat.ne_of_lt (h.known r (.inr hr)).2.1
  refine inv_saveNow (inv_bump (inv_put (s := ⟨w.nextToken, w.now, w.now, w.now + w.ttl⟩) h h.minted
    (Nat.lt_succ_self _) (Nat.le_succ _) rfl (fun r hr ht => absurd ht (hnew r hr)) (fun r hr ht => ?_) ?_ fun t e he => ?_))
  · exact absurd ((h.revoked r hr).2 _ ht).1 (Nat.lt_irrefl _)
  · rw [h.unminted w.nextToken (Nat.le_refl _)]
    exact .singleton _
  · rw [Dict.get?_set] at he
    split at he
    · cases he
      exact .inl ⟨by assumption, Nat.le_refl _⟩
    · exact .inr ⟨by assumption, he⟩

/-- The next use is close to the last one. -/
theorem Known.close (hw : Inv w) (h : Known w s) (hx : s.isExpired w.now = false) :
    Gapless w.ttl (w.now :: w.uses s.token) := by
  obtain ⟨-, -, u, us, hu, hle⟩ := h
  obtain ⟨hchain, hpast⟩ := hw.gaps s.token
  rw [hu] at hchain hpast ⊢
  have hlt : w.now < s.expiresAt := by simpa [Session.isExpired] using hx
  have hup := hpast u (List.mem_cons_self ..)
  refine List.isChain_cons_cons.2 ⟨⟨hup, ?_⟩, hchain⟩
  omega

theorem inv_slide (h : Inv w) (ht : w.sessions.get? t = some s) (hx : s.isExpired w.now = false) {p : Dict ℕ ℕ}
    (hp : p = w.persistedExpires ∨ p = w.persistedExpires.set t (w.slide s).expiresAt) :
    Inv (World.used { w.setSessions (w.sessions.set t (w.slide s)) with persistedExpires := p } t) := by
  have htok : s.token = t := h.keyed t s ht
  subst htok
  have hk : Known w s := h.known s (.inl ht)
  obtain ⟨hpos, hlt, u, us, hu, hle⟩ := hk
  have hup : u ≤ w.now := (h.gaps s.token).2 u (by rw [hu]; exact List.mem_cons_self ..)
  have hgrow : s.expiresAt ≤ (w.slide s).expiresAt := Nat.le_trans hle (Nat.add_le_add_right hup _)
  refine inv_put (s := w.slide s) (n := w.nextToken) h hpos hlt (Nat.le_refl _) rfl
    (fun r hr hrt => Nat.le_trans (h.slid r s hr (by rw [hrt]; exact ht)) hgrow) (fun r hr hrt => ?_)
    (show Gapless w.ttl (w.now :: w.uses s.token) from Known.close h (h.known s (.inl ht)) hx) fun t e he => ?_
  · have := ((h.revoked r hr).2 _ hrt).2.1
    exact absurd (ht.symm.trans this) nofun
  · by_cases hte : t = s.token
    · refine .inl ⟨hte, ?_⟩
      rcases hp with rfl | rfl
      · subst hte
        exact Nat.le_trans (h.persisted _ e s he ht) hgrow
      · rw [hte, Dict.get?_set_self] at he
        cases he
        exact Nat.le_refl _
    · refine .inr ⟨hte, ?_⟩
      rcases hp with rfl | rfl
      · exact he
      · rwa [Dict.get?_set_ne hte] at he

theorem inv_validate (h : Inv w) (t : ℕ) : Inv (w.validate t).1 := by
  unfold World.validate
  split
  · exact h
  · split
    · exact h
    · rename_i s hs
      split
      · exact inv_scheduleSave (inv_bump (inv_shrink h (within_erase _ _) fun _ _ he => (Dict.of_get?_erase he).2))
      · rename_i hx
        have hx' : s.isExpired w.now = false := by simpa using hx
        simp only
        split
        · exact inv_scheduleSave (inv_bump (inv_slide h hs hx' (.inr rfl)))
        · exact inv_slide h hs hx' (.inl rfl)

/-- Tokens that are gone from RAM are noted, with the number of the mutation that dropped them. -/
theorem inv_noted (h : Inv w) {ts : List ℕ} (hts : ∀ t ∈ ts, t < w.nextToken ∧ w.sessions.get? t = none) {n : Option ℕ}
    (hn : ∀ a, n = some a → a = w.store.gen + 1) :
    Inv { w.noted ts n with store := { w.store with gen := w.store.gen + 1 } } := by
  have h' := inv_bump h
  have hv : Fewer w { w.noted ts n with store := { w.store with gen := w.store.gen + 1 } } :=
    ⟨Nat.le_refl _, fun _ hn => hn, rfl, rfl⟩
  refine { h' with revoked := fun r hr => ?_ }
  rcases List.mem_append.1 hr with hr | hr
  · exact ⟨(h'.revoked r hr).1, fun t ht => h.revoked_kept hv hr ht⟩
  · cases List.mem_singleton.1 hr
    refine ⟨fun a ha => Nat.le_of_eq (hn a ha), fun t ht => ⟨(hts t ht).1, (hts t ht).2, fun a ha => ?_⟩⟩
    -- what was taken so far is older
    refine ⟨(hts t ht).1, (hts t ht).2, fun shot hs hg => ?_, fun g xs hx hg => ?_⟩
    · obtain ⟨k, job, ⟨hk, hu⟩, rfl⟩ := hs
      have := h.ordered.ram k job hk
      rw [hn a ha] at hg
      omega
    · have hdisk := h.ordered.disk.1
      have hfile : w.store.file = some (g, xs) := hx
      unfold Store.fileGen at hdisk
      rw [hfile] at hdisk
      rw [hn a ha] at hg
      simp only [Option.map_some, Option.getD_some] at hdisk
      omega

theorem inv_revoke (h : Inv w) (t : ℕ) : Inv (w.revoke t) := by
  unfold World.revoke
  split
  · rename_i hnone
    split
    · rename_i hlt
      have hv : Fewer w (w.noted [t] none) := ⟨Nat.le_refl _, fun _ hn => hn, rfl, rfl⟩
      refine { h with revoked := fun r hr => ?_ }
      rcases List.mem_append.1 hr with hr | hr
      · exact ⟨(h.revoked r hr).1, fun x hx => h.revoked_kept hv hr hx⟩
      · cases List.mem_singleton.1 hr
        refine ⟨nofun, fun x hx => ?_⟩
        cases List.mem_singleton.1 hx
        exact ⟨hlt, hnone, nofun⟩
    · exact h
  · rename_i s hs
    have htok := h.keyed t s hs
    have hlt := (h.known s (.inl (by rw [htok]; exact hs))).2.1
    have hsh := inv_shrink h (within_erase _ t) (p := w.persistedExpires.erase t) fun _ _ he => (Dict.of_get?_erase he).2
    refine inv_saveNow (inv_noted hsh (fun x hx => ?_) fun a ha => (Option.some.inj ha).symm)
    cases List.mem_singleton.1 hx
    exact ⟨htok ▸ hlt, Dict.get?_erase_self⟩

theorem inv_revokeAll (h : Inv w) : Inv w.revokeAll := by
  have hsh := inv_shrink h (within_empty w.sessions) (p := ∅) nofun
  refine inv_saveNow (inv_noted hsh (fun x hx => ?_) fun a ha => (Option.some.inj ha).symm)
  exact ⟨List.mem_range.1 hx, rfl⟩

/-! ### A new process -/

theorem loaded_get? {readable : Bool} (h : (w.loaded readable).get? t = some s) :
    ∃ g xs, w.store.file = some (g, xs) ∧ s ∈ xs ∧ s.token = t := by
  unfold World.loaded at h
  cases hf : w.store.file with
  | none =>
    rw [hf] at h
    cases h
  | some f =>
    obtain ⟨g, xs⟩ := f
    rw [hf] at h
    cases readable with
    | false => cases h
    | true => exact ⟨g, xs, rfl, decode_get? h⟩

theorem restart_file {readable : Bool} {g : ℕ} (h : (w.restart readable).store.file = some (g, xs)) :
    ∃ g', w.store.file = some (g', xs) := by
  obtain ⟨⟨g', ys⟩, hf, he⟩ := Option.map_eq_some_iff.1 h
  cases he
  exact ⟨g', hf⟩

theorem restart_written {readable : Bool} (h : Written (w.restart readable) s) :
    ∃ g xs, w.store.file = some (g, xs) ∧ s ∈ xs := by
  rcases h with ⟨shot, ⟨k, job, ⟨hk, -⟩, -⟩, -⟩ | ⟨g, xs, hx, hm⟩
  · cases hk
  · obtain ⟨g', hf⟩ := restart_file hx
    exact ⟨g', xs, hf, hm⟩

theorem inv_restart (h : Inv w) (readable : Bool) : Inv (w.restart readable) := by
  refine { h with
    ordered := ?_
    keyed := fun t s hs => ?_
    shots := ?_
    nodup := fun g xs hx => ?_
    known := fun s hs => ?_
    slid := fun s r hs hr => ?_
    persisted := fun t e r he hr => ?_
    revoked := nofun }
  · have ho := Store.ordered_reopened (w.loaded readable) (w.store.file.map (·.2))
    rw [Option.map_map] at ho
    exact ho
  · obtain ⟨g, xs, -, -, ht⟩ := loaded_get? hs
    exact ht
  · rintro shot ⟨k, job, ⟨hk, -⟩, -⟩
    cases hk
  · obtain ⟨g', hf⟩ := restart_file hx
    exact h.nodup g' xs hf
  · refine h.known s (.inr (.inr ?_))
    rcases hs with hs | hs
    · obtain ⟨g, xs, hf, hm, -⟩ := loaded_get? hs
      exact ⟨g, xs, hf, hm⟩
    · exact restart_written hs
  · -- the file has one row for a token
    obtain ⟨g, xs, hf, hm⟩ := restart_written hs
    obtain ⟨g', ys, hf', hm', ht⟩ := loaded_get? hr
    cases hf.symm.trans hf'
    have heq : s = r := List.inj_on_of_nodup_map (h.nodup g xs hf) hm hm' ht.symm
    exact Nat.le_of_eq (congrArg _ heq)
  · obtain ⟨⟨k, s⟩, hm, he⟩ := List.mem_map.1 (Dict.get?_eq_some.1 he)
    obtain ⟨rfl, rfl⟩ := Prod.mk.inj he
    have hs : (w.loaded readable).get? k = some s := Dict.get?_eq_some.2 hm
    cases hs.symm.trans hr
    exact Nat.le_refl _

/-- The clock advances. -/
theorem inv_advance (h : Inv w) (d : ℕ) : Inv { w with now := w.now + d } := by
  have hv : Fewer w { w with now := w.now + d } := ⟨Nat.le_refl _, fun _ hn => hn, rfl, rfl⟩
  exact { h with
    known := fun s hs => h.known s hs
    gaps := fun t => ⟨(h.gaps t).1, fun u hu => Nat.le_trans ((h.gaps t).2 u hu) (Nat.le_add_right ..)⟩
    revoked := fun r hr => ⟨(h.revoked r hr).1, fun t ht => h.revoked_kept hv hr ht⟩ }

theorem inv_step (h : Inv w) (a : Action) : Inv (w.step a) := by
  cases a with
  | advance d => exact inv_advance h d
  | create => exact inv_create h
  | validate token => exact inv_validate h token
  | revoke token => exact inv_revoke h token
  | revokeAll => exact inv_revokeAll h
  | stop => exact inv_flows h (Store.asyncSaveNow_flows _) (Store.ordered_saveNow h.ordered)
  | tick => exact inv_flows h (.of_eq rfl rfl rfl rfl) { h.ordered with }
  | timerFires => exact inv_flows h (Store.timerFires_flows _) (Store.ordered_timerFires h.ordered)
  | resume i => exact inv_flows h (Store.resume_flows _ i) (Store.ordered_resume h.ordered i)
  | jobStarts k => exact inv_flows h (Store.jobStarts_flows _ k) (Store.ordered_jobStarts h.ordered k)
  | jobEnds k ok => exact inv_flows h (Store.jobEnds_flows _ k ok) (Store.ordered_jobEnds h.ordered k ok)
  | restart readable => exact inv_restart h readable

theorem inv_init (ttl now : ℕ) : Inv (World.init ttl now) where
  ordered := Store.ordered_fresh ∅
  keyed := nofun
  shots := by
    rintro shot ⟨k, job, ⟨hk, -⟩, -⟩
    cases hk
  nodup := nofun
  known := by
    rintro s (hs | ⟨shot, ⟨k, job, ⟨hk, -⟩, -⟩, -⟩ | ⟨g, xs, hx, -⟩)
    · cases hs
    · cases hk
    · cases hx
  slid := fun _ _ _ hr => nomatch hr
  persisted := nofun
  unminted := fun _ _ => rfl
  minted := Nat.one_pos
  gaps := fun _ => ⟨.nil, nofun⟩
  revoked := nofun

theorem inv_reachable {ttl now : ℕ} (h : Reaches World.step any (World.init ttl now) w) : Inv w :=
  h.invariant (inv_init ttl now) fun _ a _ hi => inv_step hi a

/-! ### A revocation on disk -/

/-- Token `t` is nowhere. -/
def Dead (w : World) (t : ℕ) : Prop := Barred w 0 t

/-- Once the file holds a snapshot taken since the revocation, no older one follows. -/
theorem Inv.dead (h : Inv w) {r : Revocation} (hr : r ∈ w.revocations) (hn : r.asked = some a)
    (ha : a ≤ w.store.fileGen) (ht : t ∈ r.tokens) : Dead w t := by
  obtain ⟨hm, hram, hb⟩ := (h.revoked r hr).2 t ht
  refine ⟨hm, hram, fun shot hs _ => ?_, fun g xs hx _ => ?_⟩
  · refine (hb a hn).carried shot hs ?_
    obtain ⟨k, job, hu, rfl⟩ := hs
    exact Nat.le_trans ha (h.ordered.older k job hu).1
  · refine (hb a hn).file g xs hx ?_
    unfold Store.fileGen at ha
    rw [hx] at ha
    exact ha

/-! ### The laws -/

/-- A login, written. -/
def login : List Action := [.create, .jobStarts 0, .jobEnds 0 true, .resume 0]

end DeviceBuilder.Auth
