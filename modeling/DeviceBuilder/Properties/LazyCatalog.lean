import DeviceBuilder.Helpers.LazyCatalog
import DeviceBuilder.Lib.Runs
import Mathlib.Data.Nat.Init
import Mathlib.Tactic.SplitIfs

/-!
# The lazy catalog store as a cache

A call that finds its id in the cache moves it to the end in a second operation,
and a call that finds the cache too large pops in a second one. An eviction by
another thread between the two makes the second raise `KeyError`. Runs without
such an eviction (`Unraced`) keep `Sound`: what is cached is what `load_one` gives,
a batch accounts for each of its ids, and some call is in its eviction loop
whenever the cache is too large.

* `advance_sound`: one operation of one call.
* `cache_transparent`: what follows for every run.
-/

namespace DeviceBuilder.Catalog

open Runs

variable {BodyT : Type*} {cfg : Config BodyT} {s s' : Shared BodyT} {i j : CallId}
  {c : Call BodyT} {pc pc' : Pc BodyT} {q : Batch} {catalogId id : CatalogId} {body b : BodyT}
  {todo seen toLoad rest : List CatalogId} {loaded : Dict CatalogId (Option BodyT)}
  {result : Dict CatalogId BodyT}

/-! ### What the calls are to return -/

/-- `body` is the body of a known id. -/
def Good (cfg : Config BodyT) (id : CatalogId) (body : BodyT) : Prop :=
  cfg.isKnown id = true ∧ cfg.loadOne id = some (some body)

/-- What a reader of one id is to return. -/
def Prescribed (cfg : Config BodyT) (id : CatalogId) : Option BodyT → Prop
  | some body => Good cfg id body
  | none => cfg.isKnown id = false ∨ cfg.loadOne id = some none

/-- What each call is to return. -/
def Returns (cfg : Config BodyT) : Call BodyT → Result BodyT → Prop
  | .get id, .body r => Prescribed cfg id r
  | .getSync id, .body r => Prescribed cfg id r
  | .getMany ids, .bodies d => ∀ id body, d.get? id = some body ↔ id ∈ ids ∧ Good cfg id body
  | .tryGetCached id, .body r => ∀ body, r = some body → Good cfg id body
  | .cachePut _ _, .unit => True
  | _, _ => False

/-- The ids a call asks for. -/
def Call.ids : Call BodyT → List CatalogId
  | .get id | .getSync id | .tryGetCached id | .cachePut id _ => [id]
  | .getMany ids => ids

def Reader.call : Reader → CatalogId → Call BodyT
  | .get, id => .get id
  | .sync, id => .getSync id
  | .probe, id => .tryGetCached id

def Batch.call : Batch → Call BodyT
  | .one id => .get id
  | .all ids => .getMany ids

theorem Batch.ids_call (q : Batch) : (q.call : Call BodyT).ids = q.ids := by cases q <;> rfl

/-! ### What a call in progress knows -/

/-- A batch being scanned: every id is still to come, unknown, to be loaded, or found. -/
structure Scanning (cfg : Config BodyT) (q : Batch) (todo seen toLoad : List CatalogId)
    (result : Dict CatalogId BodyT) : Prop where
  covered : ∀ id ∈ q.ids, id ∈ todo ∨ cfg.isKnown id = false ∨ id ∈ toLoad ∨
    ∃ b, result.get? id = some b
  once : ∀ id ∈ seen, id ∈ toLoad ∨ ∃ b, result.get? id = some b
  sound : ∀ id b, result.get? id = some b → id ∈ q.ids ∧ Good cfg id b
  wanted : ∀ id ∈ toLoad, id ∈ q.ids ∧ cfg.isKnown id = true
  left : ∀ id ∈ todo, id ∈ q.ids

/-- A batch being loaded. -/
structure Fetching (cfg : Config BodyT) (q : Batch) (todo toLoad : List CatalogId)
    (loaded : Dict CatalogId (Option BodyT)) (result : Dict CatalogId BodyT) : Prop where
  covered : ∀ id ∈ q.ids, cfg.isKnown id = false ∨ id ∈ toLoad ∨ ∃ b, result.get? id = some b
  sound : ∀ id b, result.get? id = some b → id ∈ q.ids ∧ Good cfg id b
  wanted : ∀ id ∈ toLoad, id ∈ q.ids ∧ cfg.isKnown id = true
  left : ∀ id ∈ todo, id ∈ toLoad
  split : ∀ id ∈ toLoad, id ∈ todo ∨ ∃ x, loaded.get? id = some x
  agrees : ∀ id x, loaded.get? id = some x → cfg.loadOne id = some x

/-- A loaded batch being stored: every id is still to come, unknown, without a body, or found. -/
structure Storing (cfg : Config BodyT) (q : Batch) (rest : List CatalogId)
    (loaded : Dict CatalogId (Option BodyT)) (result : Dict CatalogId BodyT) : Prop where
  covered : ∀ id ∈ q.ids, cfg.isKnown id = false ∨ id ∈ rest ∨ cfg.loadOne id = some none ∨
    ∃ b, result.get? id = some b
  sound : ∀ id b, result.get? id = some b → id ∈ q.ids ∧ Good cfg id b
  left : ∀ id ∈ rest, (id ∈ q.ids ∧ cfg.isKnown id = true) ∧ ∃ x, loaded.get? id = some x
  agrees : ∀ id x, loaded.get? id = some x → cfg.loadOne id = some x

/-- What a call in its eviction loop goes on with. -/
def Continues (cfg : Config BodyT) (c : Call BodyT) : After BodyT → Prop
  | .sync id body => c = .getSync id ∧ Good cfg id body
  | .put => ∃ id body, c = .cachePut id body
  | .store q id body rest loaded result =>
    c = q.call ∧ Storing cfg q rest loaded (result.set id body)

/-- What holds of a call at each of its operations. -/
def Stands (cfg : Config BodyT) (c : Call BodyT) : Pc BodyT → Prop
  | .read r id => c = r.call id
  | .touch r id body => c = r.call id ∧ Good cfg id body
  | .lock q => c = q.call
  | .scan q todo seen toLoad result => c = q.call ∧ Scanning cfg q todo seen toLoad result
  | .scanTouch q id body todo seen toLoad result =>
    c = q.call ∧ Scanning cfg q todo seen toLoad (result.set id body)
  | .fetch q todo toLoad loaded result => c = q.call ∧ Fetching cfg q todo toLoad loaded result
  | .store q rest loaded result => c = q.call ∧ Storing cfg q rest loaded result
  | .load id => c = .getSync id ∧ cfg.isKnown id = true
  | .put id body k => Good cfg id body ∧ Continues cfg c k
  | .measure k | .evict k => Continues cfg c k
  | .returned r => Returns cfg c r
  | .loadError => ∃ id ∈ c.ids, cfg.loadOne id = none
  | .keyError => False

/-- The key a call has read and is about to move. -/
def Pc.awaits : Pc BodyT → Option CatalogId
  | .touch _ id _ | .scanTouch _ id _ _ _ _ _ => some id
  | _ => none

/-- A call in its eviction loop. -/
def Pc.evicting : Pc BodyT → Bool
  | .measure _ | .evict _ => true
  | _ => false

/-- **The invariant.** -/
structure Sound (cfg : Config BodyT) (s : Shared BodyT) : Prop where
  cache : ∀ {id b}, s.cache.get? id = some b → Good cfg id b
  stands : ∀ {i c pc}, s.calls i = some (c, pc) → Stands cfg c pc
  held : ∀ {i c pc id}, s.calls i = some (c, pc) → pc.awaits = some id → s.cache.get? id ≠ none
  bound : s.cache.size ≤ cfg.cacheMaxsize ∨
    ∃ i c pc, s.calls i = some (c, pc) ∧ pc.evicting = true

/-- **No eviction hits another call between its two operations**: a `popitem` does not take the
key another call has read and is about to move, and it does not come after the other calls have
popped the cache empty. -/
def Unraced (s : Shared BodyT) : Action BodyT → Prop
  | .start _ _ => True
  | .run i => ∀ c k, s.calls i = some (c, .evict k) → s.cache.size ≠ 0 ∧
      ∀ j c' pc, s.calls j = some (c', pc) → ∀ id, pc.awaits = some id → s.cache.first? ≠ some id

/-- The steps of a run: bodies are put as they were loaded, and no eviction races. -/
def Step.ok (cfg : Config BodyT) (s : Shared BodyT) (a : Action BodyT) : Prop :=
  a.proper cfg ∧ Unraced s a

/-! ### A batch, operation by operation -/

theorem Scanning.start : Scanning cfg q q.ids [] [] ∅ where
  covered _ h := .inl h
  once := nofun
  sound := nofun
  wanted := nofun
  left _ h := h

/-- An id that is skipped: it was seen before, or is unknown. -/
theorem Scanning.skip (h : Scanning cfg q (catalogId :: todo) seen toLoad result)
    (hs : catalogId ∈ seen ∨ cfg.isKnown catalogId = false) :
    Scanning cfg q todo seen toLoad result where
  covered id hid := by
    rcases h.covered id hid with hm | hm
    · rcases List.mem_cons.1 hm with rfl | hm
      · rcases hs with hs | hs
        · exact .inr (.inr (h.once _ hs))
        · exact .inr (.inl hs)
      · exact .inl hm
    · exact .inr hm
  once := h.once
  sound := h.sound
  wanted := h.wanted
  left id hid := h.left id (List.mem_cons_of_mem _ hid)

theorem get?_set_some {d : Dict CatalogId BodyT} (h : ∃ b, d.get? id = some b) :
    ∃ b, (d.set catalogId body).get? id = some b := by
  rw [Dict.get?_set]
  split_ifs
  · exact ⟨_, rfl⟩
  · exact h

/-- An id found in the cache. -/
theorem Scanning.hit (h : Scanning cfg q (catalogId :: todo) seen toLoad result)
    (hg : Good cfg catalogId body) :
    Scanning cfg q todo (catalogId :: seen) toLoad (result.set catalogId body) where
  covered id hid := by
    rcases h.covered id hid with hm | hm | hm | hm
    · rcases List.mem_cons.1 hm with rfl | hm
      · exact .inr (.inr (.inr ⟨body, Dict.get?_set_self⟩))
      · exact .inl hm
    · exact .inr (.inl hm)
    · exact .inr (.inr (.inl hm))
    · exact .inr (.inr (.inr (get?_set_some hm)))
  once id hid := by
    rcases List.mem_cons.1 hid with rfl | hid
    · exact .inr ⟨body, Dict.get?_set_self⟩
    · exact (h.once id hid).imp_right get?_set_some
  sound id b hb := by
    rw [Dict.get?_set] at hb
    split_ifs at hb with he
    · subst he
      cases hb
      exact ⟨h.left _ List.mem_cons_self, hg⟩
    · exact h.sound id b hb
  wanted := h.wanted
  left id hid := h.left id (List.mem_cons_of_mem _ hid)

/-- An id to be loaded. -/
theorem Scanning.queue (h : Scanning cfg q (catalogId :: todo) seen toLoad result)
    (hk : cfg.isKnown catalogId = true) :
    Scanning cfg q todo (catalogId :: seen) (toLoad ++ [catalogId]) result where
  covered id hid := by
    rcases h.covered id hid with hm | hm | hm | hm
    · rcases List.mem_cons.1 hm with rfl | hm
      · exact .inr (.inr (.inl (List.mem_append_right _ List.mem_cons_self)))
      · exact .inl hm
    · exact .inr (.inl hm)
    · exact .inr (.inr (.inl (List.mem_append_left _ hm)))
    · exact .inr (.inr (.inr hm))
  once id hid := by
    rcases List.mem_cons.1 hid with rfl | hid
    · exact .inl (List.mem_append_right _ List.mem_cons_self)
    · exact (h.once id hid).imp_left (List.mem_append_left _)
  sound := h.sound
  wanted id hid := by
    rcases List.mem_append.1 hid with hid | hid
    · exact h.wanted id hid
    · rw [List.mem_singleton.1 hid]
      exact ⟨h.left _ List.mem_cons_self, hk⟩
  left id hid := h.left id (List.mem_cons_of_mem _ hid)

theorem Scanning.fetch (h : Scanning cfg q [] seen toLoad result) :
    Fetching cfg q toLoad toLoad ∅ result where
  covered id hid := (h.covered id hid).resolve_left List.not_mem_nil
  sound := h.sound
  wanted := h.wanted
  left _ hid := hid
  split _ hid := .inl hid
  agrees := nofun

theorem Fetching.load (h : Fetching cfg q (catalogId :: todo) toLoad loaded result)
    {x : Option BodyT} (hx : cfg.loadOne catalogId = some x) :
    Fetching cfg q todo toLoad (loaded.set catalogId x) result where
  covered := h.covered
  sound := h.sound
  wanted := h.wanted
  left id hid := h.left id (List.mem_cons_of_mem _ hid)
  split id hid := by
    rw [Dict.get?_set]
    split_ifs with he
    · exact .inr ⟨x, rfl⟩
    · exact (h.split id hid).imp_left fun hm => (List.mem_cons.1 hm).resolve_left he
  agrees id y hy := by
    rw [Dict.get?_set] at hy
    split_ifs at hy with he
    · cases hy
      rw [he, hx]
    · exact h.agrees id y hy

theorem Fetching.store (h : Fetching cfg q [] toLoad loaded result) :
    Storing cfg q toLoad loaded result where
  covered id hid := by
    rcases h.covered id hid with hm | hm | hm
    · exact .inl hm
    · exact .inr (.inl hm)
    · exact .inr (.inr (.inr hm))
  sound := h.sound
  left id hid := ⟨h.wanted id hid, (h.split id hid).resolve_left List.not_mem_nil⟩
  agrees := h.agrees

/-- A body that was not there. -/
theorem Storing.skip (h : Storing cfg q (catalogId :: rest) loaded result)
    (hn : (loaded.get? catalogId).join = none) : Storing cfg q rest loaded result where
  covered id hid := by
    rcases h.covered id hid with hm | hm | hm
    · exact .inl hm
    · rcases List.mem_cons.1 hm with rfl | hm
      · obtain ⟨x, hx⟩ := (h.left id List.mem_cons_self).2
        rw [hx] at hn
        have hx' := h.agrees _ _ hx
        rw [show x = none from hn] at hx'
        exact .inr (.inr (.inl hx'))
      · exact .inr (.inl hm)
    · exact .inr (.inr hm)
  sound := h.sound
  left id hid := h.left id (List.mem_cons_of_mem _ hid)
  agrees := h.agrees

/-- A body that goes to the cache and the result. -/
theorem Storing.keep (h : Storing cfg q (catalogId :: rest) loaded result)
    (hs : (loaded.get? catalogId).join = some body) :
    Good cfg catalogId body ∧ Storing cfg q rest loaded (result.set catalogId body) := by
  obtain ⟨⟨hq, hk⟩, _⟩ := h.left catalogId List.mem_cons_self
  have hg : Good cfg catalogId body := ⟨hk, h.agrees _ _ (Option.join_eq_some_iff.1 hs)⟩
  refine ⟨hg, ⟨fun id hid => ?_, fun id b hb => ?_, fun id hid => ?_, h.agrees⟩⟩
  · rcases h.covered id hid with hm | hm | hm | hm
    · exact .inl hm
    · rcases List.mem_cons.1 hm with rfl | hm
      · exact .inr (.inr (.inr ⟨body, Dict.get?_set_self⟩))
      · exact .inr (.inl hm)
    · exact .inr (.inr (.inl hm))
    · exact .inr (.inr (.inr (get?_set_some hm)))
  · rw [Dict.get?_set] at hb
    split_ifs at hb with he
    · subst he
      cases hb
      exact ⟨hq, hg⟩
    · exact h.sound id b hb
  · exact h.left id (List.mem_cons_of_mem _ hid)

/-- **A batch returns what is prescribed**, once every id is accounted for. -/
theorem returns_finish (hc : c = q.call)
    (hcov : ∀ id ∈ q.ids, cfg.isKnown id = false ∨ cfg.loadOne id = some none ∨
      ∃ b, result.get? id = some b)
    (hsound : ∀ id b, result.get? id = some b → id ∈ q.ids ∧ Good cfg id b) :
    Returns cfg c (q.answer result) := by
  subst hc
  cases q with
  | one id =>
    show Prescribed cfg id (result.get? id)
    rcases hcov id List.mem_cons_self with hm | hm | ⟨b, hb⟩
    · cases hr : result.get? id with
      | none => exact .inl hm
      | some b =>
        have hg := (hsound id b hr).2.1
        rw [hm] at hg
        cases hg
    · cases hr : result.get? id with
      | none => exact .inr hm
      | some b =>
        have hg := (hsound id b hr).2.2
        rw [hm] at hg
        cases hg
    · rw [hb]
      exact (hsound id b hb).2
  | all ids =>
    intro id b
    refine ⟨hsound id b, fun ⟨hid, hk, hl⟩ => ?_⟩
    rcases hcov id hid with hm | hm | ⟨b', hb⟩
    · rw [hk] at hm
      cases hm
    · rw [hl] at hm
      cases hm
    · have hl' := (hsound id b' hb).2.2
      rw [hl] at hl'
      cases hl'
      exact hb

/-! ### One operation of one call -/

/-- What one operation of call `i` leaves: the call stands further on, and of the cached keys
only the one it evicted is gone. -/
structure Advanced (cfg : Config BodyT) (s s' : Shared BodyT) (i : CallId) (c : Call BodyT)
    (pc pc' : Pc BodyT) : Prop where
  calls : s'.calls = Function.update s.calls i (some (c, pc'))
  stands : Stands cfg c pc'
  cache : ∀ {id b}, s'.cache.get? id = some b → Good cfg id b
  keeps : ∀ {id}, s.cache.get? id ≠ none → s'.cache.get? id ≠ none ∨
    (∃ k, pc = .evict k) ∧ s.cache.first? = some id
  held : ∀ {id}, pc'.awaits = some id → s'.cache.get? id ≠ none
  bound : pc'.evicting = true ∨ s'.cache.size ≤ cfg.cacheMaxsize ∨
    pc.evicting = false ∧ s'.cache.size ≤ s.cache.size

/-- An operation that does not change the cache, outside the eviction loop. -/
theorem Advanced.local (h : Sound cfg s) (hs : s' = { s with
      calls := Function.update s.calls i (some (c, pc')), holder := s'.holder })
    (hst : Stands cfg c pc') (hev : pc.evicting = false) (haw : pc'.awaits = none) :
    Advanced cfg s s' i c pc pc' := by
  rw [hs]
  exact ⟨rfl, hst, h.cache, .inl, fun ha => absurd (haw ▸ ha) nofun, .inr (.inr ⟨hev, Nat.le_refl _⟩)⟩

/-- A hit: the key is there, to be moved by the next operation. -/
theorem Advanced.hit (h : Sound cfg s) (hb : s.cache.get? id = some body)
    (hst : Stands cfg c pc') (hev : pc.evicting = false) (haw : pc'.awaits = some id) :
    Advanced cfg s (s.goto i c pc') i c pc pc' := by
  refine ⟨rfl, hst, h.cache, .inl, fun {id'} ha => ?_, .inr (.inr ⟨hev, Nat.le_refl _⟩)⟩
  rw [haw] at ha
  cases ha
  exact fun hn => nomatch hn.symm.trans hb

/-- A move to the end. -/
theorem Advanced.move (h : Sound cfg s) {cache : Dict CatalogId BodyT}
    (hm : s.cache.moveToEnd id = some cache) (hst : Stands cfg c pc')
    (hev : pc.evicting = false) (haw : pc'.awaits = none) :
    Advanced cfg s ({ s with cache }.goto i c pc') i c pc pc' := by
  refine ⟨rfl, hst, fun hb => ?_, fun hk => .inl ?_, fun ha => absurd (haw ▸ ha) nofun,
    .inr (.inr ⟨hev, Nat.le_of_eq (Dict.size_moveToEnd hm)⟩)⟩
  · exact h.cache ((Dict.get?_moveToEnd hm).symm.trans hb)
  · exact fun hn => hk ((Dict.get?_moveToEnd hm).symm.trans hn)

/-- An assignment, which enters the eviction loop. -/
theorem Advanced.assign (h : Sound cfg s) (hg : Good cfg id body) {k : After BodyT}
    (hst : Continues cfg c k) :
    Advanced cfg s ({ s with cache := s.cache.set id body }.goto i c (.measure k)) i c pc
      (.measure k) := by
  refine ⟨rfl, hst, fun {id' b} hb => ?_, fun hk => .inl fun hn => ?_, nofun, .inl rfl⟩
  · have hb' : (s.cache.set id body).get? id' = some b := hb
    rw [Dict.get?_set] at hb'
    split_ifs at hb' with he
    · cases hb'
      rw [he]
      exact hg
    · exact h.cache hb'
  · have hn' : (s.cache.set id body).get? _ = none := hn
    rw [Dict.get?_set] at hn'
    split_ifs at hn'
    exact hk hn'

/-- **One operation** keeps what holds of its call, if the eviction it may do finds a key. -/
theorem advance_sound (h : Sound cfg s) (hi : s.calls i = some (c, pc))
    (hfull : ∀ k, pc = .evict k → s.cache.size ≠ 0) :
    s.advance cfg i c pc = s ∨ ∃ pc', Advanced cfg s (s.advance cfg i c pc) i c pc pc' := by
  have hst := h.stands hi
  cases pc with
  | read r id =>
    unfold Shared.advance
    dsimp only
    cases hg : s.cache.get? id with
    | some body => exact .inr ⟨_, Advanced.hit h hg ⟨hst, h.cache hg⟩ rfl rfl⟩
    | none =>
      have hc : c = r.call id := hst
      subst hc
      unfold Shared.miss
      cases r with
      | probe => exact .inr ⟨_, Advanced.local h rfl nofun rfl rfl⟩
      | get =>
        dsimp only
        cases hk : cfg.isKnown id with
        | true => exact .inr ⟨_, Advanced.local h rfl rfl rfl rfl⟩
        | false => exact .inr ⟨_, Advanced.local h rfl (.inl hk) rfl rfl⟩
      | sync =>
        dsimp only
        cases hk : cfg.isKnown id with
        | true => exact .inr ⟨_, Advanced.local h rfl ⟨rfl, hk⟩ rfl rfl⟩
        | false => exact .inr ⟨_, Advanced.local h rfl (.inl hk) rfl rfl⟩
  | touch r id body =>
    obtain ⟨rfl, hg⟩ := hst
    unfold Shared.advance
    dsimp only
    cases hm : s.cache.moveToEnd id with
    | none => exact absurd (Dict.moveToEnd_eq_none.1 hm) (h.held hi rfl)
    | some cache =>
      refine .inr ⟨_, Advanced.move h hm ?_ rfl rfl⟩
      cases r with
      | get => exact hg
      | sync => exact hg
      | probe =>
        intro b hb
        cases hb
        exact hg
  | lock q =>
    unfold Shared.advance
    dsimp only
    cases hh : s.holder with
    | none => exact .inr ⟨_, Advanced.local h rfl ⟨hst, Scanning.start⟩ rfl rfl⟩
    | some j => exact .inl rfl
  | scan q todo seen toLoad result =>
    obtain ⟨hc, hscan⟩ := hst
    cases todo with
    | nil =>
      unfold Shared.advance
      dsimp only
      by_cases he : toLoad = []
      · rw [if_pos he]
        refine .inr ⟨_, Advanced.local h rfl ?_ rfl rfl⟩
        refine returns_finish hc (fun id hid => ?_) hscan.sound
        rcases hscan.covered id hid with hm | hm | hm | hm
        · exact absurd hm List.not_mem_nil
        · exact .inl hm
        · exact absurd (he ▸ hm) List.not_mem_nil
        · exact .inr (.inr hm)
      · rw [if_neg he]
        exact .inr ⟨_, Advanced.local h rfl ⟨hc, hscan.fetch⟩ rfl rfl⟩
    | cons id todo =>
      unfold Shared.advance
      dsimp only
      by_cases hs : id ∈ seen ∨ cfg.isKnown id = false
      · rw [if_pos hs]
        exact .inr ⟨_, Advanced.local h rfl ⟨hc, hscan.skip hs⟩ rfl rfl⟩
      · rw [if_neg hs]
        have hk : cfg.isKnown id = true := by
          rw [not_or] at hs
          simpa using hs.2
        cases hg : s.cache.get? id with
        | some body => exact .inr ⟨_, Advanced.hit h hg ⟨hc, hscan.hit (h.cache hg)⟩ rfl rfl⟩
        | none => exact .inr ⟨_, Advanced.local h rfl ⟨hc, hscan.queue hk⟩ rfl rfl⟩
  | scanTouch q id body todo seen toLoad result =>
    unfold Shared.advance
    dsimp only
    cases hm : s.cache.moveToEnd id with
    | none => exact absurd (Dict.moveToEnd_eq_none.1 hm) (h.held hi rfl)
    | some cache => exact .inr ⟨_, Advanced.move h hm hst rfl rfl⟩
  | fetch q todo toLoad loaded result =>
    obtain ⟨hc, hf⟩ := hst
    cases todo with
    | nil => exact .inr ⟨_, Advanced.local h rfl ⟨hc, hf.store⟩ rfl rfl⟩
    | cons id todo =>
      unfold Shared.advance
      dsimp only
      cases hl : cfg.loadOne id with
      | none =>
        have hid : id ∈ c.ids := by
          rw [hc, Batch.ids_call]
          exact (hf.wanted id (hf.left id List.mem_cons_self)).1
        exact .inr ⟨_, Advanced.local h rfl ⟨id, hid, hl⟩ rfl rfl⟩
      | some x => exact .inr ⟨_, Advanced.local h rfl ⟨hc, hf.load hl⟩ rfl rfl⟩
  | store q rest loaded result =>
    obtain ⟨hc, hstore⟩ := hst
    cases rest with
    | nil =>
      refine .inr ⟨_, Advanced.local h rfl ?_ rfl rfl⟩
      refine returns_finish hc (fun id hid => ?_) hstore.sound
      rcases hstore.covered id hid with hm | hm | hm
      · exact .inl hm
      · exact absurd hm List.not_mem_nil
      · exact .inr hm
    | cons id rest =>
      unfold Shared.advance
      dsimp only
      cases hj : (loaded.get? id).join with
      | none => exact .inr ⟨_, Advanced.local h rfl ⟨hc, hstore.skip hj⟩ rfl rfl⟩
      | some body =>
        obtain ⟨hg, hnext⟩ := hstore.keep hj
        exact .inr ⟨_, Advanced.assign h hg ⟨hc, hnext⟩⟩
  | load id =>
    obtain ⟨rfl, hk⟩ := hst
    unfold Shared.advance
    dsimp only
    rcases hl : cfg.loadOne id with _ | _ | body
    · exact .inr ⟨_, Advanced.local h rfl ⟨id, List.mem_cons_self, hl⟩ rfl rfl⟩
    · exact .inr ⟨_, Advanced.local h rfl (.inr hl) rfl rfl⟩
    · exact .inr ⟨_, Advanced.local h rfl ⟨⟨hk, hl⟩, rfl, hk, hl⟩ rfl rfl⟩
  | put id body k =>
    obtain ⟨hg, hk⟩ := hst
    exact .inr ⟨_, Advanced.assign h hg hk⟩
  | measure k =>
    unfold Shared.advance
    dsimp only
    by_cases hsize : s.cache.size > cfg.cacheMaxsize
    · rw [if_pos hsize]
      exact .inr ⟨_, rfl, hst, h.cache, .inl, nofun, .inl rfl⟩
    · rw [if_neg hsize]
      have hle : s.cache.size ≤ cfg.cacheMaxsize := Nat.le_of_not_gt hsize
      unfold Shared.resume
      cases k with
      | sync id body =>
        obtain ⟨rfl, hg⟩ := hst
        exact .inr ⟨_, rfl, hg, h.cache, .inl, nofun, .inr (.inl hle)⟩
      | put =>
        obtain ⟨id, body, rfl⟩ := hst
        exact .inr ⟨_, rfl, trivial, h.cache, .inl, nofun, .inr (.inl hle)⟩
      | store q id body rest loaded result =>
        exact .inr ⟨_, rfl, hst, h.cache, .inl, nofun, .inr (.inl hle)⟩
  | evict k =>
    unfold Shared.advance
    dsimp only
    cases hp : s.cache.popFirst with
    | none => exact absurd (Dict.popFirst_eq_none.1 hp) (hfull k rfl)
    | some cache =>
      refine .inr ⟨.measure k, rfl, hst, fun hb => ?_, fun {id} hk => ?_, nofun, .inl rfl⟩
      · exact h.cache (Dict.get?_of_popFirst hp hb)
      · by_cases hf : s.cache.first? = some id
        · exact .inr ⟨⟨k, rfl⟩, hf⟩
        · refine .inl fun hn => hk ?_
          exact (Dict.get?_popFirst hp hf).symm.trans hn
  | returned r => exact .inl rfl
  | loadError => exact .inl rfl
  | keyError => exact .inl rfl

/-! ### Runs -/

@[simp] theorem calls_goto : (s.goto i c pc).calls j = if j = i then some (c, pc) else s.calls j :=
  Function.update_apply ..

/-- **One step** keeps the invariant; the calls that do not move keep the keys they wait for,
since an eviction takes none of them. -/
theorem Sound.advance (h : Sound cfg s) (hi : s.calls i = some (c, pc))
    (hu : Unraced s (.run i)) (ha : Advanced cfg s s' i c pc pc') : Sound cfg s' := by
  refine ⟨ha.cache, fun {j d p} hj => ?_, fun {j d p id} hj haw => ?_, ?_⟩
  · rw [ha.calls, Function.update_apply] at hj
    split_ifs at hj with he
    · cases hj
      exact ha.stands
    · exact h.stands hj
  · rw [ha.calls, Function.update_apply] at hj
    split_ifs at hj with he
    · cases hj
      exact ha.held haw
    · rcases ha.keeps (h.held hj haw) with hk | ⟨⟨k, rfl⟩, hf⟩
      · exact hk
      · exact absurd hf ((hu c k hi).2 j d p hj id haw)
  · rcases ha.bound with he | hle | ⟨hev, hle⟩
    · exact .inr ⟨i, c, pc', by rw [ha.calls, Function.update_self], he⟩
    · exact .inl hle
    · rcases h.bound with hb | ⟨j, d, p, hj, hp⟩
      · exact .inl (Nat.le_trans hle hb)
      · have hne : j ≠ i := by
          rintro rfl
          rw [hi] at hj
          cases hj
          rw [hev] at hp
          cases hp
        exact .inr ⟨j, d, p, by rw [ha.calls, Function.update_of_ne hne]; exact hj, hp⟩

theorem Sound.begin (h : Sound cfg s) (hn : s.calls i = none) (hp : (Action.start i c).proper cfg) :
    Sound cfg (s.goto i c (.start c)) := by
  have hst : Stands cfg c (.start c) ∧ (Pc.start c).awaits = none := by
    cases c with
    | get id => exact ⟨rfl, rfl⟩
    | getMany ids => exact ⟨rfl, rfl⟩
    | getSync id => exact ⟨rfl, rfl⟩
    | tryGetCached id => exact ⟨rfl, rfl⟩
    | cachePut id body => exact ⟨⟨hp, id, body, rfl⟩, rfl⟩
  refine ⟨h.cache, fun {j d p} hj => ?_, fun {j d p id} hj haw => ?_, ?_⟩
  · rw [calls_goto] at hj
    split_ifs at hj with he
    · cases hj
      exact hst.1
    · exact h.stands hj
  · rw [calls_goto] at hj
    split_ifs at hj with he
    · cases hj
      rw [hst.2] at haw
      cases haw
    · exact h.held hj haw
  · refine h.bound.imp_right fun ⟨j, d, p, hj, hev⟩ => ⟨j, d, p, ?_, hev⟩
    have hne : j ≠ i := by
      rintro rfl
      rw [hn] at hj
      cases hj
    rw [calls_goto, if_neg hne]
    exact hj

theorem Sound.step {a : Action BodyT} (h : Sound cfg s) (ha : Step.ok cfg s a) :
    Sound cfg (s.step cfg a) := by
  obtain ⟨hp, hu⟩ := ha
  cases a with
  | start i c =>
    unfold Shared.step
    dsimp only
    cases hn : s.calls i with
    | none => exact h.begin hn hp
    | some _ => exact h
  | run i =>
    rcases hi : s.calls i with _ | ⟨c, pc⟩
    · simp only [Shared.step, hi]
      exact h
    · have hfull : ∀ k, pc = .evict k → s.cache.size ≠ 0 := by
        rintro k rfl
        exact (hu c k hi).1
      simp only [Shared.step, hi]
      rcases advance_sound h hi hfull with he | ⟨pc', ha⟩
      · rw [he]
        exact h
      · exact h.advance hi hu ha

theorem Sound.empty : Sound cfg ({} : Shared BodyT) :=
  ⟨nofun, nofun, nofun, .inl (Nat.zero_le _)⟩

/-- **The store is a transparent bounded cache** in every run without a racing eviction: no
`KeyError`, an exception only where `load_one` raises for an id of the call, every result as
prescribed, and between calls a cache within its bound that holds what `load_one` gives. -/
theorem cache_transparent (cfg : Config BodyT) (s : Shared BodyT)
    (h : Reaches (Shared.step cfg) (Step.ok cfg) {} s) :
    (∀ i c, s.calls i ≠ some (c, .keyError)) ∧
    (∀ i c, s.calls i = some (c, .loadError) → ∃ id ∈ c.ids, cfg.loadOne id = none) ∧
    (∀ i c r, s.calls i = some (c, .returned r) → Returns cfg c r) ∧
    ((∀ i c pc, s.calls i = some (c, pc) → pc.finished = true) →
      s.cache.size ≤ cfg.cacheMaxsize ∧
        ∀ id b, s.cache.get? id = some b → cfg.loadOne id = some (some b)) := by
  have hs : Sound cfg s := h.invariant (I := Sound cfg) Sound.empty fun _ _ ha hs => hs.step ha
  refine ⟨fun i c hi => hs.stands hi, fun i c hi => hs.stands hi, fun i c r hi => hs.stands hi,
    fun hdone => ⟨?_, fun id b hb => (hs.cache hb).2⟩⟩
  rcases hs.bound with hb | ⟨i, c, pc, hi, hev⟩
  · exact hb
  · have hfin := hdone i c pc hi
    cases pc <;> cases hev <;> cases hfin

/-- A store of at most `n + 1` bodies, where every id has one. -/
def room (n : ℕ) : Config Unit where
  loadOne _ := some (some ())
  isKnown _ := true
  cacheMaxsize := n + 1
  cacheMaxsize_pos := Nat.succ_pos n

/-- A call starts, and goes on by so many operations. -/
def going (i : CallId) (c : Call Unit) (n : ℕ) : List (Action Unit) :=
  .start i c :: List.replicate n (.run i)

/-- The next operation of the call is not a `popitem`, and the call is no `cache_put`. -/
def pops (s : Shared Unit) : Action Unit → Bool
  | .start _ (.cachePut _ _) => true
  | .start _ _ => false
  | .run i => match s.calls i with
    | some (_, .evict _) => true
    | _ => false

theorem cache_transparent_in_turn :
    let s := (going 0 (.getSync "a") 4 ++ going 1 (.getMany ["b", "a", "b"]) 13).foldl
      (Shared.step (room 1)) {}
    s.calls 1 ≠ some (.getMany ["b", "a", "b"], .keyError) ∧ s.cache.size = 2 := by
  have hok : ∀ s a, (!pops s a) = true → Step.ok (room 1) s a := by
    intro s a hp
    cases a with
    | start i c =>
      refine ⟨?_, trivial⟩
      cases c with
      | cachePut id body => cases hp
      | _ => trivial
    | run i =>
      refine ⟨trivial, fun c k hi => ?_⟩
      simp [pops, hi] at hp
  have hrun : Reaches (Shared.step (room 1)) (Step.ok (room 1)) {} _ := Reaches.foldl_checks hok
    (going 0 (.getSync "a") 4 ++ going 1 (.getMany ["b", "a", "b"]) 13) {} (by decide +kernel)
  exact ⟨(cache_transparent (room 1) _ hrun).1 1 _, by decide +kernel⟩

/-- **An eviction races a hit**: `get` of the event loop has read `a`, and before it moves `a` to
the end, a worker thread's `get_sync` of `b` evicts it. -/
theorem evicted_between_read_and_move :
    let s := (going 0 (.getSync "a") 4 ++ going 1 (.get "a") 1 ++ going 2 (.getSync "b") 5 ++
      [Action.run 1]).foldl (Shared.step (room 0)) {}
    (∀ id, (room 0).loadOne id = some (some ())) ∧ s.calls 1 = some (.get "a", .keyError) := by
  exact ⟨fun _ => rfl, rfl⟩

end DeviceBuilder.Catalog
