import DeviceBuilder.Lib.OrderedDict
import Mathlib.Logic.Function.Basic

/-!
# The lazy catalog store

`helpers/lazy_catalog.py`: bodies of catalog entries, loaded on demand into a
bounded LRU cache. Calls come from the event loop and from worker threads; one
action is one operation on the `OrderedDict`, one use of the lock, or one load,
so any two calls may interleave between them.

* `Pc`: where a call stands; `Pc.start` for each public method.
* `Shared.advance`: its next operation.
* `Shared.step`: some call starts, or goes on.

`is_known` and `load_one` are what the store is built with; `none` of
`loadOne` is an exception.
-/

namespace DeviceBuilder.Catalog

abbrev CatalogId := String

/-- What a store is built with. -/
structure Config (BodyT : Type*) where
  loadOne : CatalogId → Option (Option BodyT)
  isKnown : CatalogId → Bool
  cacheMaxsize : ℕ
  cacheMaxsize_pos : 0 < cacheMaxsize

variable {BodyT : Type*}

/-- A public method and its arguments. -/
inductive Call (BodyT : Type*)
  | get (catalogId : CatalogId)
  | getMany (catalogIds : List CatalogId)
  | getSync (catalogId : CatalogId)
  | tryGetCached (catalogId : CatalogId)
  | cachePut (catalogId : CatalogId) (body : BodyT)

/-- Who reads one id of the cache. -/
inductive Reader
  | get
  | sync
  | probe
  deriving DecidableEq

/-- Who has a batch loaded: `get` of one id, or `get_many`. -/
inductive Batch
  | one (catalogId : CatalogId)
  | all (catalogIds : List CatalogId)

def Batch.ids : Batch → List CatalogId
  | .one catalogId => [catalogId]
  | .all catalogIds => catalogIds

/-- What a call returns. -/
inductive Result (BodyT : Type*)
  | body (b : Option BodyT)
  | bodies (d : Dict CatalogId BodyT)
  | unit

/-- What is returned of the bodies of a batch. -/
def Batch.answer (result : Dict CatalogId BodyT) : Batch → Result BodyT
  | .one catalogId => .body (result.get? catalogId)
  | .all _ => .bodies result

/-- What follows the eviction loop after an assignment. -/
inductive After (BodyT : Type*)
  | sync (catalogId : CatalogId) (body : BodyT)
  | put
  | store (q : Batch) (catalogId : CatalogId) (body : BodyT) (rest : List CatalogId)
      (loaded : Dict CatalogId (Option BodyT)) (result : Dict CatalogId BodyT)

/-- Where a call stands: its next operation. -/
inductive Pc (BodyT : Type*)
  /-- `self._cache.get(id)`. -/
  | read (c : Reader) (catalogId : CatalogId)
  /-- `self._cache.move_to_end(id)`, of a body that was there. -/
  | touch (c : Reader) (catalogId : CatalogId) (body : BodyT)
  /-- `async with self._lock`. -/
  | lock (q : Batch)
  /-- The scan of a batch, its next id read from the cache. -/
  | scan (q : Batch) (todo seen toLoad : List CatalogId) (result : Dict CatalogId BodyT)
  | scanTouch (q : Batch) (catalogId : CatalogId) (body : BodyT) (todo seen toLoad : List CatalogId)
      (result : Dict CatalogId BodyT)
  /-- `_load_bodies_sync`, its next load. -/
  | fetch (q : Batch) (todo toLoad : List CatalogId) (loaded : Dict CatalogId (Option BodyT))
      (result : Dict CatalogId BodyT)
  /-- The next body of a batch goes to the cache. -/
  | store (q : Batch) (rest : List CatalogId) (loaded : Dict CatalogId (Option BodyT))
      (result : Dict CatalogId BodyT)
  /-- `load_one_sync`. -/
  | load (catalogId : CatalogId)
  /-- `self._cache[id] = body`. -/
  | put (catalogId : CatalogId) (body : BodyT) (k : After BodyT)
  /-- `while len(self._cache) > self._cache_maxsize`. -/
  | measure (k : After BodyT)
  /-- `self._cache.popitem(last=False)`. -/
  | evict (k : After BodyT)
  | returned (r : Result BodyT)
  | loadError
  | keyError

/-- The first operation of each method. -/
def Pc.start : Call BodyT → Pc BodyT
  | .get catalogId => .read .get catalogId
  | .getMany catalogIds => .lock (.all catalogIds)
  | .getSync catalogId => .read .sync catalogId
  | .tryGetCached catalogId => .read .probe catalogId
  | .cachePut catalogId body => .put catalogId body .put

def Pc.finished : Pc BodyT → Bool
  | .returned _ | .loadError | .keyError => true
  | _ => false

abbrev CallId := ℕ

/-- The store, and the calls made so far with where each stands. -/
structure Shared (BodyT : Type*) where
  cache : Dict CatalogId BodyT := ∅
  /-- The call that holds `_lock`. -/
  holder : Option CallId := none
  calls : CallId → Option (Call BodyT × Pc BodyT) := fun _ => none

namespace Shared

variable (cfg : Config BodyT) (s : Shared BodyT) (i : CallId) (c : Call BodyT)

/-- Call `i` goes on at `pc`. -/
def goto (pc : Pc BodyT) : Shared BodyT :=
  { s with calls := Function.update s.calls i (some (c, pc)) }

/-- `i` leaves the lock. -/
def release : Shared BodyT := { s with holder := none }

/-- The end of a batch. -/
def finish (q : Batch) (result : Dict CatalogId BodyT) : Shared BodyT :=
  s.release.goto i c (.returned (q.answer result))

/-- After the eviction loop. -/
def resume : After BodyT → Shared BodyT
  | .sync _ body => s.goto i c (.returned (.body (some body)))
  | .put => s.goto i c (.returned .unit)
  | .store q catalogId body rest loaded result =>
    s.goto i c (.store q rest loaded (result.set catalogId body))

/-- A `KeyError` in the eviction loop; a batch leaves the lock. -/
def abort : After BodyT → Shared BodyT
  | .store .. => s.release.goto i c .keyError
  | _ => s.goto i c .keyError

/-- A call that misses the cache. -/
def miss (r : Reader) (catalogId : CatalogId) : Shared BodyT :=
  match r with
  | .probe => s.goto i c (.returned (.body none))
  | .get => if cfg.isKnown catalogId then s.goto i c (.lock (.one catalogId))
      else s.goto i c (.returned (.body none))
  | .sync => if cfg.isKnown catalogId then s.goto i c (.load catalogId)
      else s.goto i c (.returned (.body none))

/-- The next operation of a call. -/
def advance : Pc BodyT → Shared BodyT
  | .read r catalogId =>
    match s.cache.get? catalogId with
    | some body => s.goto i c (.touch r catalogId body)
    | none => s.miss cfg i c r catalogId
  | .touch _ catalogId body =>
    match s.cache.moveToEnd catalogId with
    | none => s.goto i c .keyError
    | some cache => { s with cache }.goto i c (.returned (.body (some body)))
  | .lock q =>
    match s.holder with
    | none => { s with holder := some i }.goto i c (.scan q q.ids [] [] ∅)
    | some _ => s
  | .scan q [] _ toLoad result =>
    if toLoad = [] then s.finish i c q result else s.goto i c (.fetch q toLoad toLoad ∅ result)
  | .scan q (catalogId :: todo) seen toLoad result =>
    if catalogId ∈ seen ∨ cfg.isKnown catalogId = false then
      s.goto i c (.scan q todo seen toLoad result)
    else
      match s.cache.get? catalogId with
      | some body =>
        s.goto i c (.scanTouch q catalogId body todo (catalogId :: seen) toLoad result)
      | none => s.goto i c (.scan q todo (catalogId :: seen) (toLoad ++ [catalogId]) result)
  | .scanTouch q catalogId body todo seen toLoad result =>
    match s.cache.moveToEnd catalogId with
    | none => s.release.goto i c .keyError
    | some cache =>
      { s with cache }.goto i c (.scan q todo seen toLoad (result.set catalogId body))
  | .fetch q [] toLoad loaded result => s.goto i c (.store q toLoad loaded result)
  | .fetch q (catalogId :: todo) toLoad loaded result =>
    match cfg.loadOne catalogId with
    | none => s.release.goto i c .loadError
    | some body => s.goto i c (.fetch q todo toLoad (loaded.set catalogId body) result)
  | .store q [] _ result => s.finish i c q result
  | .store q (catalogId :: rest) loaded result =>
    match (loaded.get? catalogId).join with
    | none => s.goto i c (.store q rest loaded result)
    | some body =>
      { s with cache := s.cache.set catalogId body }.goto i c
        (.measure (.store q catalogId body rest loaded result))
  | .load catalogId =>
    match cfg.loadOne catalogId with
    | none => s.goto i c .loadError
    | some none => s.goto i c (.returned (.body none))
    | some (some body) => s.goto i c (.put catalogId body (.sync catalogId body))
  | .put catalogId body k => { s with cache := s.cache.set catalogId body }.goto i c (.measure k)
  | .measure k =>
    if s.cache.size > cfg.cacheMaxsize then s.goto i c (.evict k) else s.resume i c k
  | .evict k =>
    match s.cache.popFirst with
    | none => s.abort i c k
    | some cache => { s with cache }.goto i c (.measure k)
  | .returned _ | .loadError | .keyError => s

end Shared

inductive Action (BodyT : Type*)
  | start (i : CallId) (c : Call BodyT)
  | run (i : CallId)

/-- Some call starts, or goes on by one operation. -/
def Shared.step (cfg : Config BodyT) (s : Shared BodyT) : Action BodyT → Shared BodyT
  | .start i c =>
    match s.calls i with
    | none => s.goto i c (.start c)
    | some _ => s
  | .run i =>
    match s.calls i with
    | none => s
    | some (c, pc) => s.advance cfg i c pc

/-- `cache_put` is called with a body that was loaded for a known id. -/
def Action.proper (cfg : Config BodyT) : Action BodyT → Prop
  | .start _ (.cachePut catalogId body) =>
    cfg.isKnown catalogId = true ∧ cfg.loadOne catalogId = some (some body)
  | _ => True

end DeviceBuilder.Catalog
