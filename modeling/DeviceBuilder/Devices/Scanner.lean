import DeviceBuilder.Lib.VersionedStore
import DeviceBuilder.Lib.Runs
import Mathlib.Data.List.Sort
import Mathlib.Data.List.Dedup

/-!
# The device scanner

`controllers/_device_scanner.py`, with `helpers/device_yaml/_loading.py` and
`_dependencies.py`: which YAML files a scan reads again, and what a load reads.

* `LoadBatch`, `Item.advance`: a load on the executor thread, one file access a step.
* `ScanWorld.step`: the scans and reloads, with the writes that go on meanwhile.
* `freshDevice`, `freshDependencies`: a load of files that stay as they are.

The disk gives each write a stamp of its own; the stat keys `(ino, dev, mtime, size)` and
`(mtime_ns, size)` are that stamp. Files under `CORE.data_dir` are not on this disk: a
load does not watch them. A row's runtime state, its metadata and what it takes from the
last compile are left out, and so are the stamps that its MQTT extract keeps to check by
itself.
-/

namespace DeviceBuilder.Devices

open Runs

/-- What the scanner calls: the loader and the parsers. -/
structure ScanLibrary (P C R V : Type) where
  /-- `util.list_yaml_files` lists it. -/
  isYaml : P → Bool
  /-- `is_secrets_file`. -/
  isSecrets : P → Bool
  /-- `SECRETS_FILENAME`. -/
  secrets : P
  /-- `read_text_with_stat` can decode the text. -/
  decodes : C → Bool
  /-- `_read` can: it decodes, and a secrets file parses. -/
  readable : P → C → Bool
  /-- `load_device_yaml` and the deferred includes: the config, and whether discovery is complete; it may raise. -/
  parse : P → Option (Stamped C) → Reader P (Option (Stamped C)) (Option (Option R × Bool))
  /-- The rest of `load_device_from_storage`, of the text, the config and the sources; it may raise. -/
  device : P → Bool → Option (Stamped C) → Option R → Option (List (P × Option (Stamped C))) → Option V

/-- A row, with what it was loaded from. -/
structure Row (P C V : Type) where
  device : V
  dependencies : Option (List P)
  /-- The main file as it was read, for the proofs. -/
  text : Option (Stamped C)
  shallow : Bool
  deriving DecidableEq

/-- `_CacheKey`: the poisoned key has no main part. -/
structure CacheKey where
  main : Option ℕ
  dependencies : List (Option ℕ)
  deriving DecidableEq

/-- `_POISONED_CACHE_KEY`. -/
def CacheKey.poisoned : CacheKey := ⟨none, []⟩

/-- `_with_dependency_keys`. -/
def CacheKey.withDependencyKeys (key : CacheKey) (keys : List (Option ℕ)) : CacheKey := { key with dependencies := keys }

/-- `Source`: a text, a secrets file, or an absent file as it was read; or the marker of one that cannot be read. -/
inductive Source (C : Type)
  | read (a : Option (Stamped C))
  /-- The text that could not be read is for the proofs. -/
  | unreadable (text : Stamped C) (key : Option ℕ)

/-- `source.stat_key`. -/
def Source.statKey {C : Type} : Source C → Option ℕ
  | .read a => a.map Stamped.stamp
  | .unreadable _ key => key

section Model

/-- The paths of an order can be looked up in lists. -/
theorem lawfulBEq_of_linearOrder {P : Type} [LinearOrder P] : LawfulBEq P := inferInstance

attribute [local instance] lawfulBEq_of_linearOrder

variable {P C R V : Type} [LinearOrder P]

/-- `normalize_dependencies`. -/
def normalizeDependencies (own : P) (loaded : List P) : List P :=
  (loaded.filter (· ≠ own)).dedup.insertionSort (· ≤ ·)

structure LoadBatch (P C : Type) [DecidableEq P] where
  sources : Dict P (Source C) := ∅
  stats : Dict P (Option ℕ) := ∅

/-- `LoadBatch.stat_key`, where it needs no stat. -/
def LoadBatch.statKey? (b : LoadBatch P C) (q : P) : Option (Option ℕ) :=
  match b.sources.get? q with
  | some source => some source.statKey
  | none => b.stats.get? q

/-- `LoadBatch.stat_key`: one stat, unless the batch has a key. -/
def LoadBatch.statted (b : LoadBatch P C) (disk : VersionedStore P C) (q : P) : LoadBatch P C :=
  match b.statKey? q with
  | some _ => b
  | none => { b with stats := b.stats.set q (disk.stat q) }

def LoadBatch.source (b : LoadBatch P C) (q : P) (source : Source C) : LoadBatch P C :=
  { b with sources := b.sources.set q source }

/-! ### One file -/

/-- Where `load_device_from_storage` is. -/
inductive Phase (P C R V : Type)
  | text
  /-- `batch.stat_key(SECRETS_FILENAME)`. -/
  | secrets (text : Option (Stamped C))
  | parse (text : Option (Stamped C)) (rest : Reader P (Option (Stamped C)) (Option (Option R × Bool)))
  /-- `read_dependency_sources`. -/
  | digest (text : Option (Stamped C)) (config : Option R) (dependencies : List P)
      (lines : List (P × Option (Stamped C))) (todo : List P)
  /-- A dependency could not be read, and is to be stat'ed. -/
  | unreadable (text : Option (Stamped C)) (config : Option R) (dependencies : List P) (q : P) (failed : Stamped C)
  /-- The row is there; `batch.stat_key` of its dependencies. -/
  | keys (row : Row P C V) (keys : List (Option ℕ)) (todo : List P)

structure Item (P C R V : Type) where
  path : P
  /-- The list known before. -/
  known : Option (List P)
  shallow : Bool
  /-- What the recorder has. -/
  loaded : List P := []
  phase : Phase P C R V := .text

/-- A step of a load: it goes on, ends with a row and its dependency keys, or raises. -/
inductive Progress (P C R V : Type)
  | goes (t : Item P C R V)
  | done (row : Row P C V) (keys : List (Option ℕ))
  | raises

namespace Item

variable (lib : ScanLibrary P C R V) (disk : VersionedStore P C) (cache : P → Option (Stamped C)) (b : LoadBatch P C)
  (t : Item P C R V)

/-- The row is built, and its keys are next. -/
def build (text : Option (Stamped C)) (config : Option R) (sources : Option (List (P × Option (Stamped C))))
    (dependencies : Option (List P)) : Progress P C R V :=
  match lib.device t.path t.shallow text config sources with
  | none => .raises
  | some device =>
    .goes { t with phase := .keys ⟨device, dependencies, text, t.shallow⟩ [] (dependencies.getD []) }

/-- After the parse. -/
def parsed (text : Option (Stamped C)) (config : Option R) (complete : Bool) : Progress P C R V :=
  if complete then
    let dependencies := normalizeDependencies t.path t.loaded
    .goes { t with phase := .digest text config dependencies [] dependencies }
  else match t.known with
    | none => build lib t text config none none
    | some known => build lib t text config none (some (normalizeDependencies t.path (t.loaded ++ known)))

/-- `_read` of dependency `q`, at its read: the source, or the text that cannot be read. -/
def readSource (q : P) : Source C ⊕ Stamped C :=
  match disk.get? q with
  | none => .inl (.read none)
  | some f => if lib.readable q f.value then .inl (.read (some f)) else .inr f

/-- The next access of the thread. -/
def advance : LoadBatch P C × (P → Option (Stamped C)) × Progress P C R V :=
  match t.phase with
  | .text =>
    let text := disk.get? t.path
    if text.all (fun f => lib.decodes f.value) then (b, cache, .goes { t with phase := .secrets text })
    else (b, cache, .raises)
  | .secrets text =>
    (b.statted disk lib.secrets, cache, .goes { t with phase :=
      match t.shallow, t.known with
      | true, some known => .digest text none known [] known
      | _, _ => .parse text (lib.parse t.path text) })
  | .parse text (.read q rest) =>
    (b, cache, .goes { t with loaded := t.loaded ++ [q], phase := .parse text (rest (disk.get? q)) })
  | .parse _ (.done none) => (b, cache, .raises)
  | .parse text (.done (some (config, complete))) => (b, cache, t.parsed lib text config complete)
  | .digest text config dependencies lines [] => (b, cache, t.build lib text config (some lines) (some dependencies))
  | .digest text config dependencies lines (q :: todo) =>
    match b.sources.get? q with
    | some (.read a) =>
      (b, cache, .goes { t with phase := .digest text config dependencies (lines ++ [(q, a)]) todo })
    | some (.unreadable ..) => (b, cache, t.build lib text config none (some dependencies))
    | none =>
      -- `_read_secrets` is handed the batch's stat key, and may serve the file from the cache
      if lib.isSecrets q ∧ b.stats.get? q = none then (b.statted disk q, cache, .goes t)
      else match (if lib.isSecrets q then (cache q).filter fun f => b.stats.get? q = some (some f.stamp) else none) with
        | some f => (b.source q (.read (some f)), cache, .goes t)
        | none =>
          match readSource lib disk q with
          | .inl source =>
            (b.source q source, if lib.isSecrets q then
              (match source with
                | .read (some f) => Function.update cache q (some f)
                | _ => cache) else cache, .goes t)
          | .inr failed => (b, cache, .goes { t with phase := .unreadable text config dependencies q failed })
  | .unreadable text config dependencies q failed =>
    let b := b.statted disk q
    (b.source q (.unreadable failed ((b.statKey? q).getD none)), cache, t.build lib text config none (some dependencies))
  | .keys row keys [] => (b, cache, .done row keys)
  | .keys row keys (q :: todo) =>
    let b := b.statted disk q
    (b, cache, .goes { t with phase := .keys row (keys ++ [(b.statKey? q).getD none]) todo })

end Item

/-! ### Scans and reloads -/

/-- `_build_cache_keys`. -/
structure Listing (P : Type) [DecidableEq P] where
  todo : List P
  /-- The file it is at, with its stamp, and the dependencies it still has to stat. -/
  current : Option (P × ℕ × List P × List (Option ℕ)) := none
  keys : Dict P CacheKey := ∅
  stats : Dict P (Option ℕ) := ∅

inductive LoadKind (P : Type) [DecidableEq P]
  | scan (shallow : Bool) (keys : Dict P CacheKey)
  | reload (path : P)

/-- `_load_devices`. -/
structure ScanLoad (P C R V : Type) [DecidableEq P] where
  kind : LoadKind P
  todo : List P
  batch : LoadBatch P C := {}
  current : Option (Item P C R V) := none
  result : Dict P (Row P C V × List (Option ℕ)) := ∅

/-- What the holder of the scanner's lock does. -/
inductive Work (P C R V : Type) [DecidableEq P]
  | starting (shallow : Bool)
  | listing (shallow : Bool) (l : Listing P)
  | loading (l : ScanLoad P C R V)
  /-- `reload` has its row, and stats the file again. -/
  | restat (path : P) (row : Row P C V) (keys : List (Option ℕ))

structure ScanWorld (P C R V : Type) [DecidableEq P] where
  disk : VersionedStore P C := .empty
  index : Dict P (Row P C V × CacheKey) := ∅
  /-- `_SECRETS_CACHE`. -/
  secretsCache : P → Option (Stamped C) := fun _ => none
  work : Option (Work P C R V) := none

inductive ScanAction (P C : Type)
  | write (q : P) (text : C)
  | delete (q : P)
  /-- Another caller of `_read_secrets`. -/
  | readSecrets (q : P)
  | beginScan (shallow : Bool)
  | beginReload (path : P)
  /-- The thread turns to a file of the batch; the metadata has this dependency list. -/
  | takeItem (path : P) (persisted : Option (List P))
  /-- The holder of the lock does its next access, or the loop its part. -/
  | advance
  /-- The load of a file fails for a reason of its own. -/
  | raises

namespace ScanWorld

variable (lib : ScanLibrary P C R V) (w : ScanWorld P C R V)

/-- `_known_dependencies`, of one path. -/
def knownDependencies (p : P) : List P := ((w.index.get? p).bind fun e => e.1.dependencies).getD []

/-- One step of `_build_cache_keys`. -/
def listingStep (l : Listing P) : Listing P :=
  match l.current with
  | none =>
    match l.todo with
    | [] => l
    | p :: todo =>
      match w.disk.stat p with
      -- the file is gone
      | none => { l with todo := todo }
      | some n => { l with todo := todo, current := some (p, n, w.knownDependencies p, []) }
  | some (p, n, [], keys) => { l with current := none, keys := l.keys.set p ⟨some n, keys⟩ }
  | some (p, n, q :: rest, keys) =>
    match l.stats.get? q with
    | some k => { l with current := some (p, n, rest, keys ++ [k]) }
    | none => { l with current := some (p, n, rest, keys ++ [w.disk.stat q]), stats := l.stats.set q (w.disk.stat q) }

/-- `added_paths | updated_paths`. -/
def pathsToLoad (keys : Dict P CacheKey) : List P :=
  keys.keys.filter fun p => (w.index.get? p).map Prod.snd ≠ keys.get? p

/-- The end of `_do_scan`: the loaded rows are set, and the rows of removed files popped. -/
def applyScan (keys : Dict P CacheKey) (result : Dict P (Row P C V × List (Option ℕ))) : Dict P (Row P C V × CacheKey) :=
  let index := result.items.foldl (fun index e =>
    index.set e.1 (e.2.1, ((keys.get? e.1).getD .poisoned).withDependencyKeys e.2.2)) w.index
  index.keep fun p _ => p ∈ keys.keys

/-- The end of a load on the loop. -/
def finish (l : ScanLoad P C R V) : ScanWorld P C R V :=
  match l.kind with
  | .scan _ keys => { w with index := w.applyScan keys l.result, work := none }
  | .reload p =>
    match l.result.get? p with
    | none => { w with index := w.index.adjust p fun e => (e.1, .poisoned), work := none }
    | some (row, keys) => { w with work := some (.restat p row keys) }

/-- The row of a reload is set, under the stamp of now. -/
def restat (p : P) (row : Row P C V) (keys : List (Option ℕ)) : ScanWorld P C R V :=
  let key := match w.disk.stat p with
    | some n => ⟨some n, keys⟩
    | none => (((w.index.get? p).map Prod.snd).getD .poisoned).withDependencyKeys keys
  { w with index := w.index.set p (row, key), work := none }

/-- The current file moves on. -/
def advanceItem (l : ScanLoad P C R V) (t : Item P C R V) : ScanWorld P C R V :=
  let (batch, cache, progress) := t.advance lib w.disk w.secretsCache l.batch
  let l := { l with batch := batch }
  let l := match progress with
    | .goes t => { l with current := some t }
    | .done row keys => { l with current := none, result := l.result.set t.path (row, keys) }
    | .raises => { l with current := none }
  { w with secretsCache := cache, work := some (.loading l) }

def advance : ScanWorld P C R V :=
  match w.work with
  | none => w
  | some (.starting shallow) => { w with work := some (.listing shallow { todo := w.disk.items.keys.filter lib.isYaml }) }
  | some (.listing shallow l) =>
    match l.current, l.todo with
    | none, [] => { w with work := some (.loading { kind := .scan shallow l.keys, todo := w.pathsToLoad l.keys }) }
    | _, _ => { w with work := some (.listing shallow (w.listingStep l)) }
  | some (.loading l) =>
    match l.current, l.todo with
    | some t, _ => w.advanceItem lib l t
    | none, [] => w.finish l
    | none, _ :: _ => w
  | some (.restat p row keys) => w.restat p row keys

/-- `_load_devices` turns to a file. -/
def takeItem (path : P) (persisted : Option (List P)) : ScanWorld P C R V :=
  match w.work with
  | some (.loading l) =>
    if l.current.isNone ∧ path ∈ l.todo then
      let known := match (w.index.get? path).bind fun e => e.1.dependencies with
        | some known => some known
        | none => persisted
      let shallow := match l.kind with
        | .scan shallow _ => shallow && known.isSome
        | .reload _ => false
      { w with work := some (.loading { l with todo := l.todo.erase path, current := some ⟨path, known, shallow, [], .text⟩ }) }
    else w
  | _ => w

/-- The exception is logged, and the file left out. -/
def raises : ScanWorld P C R V :=
  match w.work with
  | some (.loading l) => if l.current.isSome then { w with work := some (.loading { l with current := none }) } else w
  | _ => w

/-- One step. -/
def step (w : ScanWorld P C R V) : ScanAction P C → ScanWorld P C R V
  | .write q text => { w with disk := w.disk.write q text }
  | .delete q => { w with disk := w.disk.delete q }
  | .readSecrets q =>
    match w.disk.get? q with
    | none => w
    | some f => if lib.readable q f.value then { w with secretsCache := Function.update w.secretsCache q (some f) } else w
  | .beginScan shallow => if w.work.isNone then { w with work := some (.starting shallow) } else w
  | .beginReload path =>
    if w.work.isNone ∧ path ∈ w.index.keys then { w with work := some (.loading { kind := .reload path, todo := [path] }) }
    else w
  | .takeItem path persisted => w.takeItem path persisted
  | .advance => w.advance lib
  | .raises => w.raises

end ScanWorld

/-! ### A fresh load -/

section Fresh

variable (lib : ScanLibrary P C R V) (disk : P → Option (Stamped C)) (p : P)

/-- `read_dependency_sources` of files that stay as they are. -/
def readLines (lib : ScanLibrary P C R V) (disk : P → Option (Stamped C)) : List P → Option (List (P × Option (Stamped C)))
  | [] => some []
  | q :: rest =>
    if (disk q).all fun f => lib.readable q f.value then (readLines lib disk rest).map ((q, disk q) :: ·) else none

/-- What the loader makes of the file. -/
def freshParse : Option (Option R × Bool) := (lib.parse p (disk p)).run disk

/-- The files the loader opens. -/
def freshLoaded : List P := (lib.parse p (disk p)).reads disk

/-- **The device of a fresh load**; there is none where the load raises. -/
def freshDevice : Option V :=
  if (disk p).all fun f => lib.decodes f.value then
    match freshParse lib disk p with
    | none => none
    | some (config, complete) =>
      lib.device p false (disk p) config
        (if complete then readLines lib disk (normalizeDependencies p (freshLoaded lib disk p)) else none)
  else none

/-- Its dependency list, where `known` was known before. -/
def freshDependencies (known : List P) : List P :=
  if (freshParse lib disk p).any fun r => r.2 then normalizeDependencies p (freshLoaded lib disk p)
  else normalizeDependencies p (freshLoaded lib disk p ++ known)

end Fresh

end Model

end DeviceBuilder.Devices
