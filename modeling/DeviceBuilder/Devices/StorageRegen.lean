import DeviceBuilder.Devices.ScanEvents
import Mathlib.Algebra.Group.Nat.Defs

/-!
# Background storage regeneration

`controllers/devices/storage_regen.py`: a background `esphome compile --only-generate`
for one configuration, its retries, and what `scan_change.py` does with them when the
scanner reports a change of the YAML.

* `RegenEntry`: the fields of the volatile metadata store that a run reads and writes.
* `RegenRun`: a run, at one of its awaits.
* `RegenConf`: a configuration's entry, its runs, its slot in `RegenState`.
* `RegenWorld.step`: scan changes, direct schedules, timers, the runs' awaits, the clock.

Times are whole seconds. What the disk, the generator and the scanner answer comes with
the action. `asked`, `askedContent`, `ended` and `log` record the scan changes that asked
for a run, how the last run since then ended, and the generator runs that failed.
-/

namespace DeviceBuilder.Devices

open Index (ScanChange)

/-- `_REGEN_FAILURE_TTL_SECONDS`. -/
def regenFailureTtlSeconds : ℕ := 4 * 3600

/-- `_RETRY_BACKOFF_BASE_SECONDS`. -/
def retryBackoffBaseSeconds : ℕ := 30

/-- `_MAX_REGEN_ATTEMPTS`. -/
def maxRegenAttempts : ℤ := 4

variable {F D : Type} [DecidableEq F] [DecidableEq D]

/-- A configuration's entry of `DeviceMetadataStore`. The tri-state `update` clears a field that is set to a falsy
value, so a missing field is `none`; `regenFailedAttempts` is what `coerce_sidecar_int` reads. -/
structure RegenEntry (D : Type) where
  contentFingerprint : Option D := none
  dependencies : Option (List String) := none
  expectedConfigHash : Option String := none
  regenConfigHash : Option String := none
  regenContentFingerprint : Option D := none
  regenFailedContentFingerprint : Option D := none
  regenFailedAt : Option ℕ := none
  regenFailedAttempts : ℤ := 0
  deriving DecidableEq

/-- What `read_source_fingerprint` answers. -/
inductive SourceRead (D : Type)
  | digest (current : D)
  /-- `FileNotFoundError`. -/
  | vanished
  /-- `OSError`, `UnicodeDecodeError`, `UnreadableDependencyError`. -/
  | unreadable
  deriving DecidableEq

/-- A run at an await. `stored` is the digest the store held when the run began. -/
inductive RegenRun (D : Type)
  /-- `_regenerate_lock` is held by another run. -/
  | waiting (stored : Option D)
  | reading (stored : Option D) (dependencies : List String)
  /-- The executor has answered; the run has not resumed. -/
  | judging (stored : Option D) (source : SourceRead D)
  | spawned (stored : Option D) (current : D)
  /-- `read_build_info_hash`. -/
  | finalizing (stored : Option D) (current : D)
  /-- `_scanner.reload`. -/
  | reloading (stored : Option D) (current : D)
  deriving DecidableEq

/-- The run is inside `async with controller._regenerate_lock`. -/
def RegenRun.holdsLock : RegenRun D → Bool
  | .reading .. | .judging .. | .spawned .. => true
  | .waiting _ | .finalizing .. | .reloading .. => false

/-- How a run ended. -/
inductive RunEnd (D : Type)
  | vanished
  /-- It armed a timer. -/
  | retrying
  | succeeded (stored : Option D) (current : D)
  deriving DecidableEq

/-- What befell the failure stamp. -/
inductive StampEvent (D : Type)
  | failed (fingerprint : D) (at_ : ℕ)
  | cleared
  deriving DecidableEq

structure RegenConf (D : Type) where
  entry : RegenEntry D := {}
  /-- `get_by_configuration`, as far as its `dependencies`. -/
  indexed : Option (Option (List String)) := none
  /-- `regen.pending` has the configuration. -/
  pending : Bool := false
  /-- The delay of the armed retry. -/
  retryTimer : Option ℕ := none
  unreadableStrikes : ℕ := 0
  runs : List (RegenRun D) := []
  asked : Bool := false
  askedContent : Option D := none
  ended : Option (RunEnd D) := none
  /-- Newest first. -/
  log : List (StampEvent D) := []
  deriving DecidableEq

/-- What a scan change tells of its device. -/
structure ScannedDevice (D : Type) where
  /-- `none` for an unreadable YAML. -/
  contentFingerprint : Option D
  dependencies : Option (List String) := none
  loadedIntegrations : Bool := true
  expectedConfigHash : Bool := true
  deriving DecidableEq

/-- What every function here reads of the controller: `esphome_cmd`, and whether the configuration is a secrets file. -/
structure RegenContext where
  esphomeCmd : List String
  isSecretsFile : Bool
  deriving DecidableEq

/-- `_fresh_stamp`. -/
def freshStamp (md : RegenEntry D) (current : D) (now : ℕ) : Option (ℤ × ℕ) :=
  match md.regenFailedContentFingerprint, md.regenFailedAt with
  | some cached, some cachedAt =>
    if cached ≠ current then none
    else
      let age := now - cachedAt
      if age ≥ regenFailureTtlSeconds then none
      else some (if md.regenFailedAttempts ≥ 1 then md.regenFailedAttempts else maxRegenAttempts, age)
  | _, _ => none

/-- `_delay_for`. -/
def delayFor (attempts : ℤ) : ℕ := retryBackoffBaseSeconds * 2 ^ (attempts - 1).toNat

/-- `_digest_moved`. -/
def digestMoved (md : RegenEntry D) (before : Option D) (current : D) : Bool :=
  match md.contentFingerprint with
  | none => false
  | some after => some after ≠ before ∧ after ≠ current

namespace RegenConf

/-- `RegenState.cancel_retry`. -/
def cancelRetry (c : RegenConf D) : RegenConf D := { c with retryTimer := none }

/-- `_arm_retry`. -/
def armRetry (c : RegenConf D) (delay : ℕ) : RegenConf D := { c with retryTimer := some delay }

/-- `_arm_ttl_recheck`. -/
def armTtlRecheck (c : RegenConf D) (age : ℕ) : RegenConf D :=
  if c.retryTimer.isSome then c else c.armRetry (regenFailureTtlSeconds - age)

/-- `_arm_strike`. -/
def armStrike (c : RegenConf D) : RegenConf D :=
  let strikes := c.unreadableStrikes + 1
  { c with unreadableStrikes := strikes }.armRetry (min (delayFor strikes) regenFailureTtlSeconds)

/-- `RegenState.clear_strikes`. -/
def clearStrikes (c : RegenConf D) : RegenConf D := { c with unreadableStrikes := 0 }

/-- `RegenState.forget`, whose answer is whether a retry was armed. -/
def forget (c : RegenConf D) : RegenConf D × Bool := (c.clearStrikes.cancelRetry, c.retryTimer.isSome)

/-- The dependency list of `_current_digest`. -/
def knownDependencies (c : RegenConf D) : List String :=
  match c.indexed with
  | some (some dependencies) => dependencies
  | _ => c.entry.dependencies.getD []

/-- `schedule`. The task is eager: it runs at once to its first await, the executor's read when the lock is free. The
answer is whether the lock is held after. -/
def schedule (ctx : RegenContext) (c : RegenConf D) (locked : Bool) : RegenConf D × Bool :=
  if ctx.isSecretsFile then (c, locked)
  else if ctx.esphomeCmd = [] then (c, locked)
  else if c.pending then (c, locked)
  else
    let run : RegenRun D :=
      if locked then .waiting c.entry.contentFingerprint
      else .reading c.entry.contentFingerprint c.knownDependencies
    ({ c with pending := true, runs := c.runs ++ [run] }, true)

/-- `_fire_retry`. -/
def fireRetry (ctx : RegenContext) (c : RegenConf D) (locked : Bool) : RegenConf D × Bool :=
  c.cancelRetry.schedule ctx locked

/-! ## A run -/

/-- The `finally` of `_run`; the lock is free of the run. `spawned` is what the run that spawned keeps. -/
def finish (ctx : RegenContext) (c : RegenConf D) (locked : Bool) (i : ℕ) (spawned : Option (Option D × D))
    (how : RunEnd D) : RegenConf D × Bool :=
  let c := { c with pending := false, runs := c.runs.eraseIdx i, ended := some how }
  match spawned with
  | none => (c, locked)
  | some (stored, current) =>
    if digestMoved c.entry stored current then c.cancelRetry.schedule ctx locked else (c, locked)

/-- `_stamp_regen_failure`; the answer is the attempts now on record. -/
def stampFailure (c : RegenConf D) (fingerprint : D) (now : ℕ) : RegenConf D × ℤ :=
  let attempts := ((freshStamp c.entry fingerprint now).map Prod.fst).getD 0 + 1
  ({ c with
      entry := { c.entry with
        regenFailedContentFingerprint := some fingerprint
        regenFailedAt := some now
        regenFailedAttempts := attempts }
      log := .failed fingerprint now :: c.log }, attempts)

/-- `finalize_success` from the answer of `read_build_info_hash` on. -/
def finalizeSuccess (c : RegenConf D) (fingerprint : D) (newHash : Option String) : RegenConf D :=
  let entry := { c.entry with
    regenFailedContentFingerprint := none
    regenFailedAt := none
    regenFailedAttempts := 0 }
  let entry := match newHash with
    | none => entry
    | some hash => { entry with
        expectedConfigHash := some hash
        regenConfigHash := some hash
        regenContentFingerprint := some fingerprint }
  { c with entry, log := .cleared :: c.log }

/-- The run has its digest, or knows that it gets none. -/
def judge (ctx : RegenContext) (c : RegenConf D) (i : ℕ) (stored : Option D) (source : SourceRead D) (now : ℕ) :
    RegenConf D × Bool :=
  match source with
  | .vanished => c.clearStrikes.finish ctx false i none .vanished
  | .unreadable => c.armStrike.finish ctx false i none .retrying
  | .digest current =>
    let c := c.clearStrikes
    match freshStamp c.entry current now with
    | none => ({ c with runs := c.runs.set i (.spawned stored current) }, true)
    | some (attempts, age) =>
      if attempts ≥ maxRegenAttempts then (c.armTtlRecheck age).finish ctx false i none .retrying
      else if delayFor attempts > age then
        (c.armRetry (delayFor attempts - age)).finish ctx false i none .retrying
      else ({ c with runs := c.runs.set i (.spawned stored current) }, true)

/-- The generator is done: `none` for success, else after which the failure is charged to the digest of the spawn. -/
def generated (ctx : RegenContext) (c : RegenConf D) (i : ℕ) (stored : Option D) (current : D) (success : Bool)
    (now : ℕ) : RegenConf D × Bool :=
  if success then ({ c.cancelRetry with runs := c.runs.set i (.finalizing stored current) }, false)
  else
    let (c, recorded) := c.stampFailure current now
    let c := if recorded < maxRegenAttempts then c.armRetry (delayFor recorded) else c.armTtlRecheck 0
    c.finish ctx false i (some (stored, current)) .retrying

/-- What the await of a run answers. -/
structure RunReply (D : Type) where
  /-- `read_source_fingerprint`, for a dependency list. -/
  source : List String → SourceRead D := fun _ => .vanished
  success : Bool := true
  /-- `read_build_info_hash`. -/
  newHash : Option String := none
  /-- The await raises. -/
  raises : Bool := false

/-- The run at `i`, from its await to the next. -/
def advance (ctx : RegenContext) (c : RegenConf D) (locked : Bool) (i : ℕ) (reply : RunReply D) (now : ℕ) :
    RegenConf D × Bool :=
  match c.runs[i]? with
  | none => (c, locked)
  | some (.waiting stored) =>
    if locked then (c, locked)
    else ({ c with runs := c.runs.set i (.reading stored c.knownDependencies) }, true)
  | some (.reading stored dependencies) =>
    ({ c with runs := c.runs.set i (.judging stored (reply.source dependencies)) }, locked)
  | some (.judging stored source) => c.judge ctx i stored source now
  | some (.spawned stored current) => c.generated ctx i stored current reply.success now
  | some (.finalizing stored current) =>
    if reply.raises then c.finish ctx locked i (some (stored, current)) (.succeeded stored current)
    else
      let c := c.finalizeSuccess current reply.newHash
      ({ c with runs := c.runs.set i (.reloading stored current) }, locked)
  | some (.reloading stored current) =>
    c.finish ctx locked i (some (stored, current)) (.succeeded stored current)

/-! ## Scan changes -/

/-- A scan change asks for a run; `observed` is the content it read. -/
def ask (ctx : RegenContext) (c : RegenConf D) (locked : Bool) (observed : Option D) : RegenConf D × Bool :=
  { c with asked := true, askedContent := observed <|> c.askedContent, ended := none }.schedule ctx locked

/-- The first half of `_sync_content_fingerprint`: the store has the dependency list that the scan saw. -/
def seedDependencies (c : RegenConf D) (device : ScannedDevice D) : RegenConf D :=
  match device.dependencies with
  | none => c
  | some dependencies => { c with entry := { c.entry with dependencies := some dependencies } }

def storeContentFingerprint (c : RegenConf D) (fingerprint : D) : RegenConf D :=
  { c with entry := { c.entry with contentFingerprint := some fingerprint } }

/-- `_sync_content_fingerprint`. -/
def syncContentFingerprint (ctx : RegenContext) (c : RegenConf D) (locked : Bool) (device : ScannedDevice D) :
    RegenConf D × Bool :=
  let c := c.seedDependencies device
  match device.contentFingerprint with
  | none => (c, locked)
  | some fingerprint =>
    match c.entry.contentFingerprint with
    | none => (c.storeContentFingerprint fingerprint, locked)
    | some stored =>
      if stored = fingerprint then (c, locked)
      else
        -- the run is scheduled before the digest is stored, so it begins with the old one
        let (c, locked) := c.ask ctx locked (some fingerprint)
        (c.storeContentFingerprint fingerprint, locked)

/-- `_schedule_regen_if_needed`. -/
def scheduleRegenIfNeeded (ctx : RegenContext) (c : RegenConf D) (locked : Bool) (kind : ScanChange)
    (device : ScannedDevice D) (droppedRetry : Bool) : RegenConf D × Bool :=
  if kind = .added ∨ kind = .updated then
    if !device.loadedIntegrations || !device.expectedConfigHash || droppedRetry then
      c.ask ctx locked device.contentFingerprint
    else (c, locked)
  else (c, locked)

/-- `DeviceMetadataStore.clear_volatile`: every field here is the store's. -/
def clearVolatile (c : RegenConf D) : RegenConf D := { c with entry := {}, log := .cleared :: c.log }

/-- `on_scan_change`, as far as regeneration goes. A removed YAML leaves nothing that was asked for. -/
def onScanChange (ctx : RegenContext) (c : RegenConf D) (locked : Bool) (kind : ScanChange)
    (device : ScannedDevice D) : RegenConf D × Bool :=
  match kind with
  | .removed =>
    let c := (c.forget.1).clearVolatile
    ({ c with indexed := none, asked := false, askedContent := none, ended := none }, locked)
  | kind =>
    let c := { c with indexed := some device.dependencies }
    let (c, droppedRetry) := if kind = .updated then c.forget else (c, false)
    let (c, locked) := c.syncContentFingerprint ctx locked device
    c.scheduleRegenIfNeeded ctx locked kind device droppedRetry

end RegenConf

/-! ## All configurations -/

/-- The configurations, `_regenerate_lock` and the wall clock. -/
structure RegenWorld (F D : Type) where
  esphomeCmd : List String
  conf : F → RegenConf D
  locked : Bool := false
  now : ℕ := 0

inductive RegenAction (F D : Type)
  | scan (configuration : F) (kind : ScanChange) (device : ScannedDevice D)
  /-- A direct `_schedule_storage_regenerate`. -/
  | schedule (configuration : F)
  | fire (configuration : F)
  | advance (configuration : F) (i : ℕ) (reply : RegenConf.RunReply D)
  | elapse (seconds : ℕ)

namespace RegenWorld

/-- `start()` has set the command and loaded the store, whatever it holds. -/
def start (esphomeCmd : List String) (entry : F → RegenEntry D) : RegenWorld F D :=
  { esphomeCmd, conf := fun f => { entry := entry f } }

def put (w : RegenWorld F D) (f : F) (r : RegenConf D × Bool) : RegenWorld F D :=
  { w with conf := Function.update w.conf f r.1, locked := r.2 }

def step (isSecretsFile : F → Bool) (w : RegenWorld F D) : RegenAction F D → RegenWorld F D
  | .scan f kind device => w.put f ((w.conf f).onScanChange ⟨w.esphomeCmd, isSecretsFile f⟩ w.locked kind device)
  | .schedule f => w.put f ((w.conf f).schedule ⟨w.esphomeCmd, isSecretsFile f⟩ w.locked)
  | .fire f =>
    if (w.conf f).retryTimer.isSome then
      w.put f ((w.conf f).fireRetry ⟨w.esphomeCmd, isSecretsFile f⟩ w.locked)
    else w
  | .advance f i reply => w.put f ((w.conf f).advance ⟨w.esphomeCmd, isSecretsFile f⟩ w.locked i reply w.now)
  | .elapse seconds => { w with now := w.now + seconds }

end RegenWorld
end DeviceBuilder.Devices
