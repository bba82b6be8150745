import DeviceBuilder.Devices.MdnsSource
import DeviceBuilder.Lib.Runs
import Mathlib.Algebra.Group.Nat.Defs

/-!
# Revival from the persisted address

`controllers/_device_state_monitor/api_reviver.py`: a sweep binds the rows that no other
source can reach to their persisted address, asks the addresses for an echo, and dials
those that answer. Everything else that touches the rows (mDNS, ping, the scanner, the
commands) comes between two awaits of the sweep and is a step of the world: any change of
the rows.

* `HeldDevice`: a row object in the hands of a sweep.
* `ReviverWorld.proceed`: the loop over the answers, up to its next dial.
* `ReviverWorld.step`: the steps.

The round-trip times, the wake of the ping sweep and the worker process are left out.
-/

namespace DeviceBuilder.Devices

/-- `_MAX_DIALS_PER_SWEEP`. -/
def maxDialsPerSweep : ℕ := 3
/-- `_ICMP_SILENT_COOLDOWN`, in seconds, like the three below. -/
def icmpSilentCooldown : ℕ := 600
/-- `_DIAL_FAILURE_COOLDOWN`. -/
def dialFailureCooldown : ℕ := 1800
/-- `_DIAL_FAILURE_COOLDOWN_MAX`. -/
def dialFailureCooldownMax : ℕ := 21600
/-- `_NO_KEY_COOLDOWN`. -/
def noKeyCooldown : ℕ := 3600
/-- `_VERIFIED_TTL`. -/
def verifiedTtl : ℕ := 21600

/-- `CooldownLedger` (`helpers/cooldown.py`); a key without an entry is at zero. -/
structure CooldownLedger (κ : Type*) where
  deadline : κ → ℕ := fun _ => 0
  strikes : κ → ℕ := fun _ => 0

namespace CooldownLedger

variable {κ : Type*} [DecidableEq κ] (c : CooldownLedger κ)

def ready (key : κ) (now : ℕ) : Bool := c.deadline key ≤ now

def set (key : κ) (seconds now : ℕ) : CooldownLedger κ :=
  { c with deadline := Function.update c.deadline key (now + seconds) }

def escalate (key : κ) (base cap now : ℕ) : CooldownLedger κ :=
  let strikes := c.strikes key + 1
  { c with strikes := Function.update c.strikes key strikes }.set key
    (min (base * 2 ^ min (strikes - 1) 32) cap) now

def prune (keep : κ → Bool) : CooldownLedger κ where
  deadline key := if keep key then c.deadline key else 0
  strikes key := if keep key then c.strikes key else 0

end CooldownLedger

/-- The payload of the `device_info` worker. -/
structure WorkerInfo where
  name : String := ""
  macAddress : String := ""
  esphomeVersion : String := ""
  noise : Bool := false
  deriving DecidableEq

/-- What `_probe` comes back with. -/
inductive DialReply
  /-- `ProbeError`. -/
  | missed (transient : Bool)
  /-- `None`: the device refused the connect. -/
  | refused
  | answered (info : WorkerInfo)
  deriving DecidableEq

/-- A `Device` in the hands of a sweep. While the object is in the index its fields are those of
the row; once a scan has replaced or dropped it they stay as they were. Its name never changes. -/
structure HeldDevice where
  row : CatalogDevice
  indexed : Bool := true
  deriving DecidableEq

/-- The fields of the object. -/
def HeldDevice.current (h : HeldDevice) (m : Monitor) : CatalogDevice :=
  if h.indexed then (m.devices.find? (·.configuration = h.row.configuration)).getD h.row
  else h.row

/-- The object after the rows went from `m` to `m'`, where `kept` says which objects are still in
the index: only one whose row has its name can be. -/
def HeldDevice.after (m m' : Monitor) (kept : String → Bool) (h : HeldDevice) : HeldDevice :=
  if h.indexed && kept h.row.configuration &&
      m'.devices.any (fun d => d.configuration = h.row.configuration && d.name = h.row.name) then h
  else { row := { h.current m with name := h.row.name }, indexed := false }

/-- A candidate, bound to its persisted address. -/
structure SweepPair where
  device : HeldDevice
  ip : String
  deriving DecidableEq

def SweepPair.name (p : SweepPair) : String := p.device.row.name

/-- The key of the cooldown ledger. -/
def SweepPair.key (p : SweepPair) : String × String := (p.name, p.ip)

/-- Where the sweep is suspended. -/
inductive SweepPhase
  | idle
  /-- `asyncio.gather` of `_prefilter`: what came back so far. -/
  | filtering (pairs : List (SweepPair × Option Bool))
  /-- `_probe`, with the pairs that are still to come, `now` and `dials`. -/
  | dialing (pair : SweepPair) (rest : List (SweepPair × Bool)) (filtered dials : ℕ)
  deriving DecidableEq

/-- A dial, as it began. -/
structure Dial where
  sweep : ℕ
  name : String
  ip : String
  cooled : Bool
  deriving DecidableEq

/-- A dial that brought an identity, with the object it was judged by. -/
structure Verdict where
  name : String
  ip : String
  time : ℕ
  info : WorkerInfo
  device : CatalogDevice
  /-- Some row bears the recorded former name. -/
  owned : Bool
  deriving DecidableEq

/-- What `_revive` was called for. -/
structure Revival where
  sweep : ℕ
  name : String
  ip : String
  /-- The end of the sweep's pre-filter. -/
  filtered : ℕ
  deriving DecidableEq

/-- `ApiReviverSource` and the rows. The last five fields are the history of the run, which the
code does not read. -/
structure ReviverWorld where
  monitor : Monitor := {}
  cooldown : CooldownLedger (String × String) := {}
  verified : String → Option (String × ℕ) := fun _ => none
  phase : SweepPhase := .idle
  now : ℕ := 0
  sweeps : ℕ := 0
  echoes : List (ℕ × String × String) := []
  dials : List Dial := []
  verdicts : List Verdict := []
  revivals : List Revival := []

/-- The wire cipher of a Noise session. -/
def noiseCipher : String := "Noise_NNpsk0_25519_ChaChaPoly_SHA256"

/-- `apply_worker_info` (`_api_probe.py`). -/
def Monitor.applyWorkerInfo (env : MdnsHelpers) (m : Monitor) (name : String) (info : WorkerInfo) :
    Monitor :=
  let m₁ := (m.applyMacAddress name env.normalizeMac info.macAddress).applyVersion name
    info.esphomeVersion
  let m₂ := if info.macAddress ≠ "" ∨ info.esphomeVersion ≠ "" then
    m₁.applyDeployedIdentityLive name true else m₁
  if info.noise then m₂.applyApiEncryption name noiseCipher true else m₂

/-- `invalidate_persisted_ip`. -/
def Monitor.invalidatePersistedIp (m : Monitor) (name staleIp : String) : Monitor :=
  m.notify name (.persistedIpInvalidated staleIp)

inductive ReviverAction
  /-- A sweep begins; `noTarget` is what `sweep_has_no_target` finds of each row. -/
  | sweep (noTarget : CatalogDevice → Bool)
  /-- The echo of a pair came, or not. -/
  | echo (i : ℕ) (answered : Bool)
  /-- The sweep goes on after its pre-filter. -/
  | gathered
  | reply (r : DialReply)
  /-- Anything else: the rows are `m` now, and `elapsed` seconds went by. -/
  | world (m : Monitor) (kept : String → Bool) (elapsed : ℕ)

namespace ReviverWorld

variable (env : MdnsHelpers) (w : ReviverWorld)

/-- `_prune`. -/
def prune : ReviverWorld :=
  { w with
    cooldown := w.cooldown.prune fun key => (w.monitor.devicesByName key.1).any fun d =>
      d.ip = key.2 && d.runtimeState.state ≠ .online
    verified := fun n => if w.monitor.devicesByName n = [] then none else w.verified n }

/-- `_select_candidates`. -/
def selectCandidates (noTarget : CatalogDevice → Bool) : List CatalogDevice :=
  w.monitor.devices.filter fun d =>
    d.apiEnabled && d.ip ≠ "" && d.runtimeState.state ≠ .online &&
      w.cooldown.ready (d.name, d.ip) w.now && noTarget d

/-- The pairs of a sweep, one for each key. -/
def bindPairs : List CatalogDevice → List SweepPair
  | [] => []
  | d :: ds => ⟨⟨d, true⟩, d.ip⟩ :: (bindPairs ds).filter fun p => p.key ≠ (d.name, d.ip)

/-- `_revive`. -/
def revive (pair : SweepPair) (info : Option WorkerInfo) (filtered : ℕ) : ReviverWorld :=
  let name := pair.name
  let m₁ := if (pair.device.current w.monitor).runtimeState.ipAddresses = [] then
    w.monitor.applyIpAddresses env name [pair.ip] else w.monitor
  let m₂ := match info with
    | some info => m₁.applyWorkerInfo env name info
    | none => m₁
  { w with
    monitor := m₂.applyPingResult name true w.now
    revivals := w.revivals ++ [⟨w.sweeps, name, pair.ip, filtered⟩] }

/-- The verification of the pair has not run out. -/
def vouched (pair : SweepPair) (filtered : ℕ) : Bool :=
  match w.verified pair.name with
  | some (ip, time) => ip = pair.ip && filtered ≤ time + verifiedTtl
  | none => false

/-- The loop of `_sweep`, up to its next dial. -/
def proceed (w : ReviverWorld) (filtered dials : ℕ) : List (SweepPair × Bool) → ReviverWorld
  | [] => { w with phase := .idle }
  | (pair, answered) :: rest =>
    if !answered then proceed w filtered dials rest
    else if (pair.device.current w.monitor).ip ≠ pair.ip then proceed w filtered dials rest
    else if w.vouched pair filtered then
      proceed (w.revive env pair none filtered) filtered dials rest
    else if maxDialsPerSweep ≤ dials then proceed w filtered dials rest
    else
      { w with
        phase := .dialing pair rest filtered (dials + 1)
        dials := w.dials ++
          [⟨w.sweeps, pair.name, pair.ip, !w.cooldown.ready pair.key w.now⟩] }

def coolDown (key : String × String) (seconds : ℕ) : ReviverWorld :=
  { w with cooldown := w.cooldown.set key seconds w.now }

/-- `_record_dial_failure`. -/
def recordDialFailure (key : String × String) : ReviverWorld :=
  { w with cooldown := w.cooldown.escalate key dialFailureCooldown dialFailureCooldownMax w.now }

/-- `_verify_and_revive`, from the reply on. -/
def verify (pair : SweepPair) (filtered : ℕ) (r : DialReply) : ReviverWorld :=
  match r with
  | .missed transient =>
    w.coolDown pair.key (if transient then icmpSilentCooldown else noKeyCooldown)
  | .refused => w.recordDialFailure pair.key
  | .answered info =>
    if info.name = "" then w.recordDialFailure pair.key
    else
      let device := pair.device.current w.monitor
      let owned := device.deployedName ≠ "" && w.monitor.devicesByName device.deployedName ≠ []
      let recorded := if owned then "" else device.deployedName
      let verdict : Verdict := ⟨pair.name, pair.ip, w.now, info, device, owned⟩
      let judged := { w with verdicts := w.verdicts ++ [verdict] }
      if info.name ≠ pair.name ∧ info.name ≠ recorded then
        let failed := judged.recordDialFailure pair.key
        { failed with monitor := failed.monitor.invalidatePersistedIp pair.name pair.ip }
      else
        let mac := env.normalizeMac info.macAddress
        let persisted := env.normalizeMac device.macAddress
        if mac ≠ "" ∧ persisted ≠ "" ∧ mac ≠ persisted then judged.recordDialFailure pair.key
        else
          { judged with
            verified := Function.update judged.verified pair.name (some (pair.ip, w.now))
          }.revive env pair (some info) filtered

/-- The objects in the hands of the sweep follow the rows. -/
def SweepPhase.after (m m' : Monitor) (kept : String → Bool) : SweepPhase → SweepPhase
  | .idle => .idle
  | .filtering pairs =>
    .filtering (pairs.map fun e => ({ e.1 with device := e.1.device.after m m' kept }, e.2))
  | .dialing pair rest filtered dials =>
    .dialing { pair with device := pair.device.after m m' kept }
      (rest.map fun e => ({ e.1 with device := e.1.device.after m m' kept }, e.2)) filtered dials

/-- `_sweep`, up to its first await. -/
def beginSweep (noTarget : CatalogDevice → Bool) : ReviverWorld :=
  match w.phase with
  | .idle =>
    match bindPairs (w.prune.selectCandidates noTarget) with
    | [] => w.prune
    | pair :: pairs =>
      { w.prune with
        phase := .filtering ((pair :: pairs).map (·, none)), sweeps := w.sweeps + 1 }
  | _ => w

/-- `_prefilter` of a pair has its answer. -/
def echoed (i : ℕ) (answered : Bool) : ReviverWorld :=
  match w.phase with
  | .filtering pairs =>
    match pairs[i]? with
    | some (pair, none) =>
      let w' := { w with phase := .filtering (pairs.set i (pair, some answered)) }
      if answered then { w' with echoes := w'.echoes ++ [(w'.sweeps, pair.key)] }
      else w'.coolDown pair.key icmpSilentCooldown
    | _ => w
  | _ => w

/-- The sweep goes on once all answers are there. -/
def afterFilter : ReviverWorld :=
  match w.phase with
  | .filtering pairs =>
    if pairs.all (·.2.isSome) then
      w.proceed env w.now 0 (pairs.map fun e => (e.1, e.2.getD false))
    else w
  | _ => w

/-- The sweep goes on after a dial. -/
def replied (r : DialReply) : ReviverWorld :=
  match w.phase with
  | .dialing pair rest filtered dials =>
    (w.verify env pair filtered r).proceed env filtered dials rest
  | _ => w

def step (w : ReviverWorld) : ReviverAction → ReviverWorld
  | .sweep noTarget => w.beginSweep noTarget
  | .echo i answered => w.echoed i answered
  | .gathered => w.afterFilter env
  | .reply r => w.replied env r
  | .world m kept elapsed =>
    { w with
      monitor := m, phase := SweepPhase.after w.monitor m kept w.phase, now := w.now + elapsed }

end ReviverWorld

end DeviceBuilder.Devices
