import DeviceBuilder.Lib.Dict
import DeviceBuilder.Lib.Election
import DeviceBuilder.Lib.Runs
import Mathlib.Data.Prod.Lex
import Mathlib.Data.String.Basic
import Mathlib.Order.BooleanAlgebra.Defs

/-!
# The MQTT coordinator

`DeviceMqttCoordinator` (`_device_mqtt_coordinator.py`) runs one
`DeviceMqttMonitor` (`_device_mqtt_monitor.py`) for each broker login that the
device configurations name, and lets one monitor of an endpoint broadcast.

A monitor is a number, used once; the registry maps a login to its monitor. A
`reconcile()` or `stop()` is a routine; between two awaits it runs in one step.
What `_collect_brokers` finds is an input of the step.

* `MqttCoordinator.step`: a section of a routine, or of a monitor's task.
-/

namespace DeviceBuilder

structure BrokerKey where
  host : String
  port : ℤ
  username : Option String
  caDigest : Option String
  skipCn : Bool
  transport : String
  wsPath : String
  deriving DecidableEq

/-- `_BrokerEndpoint`. -/
abbrev BrokerEndpoint := String × ℤ × String × String

def BrokerKey.endpoint (key : BrokerKey) : BrokerEndpoint := (key.host, key.port, key.transport, key.wsPath)

abbrev MonitorId := ℕ

abbrev RoutineId := ℕ

/-- The `_task` of a monitor. -/
inductive MonitorTask
  | none
  | running
  /-- Cancelled, and on its way out. -/
  | closing
  | done
  deriving DecidableEq

/-- The task has not ended. -/
def MonitorTask.alive : MonitorTask → Bool
  | running | closing => true
  | _ => false

structure DeviceMqttMonitor where
  key : BrokerKey := ⟨"", 0, .none, .none, false, "", ""⟩
  isPublisher : Bool := true
  connected : Bool := false
  task : MonitorTask := .none

inductive ReconcilePoint
  | lock
  /-- `_collect_brokers` runs on the executor. -/
  | collect
  /-- Awaiting the `stop()` of `monitor`, registered for `key`; `rest` follow. -/
  | stopping (key : BrokerKey) (monitor : MonitorId) (rest brokers : List BrokerKey)
  | ended

inductive StopPoint
  | lock
  | stopping (monitor : MonitorId) (rest : List MonitorId) (acquired : Bool)
  | ended

inductive Routine
  | reconcile (point : ReconcilePoint)
  | stop (point : StopPoint)

structure MqttCoordinator where
  /-- Every monitor that was made. -/
  monitor : MonitorId → DeviceMqttMonitor := fun _ => {}
  made : ℕ := 0
  /-- `_monitors`. -/
  monitors : Dict BrokerKey MonitorId := ∅
  /-- Who holds `_reconcile_lock`. -/
  reconcileLock : Option RoutineId := none
  stopped : Bool := false
  routines : List Routine := []
  /-- Not in the source: a `stop()` has returned, and no `resume()` since. -/
  closed : Bool := false
  /-- Not in the source: the logins of the last pass that went through, until the next one begins. -/
  settled : Option (List BrokerKey) := none

/-- One step. -/
inductive MqttAction
  /-- `reconcile()`, `stop()` are called. -/
  | reconcile
  | stop
  | resume
  /-- Routine `r` gets the lock; its wait of five seconds for it ends. -/
  | acquire (r : RoutineId)
  | lockTimeout (r : RoutineId)
  /-- `_collect_brokers` ends; `order` is that of the set difference. -/
  | collected (r : RoutineId) (brokers : List BrokerKey) (needsReload : Bool) (order : List BrokerKey)
  /-- The monitor that routine `r` stops has ended. -/
  | monitorStopped (r : RoutineId)
  /-- `CancelledError` at the await of routine `r`. -/
  | cancel (r : RoutineId)
  /-- The task of monitor `i` connects, loses its session, ends. -/
  | connect (i : MonitorId)
  | disconnect (i : MonitorId)
  | finish (i : MonitorId)

namespace MqttCoordinator

variable (w : MqttCoordinator)

def modifyMonitor (i : MonitorId) (f : DeviceMqttMonitor → DeviceMqttMonitor) : MqttCoordinator :=
  { w with monitor := Function.update w.monitor i (f (w.monitor i)) }

def setRoutine (r : RoutineId) (routine : Routine) : MqttCoordinator := { w with routines := w.routines.set r routine }

/-- The `async with` of a routine that ends. -/
def release (r : RoutineId) : MqttCoordinator :=
  if w.reconcileLock = some r then { w with reconcileLock := none } else w

/-- `drain_tasks` cancels the task of monitor `i`. -/
def cancelTask (i : MonitorId) : MqttCoordinator :=
  w.modifyMonitor i fun m => if m.task = .running then { m with task := .closing } else m

/-- `order` of `_assign_publishers`. -/
def publisherOrder (e : BrokerKey × MonitorId) : Bool ×ₗ Bool ×ₗ Bool ×ₗ String ×ₗ String ×ₗ Bool :=
  toLex (!(w.monitor e.2).connected, toLex (!(w.monitor e.2).isPublisher, toLex (e.1.username.isSome,
    toLex (e.1.username.getD "", toLex (e.1.caDigest.getD "", e.1.skipCn)))))

/-- `_assign_publishers`. -/
def assignPublishers : MqttCoordinator :=
  let elected := Election.elect w.publisherOrder (·.1.endpoint) w.monitors.items
  { w with
    monitor := w.monitors.items.foldl (fun monitor e => Function.update monitor e.2
      { monitor e.2 with isPublisher := decide ((elected.get? e.1.endpoint).map (·.2) = some e.2) }) w.monitor }

/-! #### `reconcile()` -/

/-- A monitor for each of `brokers` that has none. -/
def addMonitors : List BrokerKey → MqttCoordinator → MqttCoordinator
  | [], w => w
  | key :: brokers, w =>
    if (w.monitors.get? key).isSome then addMonitors brokers w
    else addMonitors brokers { w.modifyMonitor w.made fun _ => { key := key } with
      monitors := w.monitors.set key w.made
      made := w.made + 1 }

/-- `start()` of the monitors made since `first`. -/
def startNew (first : MonitorId) : MqttCoordinator :=
  { w with monitor := fun i => if first ≤ i ∧ i < w.made then { w.monitor i with task := .running } else w.monitor i }

def endReconcile (r : RoutineId) : MqttCoordinator := (w.setRoutine r (.reconcile .ended)).release r

/-- The last section of a pass. -/
def startWanted (r : RoutineId) (brokers : List BrokerKey) (settled : Bool) : MqttCoordinator :=
  { ((addMonitors brokers w).assignPublishers.startNew w.made).endReconcile r with
    settled := if settled then some brokers else none }

/-- `_stop_unwanted_monitors` from the first of the given keys on. -/
def stopUnwanted (r : RoutineId) (brokers : List BrokerKey) : List BrokerKey → MqttCoordinator → MqttCoordinator
  | [], w => w.startWanted r brokers true
  | key :: rest, w =>
    match w.monitors.get? key with
    | none => w.endReconcile r
    | some i =>
      if (w.monitor i).task = .none then
        let w := { w with monitors := w.monitors.erase key }
        if w.stopped then w.endReconcile r else stopUnwanted r brokers rest w
      else (w.cancelTask i).setRoutine r (.reconcile (.stopping key i rest brokers))

/-- `_reconcile_locked`, past the executor. -/
def reconcileCollected (r : RoutineId) (brokers : List BrokerKey) (needsReload : Bool) (order : List BrokerKey) :
    MqttCoordinator :=
  if w.stopped then w.endReconcile r
  else if needsReload then w.startWanted r brokers false
  else if order.isPerm (w.monitors.keys.filter fun key => !decide (key ∈ brokers)) then stopUnwanted r brokers order w
  else w

/-- Past the `stop()` of a monitor: it is deregistered. -/
def reconcileStopped (r : RoutineId) (key : BrokerKey) (i : MonitorId) (rest brokers : List BrokerKey) :
    MqttCoordinator :=
  let w := { w.modifyMonitor i fun m => { m with task := .none } with monitors := w.monitors.erase key }
  if w.stopped then w.endReconcile r else stopUnwanted r brokers rest w

/-! #### `stop()` -/

/-- The registered monitors are stopped, one after another. -/
def stopMonitors (r : RoutineId) (acquired : Bool) : List MonitorId → MqttCoordinator → MqttCoordinator
  | [], w =>
    { (w.setRoutine r (.stop .ended)).release r with
      monitors := ∅
      closed := true }
  | i :: rest, w =>
    if (w.monitor i).task = .none then stopMonitors r acquired rest w
    else (w.cancelTask i).setRoutine r (.stop (.stopping i rest acquired))

/-! #### Steps -/

def acquire (r : RoutineId) : MqttCoordinator :=
  if w.reconcileLock.isSome then w
  else
    match w.routines[r]? with
    | some (.reconcile .lock) =>
      { w.setRoutine r (.reconcile .collect) with
        reconcileLock := some r
        settled := none }
    | some (.stop .lock) => stopMonitors r true w.monitors.values { w with reconcileLock := some r }
    | _ => w

def monitorStopped (r : RoutineId) : MqttCoordinator :=
  match w.routines[r]? with
  | some (.reconcile (.stopping key i rest brokers)) =>
    if (w.monitor i).task.alive then w else w.reconcileStopped r key i rest brokers
  | some (.stop (.stopping i rest acquired)) =>
    if (w.monitor i).task.alive then w
    else stopMonitors r acquired rest (w.modifyMonitor i fun m => { m with task := .none })
  | _ => w

def cancel (r : RoutineId) : MqttCoordinator :=
  match w.routines[r]? with
  | some (.reconcile _) => w.endReconcile r
  | some (.stop _) => (w.setRoutine r (.stop .ended)).release r
  | none => w

/-- `_set_connected`. -/
def setConnected (i : MonitorId) (value : Bool) : MqttCoordinator :=
  if (w.monitor i).connected = value then w
  else (w.modifyMonitor i fun m => { m with connected := value }).assignPublishers

def step (w : MqttCoordinator) : MqttAction → MqttCoordinator
  | .reconcile => { w with routines := w.routines ++ [.reconcile .lock] }
  | .stop => { w with routines := w.routines ++ [.stop .lock], stopped := true, settled := none }
  | .resume => { w with stopped := false, closed := false }
  | .acquire r => w.acquire r
  | .lockTimeout r =>
    match w.routines[r]? with
    | some (.stop .lock) => stopMonitors r false w.monitors.values w
    | _ => w
  | .collected r brokers needsReload order =>
    match w.routines[r]? with
    | some (.reconcile .collect) => w.reconcileCollected r brokers needsReload order
    | _ => w
  | .monitorStopped r => w.monitorStopped r
  | .cancel r => w.cancel r
  | .connect i => if (w.monitor i).task = .running then w.setConnected i true else w
  | .disconnect i => if (w.monitor i).task.alive then w.setConnected i false else w
  | .finish i =>
    if (w.monitor i).task = .closing ∧ (w.monitor i).connected = false then
      w.modifyMonitor i fun m => { m with task := .done }
    else w

end MqttCoordinator

end DeviceBuilder
