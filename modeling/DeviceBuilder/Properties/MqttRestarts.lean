import DeviceBuilder.Properties.MqttCoordinator

/-!
# Monitors across passes, stops and restarts

The owner restarts the coordinator only when `stop()` has returned.

* `mqtt_no_leak`: a monitor whose task has not ended is the one registered for
  its login; when `stop()` has returned, none runs.
* `mqtt_settled`: a pass that went through leaves a running monitor for each
  login, and no other.
-/

namespace DeviceBuilder

namespace MqttCoordinator

variable {w w' : MqttCoordinator} {i j : MonitorId} {r : RoutineId} {k : BrokerKey}

/-- The owner calls `resume()` when the coordinator is not stopped, or when its `stop()` has returned. -/
def Owned (w : MqttCoordinator) (a : MqttAction) : Prop :=
  a = .resume → w.stopped = false ∨ w.closed = true ∧ ∀ (r : RoutineId) p, w.routines[r]? = some (.stop p) → p = .ended

/-- **No monitor is lost.** -/
structure Kept (w : MqttCoordinator) : Prop where
  owned : ∀ i, (w.monitor i).task.alive = true → w.monitors.get? (w.monitor i).key = some i
  waits : ∀ r : RoutineId, w.routines[r]? = some (.stop .lock) → w.stopped = true
  /-- What a `stop()` has still to end is before it. -/
  walk : ∀ (r : RoutineId) i rest acquired, w.routines[r]? = some (.stop (.stopping i rest acquired)) →
    w.stopped = true ∧ ∀ k j, w.monitors.get? k = some j → (w.monitor j).task.alive = true → j = i ∨ j ∈ rest
  closed : w.closed = true → w.stopped = true ∧ ∀ k, w.monitors.get? k = none

/-- Tasks may end, and routines that are no `stop()` may go on. -/
structure Ends (w w' : MqttCoordinator) : Prop where
  monitors : w'.monitors = w.monitors
  stopped : w'.stopped = w.stopped
  closed : w'.closed = w.closed
  key : ∀ i, (w'.monitor i).key = (w.monitor i).key
  alive : ∀ i, (w'.monitor i).task.alive = true → (w.monitor i).task.alive = true
  routines : ∀ (r : RoutineId) p, w'.routines[r]? = some (.stop p) → w.routines[r]? = some (.stop p)

theorem Kept.ends (h : Kept w) (he : Ends w w') : Kept w' := by
  refine ⟨fun i hi => ?_, fun r hr => ?_, fun r i rest acquired hr => ?_, fun hc => ?_⟩
  · rw [he.monitors, he.key]
    exact h.owned i (he.alive i hi)
  · exact he.stopped.trans (h.waits r (he.routines r _ hr))
  · obtain ⟨hst, hrest⟩ := h.walk r i rest acquired (he.routines r _ hr)
    refine ⟨he.stopped.trans hst, fun k j hk hj => hrest k j ?_ (he.alive j hj)⟩
    exact he.monitors ▸ hk
  · obtain ⟨hst, hnone⟩ := h.closed (he.closed ▸ hc)
    exact ⟨he.stopped.trans hst, fun k => he.monitors.symm ▸ hnone k⟩

theorem set_reconcile {p : ReconcilePoint} {q : RoutineId} {x : StopPoint} {l : List Routine}
    (h : (l.set r (.reconcile p))[q]? = some (.stop x)) : l[q]? = some (.stop x) := by
  rcases set_get h with ⟨-, he⟩ | ⟨-, hq⟩
  · cases he
  · exact hq

theorem endReconcile_ends (w : MqttCoordinator) (r : RoutineId) : Ends w (w.endReconcile r) := by
  have hf := endReconcile_frame w r
  refine ⟨hf.monitors, hf.stopped, hf.closed, fun i => by rw [hf.monitor], fun i => by rw [hf.monitor]; exact id,
    fun q p hq => ?_⟩
  have hr : (w.endReconcile r).routines = w.routines.set r (.reconcile .ended) := release_routines _ r
  rw [hr] at hq
  exact set_reconcile hq

/-- A pass adds monitors only while nothing stops. -/
theorem startWanted_kept (h : Kept w) (hreg : Registry w) (hst : w.stopped = false) (r : RoutineId)
    (brokers : List BrokerKey) (settled : Bool) : Kept (w.startWanted r brokers settled) := by
  have hs := startWanted_spec hreg r brokers settled
  have hstops : ∀ (q : RoutineId) p, (w.startWanted r brokers settled).routines[q]? = some (.stop p) →
      w.routines[q]? = some (.stop p) := by
    intro q p hq
    have hr : (w.startWanted r brokers settled).routines = w.routines.set r (.reconcile .ended) := by
      refine (release_routines _ r).trans ?_
      exact congrArg (·.set r (.reconcile .ended)) (addMonitors_spec brokers hreg).routines
    rw [hr] at hq
    exact set_reconcile hq
  refine ⟨fun i hi => ?_, fun q hq => ?_, fun q i rest acquired hq => ?_, fun hc => ?_⟩
  · by_cases hlt : i < w.made
    · rw [(hs.task i hlt).2]
      rw [(hs.task i hlt).1] at hi
      exact hs.get _ i (h.owned i hi)
    · by_cases hnew : i < (w.startWanted r brokers settled).made
      · exact (hs.new i (Nat.le_of_not_lt hlt) hnew).1
      · rw [(hs.registry.fresh i (Nat.le_of_not_lt hnew)).1] at hi
        cases hi
  · have := h.waits q (hstops q _ hq)
    rw [hst] at this
    cases this
  · have := (h.walk q i rest acquired (hstops q _ hq)).1
    rw [hst] at this
    cases this
  · rw [hs.closed] at hc
    have := (h.closed hc).1
    rw [hst] at this
    cases this

/-- A monitor without a task leaves the registry. -/
theorem Kept.erase (h : Kept w) (key : BrokerKey)
    (hidle : ∀ i, w.monitors.get? key = some i → (w.monitor i).task.alive = false) :
    Kept { w with monitors := w.monitors.erase key } := by
  refine ⟨fun i hi => ?_, h.waits, fun q i rest acquired hq => ?_, fun hc => ?_⟩
  · have hown := h.owned i hi
    refine (Dict.get?_erase_ne fun hk => ?_).trans hown
    rw [hk] at hown
    rw [hidle i hown] at hi
    cases hi
  · obtain ⟨hst, hrest⟩ := h.walk q i rest acquired hq
    exact ⟨hst, fun k j hk => hrest k j (Dict.of_get?_erase hk).2⟩
  · obtain ⟨hst, hnone⟩ := h.closed hc
    refine ⟨hst, fun k => ?_⟩
    rw [Dict.get?_erase]
    split
    · rfl
    · exact hnone k

theorem cancelTask_ends (w : MqttCoordinator) (i : MonitorId) {routine : ReconcilePoint} :
    Ends w ((w.cancelTask i).setRoutine r (.reconcile routine)) := by
  obtain ⟨hmove, halive⟩ := cancelTask_moves w i
  exact ⟨rfl, rfl, rfl, fun j => (hmove.same j).1, fun j hj => halive j ▸ hj, fun q p hq => set_reconcile hq⟩

theorem stopUnwanted_kept (h : Kept w) (hreg : Registry w) (hst : w.stopped = false) (r : RoutineId)
    (brokers rest : List BrokerKey) : Kept (stopUnwanted r brokers rest w) := by
  refine stopUnwanted_induction r brokers (I := fun v => Kept v ∧ Registry v ∧ v.stopped = false) (O := Kept)
    (L := fun _ _ => True) (fun v _ hv _ => hv.1.ends (endReconcile_ends v r))
    (fun v hv _ => startWanted_kept hv.1 hv.2.1 hv.2.2 r brokers true)
    (fun v key rest i hv _ hi ht => ⟨⟨?_, ?_, hv.2.2⟩, trivial⟩)
    (fun v key rest i hv _ _ _ => hv.1.ends (cancelTask_ends v i)) rest ⟨h, hreg, hst⟩ trivial
  · refine hv.1.erase key fun j hj => ?_
    rw [hi] at hj
    obtain rfl := Option.some.inj hj
    rw [ht]
    rfl
  · exact hv.2.1.erase key

/-- **`stop()` goes on**, with every registered monitor that lives before it. -/
theorem stopMonitors_kept (h : Kept w) (hst : w.stopped = true) (r : RoutineId) (acquired : Bool)
    (rest : List MonitorId)
    (hrest : ∀ k j, w.monitors.get? k = some j → (w.monitor j).task.alive = true → j ∈ rest) :
    Kept (stopMonitors r acquired rest w) := by
  induction rest generalizing w with
  | nil =>
    have hf := release_frame (w.setRoutine r (.stop .ended)) r
    have hmon : ((w.setRoutine r (.stop .ended)).release r).monitor = w.monitor := hf.monitor
    have hdead : ∀ i, (w.monitor i).task.alive ≠ true := by
      intro i hi
      exact absurd (hrest _ i (h.owned i hi) hi) List.not_mem_nil
    have hstopped : ((w.setRoutine r (.stop .ended)).release r).stopped = true := hf.stopped.trans hst
    unfold stopMonitors
    refine ⟨fun i hi => ?_, fun q hq => hstopped, fun q i rest acquired hq => ⟨hstopped, fun k j hk => ?_⟩,
      fun _ => ⟨hstopped, fun k => rfl⟩⟩
    · exact absurd ((congrArg (fun m => (m i).task.alive) hmon).symm.trans hi) (hdead i)
    · cases hk
  | cons i rest ih =>
    unfold stopMonitors
    split
    · next ht =>
      refine ih h hst fun k j hk hj => ?_
      rcases List.mem_cons.1 (hrest k j hk hj) with rfl | hmem
      · rw [ht] at hj
        cases hj
      · exact hmem
    · obtain ⟨hmove, halive⟩ := cancelTask_moves w i
      have hother : ∀ (q : RoutineId) x, ((w.cancelTask i).setRoutine r (.stop (.stopping i rest acquired))).routines[q]? =
          some (.stop x) → x = .stopping i rest acquired ∨ w.routines[q]? = some (.stop x) := by
        intro q x hq
        rcases set_get hq with ⟨-, he⟩ | ⟨-, hq⟩
        · exact .inl (Routine.stop.inj he)
        · exact .inr hq
      refine ⟨fun j hj => ?_, fun q hq => hst, fun q a rest' acquired' hq => ⟨hst, fun k j hk hj => ?_⟩, h.closed⟩
      · have hkey : (((w.cancelTask i).setRoutine r (.stop (.stopping i rest acquired))).monitor j).key =
            (w.monitor j).key := (hmove.same j).1
        rw [hkey]
        exact h.owned j (halive j ▸ hj)
      · have hj' : (w.monitor j).task.alive = true := halive j ▸ hj
        rcases hother q _ hq with he | hold
        · cases he
          exact List.mem_cons.1 (hrest k j hk hj')
        · exact (h.walk q a rest' acquired' hold).2 k j hk hj'

theorem taskMoves_ends (ht : TaskMoves w i w') (hs : w'.stopped = w.stopped) (hc : w'.closed = w.closed)
    (hr : w'.routines = w.routines) (ha : (w'.monitor i).task.alive = true → (w.monitor i).task.alive = true) :
    Ends w w' := by
  refine ⟨ht.monitors, hs, hc, fun j => (ht.same j).1, fun j hj => ?_, fun q p hq => hr ▸ hq⟩
  by_cases hji : j = i
  · subst hji
    exact ha hj
  · rw [← ht.other j hji]
    exact hj

theorem setConnected_ends (h : Sane w) (i : MonitorId) (value : Bool) (ha : (w.monitor i).task.alive = true) :
    Ends w (w.setConnected i value) := by
  unfold setConnected
  split
  · exact ⟨rfl, rfl, rfl, fun _ => rfl, fun _ => id, fun _ _ => id⟩
  have hget := modifyMonitor_get w i fun m => { m with connected := value }
  have hreg := h.elected.1.connects i value ha
  have hkey : ∀ j, ((w.modifyMonitor i fun m => { m with connected := value }).monitor j).key = (w.monitor j).key ∧
      ((w.modifyMonitor i fun m => { m with connected := value }).monitor j).task = (w.monitor j).task := by
    intro j
    rw [hget]
    split
    · next he => subst he; exact ⟨rfl, rfl⟩
    · exact ⟨rfl, rfl⟩
  refine ⟨rfl, rfl, rfl, fun j => ((assign_same hreg j).1).trans (hkey j).1, fun j hj => ?_, fun _ _ => id⟩
  rw [(assign_same hreg j).2.2, (hkey j).2] at hj
  exact hj

theorem noTask_ends (w : MqttCoordinator) (j : MonitorId) :
    Ends w (w.modifyMonitor j fun m => { m with task := .none }) := by
  refine taskMoves_ends (modifyTask_moves w j fun _ => ⟨rfl, rfl, rfl⟩) rfl rfl rfl fun ha => ?_
  rw [modifyMonitor_get, if_pos rfl] at ha
  cases ha

/-- **A step loses no monitor**, when the owner restarts as it should. -/
theorem Kept.step (h : Kept w) (hs : Sane w) {a : MqttAction} (ha : Owned w a) : Kept (w.step a) := by
  have hvalues : ∀ k j, w.monitors.get? k = some j → (w.monitor j).task.alive = true → j ∈ w.monitors.values :=
    fun k j hk _ => Dict.mem_values.2 ⟨k, hk⟩
  cases a with
  | reconcile =>
    refine h.ends ⟨rfl, rfl, rfl, fun _ => rfl, fun _ => id, fun q p hq => ?_⟩
    rcases append_get hq with hq | he
    · exact hq
    · cases he
  | stop =>
    refine ⟨h.owned, fun _ _ => rfl, fun q i rest acquired hq => ⟨rfl, ?_⟩, fun hc => ⟨rfl, (h.closed hc).2⟩⟩
    rcases append_get hq with hq | he
    · exact (h.walk q i rest acquired hq).2
    · cases he
  | resume =>
    -- nothing is being stopped
    have hquiet : ∀ (q : RoutineId) p, w.routines[q]? = some (.stop p) → p = .ended := by
      intro q p hq
      rcases ha rfl with hst | ⟨-, hended⟩
      · cases p with
        | lock =>
          have := h.waits q hq
          rw [hst] at this
          cases this
        | stopping i rest acquired =>
          have := (h.walk q i rest acquired hq).1
          rw [hst] at this
          cases this
        | ended => rfl
      · exact hended q p hq
    refine ⟨h.owned, fun q hq => ?_, fun q i rest acquired hq => ?_, fun hc => ?_⟩
    · cases hquiet q _ hq
    · cases hquiet q _ hq
    · cases hc
  | acquire r =>
    simp only [MqttCoordinator.step, acquire]
    split
    · exact h
    split
    · exact h.ends ⟨rfl, rfl, rfl, fun _ => rfl, fun _ => id, fun q p hq => set_reconcile hq⟩
    · next hr =>
      exact stopMonitors_kept (w := { w with reconcileLock := some r }) ⟨h.owned, h.waits, h.walk, h.closed⟩
        (h.waits r hr) r true _ hvalues
    · exact h
  | lockTimeout r =>
    simp only [MqttCoordinator.step]
    split
    · next hr => exact stopMonitors_kept h (h.waits r hr) r false _ hvalues
    · exact h
  | collected r brokers needsReload order =>
    simp only [MqttCoordinator.step]
    split
    · unfold reconcileCollected
      split
      · exact h.ends (endReconcile_ends w r)
      next hst =>
      have hst' : w.stopped = false := Bool.eq_false_iff.2 hst
      split
      · exact startWanted_kept h hs.elected.1 hst' r brokers false
      split
      · exact stopUnwanted_kept h hs.elected.1 hst' r brokers order
      · exact h
    · exact h
  | monitorStopped r =>
    simp only [MqttCoordinator.step, monitorStopped]
    split
    · next key j rest brokers hr =>
      split
      · exact h
      next hdead =>
      have hget := modifyMonitor_get w j fun m => { m with task := .none }
      have hends := noTask_ends w j
      have hreg := (hs.elected.noTask hdead).1
      have hkept := (h.ends hends).erase key fun a hka => by
        obtain rfl := hs.locks.stopping r key j rest brokers hr a hka
        rw [hget, if_pos rfl]
        rfl
      have hreg' := hreg.erase key
      unfold reconcileStopped
      simp only
      split
      · exact hkept.ends (endReconcile_ends _ r)
      · next hst => exact stopUnwanted_kept hkept hreg' (Bool.eq_false_iff.2 hst) r brokers rest
    · next j rest acquired hr =>
      split
      · exact h
      next hdead =>
      have hget := modifyMonitor_get w j fun m => { m with task := .none }
      have hends := noTask_ends w j
      obtain ⟨hst, hrest⟩ := h.walk r j rest acquired hr
      refine stopMonitors_kept (h.ends hends) hst r acquired rest fun k a hk hal => ?_
      rcases hrest k a hk (hends.alive a hal) with rfl | hmem
      · rw [hget, if_pos rfl] at hal
        cases hal
      · exact hmem
    · exact h
  | cancel r =>
    simp only [MqttCoordinator.step, cancel]
    split
    · exact h.ends (endReconcile_ends w r)
    · next p hr =>
      have hf := release_frame (w.setRoutine r (.stop .ended)) r
      have hback : ∀ (q : RoutineId) x, ((w.setRoutine r (.stop .ended)).release r).routines[q]? = some (.stop x) →
          x = .ended ∨ w.routines[q]? = some (.stop x) := by
        intro q x hq
        rw [release_routines] at hq
        rcases set_get hq with ⟨-, he⟩ | ⟨-, hq⟩
        · exact .inl (Routine.stop.inj he)
        · exact .inr hq
      refine ⟨fun i hi => ?_, fun q hq => ?_, fun q i rest acquired hq => ?_, fun hc => ?_⟩
      · rw [hf.monitor] at hi ⊢
        rw [hf.monitors]
        exact h.owned i hi
      · rcases hback q _ hq with he | hq
        · cases he
        · exact hf.stopped.trans (h.waits q hq)
      · rcases hback q _ hq with he | hq
        · cases he
        · rw [hf.stopped, hf.monitors, hf.monitor]
          exact h.walk q i rest acquired hq
      · rw [hf.closed] at hc
        rw [hf.stopped, hf.monitors]
        exact h.closed hc
    · exact h
  | connect i =>
    simp only [MqttCoordinator.step]
    split
    · next ht => exact h.ends (setConnected_ends hs i true (by rw [ht]; rfl))
    · exact h
  | disconnect i =>
    simp only [MqttCoordinator.step]
    split
    · next ht => exact h.ends (setConnected_ends hs i false ht)
    · exact h
  | finish i =>
    simp only [MqttCoordinator.step]
    split
    · next ht =>
      refine h.ends (taskMoves_ends (modifyTask_moves w i fun _ => ⟨rfl, rfl, rfl⟩) rfl rfl rfl fun _ => ?_)
      rw [ht.1]
      rfl
    · exact h

/-- **No monitor is lost.** In every run in which the owner restarts the coordinator only after its
`stop()` returned: a monitor whose task has not ended is the one registered for its login, so two
never run for one login; and from the return of a `stop()` until the restart no task runs. -/
theorem mqtt_no_leak (hw : Runs.Reaches MqttCoordinator.step Owned {} w) :
    (∀ i, (w.monitor i).task.alive = true → w.monitors.get? (w.monitor i).key = some i) ∧
    (w.closed = true → ∀ i, (w.monitor i).task.alive = false) := by
  have hstart : Kept ({} : MqttCoordinator) := by
    refine ⟨fun i hi => ?_, fun r hr => ?_, fun r i rest acquired hr => ?_, fun hc => ?_⟩
    · cases hi
    · cases hr
    · cases hr
    · cases hc
  have hboth := hw.invariant (I := fun w => Sane w ∧ Kept w) ⟨Sane.start, hstart⟩
    fun v a ha h => ⟨h.1.step a, h.2.step h.1 ha⟩
  refine ⟨hboth.2.owned, fun hc i => ?_⟩
  cases hal : (w.monitor i).task.alive with
  | false => rfl
  | true =>
    have hown := hboth.2.owned i hal
    rw [(hboth.2.closed hc).2] at hown
    cases hown

theorem mqtt_no_leak_twoLogins :
    (twoLogins.foldl MqttCoordinator.step {}).monitors.get? ((twoLogins.foldl MqttCoordinator.step {}).monitor 1).key =
      some 1 := by
  have hok : ∀ a ∈ twoLogins, ∀ w, Owned w a := by
    rintro a ha w rfl
    simp [twoLogins] at ha
  exact (mqtt_no_leak (.foldl_of twoLogins hok ({} : MqttCoordinator))).1 1 (by decide +kernel)

/-! ### What a pass settles -/

/-- The owner restarts as it should, and no pass is cancelled while it stops a monitor. -/
def Orderly (w : MqttCoordinator) (a : MqttAction) : Prop :=
  Owned w a ∧ ∀ (r : RoutineId) key i rest brokers, a = .cancel r →
    w.routines[r]? ≠ some (.reconcile (.stopping key i rest brokers))

/-- **What a pass leaves behind.** -/
structure Settled (w : MqttCoordinator) : Prop where
  running : w.stopped = false → ∀ k i, w.monitors.get? k = some i → (w.monitor i).task = .running ∨
    ∃ (r : RoutineId) (rest brokers : List BrokerKey), w.routines[r]? = some (.reconcile (.stopping k i rest brokers))
  /-- What no login names is still to be stopped. -/
  stale : w.stopped = false → ∀ (r : RoutineId) key i rest brokers,
    w.routines[r]? = some (.reconcile (.stopping key i rest brokers)) →
    ∀ k a, w.monitors.get? k = some a → k ∈ brokers ∨ k = key ∨ k ∈ rest
  settled : ∀ brokers, w.settled = some brokers → w.reconcileLock = none ∧ w.stopped = false ∧
    ∀ k, (∃ i, w.monitors.get? k = some i) ↔ k ∈ brokers

/-- While something stops, nothing is promised. -/
theorem Settled.of_stopped (hst : w.stopped = true) (hn : w.settled = none) : Settled w := by
  refine ⟨fun h => ?_, fun h => ?_, fun brokers h => ?_⟩
  · rw [hst] at h
    cases h
  · rw [hst] at h
    cases h
  · rw [hn] at h
    cases h

/-- Between the passes, and outside what they stop, routines come and go. -/
theorem Settled.mono (h : Settled w) (hm : w'.monitors = w.monitors)
    (ht : ∀ i, (w.monitor i).task = .running → (w'.monitor i).task = .running) (hst : w'.stopped = w.stopped)
    (hr : ∀ (r : RoutineId) key i rest brokers, w'.routines[r]? = some (.reconcile (.stopping key i rest brokers)) ↔
      w.routines[r]? = some (.reconcile (.stopping key i rest brokers)))
    (hs : ∀ brokers, w'.settled = some brokers → w.settled = some brokers)
    (hl : w.reconcileLock = none → w'.settled ≠ none → w'.reconcileLock = none) : Settled w' := by
  refine ⟨fun h' k i hk => ?_, fun h' r key i rest brokers hq k a hk => ?_, fun brokers hb => ?_⟩
  · rw [hm] at hk
    rcases h.running (hst ▸ h') k i hk with hrun | ⟨r, rest, brokers, hq⟩
    · exact .inl (ht i hrun)
    · exact .inr ⟨r, rest, brokers, (hr r k i rest brokers).2 hq⟩
  · rw [hm] at hk
    exact h.stale (hst ▸ h') r key i rest brokers ((hr r key i rest brokers).1 hq) k a hk
  · obtain ⟨hlock, hstop, hkeys⟩ := h.settled brokers (hs brokers hb)
    refine ⟨hl hlock (by rw [hb]; simp), hst.trans hstop, fun k => ?_⟩
    rw [hm]
    exact hkeys k

theorem startWanted_lock (h : Registry w) (hl : w.reconcileLock = some r) (brokers : List BrokerKey) (settled : Bool) :
    (w.startWanted r brokers settled).reconcileLock = none ∧
      (w.startWanted r brokers settled).routines = w.routines.set r (.reconcile .ended) := by
  have hadd := addMonitors_spec brokers h
  refine ⟨?_, (release_routines _ r).trans (congrArg (·.set r (.reconcile .ended)) hadd.routines)⟩
  have hlock : (((addMonitors brokers w).assignPublishers.startNew w.made).setRoutine r
      (.reconcile .ended)).reconcileLock = some r := hadd.lock.trans hl
  unfold startWanted endReconcile release
  rw [if_pos hlock]

/-- A pass that stops nothing any more adds and starts what is missing. -/
theorem startWanted_settled (h : Registry w) (hl : w.reconcileLock = some r)
    (hother : ∀ (q : RoutineId) p, q ≠ r → w.routines[q]? = some (.reconcile p) → p.holding = false)
    (hst : w.stopped = false) (hrun : ∀ k i, w.monitors.get? k = some i → (w.monitor i).task = .running)
    (brokers : List BrokerKey) (settled : Bool)
    (hkeys : settled = true → ∀ k i, w.monitors.get? k = some i → k ∈ brokers) :
    Settled (w.startWanted r brokers settled) := by
  have hs := startWanted_spec h r brokers settled
  obtain ⟨hlock, hrout⟩ := startWanted_lock h hl brokers settled
  refine ⟨fun _ k i hk => .inl ?_, fun _ q key i rest brokers' hq => ?_, fun brokers' hb => ?_⟩
  · rcases hs.back k i hk with hold | ⟨-, hle⟩
    · rw [(hs.task i (h.key k i hold).2).1]
      exact hrun k i hold
    · exact (hs.new i hle (hs.registry.key k i hk).2).2
  · rw [hrout] at hq
    rcases set_get hq with ⟨-, he⟩ | ⟨hne, hq⟩
    · cases he
    · have := hother q _ hne hq
      cases this
  · have hb' : (if settled then some brokers else none) = some brokers' := hb
    split at hb'
    · next hset =>
      obtain rfl := Option.some.inj hb'
      refine ⟨hlock, hs.stopped.trans hst, fun k => ⟨?_, hs.has k⟩⟩
      rintro ⟨i, hi⟩
      rcases hs.back k i hi with hold | ⟨hmem, -⟩
      · exact hkeys hset k i hold
      · exact hmem
    · cases hb'

theorem stopUnwanted_settled (h : Registry w) (hl : w.reconcileLock = some r)
    (hother : ∀ (q : RoutineId) p, q ≠ r → w.routines[q]? = some (.reconcile p) → p.holding = false)
    (hr : r < w.routines.length) (hst : w.stopped = false) (hn : w.settled = none)
    (hrun : ∀ k i, w.monitors.get? k = some i → (w.monitor i).task = .running) (brokers rest : List BrokerKey)
    (hrest : ∀ k i, w.monitors.get? k = some i → k ∈ brokers ∨ k ∈ rest) :
    Settled (stopUnwanted r brokers rest w) := by
  have hnone : ∀ (v : MqttCoordinator) q, v.routines = w.routines.set r (.reconcile q) → q.holding = false →
      ∀ (x : RoutineId) key i rest brokers, v.routines[x]? ≠ some (.reconcile (.stopping key i rest brokers)) := by
    intro v q hv hq x key i rest brokers hx
    rw [hv] at hx
    rcases set_get hx with ⟨-, he⟩ | ⟨hne, hx⟩
    · cases he
      cases hq
    · have := hother x _ hne hx
      cases this
  refine stopUnwanted_induction r brokers (w := w)
    (I := fun v => Registry v ∧ v.reconcileLock = some r ∧ v.routines = w.routines ∧ v.stopped = false ∧
      v.settled = none ∧ ∀ k i, v.monitors.get? k = some i → (v.monitor i).task = .running)
    (O := Settled) (L := fun rest v => ∀ k i, v.monitors.get? k = some i → k ∈ brokers ∨ k ∈ rest)
    (fun v rest hv _ => ?_) (fun v hv hL => ?_) (fun v key rest i hv hL hi ht => ?_)
    (fun v key rest i hv hL hi ht => ?_) rest ⟨h, hl, rfl, hst, hn, hrun⟩ hrest
  · obtain ⟨-, -, hrv, -, hnv, hrunv⟩ := hv
    have hf := endReconcile_frame v r
    have hrout : (v.endReconcile r).routines = w.routines.set r (.reconcile .ended) :=
      (release_routines _ r).trans (congrArg (·.set r (.reconcile .ended)) hrv)
    refine ⟨fun _ k i hk => .inl ?_, fun _ q key i rest brokers hq => ?_, fun brokers hb => ?_⟩
    · rw [hf.monitor]
      exact hrunv k i (hf.monitors ▸ hk)
    · exact absurd hq (hnone _ _ hrout rfl q key i rest brokers)
    · rw [hf.settled, hnv] at hb
      cases hb
  · obtain ⟨hreg, hlv, hrv, hsv, -, hrunv⟩ := hv
    refine startWanted_settled hreg hlv (hrv.symm ▸ hother) hsv hrunv brokers true fun _ k i hk => ?_
    rcases hL k i hk with hmem | hmem
    · exact hmem
    · cases hmem
  · -- a registered monitor runs
    have hrunning := hv.2.2.2.2.2 key i hi
    rw [ht] at hrunning
    cases hrunning
  · obtain ⟨hreg, -, hrv, hsv, hnv, hrunv⟩ := hv
    have hmove := (cancelTask_moves v i).1
    have hset : ((v.cancelTask i).setRoutine r (.reconcile (.stopping key i rest brokers))).routines =
        w.routines.set r (.reconcile (.stopping key i rest brokers)) :=
      congrArg (·.set r (.reconcile (.stopping key i rest brokers))) hrv
    refine ⟨fun _ k a hk => ?_, fun _ q key' i' rest' brokers' hq k a hk => ?_, fun brokers' hb => ?_⟩
    · by_cases hai : a = i
      · subst hai
        have hkk : k = key := (hreg.key k a hk).1.symm.trans (hreg.key key a hi).1
        subst hkk
        refine .inr ⟨r, rest, brokers, ?_⟩
        rw [hset, List.getElem?_set_self hr]
      · exact .inl ((hmove.other a hai).trans (hrunv k a hk))
    · rw [hset] at hq
      rcases set_get hq with ⟨-, he⟩ | ⟨hne, hq⟩
      · cases he
        exact (hL k a hk).imp id List.mem_cons.1
      · have := hother q _ hne hq
        cases this
    · have hb' : v.settled = some brokers' := hb
      rw [hnv] at hb'
      cases hb'

theorem stopMonitors_stopped (r : RoutineId) (acquired : Bool) (rest : List MonitorId) (w : MqttCoordinator) :
    (stopMonitors r acquired rest w).stopped = w.stopped ∧ (stopMonitors r acquired rest w).settled = w.settled := by
  induction rest generalizing w with
  | nil =>
    have hf := release_frame (w.setRoutine r (.stop .ended)) r
    exact ⟨hf.stopped, hf.settled⟩
  | cons i rest ih =>
    unfold stopMonitors
    split
    · exact ih w
    · exact ⟨rfl, rfl⟩

theorem Settled.none_of_stopped (h : Settled w) (hst : w.stopped = true) : w.settled = none := by
  cases hs : w.settled with
  | none => rfl
  | some brokers =>
    have := (h.settled brokers hs).2.1
    rw [hst] at this
    cases this

theorem Settled.none_of_locked (h : Settled w) (hl : w.reconcileLock = some r) : w.settled = none := by
  cases hs : w.settled with
  | none => rfl
  | some brokers =>
    have := (h.settled brokers hs).1
    rw [hl] at this
    cases this

/-- Another routine than a pass that stops a monitor goes on. -/
theorem set_stopping {l : List Routine} {routine : Routine} (hold : ∀ key i rest brokers,
      l[r]? ≠ some (.reconcile (.stopping key i rest brokers)))
    (hnew : ∀ key i rest brokers, routine ≠ .reconcile (.stopping key i rest brokers)) (q : RoutineId)
    (key : BrokerKey) (i : MonitorId) (rest brokers : List BrokerKey) :
    (l.set r routine)[q]? = some (.reconcile (.stopping key i rest brokers)) ↔
      l[q]? = some (.reconcile (.stopping key i rest brokers)) := by
  constructor
  · intro hq
    rcases set_get hq with ⟨-, he⟩ | ⟨-, hq⟩
    · exact absurd he.symm (hnew key i rest brokers)
    · exact hq
  · intro hq
    rw [List.getElem?_set_ne]
    · exact hq
    · rintro rfl
      exact hold key i rest brokers hq

theorem endReconcile_settled (h : Settled w) (hr : ∀ key i rest brokers,
    w.routines[r]? ≠ some (.reconcile (.stopping key i rest brokers))) : Settled (w.endReconcile r) := by
  have hf := endReconcile_frame w r
  have hrout : (w.endReconcile r).routines = w.routines.set r (.reconcile .ended) := release_routines _ r
  refine h.mono hf.monitors (fun i hi => hf.monitor ▸ hi) hf.stopped (fun q key i rest brokers => ?_)
    (fun brokers hb => hf.settled ▸ hb) fun hl _ => ?_
  · rw [hrout]
    exact set_stopping hr (fun key i rest brokers he => by cases he) q key i rest brokers
  · unfold endReconcile release
    split
    · rfl
    · exact hl

theorem append_stopping {l : List Routine} {routine : Routine}
    (hnew : ∀ key i rest brokers, routine ≠ .reconcile (.stopping key i rest brokers)) (q : RoutineId)
    (key : BrokerKey) (i : MonitorId) (rest brokers : List BrokerKey) :
    (l ++ [routine])[q]? = some (.reconcile (.stopping key i rest brokers)) ↔
      l[q]? = some (.reconcile (.stopping key i rest brokers)) := by
  constructor
  · intro hq
    exact (append_get hq).resolve_right fun he => hnew key i rest brokers he.symm
  · intro hq
    exact (List.getElem?_append_left (List.getElem?_eq_some_iff.1 hq).1).trans hq

theorem Settled.connects (h : Settled w) (hs : Sane w) (i : MonitorId) (value : Bool)
    (ha : (w.monitor i).task.alive = true) : Settled (w.setConnected i value) := by
  unfold setConnected
  split
  · exact h
  have hreg := hs.elected.1.connects i value ha
  have hget := modifyMonitor_get w i fun m => { m with connected := value }
  refine h.mono rfl (fun a harun => ?_) rfl (fun _ _ _ _ _ => Iff.rfl) (fun _ => id) fun hl _ => hl
  rw [(assign_same hreg a).2.2, hget]
  split
  · next he => subst he; exact harun
  · exact harun

/-- **A step keeps what is settled.** -/
theorem Settled.step (h : Settled w) (hs : Sane w) (hk : Kept w) {a : MqttAction} (ha : Orderly w a) :
    Settled (w.step a) := by
  have hother : ∀ r, w.reconcileLock = some r → ∀ (q : RoutineId) p, q ≠ r →
      w.routines[q]? = some (.reconcile p) → p.holding = false := by
    intro r hl q p hne hq
    cases hh : p.holding with
    | false => rfl
    | true =>
      have := hs.locks.holds q p hq hh
      rw [hl] at this
      exact absurd (Option.some.inj this).symm hne
  cases a with
  | reconcile =>
    exact h.mono rfl (fun _ => id) rfl (append_stopping fun key i rest brokers he => by cases he) (fun _ => id)
      fun hl _ => hl
  | stop => exact .of_stopped rfl rfl
  | resume =>
    rcases ha.1 rfl with hst | ⟨hcl, -⟩
    · exact h.mono rfl (fun _ => id) hst.symm (fun _ _ _ _ _ => Iff.rfl) (fun _ => id) fun hl _ => hl
    · -- the registry is empty after a stop
      obtain ⟨hst, hempty⟩ := hk.closed hcl
      have hn := h.none_of_stopped hst
      refine ⟨fun _ k i hi => ?_, fun _ r key i rest brokers _ k a hka => ?_, fun brokers hb => ?_⟩
      · have hi' : w.monitors.get? k = some i := hi
        rw [hempty] at hi'
        cases hi'
      · have hka' : w.monitors.get? k = some a := hka
        rw [hempty] at hka'
        cases hka'
      · have hb' : w.settled = some brokers := hb
        rw [hn] at hb'
        cases hb'
  | acquire r =>
    simp only [MqttCoordinator.step, acquire]
    split
    · exact h
    split
    · next hr =>
      refine h.mono rfl (fun _ => id) rfl (set_stopping (fun key i rest brokers he => ?_)
        fun key i rest brokers he => by cases he) (fun brokers hb => ?_) fun _ hb => absurd rfl hb
      · rw [hr] at he
        cases he
      · cases hb
    · next hr =>
      obtain ⟨hst, hset⟩ := stopMonitors_stopped r true w.monitors.values { w with reconcileLock := some r }
      have hstop := hk.waits r hr
      exact .of_stopped (hst.trans hstop) (hset.trans (h.none_of_stopped hstop))
    · exact h
  | lockTimeout r =>
    simp only [MqttCoordinator.step]
    split
    · next hr =>
      obtain ⟨hst, hset⟩ := stopMonitors_stopped r false w.monitors.values w
      have hstop := hk.waits r hr
      exact .of_stopped (hst.trans hstop) (hset.trans (h.none_of_stopped hstop))
    · exact h
  | collected r brokers needsReload order =>
    simp only [MqttCoordinator.step]
    split
    · next hr =>
      have hl := hs.locks.holds r .collect hr rfl
      have hn := h.none_of_locked hl
      have hrun : w.stopped = false → ∀ k i, w.monitors.get? k = some i → (w.monitor i).task = .running := by
        intro hst k i hi
        rcases h.running hst k i hi with hrun | ⟨q, rest, brokers, hq⟩
        · exact hrun
        · have hqr : q = r := by
            by_contra hne
            have := hother r hl q _ hne hq
            cases this
          subst hqr
          rw [hr] at hq
          cases hq
      unfold reconcileCollected
      split
      · refine endReconcile_settled h fun key i rest brokers he => ?_
        rw [hr] at he
        cases he
      next hst =>
      have hst' : w.stopped = false := Bool.eq_false_iff.2 hst
      split
      · exact startWanted_settled hs.elected.1 hl (hother r hl) hst' (hrun hst') brokers false fun he => by cases he
      split
      · next hperm =>
        refine stopUnwanted_settled hs.elected.1 hl (hother r hl) (List.getElem?_eq_some_iff.1 hr).1 hst' hn (hrun hst')
          brokers order fun k i hi => ?_
        by_cases hmem : k ∈ brokers
        · exact .inl hmem
        · refine .inr ((List.isPerm_iff.1 hperm).mem_iff.2 (List.mem_filter.2 ⟨Dict.mem_keys.2 ⟨i, hi⟩, ?_⟩))
          simpa using hmem
      · exact h
    · exact h
  | monitorStopped r =>
    simp only [MqttCoordinator.step, monitorStopped]
    split
    · next key j rest brokers hr =>
      split
      · exact h
      next hdead =>
      have hl := hs.locks.holds r _ hr rfl
      have hn := h.none_of_locked hl
      have hget := modifyMonitor_get w j fun m => { m with task := .none }
      have hreg := (hs.elected.noTask hdead).1
      have hreg' := hreg.erase key
      unfold reconcileStopped
      simp only
      split
      · next hst =>
        have hf := endReconcile_frame { w.modifyMonitor j fun m => { m with task := .none } with
          monitors := w.monitors.erase key } r
        exact .of_stopped (hf.stopped.trans hst) (hf.settled.trans hn)
      next hst =>
      have hst' : w.stopped = false := Bool.eq_false_iff.2 hst
      refine stopUnwanted_settled hreg' hl (hother r hl) (List.getElem?_eq_some_iff.1 hr).1 hst' hn
        (fun k a hka => ?_) brokers rest fun k a hka => ?_
      · obtain ⟨hne, hka⟩ := Dict.of_get?_erase hka
        have hrun : (w.monitor a).task = .running := by
          rcases h.running hst' k a hka with hrun | ⟨q, rest', brokers', hq⟩
          · exact hrun
          · have hqr : q = r := by
              by_contra hqr
              have := hother r hl q _ hqr hq
              cases this
            subst hqr
            rw [hr] at hq
            cases hq
            exact absurd rfl hne
        have haj : a ≠ j := by
          rintro rfl
          rw [hrun] at hdead
          exact hdead rfl
        exact (congrArg DeviceMqttMonitor.task ((hget a).trans (if_neg haj))).trans hrun
      · obtain ⟨hne, hka⟩ := Dict.of_get?_erase hka
        rcases h.stale hst' r key j rest brokers hr k a hka with hmem | he | hmem
        · exact .inl hmem
        · exact absurd he hne
        · exact .inr hmem
    · next j rest acquired hr =>
      split
      · exact h
      · obtain ⟨hst, hset⟩ := stopMonitors_stopped r acquired rest (w.modifyMonitor j fun m => { m with task := .none })
        have hstop := (hk.walk r j rest acquired hr).1
        exact .of_stopped (hst.trans hstop) (hset.trans (h.none_of_stopped hstop))
    · exact h
  | cancel r =>
    simp only [MqttCoordinator.step, cancel]
    split
    · exact endReconcile_settled h fun key i rest brokers => ha.2 r key i rest brokers rfl
    · next p hr =>
      have hf := release_frame (w.setRoutine r (.stop .ended)) r
      refine h.mono hf.monitors (fun i hi => hf.monitor ▸ hi) hf.stopped (fun q key i rest brokers => ?_)
        (fun brokers hb => hf.settled ▸ hb) fun hl _ => ?_
      · rw [release_routines]
        refine set_stopping (fun key i rest brokers he => ?_) (fun key i rest brokers he => by cases he) q key i rest brokers
        rw [hr] at he
        cases he
      · unfold release
        split
        · rfl
        · exact hl
    · exact h
  | connect i =>
    simp only [MqttCoordinator.step]
    split
    · next ht => exact h.connects hs i true (by rw [ht]; rfl)
    · exact h
  | disconnect i =>
    simp only [MqttCoordinator.step]
    split
    · next ht => exact h.connects hs i false ht
    · exact h
  | finish i =>
    simp only [MqttCoordinator.step]
    split
    · next ht =>
      have hmove := modifyTask_moves w i (f := fun m => { m with task := .done }) fun _ => ⟨rfl, rfl, rfl⟩
      refine h.mono rfl (fun a harun => ?_) rfl (fun _ _ _ _ _ => Iff.rfl) (fun _ => id) fun hl _ => hl
      refine (hmove.other a ?_).trans harun
      rintro rfl
      rw [ht.1] at harun
      cases harun
    · exact h

/-- **A pass converges.** In every run in which the owner restarts the coordinator only after its
`stop()` returned and no pass is cancelled while it stops a monitor: after a pass that went through,
and until the next one begins or the coordinator stops, the registered monitors are those of the
logins the pass found, and each of them runs. -/
theorem mqtt_settled (hw : Runs.Reaches MqttCoordinator.step Orderly {} w) {brokers : List BrokerKey}
    (hs : w.settled = some brokers) :
    (∀ k, (∃ i, w.monitors.get? k = some i) ↔ k ∈ brokers) ∧
    ∀ k i, w.monitors.get? k = some i → (w.monitor i).task = .running := by
  have hstart : Kept ({} : MqttCoordinator) ∧ Settled ({} : MqttCoordinator) := by
    refine ⟨⟨fun i hi => ?_, fun r hr => ?_, fun r i rest acquired hr => ?_, fun hc => ?_⟩,
      ⟨fun _ k i hk => ?_, fun _ r key i rest brokers hr => ?_, fun brokers hb => ?_⟩⟩
    · cases hi
    · cases hr
    · cases hr
    · cases hc
    · cases hk
    · cases hr
    · cases hb
  have hall := hw.invariant (I := fun w => Sane w ∧ Kept w ∧ Settled w) ⟨Sane.start, hstart⟩
    fun v a ha h => ⟨h.1.step a, h.2.1.step h.1 ha.1, h.2.2.step h.1 h.2.1 ha⟩
  obtain ⟨hsane, -, hset⟩ := hall
  obtain ⟨hlock, hst, hkeys⟩ := hset.settled brokers hs
  refine ⟨hkeys, fun k i hk => ?_⟩
  rcases hset.running hst k i hk with hrun | ⟨r, rest, brokers', hr⟩
  · exact hrun
  · -- nobody stops a monitor without the lock
    have := hsane.locks.holds r _ hr rfl
    rw [hlock] at this
    cases this

theorem mqtt_settled_twoLogins :
    (∃ i, (twoLogins.foldl MqttCoordinator.step {}).monitors.get? userLogin = some i) ↔
      userLogin ∈ [anonymousLogin, userLogin] := by
  have hok : ∀ a ∈ twoLogins, ∀ w, Orderly w a := by
    intro a ha w
    refine ⟨?_, ?_⟩
    · rintro rfl
      simp [twoLogins] at ha
    · rintro r key i rest brokers rfl
      simp [twoLogins] at ha
  exact (mqtt_settled (.foldl_of twoLogins hok ({} : MqttCoordinator)) (by decide +kernel)).1 userLogin

end MqttCoordinator

end DeviceBuilder
