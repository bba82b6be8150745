import DeviceBuilder.Devices.MqttCoordinator

/-!
# One broadcaster for an endpoint

Passes, stops, timeouts and cancellations interleave at every await, monitors
connect and lose their sessions at any time.

* `Registry`, `Publishers`, `Locks`: the registry, who broadcasts, and that one
  pass at a time is past the lock. `Sane.step` keeps all three.
* `mqtt_publishers`: an endpoint has one broadcaster at most, it is connected if
  any monitor of the endpoint is, and it changes only when it has to.
-/

namespace DeviceBuilder

/-- The pass holds the lock. -/
def ReconcilePoint.holding : ReconcilePoint → Bool
  | .collect | .stopping _ _ _ _ => true
  | _ => false

namespace MqttCoordinator

variable {w w' : MqttCoordinator} {i j : MonitorId} {r : RoutineId} {k : BrokerKey}

/-! ### The election -/

/-- **The registry.** -/
structure Registry (w : MqttCoordinator) : Prop where
  key : ∀ k i, w.monitors.get? k = some i → (w.monitor i).key = k ∧ i < w.made
  fresh : ∀ i, w.made ≤ i → (w.monitor i).task = .none ∧ (w.monitor i).connected = false
  /-- A session belongs to a task. -/
  idle : ∀ i, (w.monitor i).connected = true → (w.monitor i).task.alive = true

/-- **The broadcasters.** -/
structure Publishers (w : MqttCoordinator) : Prop where
  one : ∀ k k' i j, w.monitors.get? k = some i → w.monitors.get? k' = some j → k.endpoint = k'.endpoint →
    (w.monitor i).isPublisher = true → (w.monitor j).isPublisher = true → i = j
  up : ∀ k i, w.monitors.get? k = some i → (w.monitor i).connected = true → ∃ k' j, w.monitors.get? k' = some j ∧
    k'.endpoint = k.endpoint ∧ (w.monitor j).isPublisher = true ∧ (w.monitor j).connected = true

/-- Connected before disconnected, and the incumbent among the connected. -/
theorem order_le {e f : BrokerKey × MonitorId} (h : w.publisherOrder e ≤ w.publisherOrder f)
    (hf : (w.monitor f.2).connected = true) :
    (w.monitor e.2).connected = true ∧
      ((w.monitor f.2).isPublisher = true → (w.monitor e.2).isPublisher = true) := by
  unfold publisherOrder at h
  rw [hf, Prod.Lex.toLex_le_toLex] at h
  rcases h with h | ⟨he, h⟩
  · exact absurd h (by simp)
  · have hconn : (w.monitor e.2).connected = true := by simpa using he
    refine ⟨hconn, fun hp => ?_⟩
    rw [hp, Prod.Lex.toLex_le_toLex] at h
    rcases h with h | ⟨he, -⟩
    · exact absurd h (by simp)
    · simpa using he

/-- Updates at different places, one after another. -/
theorem foldl_update (g : BrokerKey × MonitorId → DeviceMqttMonitor → DeviceMqttMonitor)
    (l : List (BrokerKey × MonitorId)) (hn : (l.map Prod.snd).Nodup) (f : MonitorId → DeviceMqttMonitor) (i : MonitorId) :
    (∀ e ∈ l, e.2 = i → l.foldl (fun f e => Function.update f e.2 (g e (f e.2))) f i = g e (f i)) ∧
      ((∀ e ∈ l, e.2 ≠ i) → l.foldl (fun f e => Function.update f e.2 (g e (f e.2))) f i = f i) := by
  induction l generalizing f with
  | nil => exact ⟨fun e he => absurd he (List.not_mem_nil), fun _ => rfl⟩
  | cons a l ih =>
    rw [List.map_cons, List.nodup_cons] at hn
    obtain ⟨hold, hnew⟩ := ih hn.2 (Function.update f a.2 (g a (f a.2)))
    refine ⟨fun e he hi => ?_, fun hne => ?_⟩
    · rcases List.mem_cons.1 he with rfl | he
      · have hrest : ∀ x ∈ l, x.2 ≠ i := by
          intro x hx hxi
          exact hn.1 (List.mem_map.2 ⟨x, hx, hxi.trans hi.symm⟩)
        rw [List.foldl_cons, hnew hrest, ← hi, Function.update_self]
      · have hai : a.2 ≠ i := by
          intro hai
          exact hn.1 (List.mem_map.2 ⟨e, he, hi.trans hai.symm⟩)
        rw [List.foldl_cons, hold e he hi, Function.update_of_ne (Ne.symm hai)]
    · have hai : a.2 ≠ i := hne a (List.mem_cons_self ..)
      rw [List.foldl_cons, hnew fun e he => hne e (List.mem_cons_of_mem a he), Function.update_of_ne (Ne.symm hai)]

/-- A monitor is registered once. -/
theorem Registry.ids (h : Registry w) : (w.monitors.items.map Prod.snd).Nodup := by
  refine List.Nodup.map_on ?_ (List.Nodup.of_map Prod.fst w.monitors.nodup)
  rintro ⟨k, i⟩ he ⟨k', i'⟩ he' hi
  simp only at hi
  subst hi
  have hk := (h.key k i (Dict.get?_eq_some.2 he)).1
  have hk' := (h.key k' i (Dict.get?_eq_some.2 he')).1
  rw [← hk, ← hk']

/-- What an election does to a monitor. -/
theorem assign_get (h : Registry w) (i : MonitorId) :
    (∀ k, w.monitors.get? k = some i → w.assignPublishers.monitor i = { w.monitor i with
      isPublisher := decide (((Election.elect w.publisherOrder (·.1.endpoint) w.monitors.items).get? k.endpoint).map
        (·.2) = some i) }) ∧
      ((∀ k, w.monitors.get? k ≠ some i) → w.assignPublishers.monitor i = w.monitor i) := by
  obtain ⟨hin, hout⟩ := foldl_update (fun e m => { m with
    isPublisher := decide (((Election.elect w.publisherOrder (·.1.endpoint) w.monitors.items).get? e.1.endpoint).map
      (·.2) = some e.2) }) w.monitors.items h.ids w.monitor i
  refine ⟨fun k hk => hin (k, i) (Dict.get?_eq_some.1 hk) rfl, fun hno => hout ?_⟩
  rintro ⟨k, j⟩ he rfl
  exact hno k (Dict.get?_eq_some.2 he)

theorem assign_same (h : Registry w) (i : MonitorId) :
    (w.assignPublishers.monitor i).key = (w.monitor i).key ∧
      (w.assignPublishers.monitor i).connected = (w.monitor i).connected ∧
      (w.assignPublishers.monitor i).task = (w.monitor i).task := by
  obtain ⟨hin, hout⟩ := assign_get h i
  by_cases hreg : ∃ k, w.monitors.get? k = some i
  · obtain ⟨k, hk⟩ := hreg
    rw [hin k hk]
    exact ⟨rfl, rfl, rfl⟩
  · rw [hout fun k hk => hreg ⟨k, hk⟩]
    exact ⟨rfl, rfl, rfl⟩

theorem assign_publisher (h : Registry w) (hk : w.monitors.get? k = some i) :
    (w.assignPublishers.monitor i).isPublisher = true ↔
      (Election.elect w.publisherOrder (·.1.endpoint) w.monitors.items).get? k.endpoint = some (k, i) := by
  rw [(assign_get h i).1 k hk]
  simp only [decide_eq_true_eq, Option.map_eq_some_iff]
  constructor
  · rintro ⟨⟨k', j⟩, he, rfl⟩
    -- the elected item is the monitor's own
    have hmem := (Election.elect_spec he).1
    have hk' := (h.key k' j (Dict.get?_eq_some.2 hmem)).1
    rw [(h.key k j hk).1] at hk'
    rw [he, hk']
  · intro he
    exact ⟨(k, i), he, rfl⟩

/-- **An election elects.** -/
theorem Registry.assign (h : Registry w) : Registry w.assignPublishers ∧ Publishers w.assignPublishers := by
  refine ⟨⟨fun k i hk => ?_, fun i hi => ?_, fun i hi => ?_⟩, ⟨fun k k' i j hk hk' he hp hp' => ?_, fun k i hk hc => ?_⟩⟩
  · rw [(assign_same h i).1]
    exact h.key k i hk
  · rw [(assign_same h i).2.2, (assign_same h i).2.1]
    exact h.fresh i hi
  · rw [(assign_same h i).2.1] at hi
    rw [(assign_same h i).2.2]
    exact h.idle i hi
  · have hi := (assign_publisher h hk).1 hp
    have hj := (assign_publisher h hk').1 hp'
    rw [he, hj] at hi
    exact (Prod.mk.inj (Option.some.inj hi)).2.symm
  · rw [(assign_same h i).2.1] at hc
    obtain ⟨⟨k', j⟩, he⟩ := Election.exists_elect w.publisherOrder (fun e => e.1.endpoint) (Dict.get?_eq_some.1 hk)
    obtain ⟨hmem, hend, hle⟩ := Election.elect_spec he
    have hk' := Dict.get?_eq_some.2 hmem
    refine ⟨k', j, hk', hend, (assign_publisher h hk').2 ?_, ?_⟩
    · rw [hend]
      exact he
    · rw [(assign_same h j).2.1]
      exact (order_le (hle (k, i) (Dict.get?_eq_some.1 hk) rfl) hc).1

/-- **The incumbent stays** while it is connected. -/
theorem Registry.incumbent (h : Registry w)
    (hone : ∀ k k' i j, w.monitors.get? k = some i → w.monitors.get? k' = some j → k.endpoint = k'.endpoint →
      (w.monitor i).connected = true → (w.monitor j).connected = true → (w.monitor i).isPublisher = true →
      (w.monitor j).isPublisher = true → i = j)
    (hk : w.monitors.get? k = some i) (hc : (w.monitor i).connected = true) (hi : (w.monitor i).isPublisher = true) :
    (w.assignPublishers.monitor i).isPublisher = true := by
  rw [assign_publisher h hk]
  obtain ⟨⟨k', j⟩, he⟩ := Election.exists_elect w.publisherOrder (fun e => e.1.endpoint) (Dict.get?_eq_some.1 hk)
  obtain ⟨hmem, hend, hle⟩ := Election.elect_spec he
  have hk' := Dict.get?_eq_some.2 hmem
  obtain ⟨hcj, hpj⟩ := order_le (hle (k, i) (Dict.get?_eq_some.1 hk) rfl) hc
  obtain rfl := hone k k' i j hk hk' hend.symm hc hcj hi (hpj hi)
  have hkk : k' = k := (h.key k' i hk').1.symm.trans (h.key k i hk).1
  rw [he, hkk]

/-! ### Pieces of a step -/

/-- Only a routine or the lock changes. -/
structure Frame (w w' : MqttCoordinator) : Prop where
  monitor : w'.monitor = w.monitor
  made : w'.made = w.made
  monitors : w'.monitors = w.monitors
  stopped : w'.stopped = w.stopped
  closed : w'.closed = w.closed
  settled : w'.settled = w.settled

theorem endReconcile_frame (w : MqttCoordinator) (r : RoutineId) : Frame w (w.endReconcile r) := by
  unfold endReconcile release
  split <;> exact ⟨rfl, rfl, rfl, rfl, rfl, rfl⟩

/-- The registry and the broadcasters, together. -/
def Elected (w : MqttCoordinator) : Prop := Registry w ∧ Publishers w

theorem Elected.same (h : Elected w) (hm : w'.monitor = w.monitor) (hmade : w'.made = w.made)
    (hreg : w'.monitors = w.monitors) : Elected w' :=
  ⟨⟨hm ▸ hmade ▸ hreg ▸ h.1.key, hm ▸ hmade ▸ h.1.fresh, hm ▸ h.1.idle⟩,
    ⟨hm ▸ hreg ▸ h.2.one, hm ▸ hreg ▸ h.2.up⟩⟩

theorem Elected.frame (h : Elected w) (hf : Frame w w') : Elected w' := h.same hf.monitor hf.made hf.monitors

/-- The task of one monitor changes. -/
theorem modifyMonitor_get (w : MqttCoordinator) (i : MonitorId) (f : DeviceMqttMonitor → DeviceMqttMonitor) (j : MonitorId) :
    (w.modifyMonitor i f).monitor j = if j = i then f (w.monitor i) else w.monitor j := by
  unfold modifyMonitor
  exact Function.update_apply ..

/-- One monitor's task moves. -/
structure TaskMoves (w : MqttCoordinator) (i : MonitorId) (w' : MqttCoordinator) : Prop where
  monitors : w'.monitors = w.monitors
  made : w'.made = w.made
  same : ∀ j, (w'.monitor j).key = (w.monitor j).key ∧ (w'.monitor j).connected = (w.monitor j).connected ∧
    (w'.monitor j).isPublisher = (w.monitor j).isPublisher
  other : ∀ j, j ≠ i → (w'.monitor j).task = (w.monitor j).task

theorem Publishers.taskMoves (h : Publishers w) (ht : TaskMoves w i w') : Publishers w' := by
  refine ⟨fun k k' a b ha hb he hpa hpb => ?_, fun k a ha hc => ?_⟩
  · rw [ht.monitors] at ha hb
    exact h.one k k' a b ha hb he ((ht.same a).2.2 ▸ hpa) ((ht.same b).2.2 ▸ hpb)
  · rw [ht.monitors] at ha
    obtain ⟨k', b, hb, he, hpb, hcb⟩ := h.up k a ha ((ht.same a).2.1 ▸ hc)
    exact ⟨k', b, ht.monitors ▸ hb, he, (ht.same b).2.2.trans hpb, (ht.same b).2.1.trans hcb⟩

theorem Registry.taskMoves (h : Registry w) (ht : TaskMoves w i w') (hi : i < w.made)
    (hc : (w.monitor i).connected = true → (w'.monitor i).task.alive = true) : Registry w' := by
  refine ⟨fun k a ha => ?_, fun a ha => ?_, fun a ha => ?_⟩
  · rw [ht.monitors] at ha
    rw [(ht.same a).1, ht.made]
    exact h.key k a ha
  · rw [ht.made] at ha
    rw [ht.other a (Nat.ne_of_gt (Nat.lt_of_lt_of_le hi ha)), (ht.same a).2.1]
    exact h.fresh a ha
  · rw [(ht.same a).2.1] at ha
    by_cases hai : a = i
    · subst hai
      exact hc ha
    · rw [ht.other a hai]
      exact h.idle a ha

theorem modifyTask_moves (w : MqttCoordinator) (i : MonitorId) {f : DeviceMqttMonitor → DeviceMqttMonitor}
    (hf : ∀ m, (f m).key = m.key ∧ (f m).connected = m.connected ∧ (f m).isPublisher = m.isPublisher) :
    TaskMoves w i (w.modifyMonitor i f) := by
  refine ⟨rfl, rfl, fun j => ?_, fun j hj => ?_⟩
  · rw [modifyMonitor_get]
    split
    · next h => subst h; exact hf _
    · exact ⟨rfl, rfl, rfl⟩
  · rw [modifyMonitor_get, if_neg hj]

/-- The task of a monitor is cancelled: it lives as before. -/
theorem cancelTask_moves (w : MqttCoordinator) (i : MonitorId) :
    TaskMoves w i (w.cancelTask i) ∧ ∀ j, ((w.cancelTask i).monitor j).task.alive = (w.monitor j).task.alive := by
  refine ⟨modifyTask_moves w i fun m => ?_, fun j => ?_⟩
  · split <;> exact ⟨rfl, rfl, rfl⟩
  · unfold cancelTask
    rw [modifyMonitor_get]
    split
    · next h =>
      subst h
      split
      · next ht => rw [ht]; rfl
      · rfl
    · rfl

theorem Registry.erase (h : Registry w) (key : BrokerKey) :
    Registry { w with monitors := w.monitors.erase key } :=
  ⟨fun k i hk => h.key k i (Dict.of_get?_erase hk).2, h.fresh, h.idle⟩

/-- A monitor that has no task is deregistered. -/
theorem erase_keeps (h : Registry w) (hp : Publishers w) (key : BrokerKey)
    (hidle : ∀ i, w.monitors.get? key = some i → (w.monitor i).task.alive = false) :
    Registry { w with monitors := w.monitors.erase key } ∧ Publishers { w with monitors := w.monitors.erase key } := by
  refine ⟨h.erase key, ⟨fun k k' i j hk hk' => ?_, fun k i hk hc => ?_⟩⟩
  · exact hp.one k k' i j (Dict.of_get?_erase hk).2 (Dict.of_get?_erase hk').2
  · obtain ⟨k', j, hj, he, hpj, hcj⟩ := hp.up k i (Dict.of_get?_erase hk).2 hc
    refine ⟨k', j, (Dict.get?_erase_ne fun hkk => ?_).trans hj, he, hpj, hcj⟩
    subst hkk
    have := h.idle j hcj
    rw [hidle j hj] at this
    cases this

/-! #### New monitors -/

/-- A monitor for each of some logins. -/
structure Added (w : MqttCoordinator) (brokers : List BrokerKey) (w' : MqttCoordinator) : Prop where
  routines : w'.routines = w.routines
  lock : w'.reconcileLock = w.reconcileLock
  stopped : w'.stopped = w.stopped
  closed : w'.closed = w.closed
  made : w.made ≤ w'.made
  old : ∀ i, i < w.made → w'.monitor i = w.monitor i
  new : ∀ i, w.made ≤ i → i < w'.made → w'.monitors.get? (w'.monitor i).key = some i
  get : ∀ k i, w.monitors.get? k = some i → w'.monitors.get? k = some i
  back : ∀ k i, w'.monitors.get? k = some i → w.monitors.get? k = some i ∨ k ∈ brokers ∧ w.made ≤ i
  has : ∀ k ∈ brokers, ∃ i, w'.monitors.get? k = some i
  fresh : ∀ i, w.made ≤ i → (w'.monitor i).task = .none ∧ (w'.monitor i).connected = false
  registry : Registry w'

theorem addMonitors_spec (brokers : List BrokerKey) (h : Registry w) : Added w brokers (addMonitors brokers w) := by
  induction brokers generalizing w with
  | nil =>
    exact ⟨rfl, rfl, rfl, rfl, Nat.le_refl _, fun _ _ => rfl, fun i hi hlt => absurd hlt (Nat.not_lt_of_le hi), fun _ _ => id,
      fun _ _ => .inl, fun k hk => absurd hk List.not_mem_nil, h.fresh, h⟩
  | cons key brokers ih =>
    unfold addMonitors
    split
    · next hsome =>
      obtain ⟨i, hi⟩ := Option.isSome_iff_exists.1 hsome
      obtain ⟨a, b, c, d, e, f, g, hget, hback, hhas, hfresh, hreg⟩ := ih h
      refine ⟨a, b, c, d, e, f, g, hget, fun k i hk => (hback k i hk).imp id fun hx =>
        ⟨List.mem_cons_of_mem key hx.1, hx.2⟩, fun k hk => ?_, hfresh, hreg⟩
      rcases List.mem_cons.1 hk with rfl | hk
      · exact ⟨i, hget k i hi⟩
      · exact hhas k hk
    · next hnone =>
      have hfree : w.monitors.get? key = none := by
        cases hk : w.monitors.get? key with
        | none => rfl
        | some i =>
          rw [hk] at hnone
          exact absurd rfl hnone
      have hmon : ∀ i, i ≠ w.made → (w.modifyMonitor w.made fun _ => { key := key }).monitor i = w.monitor i := by
        intro i hi
        rw [modifyMonitor_get, if_neg hi]
      have hself : (w.modifyMonitor w.made fun _ => { key := key }).monitor w.made = { key := key } := by
        rw [modifyMonitor_get, if_pos rfl]
      have hone : Registry { w.modifyMonitor w.made fun _ => { key := key } with
          monitors := w.monitors.set key w.made
          made := w.made + 1 } := by
        refine ⟨fun k i hk => ?_, fun i hi => ?_, fun i hi => ?_⟩
        · rw [Dict.get?_set] at hk
          split at hk
          · next hkk =>
            obtain rfl := Option.some.inj hk
            exact ⟨(congrArg DeviceMqttMonitor.key hself).trans hkk.symm, Nat.lt_succ_self _⟩
          · obtain ⟨hkey, hlt⟩ := h.key k i hk
            exact ⟨(congrArg DeviceMqttMonitor.key (hmon i (Nat.ne_of_lt hlt))).trans hkey, Nat.lt_succ_of_lt hlt⟩
        · have hi' : w.made + 1 ≤ i := hi
          have hm := hmon i (by omega)
          have hf := h.fresh i (by omega)
          exact ⟨(congrArg DeviceMqttMonitor.task hm).trans hf.1, (congrArg DeviceMqttMonitor.connected hm).trans hf.2⟩
        · by_cases him : i = w.made
          · subst him
            have : ({ key := key } : DeviceMqttMonitor).connected = true :=
              (congrArg DeviceMqttMonitor.connected hself).symm.trans hi
            cases this
          · have hm := hmon i him
            exact (congrArg (fun m => m.task.alive) hm).trans
              (h.idle i ((congrArg DeviceMqttMonitor.connected hm).symm.trans hi))
      obtain ⟨a, b, c, d, hmade, hold, hnew, hget, hback, hhas, hfresh, hreg⟩ := ih hone
      have hmade' : w.made + 1 ≤ _ := hmade
      refine ⟨a, b, c, d, by omega, fun i hi => ?_, fun i hi hlt => ?_, fun k i hk => ?_, fun k i hk => ?_,
        fun k hk => ?_, fun i hi => ?_, hreg⟩
      · exact (hold i (Nat.lt_succ_of_lt hi)).trans (hmon i (by omega))
      · by_cases him : i = w.made
        · subst him
          have hm := (hold w.made (Nat.lt_succ_self _)).trans hself
          rw [hm]
          exact hget key w.made Dict.get?_set_self
        · exact hnew i (Nat.succ_le_of_lt (by omega)) hlt
      · refine hget k i ((Dict.get?_set_ne fun hkk => ?_).trans hk)
        rw [hkk, hfree] at hk
        cases hk
      · rcases hback k i hk with hk' | ⟨hk', hi⟩
        · have hk'' : (w.monitors.set key w.made).get? k = some i := hk'
          rw [Dict.get?_set] at hk''
          split at hk''
          · next hkk =>
            obtain rfl := Option.some.inj hk''
            exact .inr ⟨hkk ▸ List.mem_cons_self .., Nat.le_refl _⟩
          · exact .inl hk''
        · have hi' : w.made + 1 ≤ i := hi
          exact .inr ⟨List.mem_cons_of_mem key hk', by omega⟩
      · rcases List.mem_cons.1 hk with rfl | hk
        · exact ⟨w.made, hget k w.made Dict.get?_set_self⟩
        · exact hhas k hk
      · by_cases him : i = w.made
        · subst him
          have hm := (hold w.made (Nat.lt_succ_self _)).trans hself
          rw [hm]
          exact ⟨rfl, rfl⟩
        · exact hfresh i (Nat.succ_le_of_lt (by omega))

/-- The last section of a pass. -/
structure Started (w : MqttCoordinator) (brokers : List BrokerKey) (w' : MqttCoordinator) : Prop where
  stopped : w'.stopped = w.stopped
  closed : w'.closed = w.closed
  made : w.made ≤ w'.made
  get : ∀ k i, w.monitors.get? k = some i → w'.monitors.get? k = some i
  back : ∀ k i, w'.monitors.get? k = some i → w.monitors.get? k = some i ∨ k ∈ brokers ∧ w.made ≤ i
  has : ∀ k ∈ brokers, ∃ i, w'.monitors.get? k = some i
  new : ∀ i, w.made ≤ i → i < w'.made → w'.monitors.get? (w'.monitor i).key = some i ∧ (w'.monitor i).task = .running
  task : ∀ i, i < w.made → (w'.monitor i).task = (w.monitor i).task ∧ (w'.monitor i).key = (w.monitor i).key
  connected : ∀ i, (w'.monitor i).connected = (w.monitor i).connected
  registry : Registry w'
  publishers : Publishers w'
  incumbent : Publishers w → ∀ k i, w.monitors.get? k = some i → (w.monitor i).connected = true →
    (w.monitor i).isPublisher = true → (w'.monitor i).isPublisher = true

theorem startWanted_spec (h : Registry w) (r : RoutineId) (brokers : List BrokerKey) (settled : Bool) :
    Started w brokers (w.startWanted r brokers settled) := by
  have hadd := addMonitors_spec brokers h
  have hframe := endReconcile_frame ((addMonitors brokers w).assignPublishers.startNew w.made) r
  obtain ⟨hreg, hpub⟩ := hadd.registry.assign
  have hsame := assign_same hadd.registry
  -- every monitor, field by field
  have hmon : ∀ i, (w.startWanted r brokers settled).monitor i =
      if w.made ≤ i ∧ i < (addMonitors brokers w).made then
        { (addMonitors brokers w).assignPublishers.monitor i with task := .running }
      else (addMonitors brokers w).assignPublishers.monitor i := by
    intro i
    exact congrFun hframe.monitor i
  have hmade : (w.startWanted r brokers settled).made = (addMonitors brokers w).made := hframe.made
  have hmonitors : (w.startWanted r brokers settled).monitors = (addMonitors brokers w).monitors := hframe.monitors
  have hkey : ∀ i, ((w.startWanted r brokers settled).monitor i).key = ((addMonitors brokers w).monitor i).key := by
    intro i
    rw [hmon]
    split <;> exact (hsame i).1
  have hconn : ∀ i, ((w.startWanted r brokers settled).monitor i).connected =
      ((addMonitors brokers w).monitor i).connected := by
    intro i
    rw [hmon]
    split <;> exact (hsame i).2.1
  have hflag : ∀ i, ((w.startWanted r brokers settled).monitor i).isPublisher =
      ((addMonitors brokers w).assignPublishers.monitor i).isPublisher := by
    intro i
    rw [hmon]
    split <;> rfl
  have hold : ∀ i, i < w.made → ((w.startWanted r brokers settled).monitor i).task = (w.monitor i).task := by
    intro i hi
    rw [hmon, if_neg fun hx => Nat.not_le_of_lt hi hx.1, (hsame i).2.2, hadd.old i hi]
  have hconn' : ∀ i, ((w.startWanted r brokers settled).monitor i).connected = (w.monitor i).connected := by
    intro i
    rw [hconn]
    by_cases hi : i < w.made
    · rw [hadd.old i hi]
    · rw [(hadd.fresh i (Nat.le_of_not_lt hi)).2, (h.fresh i (Nat.le_of_not_lt hi)).2]
  have hnew : ∀ i, w.made ≤ i → i < (addMonitors brokers w).made →
      ((w.startWanted r brokers settled).monitor i).task = .running := by
    intro i hi hlt
    rw [hmon, if_pos ⟨hi, hlt⟩]
  refine ⟨hframe.stopped.trans hadd.stopped, hframe.closed.trans hadd.closed, hmade ▸ hadd.made, fun k i hk => ?_,
    fun k i hk => ?_, fun k hk => ?_, fun i hi hlt => ⟨?_, ?_⟩, fun i hi => ⟨hold i hi, ?_⟩, hconn',
    ⟨fun k i hk => ?_, fun i hi => ?_, fun i hi => ?_⟩, ⟨fun k k' i j hk hk' he hp hp' => ?_, fun k i hk hc => ?_⟩,
    fun hpw k i hk hc hp => ?_⟩
  · rw [hmonitors]
    exact hadd.get k i hk
  · rw [hmonitors] at hk
    exact hadd.back k i hk
  · rw [hmonitors]
    exact hadd.has k hk
  · rw [hmonitors, hkey]
    exact hadd.new i hi (hmade ▸ hlt)
  · exact hnew i hi (hmade ▸ hlt)
  · rw [hkey, hadd.old i hi]
  · rw [hmonitors] at hk
    rw [hkey, hmade]
    exact hadd.registry.key k i hk
  · rw [hmade] at hi
    rw [hmon, if_neg fun hx => Nat.not_lt_of_le hi hx.2, (hsame i).2.2, (hsame i).2.1]
    exact hadd.registry.fresh i hi
  · rw [hconn'] at hi
    have halive := h.idle i hi
    by_cases hlt : i < w.made
    · rw [hold i hlt]
      exact halive
    · rw [(h.fresh i (Nat.le_of_not_lt hlt)).1] at halive
      cases halive
  · rw [hmonitors] at hk hk'
    rw [hflag] at hp hp'
    exact hpub.one k k' i j hk hk' he hp hp'
  · rw [hmonitors] at hk
    rw [hconn, ← (hsame i).2.1] at hc
    obtain ⟨k', j, hj, he, hpj, hcj⟩ := hpub.up k i hk hc
    refine ⟨k', j, hmonitors ▸ hj, he, (hflag j).trans hpj, ?_⟩
    rw [hconn, ← (hsame j).2.1]
    exact hcj
  · rw [hflag]
    have hlt : ∀ k i, (addMonitors brokers w).monitors.get? k = some i →
        ((addMonitors brokers w).monitor i).connected = true → w.monitors.get? k = some i ∧ i < w.made := by
      intro k i hk hc
      rcases hadd.back k i hk with hk | ⟨-, hi⟩
      · exact ⟨hk, (h.key k i hk).2⟩
      · rw [(hadd.fresh i hi).2] at hc
        cases hc
    have him := (h.key k i hk).2
    refine hadd.registry.incumbent (fun k k' a b ha hb he hca hcb hpa hpb => ?_) (hadd.get k i hk) ?_ ?_
    · obtain ⟨ha', hla⟩ := hlt k a ha hca
      obtain ⟨hb', hlb⟩ := hlt k' b hb hcb
      rw [hadd.old a hla] at hpa
      rw [hadd.old b hlb] at hpb
      exact hpw.one k k' a b ha' hb' he hpa hpb
    · rw [hadd.old i him]
      exact hc
    · rw [hadd.old i him]
      exact hp

/-! ### Sections of a pass -/

/-- What a pass does between two awaits, to the routines and to the lock it holds. -/
def Section (r : RoutineId) (w w' : MqttCoordinator) : Prop :=
  ∃ q, w'.routines = w.routines.set r (.reconcile q) ∧
    (q = .ended ∧ w'.reconcileLock = none ∨
      w'.reconcileLock = some r ∧ ∃ key i rest brokers, q = .stopping key i rest brokers ∧ w'.monitors.get? key = some i)

theorem endReconcile_section (hl : w.reconcileLock = some r) : Section r w (w.endReconcile r) := by
  unfold endReconcile release
  rw [if_pos (show (w.setRoutine r (.reconcile .ended)).reconcileLock = some r from hl)]
  exact ⟨.ended, rfl, .inl ⟨rfl, rfl⟩⟩

theorem startWanted_section (h : Registry w) (hl : w.reconcileLock = some r) (brokers : List BrokerKey)
    (settled : Bool) : Section r w (w.startWanted r brokers settled) := by
  have hadd := addMonitors_spec brokers h
  obtain ⟨q, hq, hcase⟩ := endReconcile_section (w := (addMonitors brokers w).assignPublishers.startNew w.made)
    (r := r) (hadd.lock.trans hl)
  refine ⟨q, hq.trans ?_, hcase⟩
  exact congrArg (·.set r (.reconcile q)) hadd.routines

/-- What keeps every section of a pass, keeps `_stop_unwanted_monitors`. -/
theorem stopUnwanted_induction (r : RoutineId) (brokers : List BrokerKey) {I : MqttCoordinator → Prop}
    {O : MqttCoordinator → Prop} {L : List BrokerKey → MqttCoordinator → Prop}
    (hend : ∀ w rest, I w → L rest w → O (w.endReconcile r)) (hstart : ∀ w, I w → L [] w → O (w.startWanted r brokers true))
    (herase : ∀ w key rest i, I w → L (key :: rest) w → w.monitors.get? key = some i → (w.monitor i).task = .none →
      I { w with monitors := w.monitors.erase key } ∧ L rest { w with monitors := w.monitors.erase key })
    (hstop : ∀ w key rest i, I w → L (key :: rest) w → w.monitors.get? key = some i → (w.monitor i).task ≠ .none →
      O ((w.cancelTask i).setRoutine r (.reconcile (.stopping key i rest brokers))))
    (rest : List BrokerKey) (h : I w) (hL : L rest w) : O (stopUnwanted r brokers rest w) := by
  induction rest generalizing w with
  | nil => exact hstart w h hL
  | cons key rest ih =>
    unfold stopUnwanted
    split
    · exact hend w _ h hL
    next i hi =>
    split
    · next ht =>
      obtain ⟨h', hL'⟩ := herase w key rest i h hL hi ht
      simp only
      split
      · exact hend _ _ h' hL'
      · exact ih h' hL'
    · next ht => exact hstop w key rest i h hL hi ht

theorem Elected.cancelTask (h : Elected w) (hi : w.monitors.get? k = some i) : Elected (w.cancelTask i) := by
  obtain ⟨hmove, halive⟩ := cancelTask_moves w i
  refine ⟨h.1.taskMoves hmove (h.1.key k i hi).2 fun hc => ?_, h.2.taskMoves hmove⟩
  rw [halive]
  exact h.1.idle i hc

theorem setRoutine_frame (w : MqttCoordinator) (r : RoutineId) (routine : Routine) : Frame w (w.setRoutine r routine) :=
  ⟨rfl, rfl, rfl, rfl, rfl, rfl⟩

theorem stopUnwanted_elected (h : Elected w) (r : RoutineId) (brokers rest : List BrokerKey) :
    Elected (stopUnwanted r brokers rest w) := by
  refine stopUnwanted_induction r brokers (I := Elected) (L := fun _ _ => True) (fun w _ h _ => ?_) (fun w h _ => ?_)
    (fun w key rest i h _ hi ht => ⟨?_, trivial⟩) (fun w key rest i h _ hi _ => ?_) rest h trivial
  · exact h.frame (endReconcile_frame w r)
  · have hst := startWanted_spec h.1 r brokers true
    exact ⟨hst.registry, hst.publishers⟩
  · refine erase_keeps h.1 h.2 key fun j hj => ?_
    rw [hi] at hj
    obtain rfl := Option.some.inj hj
    rw [ht]
    rfl
  · exact (h.cancelTask hi).frame (setRoutine_frame _ r _)

theorem stopUnwanted_section (h : Registry w) (hl : w.reconcileLock = some r) (brokers rest : List BrokerKey) :
    Section r w (stopUnwanted r brokers rest w) := by
  have hrout := stopUnwanted_induction r brokers (w := w)
    (I := fun v => Registry v ∧ v.reconcileLock = some r ∧ v.routines = w.routines) (O := fun v => Section r w v)
    (L := fun _ _ => True) (fun v _ hv _ => ?_) (fun v hv _ => ?_) (fun v key rest i hv _ hi ht => ⟨?_, trivial⟩)
    (fun v key rest i hv _ hi _ => ?_) rest ⟨h, hl, rfl⟩ trivial
  · exact hrout
  · obtain ⟨-, hlv, hr⟩ := hv
    obtain ⟨q, hq, hcase⟩ := endReconcile_section hlv
    exact ⟨q, hr ▸ hq, hcase⟩
  · obtain ⟨hreg, hlv, hr⟩ := hv
    obtain ⟨q, hq, hcase⟩ := startWanted_section hreg hlv brokers true
    exact ⟨q, hr ▸ hq, hcase⟩
  · obtain ⟨hreg, hlv, hr⟩ := hv
    exact ⟨hreg.erase key, hlv, hr⟩
  · obtain ⟨-, hlv, hr⟩ := hv
    exact ⟨.stopping key i rest brokers, congrArg (·.set r (.reconcile (.stopping key i rest brokers))) hr,
      .inr ⟨hlv, key, i, rest, brokers, rfl, hi⟩⟩

/-- **The lock.** One pass at a time is past it; and what a pass stops is what is registered. -/
structure Locks (w : MqttCoordinator) : Prop where
  holds : ∀ (r : RoutineId) p, w.routines[r]? = some (.reconcile p) → p.holding = true → w.reconcileLock = some r
  stopping : ∀ (r : RoutineId) key i rest brokers, w.routines[r]? = some (.reconcile (.stopping key i rest brokers)) →
    ∀ j, w.monitors.get? key = some j → j = i

theorem set_get {routine : Routine} {l : List Routine} {q : RoutineId} {x : Routine}
    (h : (l.set r routine)[q]? = some x) : q = r ∧ x = routine ∨ q ≠ r ∧ l[q]? = some x := by
  rw [List.getElem?_set] at h
  split at h
  · next hr =>
    subst hr
    split at h
    · exact .inl ⟨rfl, (Option.some.inj h).symm⟩
    · cases h
  · next hr => exact .inr ⟨fun he => hr he.symm, h⟩

theorem append_get {routine : Routine} {l : List Routine} {q : RoutineId} {x : Routine}
    (h : (l ++ [routine])[q]? = some x) : l[q]? = some x ∨ x = routine := by
  rw [List.getElem?_append] at h
  split at h
  · exact .inl h
  · exact .inr (List.mem_singleton.1 (List.mem_of_getElem? h))

/-- A routine goes on outside the sections of a pass. -/
theorem Locks.setRoutine (h : Locks w) (r : RoutineId) (routine : Routine) (hr : ∀ p, routine = .reconcile p → p.holding = false)
    (hl : w'.reconcileLock = w.reconcileLock ∨ ∀ (q : RoutineId) p, q ≠ r → w.routines[q]? = some (.reconcile p) →
      p.holding = false)
    (hrout : w'.routines = w.routines.set r routine) (hm : ∀ k j, w'.monitors.get? k = some j → w.monitors.get? k = some j) :
    Locks w' := by
  refine ⟨fun q p hq hp => ?_, fun q key i rest brokers hq j hj => ?_⟩
  · rw [hrout] at hq
    rcases set_get hq with ⟨-, he⟩ | ⟨hne, hq⟩
    · rw [hr p he.symm] at hp
      cases hp
    · rcases hl with hl | hno
      · rw [hl]
        exact h.holds q p hq hp
      · rw [hno q p hne hq] at hp
        cases hp
  · rw [hrout] at hq
    rcases set_get hq with ⟨-, he⟩ | ⟨-, hq⟩
    · have := hr _ he.symm
      cases this
    · exact h.stopping q key i rest brokers hq j (hm key j hj)

theorem Locks.section (h : Locks w) (hl : w.reconcileLock = some r) (hs : Section r w w') : Locks w' := by
  obtain ⟨p, hrout, hcase⟩ := hs
  -- no other pass is past the lock
  have hother : ∀ (q : RoutineId) p', q ≠ r → w.routines[q]? = some (.reconcile p') → p'.holding = false := by
    intro q p' hne hq
    cases hh : p'.holding with
    | false => rfl
    | true =>
      have := h.holds q p' hq hh
      rw [hl] at this
      exact absurd (Option.some.inj this).symm hne
  refine ⟨fun q p' hq hp => ?_, fun q key i rest brokers hq j hj => ?_⟩
  · rw [hrout] at hq
    rcases set_get hq with ⟨rfl, he⟩ | ⟨hne, hq⟩
    · cases he
      rcases hcase with ⟨rfl, -⟩ | ⟨hlock, -⟩
      · cases hp
      · exact hlock
    · rw [hother q p' hne hq] at hp
      cases hp
  · rw [hrout] at hq
    rcases set_get hq with ⟨rfl, he⟩ | ⟨hne, hq⟩
    · cases he
      rcases hcase with ⟨he, -⟩ | ⟨-, key', i', rest', brokers', he, hreg⟩
      · cases he
      · cases he
        exact Option.some.inj (hj.symm.trans hreg)
    · have := hother q _ hne hq
      cases this

/-! ### `stop()` -/

theorem release_frame (w : MqttCoordinator) (r : RoutineId) : Frame w (w.release r) := by
  unfold release
  split <;> exact ⟨rfl, rfl, rfl, rfl, rfl, rfl⟩

theorem release_routines (w : MqttCoordinator) (r : RoutineId) : (w.release r).routines = w.routines := by
  unfold release
  split <;> rfl

/-- The lock of a routine that ends is free, or another's. -/
theorem Locks.released (h : Locks w) (r : RoutineId) (routine : Routine) :
    ((w.setRoutine r routine).release r).reconcileLock = w.reconcileLock ∨
      ∀ (q : RoutineId) p, q ≠ r → w.routines[q]? = some (.reconcile p) → p.holding = false := by
  by_cases hl : w.reconcileLock = some r
  · refine .inr fun q p hne hq => ?_
    cases hh : p.holding with
    | false => rfl
    | true =>
      have := h.holds q p hq hh
      rw [hl] at this
      exact absurd (Option.some.inj this).symm hne
  · refine .inl ?_
    unfold release
    rw [if_neg (show (w.setRoutine r routine).reconcileLock ≠ some r from hl)]
    rfl

/-- The invariant of every run. -/
structure Sane (w : MqttCoordinator) : Prop where
  elected : Elected w
  locks : Locks w

theorem Sane.taskMoves (h : Sane w) (ht : TaskMoves w i w') (hi : i < w.made)
    (hc : (w.monitor i).connected = true → (w'.monitor i).task.alive = true) (hr : w'.routines = w.routines)
    (hl : w'.reconcileLock = w.reconcileLock) : Sane w' := by
  refine ⟨⟨h.elected.1.taskMoves ht hi hc, h.elected.2.taskMoves ht⟩, ⟨fun r p hp => ?_, fun r key i rest brokers hp => ?_⟩⟩
  · rw [hl]
    exact h.locks.holds r p (hr ▸ hp)
  · rw [ht.monitors]
    exact h.locks.stopping r key i rest brokers (hr ▸ hp)

theorem stopMonitors_sane (h : Sane w) (r : RoutineId) (acquired : Bool) (rest : List MonitorId) :
    Sane (stopMonitors r acquired rest w) := by
  induction rest generalizing w with
  | nil =>
    have hf := release_frame (w.setRoutine r (.stop .ended)) r
    obtain ⟨hreg, -⟩ := (h.elected.frame (setRoutine_frame w r (.stop .ended))).frame hf
    unfold stopMonitors
    refine ⟨⟨⟨fun k i hk => ?_, hreg.fresh, hreg.idle⟩, ⟨fun k k' i j hk => ?_, fun k i hk => ?_⟩⟩, ?_⟩
    · cases hk
    · cases hk
    · cases hk
    · refine h.locks.setRoutine r (.stop .ended) (fun p hp => ?_) (h.locks.released r _)
        (release_routines _ r) fun k j hj => ?_
      · cases hp
      · cases hj
  | cons i rest ih =>
    unfold stopMonitors
    split
    · exact ih h
    · next ht =>
      have hi : i < w.made := by
        refine Nat.lt_of_not_le fun hle => ht (h.elected.1.fresh i hle).1
      obtain ⟨hmove, halive⟩ := cancelTask_moves w i
      have hs := h.taskMoves hmove hi (fun hc => (halive i).trans (h.elected.1.idle i hc)) rfl rfl
      refine ⟨hs.elected.frame (setRoutine_frame _ r _),
        hs.locks.setRoutine r (.stop (.stopping i rest acquired)) (fun p hp => ?_) (.inl rfl) rfl
          fun _ _ => id⟩
      cases hp

/-! ### Steps -/

theorem Registry.connects (h : Registry w) (i : MonitorId) (value : Bool) (ha : (w.monitor i).task.alive = true) :
    Registry (w.modifyMonitor i fun m => { m with connected := value }) := by
  have hget := modifyMonitor_get w i fun m => { m with connected := value }
  refine ⟨fun k a hk => ?_, fun a hle => ?_, fun a hc => ?_⟩
  · rw [hget]
    split
    · next he => subst he; exact h.key k a hk
    · exact h.key k a hk
  · have hne : a ≠ i := by
      rintro rfl
      rw [(h.fresh a hle).1] at ha
      cases ha
    rw [hget, if_neg hne]
    exact h.fresh a hle
  · rw [hget] at hc ⊢
    split
    · exact ha
    · next he =>
      rw [if_neg he] at hc
      exact h.idle a hc

/-- A session comes up or goes down. -/
theorem setConnected_sane (h : Sane w) (i : MonitorId) (value : Bool) (ha : (w.monitor i).task.alive = true) :
    Sane (w.setConnected i value) := by
  unfold setConnected
  split
  · exact h
  · exact ⟨(h.elected.1.connects i value ha).assign, h.locks.holds, h.locks.stopping⟩

theorem endReconcile_sane (h : Sane w) (r : RoutineId) : Sane (w.endReconcile r) := by
  refine ⟨h.elected.frame (endReconcile_frame w r), h.locks.setRoutine r (.reconcile .ended)
    (fun p hp => ?_) (h.locks.released r _) (release_routines _ r) fun k j hj => ?_⟩
  · cases hp
    rfl
  · exact (endReconcile_frame w r).monitors ▸ hj

/-- `_task = None`, for a task that has ended. -/
theorem Elected.noTask (h : Elected w) (hdead : (w.monitor i).task.alive ≠ true) :
    Elected (w.modifyMonitor i fun m => { m with task := .none }) := by
  have hget := modifyMonitor_get w i fun m => { m with task := .none }
  refine ⟨⟨fun k a hk => ?_, fun a ha => ?_, fun a ha => ?_⟩,
    h.2.taskMoves (modifyTask_moves w i fun _ => ⟨rfl, rfl, rfl⟩)⟩
  · rw [hget]
    split
    · next he => subst he; exact h.1.key k a hk
    · exact h.1.key k a hk
  · rw [hget]
    split
    · next he => subst he; exact ⟨rfl, (h.1.fresh a ha).2⟩
    · exact h.1.fresh a ha
  · rw [hget] at ha ⊢
    split
    · next he =>
      subst he
      rw [if_pos rfl] at ha
      exact absurd (h.1.idle a ha) hdead
    · next he =>
      rw [if_neg he] at ha
      exact h.1.idle a ha

/-- **Every step keeps the registry, the broadcasters and the lock.** -/
theorem Sane.step (h : Sane w) (a : MqttAction) : Sane (w.step a) := by
  have happend : ∀ routine : Routine, (∀ p, routine = .reconcile p → p.holding = false) →
      Locks { w with routines := w.routines ++ [routine] } := by
    intro routine hr
    refine ⟨fun q p hq hp => ?_, fun q key i rest brokers hq => ?_⟩
    · rcases append_get hq with hq | he
      · exact h.locks.holds q p hq hp
      · rw [hr p he.symm] at hp
        cases hp
    · rcases append_get hq with hq | he
      · exact h.locks.stopping q key i rest brokers hq
      · have := hr _ he.symm
        cases this
  cases a with
  | reconcile =>
    exact ⟨h.elected.same rfl rfl rfl,
      happend (.reconcile .lock) (by rintro _ ⟨⟩; rfl)⟩
  | stop =>
    have hl := happend (.stop .lock) (by rintro _ ⟨⟩)
    exact ⟨h.elected.same rfl rfl rfl,
      ⟨hl.holds, hl.stopping⟩⟩
  | resume =>
    exact ⟨h.elected.same rfl rfl rfl,
      ⟨h.locks.holds, h.locks.stopping⟩⟩
  | acquire r =>
    simp only [MqttCoordinator.step, acquire]
    split
    · exact h
    next hfree =>
    have hnone : w.reconcileLock = none := by
      cases hl : w.reconcileLock with
      | none => rfl
      | some q =>
        rw [hl] at hfree
        exact absurd rfl hfree
    have hno : ∀ (q : RoutineId) p, w.routines[q]? = some (.reconcile p) → p.holding = false := by
      intro q p hq
      cases hh : p.holding with
      | false => rfl
      | true =>
        have := h.locks.holds q p hq hh
        rw [hnone] at this
        cases this
    split
    · refine ⟨h.elected.same rfl rfl rfl,
        ⟨fun q p hq hp => ?_, fun q key i rest brokers hq => ?_⟩⟩
      · rcases set_get hq with ⟨rfl, -⟩ | ⟨-, hq⟩
        · rfl
        · rw [hno q p hq] at hp
          cases hp
      · rcases set_get hq with ⟨-, he⟩ | ⟨-, hq⟩
        · cases he
        · have := hno q _ hq
          cases this
    · refine stopMonitors_sane (w := { w with reconcileLock := some r }) ⟨h.elected.same rfl rfl rfl,
        ⟨fun q p hq hp => ?_, h.locks.stopping⟩⟩ r true _
      rw [hno q p hq] at hp
      cases hp
    · exact h
  | lockTimeout r =>
    simp only [MqttCoordinator.step]
    split
    · exact stopMonitors_sane h r false _
    · exact h
  | collected r brokers needsReload order =>
    simp only [MqttCoordinator.step]
    split
    · next hr =>
      have hl := h.locks.holds r .collect hr rfl
      unfold reconcileCollected
      split
      · exact endReconcile_sane h r
      split
      · have hst := startWanted_spec h.elected.1 r brokers false
        exact ⟨⟨hst.registry, hst.publishers⟩, h.locks.section hl (startWanted_section h.elected.1 hl brokers false)⟩
      split
      · exact ⟨stopUnwanted_elected h.elected r brokers order,
          h.locks.section hl (stopUnwanted_section h.elected.1 hl brokers order)⟩
      · exact h
    · exact h
  | monitorStopped r =>
    simp only [MqttCoordinator.step, monitorStopped]
    split
    · next key i rest brokers hr =>
      split
      · exact h
      next hdead =>
      have hl := h.locks.holds r _ hr rfl
      have hgone : Elected { w.modifyMonitor i fun m => { m with task := .none } with
          monitors := w.monitors.erase key } := by
        have hreg := h.elected.noTask hdead
        refine erase_keeps hreg.1 hreg.2 key fun j hj => ?_
        obtain rfl := h.locks.stopping r key i rest brokers hr j hj
        rw [modifyMonitor_get, if_pos rfl]
        rfl
      have hlocks : Locks { w.modifyMonitor i fun m => { m with task := .none } with
          monitors := w.monitors.erase key } :=
        ⟨h.locks.holds, fun q key' i' rest' brokers' hq j hj =>
          h.locks.stopping q key' i' rest' brokers' hq j (Dict.of_get?_erase hj).2⟩
      unfold reconcileStopped
      simp only
      split
      · exact endReconcile_sane ⟨hgone, hlocks⟩ r
      · exact ⟨stopUnwanted_elected hgone r brokers rest,
          hlocks.section hl (stopUnwanted_section hgone.1 hl brokers rest)⟩
    · next i rest acquired hr =>
      split
      · exact h
      next hdead =>
      exact stopMonitors_sane (w := w.modifyMonitor i fun m => { m with task := .none })
        ⟨h.elected.noTask hdead, ⟨h.locks.holds, h.locks.stopping⟩⟩ r acquired rest
    · exact h
  | cancel r =>
    simp only [MqttCoordinator.step, cancel]
    split
    · exact endReconcile_sane h r
    · refine ⟨(h.elected.frame (setRoutine_frame w r _)).frame (release_frame _ r),
        h.locks.setRoutine r (.stop .ended) (fun p hp => ?_) (h.locks.released r _)
          (release_routines _ r) fun k j hj => ?_⟩
      · cases hp
      · exact (release_frame (w.setRoutine r (.stop .ended)) r).monitors ▸ hj
    · exact h
  | connect i =>
    simp only [MqttCoordinator.step]
    split
    · next ht => exact setConnected_sane h i true (by rw [ht]; rfl)
    · exact h
  | disconnect i =>
    simp only [MqttCoordinator.step]
    split
    · next ht => exact setConnected_sane h i false ht
    · exact h
  | finish i =>
    simp only [MqttCoordinator.step]
    split
    · next ht =>
      have hi : i < w.made := by
        refine Nat.lt_of_not_le fun hle => ?_
        rw [(h.elected.1.fresh i hle).1] at ht
        cases ht.1
      refine h.taskMoves (modifyTask_moves w i fun _ => ⟨rfl, rfl, rfl⟩) hi (fun hc => ?_) rfl rfl
      rw [ht.2] at hc
      cases hc
    · exact h

/-! ### The incumbent -/

theorem stopUnwanted_incumbent (h : Elected w) (r : RoutineId) (brokers rest : List BrokerKey) (hi : i < w.made)
    (hk : (stopUnwanted r brokers rest w).monitors.get? k = some i) (hc : (w.monitor i).connected = true)
    (hp : (w.monitor i).isPublisher = true) : ((stopUnwanted r brokers rest w).monitor i).isPublisher = true := by
  refine stopUnwanted_induction r brokers (w := w) (I := fun v => Elected v ∧ v.monitor = w.monitor ∧ v.made = w.made)
    (O := fun v => v.monitors.get? k = some i → (v.monitor i).isPublisher = true) (L := fun _ _ => True)
    (fun v _ hv _ _ => ?_) (fun v hv _ hk => ?_) (fun v key rest j hv _ hj ht => ⟨⟨?_, hv.2⟩, trivial⟩)
    (fun v key rest j hv _ _ _ _ => ?_) rest ⟨h, rfl, rfl⟩ trivial hk
  · rw [(endReconcile_frame v r).monitor, hv.2.1]
    exact hp
  · obtain ⟨hev, hmon, hmade⟩ := hv
    have hst := startWanted_spec hev.1 r brokers true
    rcases hst.back k i hk with hold | ⟨-, hle⟩
    · exact hst.incumbent hev.2 k i hold (hmon ▸ hc) (hmon ▸ hp)
    · exact absurd hi (Nat.not_lt_of_le (hmade ▸ hle))
  · refine erase_keeps hv.1.1 hv.1.2 key fun a ha => ?_
    rw [hj] at ha
    obtain rfl := Option.some.inj ha
    rw [ht]
    rfl
  · have hsame := ((cancelTask_moves v j).1.same i).2.2
    rw [hv.2.1] at hsame
    exact hsame.trans hp

theorem stopMonitors_flag (r : RoutineId) (acquired : Bool) (rest : List MonitorId) (w : MqttCoordinator) (i : MonitorId) :
    ((stopMonitors r acquired rest w).monitor i).isPublisher = (w.monitor i).isPublisher := by
  induction rest generalizing w with
  | nil => exact congrArg (fun m => (m i).isPublisher) (release_frame (w.setRoutine r (.stop .ended)) r).monitor
  | cons j rest ih =>
    unfold stopMonitors
    split
    · exact ih w
    · exact ((cancelTask_moves w j).1.same i).2.2

/-- A session that comes up or goes down takes the role from nobody who is connected. -/
theorem setConnected_incumbent (h : Sane w) (j : MonitorId) (value : Bool) (ha : (w.monitor j).task.alive = true)
    (hk : w.monitors.get? k = some i) (hp : (w.monitor i).isPublisher = true)
    (hc : ((w.setConnected j value).monitor i).connected = true) :
    ((w.setConnected j value).monitor i).isPublisher = true := by
  unfold setConnected at hc ⊢
  split
  · exact hp
  next hne =>
  rw [if_neg hne] at hc
  have hget := modifyMonitor_get w j fun m => { m with connected := value }
  have hflag : ∀ a, ((w.modifyMonitor j fun m => { m with connected := value }).monitor a).isPublisher =
      (w.monitor a).isPublisher := by
    intro a
    rw [hget]
    split
    · next he => subst he; rfl
    · rfl
  have hreg := h.elected.1.connects j value ha
  refine hreg.incumbent (fun k k' a b hka hkb he _ _ hpa hpb => ?_) hk ?_ ((hflag i).trans hp)
  · exact h.elected.2.one k k' a b hka hkb he ((hflag a).symm.trans hpa) ((hflag b).symm.trans hpb)
  · rw [(assign_same hreg i).2.1] at hc
    exact hc

/-- **The broadcaster of an endpoint changes only when it has to**: not while it is registered and
connected. -/
theorem Sane.incumbent (h : Sane w) (a : MqttAction) (hk : w.monitors.get? k = some i)
    (hc : (w.monitor i).connected = true) (hp : (w.monitor i).isPublisher = true)
    (hk' : (w.step a).monitors.get? k = some i) (hc' : ((w.step a).monitor i).connected = true) :
    ((w.step a).monitor i).isPublisher = true := by
  have hi := (h.elected.1.key k i hk).2
  cases a with
  | reconcile => exact hp
  | stop => exact hp
  | resume => exact hp
  | acquire r =>
    simp only [MqttCoordinator.step, acquire]
    split
    · exact hp
    split
    · exact hp
    · exact (stopMonitors_flag r true _ _ i).trans hp
    · exact hp
  | lockTimeout r =>
    simp only [MqttCoordinator.step]
    split
    · exact (stopMonitors_flag r false _ _ i).trans hp
    · exact hp
  | collected r brokers needsReload order =>
    simp only [MqttCoordinator.step] at hk' ⊢
    split
    · next hr =>
      rw [hr] at hk'
      simp only [reconcileCollected] at hk' ⊢
      split
      · rw [(endReconcile_frame w r).monitor]
        exact hp
      next hst =>
      rw [if_neg hst] at hk'
      split
      · exact (startWanted_spec h.elected.1 r brokers false).incumbent h.elected.2 k i hk hc hp
      next hnr =>
      rw [if_neg hnr] at hk'
      split
      · next hperm =>
        rw [if_pos hperm] at hk'
        exact stopUnwanted_incumbent h.elected r brokers order hi hk' hc hp
      · exact hp
    · exact hp
  | monitorStopped r =>
    simp only [MqttCoordinator.step, monitorStopped] at hk' ⊢
    split
    · next key j rest brokers hr =>
      rw [hr] at hk'
      simp only at hk'
      split
      · exact hp
      next hdead =>
      rw [if_neg hdead] at hk'
      have hgone : Elected { w.modifyMonitor j fun m => { m with task := .none } with
          monitors := w.monitors.erase key } := by
        have hreg := h.elected.noTask hdead
        refine erase_keeps hreg.1 hreg.2 key fun a ha => ?_
        obtain rfl := h.locks.stopping r key j rest brokers hr a ha
        rw [modifyMonitor_get, if_pos rfl]
        rfl
      have hmove := modifyTask_moves w j (f := fun m => { m with task := .none }) fun _ => ⟨rfl, rfl, rfl⟩
      have hflag := (hmove.same i).2.2.trans hp
      have hconn := (hmove.same i).2.1.trans hc
      unfold reconcileStopped at hk' ⊢
      simp only at hk' ⊢
      split
      · rw [(endReconcile_frame _ r).monitor]
        exact hflag
      next hst =>
      rw [if_neg hst] at hk'
      exact stopUnwanted_incumbent hgone r brokers rest hi hk' hconn hflag
    · next j rest acquired hr =>
      split
      · exact hp
      · refine (stopMonitors_flag r acquired rest _ i).trans ?_
        exact ((modifyTask_moves w j (f := fun m => { m with task := .none }) fun _ => ⟨rfl, rfl, rfl⟩).same i).2.2.trans hp
    · exact hp
  | cancel r =>
    simp only [MqttCoordinator.step, cancel]
    split
    · rw [(endReconcile_frame w r).monitor]
      exact hp
    · rw [(release_frame _ r).monitor]
      exact hp
    · exact hp
  | connect j =>
    simp only [MqttCoordinator.step] at hc' ⊢
    split
    · next ht =>
      rw [if_pos ht] at hc'
      exact setConnected_incumbent h j true (by rw [ht]; rfl) hk hp hc'
    · exact hp
  | disconnect j =>
    simp only [MqttCoordinator.step] at hc' ⊢
    split
    · next ht =>
      rw [if_pos ht] at hc'
      exact setConnected_incumbent h j false ht hk hp hc'
    · exact hp
  | finish j =>
    simp only [MqttCoordinator.step]
    split
    · exact ((modifyTask_moves w j (f := fun m => { m with task := .done }) fun _ => ⟨rfl, rfl, rfl⟩).same i).2.2.trans hp
    · exact hp

theorem Sane.start : Sane {} := by
  refine ⟨⟨⟨?_, fun _ _ => ⟨rfl, rfl⟩, ?_⟩, ⟨?_, ?_⟩⟩, ⟨?_, ?_⟩⟩
  · intro k i hk
    cases hk
  · intro i hi
    cases hi
  · intro k k' i j hk
    cases hk
  · intro k i hk
    cases hk
  · intro r p hr
    cases hr
  · intro r key i rest brokers hr
    cases hr

/-- A login without a username, and one with. -/
def anonymousLogin : BrokerKey := ⟨"broker", 1883, none, none, false, "tcp", "/mqtt"⟩

def userLogin : BrokerKey := { anonymousLogin with username := some "user" }

/-- A pass finds both logins; their monitors connect. -/
def twoLogins : List MqttAction :=
  [.reconcile, .acquire 0, .collected 0 [anonymousLogin, userLogin] false [], .connect 1, .connect 0]

/-- **The broadcasters.** In every run, at every endpoint: there is one broadcaster at most; if a
monitor is connected, the broadcaster is one that is; and a step takes the role from no monitor that
stays registered and connected. -/
theorem mqtt_publishers (hw : Runs.Reaches MqttCoordinator.step Runs.any {} w) :
    (∀ k k' i j, w.monitors.get? k = some i → w.monitors.get? k' = some j → k.endpoint = k'.endpoint →
      (w.monitor i).isPublisher = true → (w.monitor j).isPublisher = true → i = j) ∧
    (∀ k i, w.monitors.get? k = some i → (w.monitor i).connected = true → ∃ k' j, w.monitors.get? k' = some j ∧
      k'.endpoint = k.endpoint ∧ (w.monitor j).isPublisher = true ∧ (w.monitor j).connected = true) ∧
    ∀ a k i, w.monitors.get? k = some i → (w.monitor i).connected = true → (w.monitor i).isPublisher = true →
      (w.step a).monitors.get? k = some i → ((w.step a).monitor i).connected = true →
      ((w.step a).monitor i).isPublisher = true := by
  have h := hw.invariant Sane.start fun _ a _ h => h.step a
  exact ⟨h.elected.2.one, h.elected.2.up, fun a k i hk hc hp hk' hc' => h.incumbent a hk hc hp hk' hc'⟩

theorem mqtt_publishers_twoLogins :
    ∃ k' j, (twoLogins.foldl MqttCoordinator.step {}).monitors.get? k' = some j ∧ k'.endpoint = anonymousLogin.endpoint ∧
      ((twoLogins.foldl MqttCoordinator.step {}).monitor j).isPublisher = true ∧
      ((twoLogins.foldl MqttCoordinator.step {}).monitor j).connected = true :=
  (mqtt_publishers (.foldl twoLogins ({} : MqttCoordinator))).2.1 anonymousLogin 0 (by decide +kernel) (by decide +kernel)

end MqttCoordinator

end DeviceBuilder
