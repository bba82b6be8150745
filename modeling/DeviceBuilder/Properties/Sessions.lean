import DeviceBuilder.Properties.Trust
import DeviceBuilder.RemoteBuild.ReceiverMoves

/-!
# The session registry and its events

`register_peer_link_session` takes the slot before it awaits the superseded
session's `terminate`, and fires OPENED past that await. A third session can
register and close within the await; the second then fires OPENED with the slot
empty. `Orderly` excludes that resumption.

* `slotted_step`: a slot holds the session registered last, in any run.
* `opened_step`: an orderly step keeps the events in line with the slots.
* `registry_agrees`: slots and events, in every state an orderly run reaches.
* `opened_unregistered`: a run that ends with OPENED and an empty slot.
-/

namespace DeviceBuilder

open Runs

namespace ReceiverWorld

variable {cfg : PairingSettings} {w w' : ReceiverWorld} {a : ReceiverAction} {i : ℕ}
  {n m : SessionId} {d d' : DashboardId}

/-- Is OPENED the last OPENED or CLOSED event of `d` in a log? -/
def openedLast (d : DashboardId) (log : List ReceiverEvent) : Bool :=
  log.foldl (fun b e => match e with
    | .opened d' _ _ => if d' = d then true else b
    | .closed d' => if d' = d then false else b
    | _ => b) false

/-- The session registered last for `d`, if it has not unregistered. -/
structure Latest (w : ReceiverWorld) (d : DashboardId) (n : SessionId) : Prop where
  serves : w.dashboardId n = some d
  live : w.isUnregistered n = false
  last : ∀ m, w.dashboardId m = some d → m ≤ n

/-- No registration runs on from its await while the slot of its id is empty. -/
def Orderly (w : ReceiverWorld) : ReceiverAction → Prop
  | .resume i r => r.returns = true → ∀ n d, w.tasks[i]? = some (.session n .register) →
      w.dashboardId n = some d → (w.peerLinkSessions.get? d).isSome = true
  | _ => True

/-! ### The log -/

theorem openedLast_append (log es : List ReceiverEvent) (d : DashboardId) :
    openedLast d (log ++ es) = es.foldl (fun b e => match e with
      | .opened d' _ _ => if d' = d then true else b
      | .closed d' => if d' = d then false else b
      | _ => b) (openedLast d log) := List.foldl_append

/-- Events that are no registry events change nothing. -/
theorem openedLast_quiet {log es : List ReceiverEvent} (h : ∀ e ∈ es, e.Quiet n) :
    openedLast d (log ++ es) = openedLast d log := by
  rw [openedLast_append]
  induction es with
  | nil => rfl
  | cons e es ih =>
    have he := h e (List.mem_cons_self ..)
    rw [List.foldl_cons]
    have hes := ih fun e' he' => h e' (List.mem_cons_of_mem _ he')
    cases e with
    | opened => exact absurd he id
    | closed => exact absurd he id
    | _ => exact hes

theorem openedLast_opened (log : List ReceiverEvent) (d d' : DashboardId) (name : String) (addon : Bool) :
    openedLast d (log ++ [.opened d' name addon]) = if d' = d then true else openedLast d log := by
  rw [openedLast_append]
  rfl

theorem openedLast_closed (log : List ReceiverEvent) (d d' : DashboardId) :
    openedLast d (log ++ [.closed d']) = if d' = d then false else openedLast d log := by
  rw [openedLast_append]
  rfl

/-! ### The slots -/

/-- A slot holds the latest session of its id. -/
def Slotted (w : ReceiverWorld) : Prop := ∀ d n, w.peerLinkSessions.get? d = some n ↔ w.Latest d n

theorem latest_congr (hid : ∀ m, w'.dashboardId m = w.dashboardId m)
    (hun : w'.isUnregistered n = w.isUnregistered n) : w'.Latest d n ↔ w.Latest d n := by
  constructor
  · rintro ⟨h₁, h₂, h₃⟩
    exact ⟨hid n ▸ h₁, hun ▸ h₂, fun m hm => h₃ m ((hid m).trans hm)⟩
  · rintro ⟨h₁, h₂, h₃⟩
    exact ⟨(hid n).trans h₁, hun.trans h₂, fun m hm => h₃ m ((hid m).symm.trans hm)⟩

theorem Slotted.handled {o : Prop} (hw : Slotted w) (h : Handled o n d w w') : Slotted w' := by
  intro d n
  rw [h.slots, hw, latest_congr h.ids (h.unregistered n)]

/-- A change of other fields. -/
theorem Slotted.same (hw : Slotted w) (h₁ : w'.peerLinkSessions = w.peerLinkSessions)
    (h₂ : w'.sessions = w.sessions) : Slotted w' := by
  intro d n
  rw [h₁, hw]
  exact (latest_congr (fun m => by unfold dashboardId; rw [h₂]) (by unfold isUnregistered; rw [h₂])).symm

theorem dashboardId_lt (h : w.dashboardId n = some d) : n < w.sessions.length := by
  unfold dashboardId at h
  obtain ⟨s, hs, -⟩ := Option.map_eq_some_iff.1 h
  exact (List.getElem?_eq_some_iff.1 hs).1

theorem install_slot (w : ReceiverWorld) (d d' : DashboardId) (identity : SessionIdentity) :
    (w.install d identity).peerLinkSessions.get? d' =
      if d' = d then some w.sessions.length else w.peerLinkSessions.get? d' := Dict.get?_set ..

/-- The installed session is the latest of its id. -/
theorem Slotted.install (hw : Slotted w) (d : DashboardId) (identity : SessionIdentity) :
    Slotted (w.install d identity) := by
  intro d' n
  have hfresh : w.isUnregistered w.sessions.length = false := by
    unfold isUnregistered
    rw [List.getElem?_eq_none (Nat.le_refl _)]
    rfl
  have hold : ∀ m d', w.dashboardId m = some d' → m ≠ w.sessions.length := by
    intro m d' hm
    exact Nat.ne_of_lt (dashboardId_lt hm)
  rw [install_slot]
  by_cases hd : d' = d
  · subst hd
    rw [if_pos rfl]
    constructor
    · intro h
      obtain rfl : w.sessions.length = n := Option.some.inj h
      refine ⟨by rw [install_dashboardId, if_pos rfl], by rw [install_unregistered]; exact hfresh, ?_⟩
      intro m hm
      rw [install_dashboardId] at hm
      split at hm
      next he => exact Nat.le_of_eq he
      next => exact Nat.le_of_lt (dashboardId_lt hm)
    · rintro ⟨hn, -, hlast⟩
      have hle := hlast w.sessions.length (by rw [install_dashboardId, if_pos rfl])
      rw [install_dashboardId] at hn
      split at hn
      next he => rw [he]
      next => exact absurd (dashboardId_lt hn) (Nat.not_lt.2 hle)
  · rw [if_neg hd, hw]
    constructor
    · rintro ⟨h₁, h₂, h₃⟩
      refine ⟨by rw [install_dashboardId, if_neg (hold _ _ h₁)]; exact h₁,
        by rw [install_unregistered]; exact h₂, ?_⟩
      intro m hm
      rw [install_dashboardId] at hm
      split at hm
      · exact absurd (Option.some.inj hm).symm hd
      · exact h₃ m hm
    · rintro ⟨h₁, h₂, h₃⟩
      rw [install_dashboardId] at h₁
      split at h₁
      · exact absurd (Option.some.inj h₁).symm hd
      · refine ⟨h₁, by rw [install_unregistered] at h₂; exact h₂, fun m hm => h₃ m ?_⟩
        rw [install_dashboardId, if_neg (hold _ _ hm)]
        exact hm

theorem Slotted.unregister (hw : Slotted w) (hd : w.dashboardId n = some d)
    (h : Unregistered n d w w') : Slotted w' := by
  have flag : ∀ m, m ≠ n → w'.isUnregistered m = w.isUnregistered m := by
    intro m hm
    rw [h.flags, decide_eq_false hm, Bool.false_and, Bool.false_or]
  have notLatest : ∀ d', ¬w'.Latest d' n := by
    intro d' hl
    have gone : w'.isUnregistered n = true := by
      rw [h.flags, hd]
      simp
    rw [hl.live] at gone
    cases gone
  intro d' m
  rcases h.effect with ⟨hslot, hs, -⟩ | ⟨hslot, hs, -⟩
  · have hl := (hw d n).1 hslot
    rw [hs, Dict.get?_erase]
    split
    next he =>
      subst he
      refine ⟨nofun, fun hm => ?_⟩
      -- any latest session of the id is `n`
      have h₁ := hl.last m ((h.ids m).symm.trans hm.serves)
      have h₂ := hm.last n ((h.ids n).trans hd)
      obtain rfl : m = n := Nat.le_antisymm h₁ h₂
      exact absurd hm (notLatest _)
    next he =>
      rw [hw]
      by_cases hm : m = n
      · subst hm
        refine ⟨fun hm => ?_, fun hm => absurd hm (notLatest _)⟩
        rw [hm.serves] at hd
        exact absurd (Option.some.inj hd) he
      · exact (latest_congr h.ids (flag m hm)).symm
  · rw [hs]
    by_cases hm : m = n
    · subst hm
      refine ⟨fun hm => ?_, fun hm => absurd hm (notLatest _)⟩
      have he := ((hw d' m).1 hm).serves
      rw [hd] at he
      rw [Option.some.inj he] at hslot
      exact absurd hm hslot
    · rw [hw]
      exact (latest_congr h.ids (flag m hm)).symm

theorem step_handshake_fields (cfg : PairingSettings) (w : ReceiverWorld) (d : DashboardId) (pub : PublicKey)
    (identity : SessionIdentity) :
    let w' := w.step cfg (.handshake d pub identity)
    w'.peerLinkSessions = w.peerLinkSessions ∧ w'.sessions = w.sessions ∧ w'.log = w.log ∧
      w'.inflight = w.inflight ∧ w'.extractIndex = w.extractIndex := by
  simp only [step]
  split <;> exact ⟨rfl, rfl, rfl, rfl, rfl⟩

/-- In any run, a slot holds the latest session of its id. -/
theorem slotted_step (cfg : PairingSettings) (a : ReceiverAction) (hw : Slotted w) : Slotted (w.step cfg a) := by
  cases step_cases cfg w a with
  | idle h => exact hw.handled (h 0 "")
  | serve i n d await _ _ _ h => exact hw.handled h
  | register i r d identity _ _ _ h =>
    rw [h]
    rcases register_cases w i d identity with ha | ⟨-, -, hh⟩
    · exact (hw.install d identity).same ha.slots ha.sessions
    · exact (hw.install d identity).handled (hh True)
  | announce i r n d _ _ _ hd h =>
    have ha : Announced i n d w _ := announced hd
    rw [h]
    exact hw.same ha.slots ha.sessions
  | unregister i n d _ hd h =>
    rw [h]
    exact (hw.unregister hd (unregistered hd)).same rfl rfl
  | pairing a' _ h =>
    rw [h]
    exact hw.same rfl rfl
  | handshake d pub identity ha _ =>
    subst ha
    obtain ⟨h₁, h₂, -⟩ := step_handshake_fields cfg w d pub identity
    exact hw.same h₁ h₂

theorem slotted_start (file : PeersFile cfg.lib) : Slotted (start cfg file) :=
  fun _ _ => ⟨nofun, fun hl => nomatch hl.serves⟩

/-! ### The events -/

/-- OPENED is the last event of the ids with a slot, and of no others. -/
def Opened (w : ReceiverWorld) : Prop := ∀ d, openedLast d w.log = (w.peerLinkSessions.get? d).isSome

theorem Opened.handled {o : Prop} (hw : Opened w) (h : Handled o n d w w') : Opened w' := by
  intro d
  obtain ⟨es, hes, hq⟩ := h.log
  rw [hes, openedLast_quiet hq, h.slots, hw]

/-- Announcing a session whose slot is taken. -/
theorem Opened.announce (hopen : ∀ d', d' ≠ d → openedLast d' w.log = (w.peerLinkSessions.get? d').isSome)
    (hd : (w.peerLinkSessions.get? d).isSome = true) (h : Announced i n d w w') : Opened w' := by
  intro d'
  obtain ⟨name, addon, hlog⟩ := h.log
  rw [hlog, openedLast_opened, h.slots]
  split
  next he => rw [← he, hd]
  next he => exact hopen d' (Ne.symm he)

theorem Opened.register (hw : Opened w) (i : ℕ) (d : DashboardId) (identity : SessionIdentity) :
    Opened (w.registerPeerLinkSession i d identity) := by
  have hother : ∀ d', d' ≠ d →
      openedLast d' (w.install d identity).log = ((w.install d identity).peerLinkSessions.get? d').isSome := by
    intro d' hd
    rw [install_slot, if_neg hd]
    exact hw d'
  have htaken : ((w.install d identity).peerLinkSessions.get? d).isSome = true := by
    rw [install_slot, if_pos rfl]
    rfl
  rcases register_cases w i d identity with h | ⟨hd, -, h⟩
  · exact .announce hother htaken h
  · -- the superseded session has opened the id
    have hi : Opened (w.install d identity) := by
      intro d'
      by_cases hd' : d' = d
      · subst hd'
        rw [htaken]
        exact (hw d').trans hd
      · exact hother d' hd'
    exact hi.handled (h True)

theorem Opened.unregister (hw : Opened w) (h : Unregistered n d w w') : Opened w' := by
  intro d'
  rcases h.effect with ⟨-, hs, -, hlog⟩ | ⟨-, hs, -, hlog⟩
  · rw [hlog, openedLast_closed, hs, Dict.get?_erase]
    by_cases he : d' = d
    · rw [if_pos he.symm, if_pos he]
      rfl
    · rw [if_neg (Ne.symm he), if_neg he]
      exact hw d'
  · rw [hlog, hs]
    exact hw d'

theorem Opened.same (hw : Opened w) (h₁ : w'.peerLinkSessions = w.peerLinkSessions) (h₂ : w'.log = w.log) :
    Opened w' := fun d => by rw [h₂, h₁, hw]

theorem opened_step (hok : Orderly w a) (hw : Opened w) : Opened (w.step cfg a) := by
  cases step_cases cfg w a with
  | idle h => exact hw.handled (h 0 "")
  | serve i n d await _ _ _ h => exact hw.handled h
  | register i r d identity _ _ _ h =>
    rw [h]
    exact hw.register i d identity
  | announce i r n d ha hr ht hd h =>
    subst ha
    rw [h]
    exact .announce (fun d' _ => hw d') (hok hr n d ht hd) (announced hd)
  | unregister i n d _ hd h =>
    rw [h]
    exact (hw.unregister (unregistered hd)).same rfl rfl
  | pairing a' _ h =>
    rw [h]
    exact hw.same rfl rfl
  | handshake d pub identity ha _ =>
    subst ha
    obtain ⟨h₁, -, h₂, -⟩ := step_handshake_fields cfg w d pub identity
    exact hw.same h₁ h₂

/-! ### The law -/

/-- **The registry agrees with its events.** -/
structure RegistryLaw (w : ReceiverWorld) : Prop where
  slot : ∀ d n, w.peerLinkSessions.get? d = some n ↔ w.Latest d n
  superseded : ∀ n s, w.sessions[n]? = some s → w.peerLinkSessions.get? s.dashboardId ≠ some n →
    w.unregisterPeerLinkSession n =
      { w with sessions := w.sessions.modify n fun s => { s with unregistered := true } }
  events : (∀ (i : ℕ) n, w.tasks[i]? ≠ some (ReceiverTask.session n .register)) →
    ∀ d, openedLast d w.log = true ↔ (w.peerLinkSessions.get? d).isSome = true

theorem registry_agrees (h : Reachable cfg Orderly w) : RegistryLaw w := by
  obtain ⟨file, h⟩ := h
  have hslot := h.invariant (slotted_start file) fun _ a _ => slotted_step cfg a
  have hopen := h.invariant (I := Opened) (fun _ => rfl) fun _ _ => opened_step
  refine ⟨hslot, fun n s hs hslot => ?_, fun _ d => by rw [hopen d]⟩
  unfold unregisterPeerLinkSession
  rw [hs]
  simp only
  rw [if_neg hslot]

/-! ### Runs of one peer -/

/-- The row of an approved offloader with the key `someKey`. -/
def somePeer : StoredPeer :=
  (PairingState.someRequest.handshake PairingState.someLibrary).storedPeer

/-- A receiver that has approved `kitchen`. -/
def someFile : PeersFile PairingState.someLibrary where
  peers := Dict.set ∅ "kitchen" somePeer
  pinned := by
    intro d p h
    rw [Dict.get?_set] at h
    split at h
    · obtain rfl : somePeer = p := Option.some.inj h
      rfl
    · cases h

def someIdentity : SessionIdentity := {}

/-- `kitchen` dials, and its handshake is answered; its task is at `i`. -/
def dial (i : ℕ) : List ReceiverAction :=
  [.handshake "kitchen" PairingState.someKey someIdentity, .resume i .ok]

/-- A session is superseded while it still waits for the one it supersedes, and the third closes. -/
def thirdCloses : List ReceiverAction :=
  dial 0 ++ dial 1 ++ dial 2 ++ [.resume 2 .ok, .wsClosed 2, .resume 2 .ok, .resume 1 .ok]

/-- No registration is suspended. -/
def settledTest (w : ReceiverWorld) : Bool := w.tasks.all fun
  | .session _ .register => false
  | _ => true

theorem settled_of_test (h : settledTest w = true) (i : ℕ) (n : SessionId) :
    w.tasks[i]? ≠ some (ReceiverTask.session n .register) := by
  intro ht
  have := List.all_eq_true.1 h _ (List.mem_of_getElem? ht)
  cases this

/-- OPENED is the last event, and the slot is empty. -/
theorem opened_unregistered : ¬∀ (cfg : PairingSettings) (w : ReceiverWorld),
    Reachable cfg any w → RegistryLaw w := by
  intro h
  have hw := h PairingState.someSettings _ ⟨someFile, Reaches.foldl thirdCloses _⟩
  have he := (hw.events (settled_of_test (by decide)) "kitchen").1 (by decide)
  revert he
  decide

/-- The same sessions, each registration running on in its turn. -/
def inTurn : List ReceiverAction :=
  dial 0 ++ dial 1 ++ [.resume 1 .ok] ++ dial 2 ++ [.resume 2 .ok, .wsClosed 2, .resume 2 .ok]

/-- A resumption at a taken slot, or of no registration. -/
def orderlyTest (w : ReceiverWorld) : ReceiverAction → Bool
  | .resume i _ => (w.tasks[i]?).all fun
      | .session n .register => (w.dashboardId n).all fun d => (w.peerLinkSessions.get? d).isSome
      | _ => true
  | _ => true

theorem orderly_of_test (w : ReceiverWorld) (a : ReceiverAction) (h : orderlyTest w a = true) : Orderly w a := by
  cases a with
  | resume i r =>
    intro _ n d ht hd
    simpa [orderlyTest, ht, hd] using h
  | _ => trivial

theorem registry_agrees_inTurn : RegistryLaw
    (inTurn.foldl (step PairingState.someSettings) (start PairingState.someSettings someFile)) := by
  have hc : Reaches.checks (step PairingState.someSettings) orderlyTest inTurn
      (start PairingState.someSettings someFile) = true := by decide
  have h := Reaches.foldl_checks orderly_of_test inTurn _ hc
  exact @registry_agrees PairingState.someSettings _ ⟨someFile, h⟩

end ReceiverWorld

end DeviceBuilder
