import DeviceBuilder.Properties.Trust

/-!
# Pending requests die with their window

A window that lapses is cleaned up by its timer handle, so a PENDING row needs
the handle. `set_pairing_window` cancels the handle, and cleans up itself only
when it still sees the window open: called between the lapse and the handle's
run, it leaves the rows of the old window behind. `Punctual` excludes that call.

* `windowed_step`: what one punctual step keeps, and how it closes a window.
* `pending_dies`: the law, in every state a punctual run reaches.
* `pending_outlives`: a run in which a row outlives its window.
-/

namespace DeviceBuilder

open Runs

namespace PairingState

variable {cfg : PairingSettings} {s s' : PairingState} {a : PairAction} {d : DashboardId}
  {file : PeersFile cfg.lib}

/-- The steps that call `set_pairing_window`. -/
def SetsWindow (s : PairingState) : PairAction → Prop
  | .setPairingWindow _ _ => True
  | .serve _ => s.approvedPeers.isEmpty = true
  | .resume i => ∃ windowClosed, s.tasks[i]? = some (.bootstrapWait true windowClosed)
  | _ => False

/-- No `set_pairing_window` between a window's lapse and its close callback. -/
def Punctual (_ : PairingSettings) (s : PairingState) (a : PairAction) : Prop :=
  s.SetsWindow a → s.pairingWindowHandle.isSome = true → s.isPairingWindowOpen = true

/-- A closing step: every PENDING row is dropped with its `removed` event, and a close event fires. -/
def Closes (s s' : PairingState) : Prop :=
  s'.pendingPeers = ∅ ∧ ∃ es, s'.log = s.log ++ es ∧ .pairingWindowChanged false none ∈ es ∧
    ∀ d p, s.pendingPeers.get? d = some p → .pairStatusChanged d .removed ∈ es

/-! ### The window -/

theorem isOpen_iff : s.isPairingWindowOpen = true ↔
    ∃ c t, s.pairingWindowClients.get? c = some t ∧ s.now ≤ t := by
  unfold isPairingWindowOpen prune
  rw [Bool.not_eq_true', Dict.isEmpty_eq_false]
  simp only [Dict.get?_keep, Option.filter_eq_some_iff, decide_eq_true_eq]

/-- The window's own fields after a step that does not set it: entries may lapse, none is new. -/
structure Untouched (s s' : PairingState) : Prop where
  handle : s'.pairingWindowHandle = s.pairingWindowHandle
  now : s.now ≤ s'.now
  clients : ∀ c t, s'.pairingWindowClients.get? c = some t → s.pairingWindowClients.get? c = some t

theorem Untouched.open' (h : Untouched s s') (ho : s'.isPairingWindowOpen = true) :
    s.isPairingWindowOpen = true := by
  obtain ⟨c, t, hc, ht⟩ := isOpen_iff.1 ho
  exact isOpen_iff.2 ⟨c, t, h.clients c t hc, Nat.le_trans h.now ht⟩

theorem Untouched.prune (h : Untouched s s') : Untouched s s'.prune where
  handle := h.handle
  now := h.now
  clients := fun c t hc => by
    unfold PairingState.prune at hc
    rw [Dict.get?_keep, Option.filter_eq_some_iff] at hc
    exact h.clients c t hc.1

theorem Untouched.same (h₁ : s'.pairingWindowHandle = s.pairingWindowHandle)
    (h₂ : s'.pairingWindowClients = s.pairingWindowClients) (h₃ : s'.now = s.now) :
    Untouched s s' := ⟨h₁, Nat.le_of_eq h₃.symm, fun c t h => by rwa [h₂] at h⟩

theorem clear_closes {e : PairEvent} (hp : s'.pendingPeers = s.pendingPeers)
    (hl : s'.log = s.log ++ [e]) (he : e = .pairingWindowChanged false none) :
    Closes s s'.clearPendingPeersOnWindowClose := by
  refine ⟨clear_pending, e :: s.pendingPeers.keys.map (.pairStatusChanged · .removed), ?_, ?_, ?_⟩
  · rw [clear_log, hl, hp, List.append_assoc]
    rfl
  · rw [he]
    exact List.mem_cons_self ..
  · intro d p hd
    exact List.mem_cons_of_mem _ (List.mem_map.2 ⟨d, Dict.mem_keys.2 ⟨p, hd⟩, rfl⟩)

theorem remaining_none (h : s.pairingWindowClients.isEmpty = true) :
    s.pairingWindowRemaining = none := by
  have : s.prune.pairingWindowClients.isEmpty = true := by
    rw [Dict.isEmpty_iff] at h ⊢
    intro k
    unfold prune
    rw [Dict.get?_keep, h k]
    rfl
  unfold pairingWindowRemaining
  rw [if_pos this]

theorem clear_handle :
    s.clearPendingPeersOnWindowClose.pairingWindowHandle = s.pairingWindowHandle := by
  unfold clearPendingPeersOnWindowClose
  rw [foldl_removed]

/-- **What `set_pairing_window` does**: the window is open with a handle; or it was seen open and
closes; or it was seen closed and stays so, with no handle and the rows as they were. -/
theorem setPairingWindow_cases (cfg : PairingSettings) (s : PairingState) (b : Bool) (c : WindowClient) (n : ℕ) :
    let s' := s.setPairingWindow cfg b c n
    (s'.pairingWindowHandle.isSome = true ∧ s'.pendingPeers = s.pendingPeers) ∨
    (s.isPairingWindowOpen = true ∧ s'.pairingWindowHandle = none ∧ Closes s s') ∨
    (s.isPairingWindowOpen = false ∧ s'.pairingWindowHandle = none ∧
      s'.pendingPeers = s.pendingPeers) := by
  unfold setPairingWindow
  extract_lets wasOpen s₁ clients s₂ isOpen s₃ s'
  have hp : s₃.pendingPeers = s.pendingPeers := by simp only [s₃]; split <;> rfl
  have hh : s₃.pairingWindowHandle = s₂.pairingWindowHandle := by simp only [s₃]; split <;> rfl
  have h₂ : s₂.pairingWindowHandle.isSome = isOpen := by
    simp only [isOpen, s₂, reschedulePairingWindowClose, Option.isSome_map, pairingWindowRemaining]
    split <;> simp_all
  cases hi : isOpen with
  | true =>
    left
    simp only [s', hi, not_true, and_false, if_false]
    exact ⟨by rw [hh, h₂, hi], hp⟩
  | false =>
    have hn : s₂.pairingWindowHandle = none := by
      rw [hi] at h₂
      simpa using h₂
    cases hw : wasOpen with
    | true =>
      refine .inr (.inl ⟨hw, ?_, ?_⟩)
      · simp only [s', hw, hi]
        rw [if_pos ⟨trivial, by simp⟩, clear_handle, hh, hn]
      · simp only [s', hw, hi]
        rw [if_pos ⟨trivial, by simp⟩]
        have he : s₂.pairingWindowClients.isEmpty = true := by simpa [isOpen] using hi
        have h₃ : s₃ = s₂.firePairingWindowChanged := by
          simp only [s₃, hw, hi]
          rw [if_pos (.inl (by simp))]
        rw [h₃]
        refine clear_closes rfl rfl ?_
        rw [remaining_none he]
        rfl
    | false =>
      refine .inr (.inr ⟨hw, ?_, ?_⟩)
      · simp only [s', hw]
        rw [if_neg (by simp), hh, hn]
      · simp only [s', hw]
        rw [if_neg (by simp), hp]

theorem deadline_closes : s.onPairingWindowDeadline.pairingWindowHandle = none ∧
    Closes s s.onPairingWindowDeadline := by
  unfold onPairingWindowDeadline
  constructor
  · exact clear_handle
  · refine clear_closes rfl rfl ?_
    rw [remaining_none rfl]
    rfl

theorem recordPairRequest_untouched {q : PairRequest} : Untouched s (s.recordPairRequest cfg q) := by
  have here : Untouched s s := .same rfl rfl rfl
  have pruned : Untouched s s.prune := here.prune
  unfold recordPairRequest
  split
  · unfold rePair
    dsimp only
    split
    · exact .same rfl rfl rfl
    · split <;> exact .same rfl rfl rfl
  · split
    · split
      · unfold autoApproveOrRefuse
        split <;> exact ⟨pruned.handle, pruned.now, pruned.clients⟩
      · unfold recordPending
        dsimp only
        split
        · split <;> exact ⟨pruned.handle, pruned.now, pruned.clients⟩
        · exact ⟨pruned.handle, pruned.now, pruned.clients⟩
    · exact ⟨pruned.handle, pruned.now, pruned.clients⟩

/-- A step that neither sets the window nor runs its handle leaves the window alone. -/
theorem step_untouched (cfg : PairingSettings) (ha : ¬s.SetsWindow a) (hd : a ≠ .deadline) : Untouched s (s.step cfg a) := by
  cases a with
  | dispatch inp =>
    cases inp with
    | pairRequest q =>
      simp only [step, dispatchIntent]
      split
      · exact recordPairRequest_untouched
      · exact .same rfl rfl rfl
    | peerLink d pub => exact .same rfl rfl rfl
    | pairStatus d pub =>
      simp only [step, dispatchIntent, lookupPeerForStatus]
      split
      · split <;> exact .same rfl rfl rfl
      · exact .same rfl rfl rfl
  | approvePeer raw =>
    simp only [step, approvePeer]
    split
    · rename_i h
      split at h
      · cases h
      · split at h
        · split at h <;> cases h
        · cases h; exact .same rfl rfl rfl
    · exact .same rfl rfl rfl
  | removePeer raw =>
    simp only [step, removePeer]
    split
    · rename_i h
      split at h
      · cases h
      · split at h
        · cases h; exact .same rfl rfl rfl
        · split at h
          · cases h; exact .same rfl rfl rfl
          · cases h
    · exact .same rfl rfl rfl
  | setPairingWindow b c => exact absurd trivial ha
  | serve key =>
    simp only [step, serve]
    rw [if_neg (show ¬s.approvedPeers.isEmpty = true from ha)]
    exact .same rfl rfl rfl
  | deadline => exact absurd rfl hd
  | refreshIdentity d i => exact .same rfl rfl rfl
  | resume i =>
    simp only [step]
    split
    · rename_i t ht
      unfold resumeTask
      split
      case h_5 => exact absurd ⟨_, ht⟩ ha
      all_goals exact .same rfl rfl rfl
    · exact .same rfl rfl rfl
  | raise i =>
    simp only [step]
    split
    · unfold raiseTask
      split <;> exact .same rfl rfl rfl
    · exact .same rfl rfl rfl
  | tick dt => exact ⟨rfl, Nat.le_add_right .., fun c t h => h⟩

/-- A step that sets the window does so from a state with the same window and the same rows. -/
theorem setsWindow_step (cfg : PairingSettings) (ha : s.SetsWindow a) :
    ∃ (r : PairingState) (b : Bool) (c : WindowClient) (n : ℕ), s.step cfg a = r.setPairingWindow cfg b c n ∧
    r.isPairingWindowOpen = s.isPairingWindowOpen ∧ r.pendingPeers = s.pendingPeers ∧ r.log = s.log := by
  cases a with
  | setPairingWindow b c => exact ⟨s, b, _, _, rfl, rfl, rfl, rfl⟩
  | serve key =>
    simp only [step, serve]
    rw [if_pos (show s.approvedPeers.isEmpty = true from ha)]
    exact ⟨_, true, _, _, rfl, rfl, rfl, rfl⟩
  | resume i =>
    obtain ⟨wc, ht⟩ := ha
    simp only [step, ht]
    exact ⟨_, false, _, _, rfl, rfl, rfl, rfl⟩
  | _ => exact absurd ha id

/-! ### Punctual runs -/

/-- What a punctual run keeps: an open window has a handle, and so have PENDING rows. -/
structure Windowed (s : PairingState) : Prop where
  handle : s.isPairingWindowOpen = true → s.pairingWindowHandle.isSome = true
  pending : ∀ d p, s.pendingPeers.get? d = some p → s.pairingWindowHandle.isSome = true

theorem closes_congr {r : PairingState} (hp : r.pendingPeers = s.pendingPeers) (hl : r.log = s.log)
    (h : Closes r s') : Closes s s' := by
  unfold Closes at h ⊢
  rwa [hp, hl] at h

theorem clear_untouched : Untouched s s.clearPendingPeersOnWindowClose := by
  unfold clearPendingPeersOnWindowClose
  rw [foldl_removed]
  exact .same rfl rfl rfl

theorem fireChanged_untouched : Untouched s s.firePairingWindowChanged :=
  have h : Untouched s s.prune := (Untouched.same rfl rfl rfl).prune
  ⟨h.handle, h.now, h.clients⟩

theorem Untouched.trans {r : PairingState} (h : Untouched s s') (h' : Untouched s' r) : Untouched s r :=
  ⟨h'.handle.trans h.handle, Nat.le_trans h.now h'.now, fun c t hc => h.clients c t (h'.clients c t hc)⟩

theorem setPairingWindow_open {b : Bool} {c : WindowClient} {n : ℕ} :
    (s.setPairingWindow cfg b c n).isPairingWindowOpen = true →
      (s.setPairingWindow cfg b c n).pairingWindowHandle.isSome = true := by
  unfold setPairingWindow
  extract_lets wasOpen s₁ clients s₂ isOpen s₃
  intro ho
  have h₃ : Untouched s₂ s₃ := by
    simp only [s₃]
    split
    · exact fireChanged_untouched
    · exact .same rfl rfl rfl
  have h' : Untouched s₂ (if wasOpen = true ∧ ¬isOpen = true then s₃.clearPendingPeersOnWindowClose
      else s₃) := by
    split
    · exact h₃.trans clear_untouched
    · exact h₃
  rw [h'.handle]
  obtain ⟨c', t, hc, -⟩ := isOpen_iff.1 (h'.open' ho)
  simp only [s₂, reschedulePairingWindowClose, Option.isSome_map, pairingWindowRemaining] at hc ⊢
  rw [if_neg (by rw [Bool.not_eq_true, Dict.isEmpty_eq_false]; exact ⟨c', t, hc⟩)]
  rfl

theorem deadline_shut : s.onPairingWindowDeadline.isPairingWindowOpen = false := by
  rw [Bool.eq_false_iff]
  intro ho
  unfold onPairingWindowDeadline at ho
  obtain ⟨c, t, hc, -⟩ := isOpen_iff.1 ((fireChanged_untouched.trans clear_untouched).open' ho)
  cases hc

/-- A PENDING row after a step was there before, or the window was open. -/
theorem pending_from {p : StoredPeer} (hd : (s.step cfg a).pendingPeers.get? d = some p) :
    s.pendingPeers.get? d = some p ∨ s.isPairingWindowOpen = true := by
  obtain ⟨W, hm, -⟩ := step_moves cfg s a
  generalize (s.step cfg a).approvedPeers = ap at hm
  generalize (s.step cfg a).pendingPeers = pn at hm hd
  cases hm with
  | record hq => exact .inr hq.windowOpen
  | approve hk hp => exact .inl (Dict.of_get?_erase hd).2
  | reject hk hp => exact .inl (Dict.of_get?_erase hd).2
  | close => cases hd
  | _ => exact .inl hd

/-- **A punctual step keeps the window law**, and takes the handle away only by closing. -/
theorem windowed_step (hc : Punctual cfg s a) (h : Windowed s) : Windowed (s.step cfg a) ∧
    (s.pairingWindowHandle.isSome = true → (s.step cfg a).pairingWindowHandle = none →
      Closes s (s.step cfg a)) := by
  by_cases ha : s.SetsWindow a
  · obtain ⟨r, b, c, n, hs, ho, hp, hl⟩ := setsWindow_step cfg ha
    rw [hs]
    refine ⟨⟨setPairingWindow_open, fun d p hd => ?_⟩, fun hh hn => ?_⟩
    · rcases setPairingWindow_cases cfg r b c n with hk | ⟨-, -, hk⟩ | ⟨hk, -, hk'⟩
      · exact hk.1
      · rw [hk.1] at hd; cases hd
      · -- seen closed: with rows there is a handle, and then the window is open
        rw [hk', hp] at hd
        have := hc ha (h.pending d p hd)
        rw [← ho, hk] at this
        cases this
    · rcases setPairingWindow_cases cfg r b c n with hk | ⟨-, -, hk⟩ | ⟨hk, -, -⟩
      · rw [hn] at hk; cases hk.1
      · exact closes_congr hp hl hk
      · have := hc ha hh
        rw [← ho, hk] at this
        cases this
  by_cases hd : a = .deadline
  · subst hd
    have hstep : s.step cfg .deadline = s ∨ s.step cfg .deadline = s.onPairingWindowDeadline := by
      simp only [step]
      split
      · split
        · exact .inr rfl
        · exact .inl rfl
      · exact .inl rfl
    rcases hstep with hs | hs
    · rw [hs]
      refine ⟨h, fun hh hn => ?_⟩
      rw [hn] at hh
      cases hh
    · rw [hs]
      obtain ⟨hn, hk⟩ := deadline_closes (s := s)
      refine ⟨⟨fun ho => ?_, fun d p hp => ?_⟩, fun _ _ => hk⟩
      · rw [deadline_shut] at ho; cases ho
      · rw [hk.1] at hp; cases hp
  · have hu := step_untouched cfg ha hd
    refine ⟨⟨fun ho => ?_, fun d p hp => ?_⟩, fun hh hn => ?_⟩
    · rw [hu.handle]
      exact h.handle (hu.open' ho)
    · rw [hu.handle]
      rcases pending_from hp with hp | ho
      · exact h.pending d p hp
      · exact h.handle ho
    · rw [hu.handle] at hn
      rw [hn] at hh
      cases hh

theorem windowed_reachable (h : Reaches (step cfg) (Punctual cfg) (start cfg file) s) :
    Windowed s := by
  refine h.invariant ⟨fun ho => ?_, fun d p hp => ?_⟩ fun _ _ hc hw => (windowed_step hc hw).1
  · obtain ⟨c, t, hc, -⟩ := isOpen_iff.1 ho
    cases hc
  · cases hp

/-- The window of `s` has lapsed and its close callback is still scheduled. -/
def Lapsed (s : PairingState) : Prop :=
  s.isPairingWindowOpen = false ∧ s.pairingWindowHandle.isSome = true

/-- A lapsed window stays lapsed until its callback has dropped every row. -/
theorem lapsed_step (hc : Punctual cfg s a) (h : s.Lapsed) :
    (s.step cfg a).Lapsed ∨ (s.step cfg a).pendingPeers = ∅ := by
  by_cases ha : s.SetsWindow a
  · have ho := hc ha h.2
    rw [h.1] at ho
    cases ho
  by_cases hd : a = .deadline
  · subst hd
    simp only [step]
    split
    · split
      · exact .inr deadline_closes.2.1
      · exact .inl h
    · exact .inl h
  · have hu := step_untouched cfg ha hd
    refine .inl ⟨?_, by rw [hu.handle]; exact h.2⟩
    rw [Bool.eq_false_iff]
    intro ho
    have hs := hu.open' ho
    rw [h.1] at hs
    cases hs

/-- Once the window is closed, the rows of a later window are requests made since. -/
theorem later_window {v : PairingState} (hv : Reaches (step cfg) (Punctual cfg) (start cfg file) v)
    (hshut : v.isPairingWindowOpen = false) (h : Reaches (step cfg) (Punctual cfg) v s) :
    s.Lapsed ∨ ∀ d p, s.pendingPeers.get? d = some p → Stems cfg (Punctual cfg) v s d p := by
  refine h.invariant' (I := fun s => s.Lapsed ∨ ∀ d p, s.pendingPeers.get? d = some p →
    Stems cfg (Punctual cfg) v s d p) ?_ ?_
  · by_cases hh : v.pairingWindowHandle.isSome = true
    · exact .inl ⟨hshut, hh⟩
    · exact .inr fun d p hp => absurd ((windowed_reachable hv).pending d p hp) hh
  · rintro r a hr hc (hl | hs)
    · rcases lapsed_step hc hl with hl | he
      · exact .inl hl
      · exact .inr fun d p hp => by rw [he] at hp; cases hp
    · exact .inr fun d p hp => stems_step hr hc hs hp

/-- **Pending requests die with their window**, in a state `s` of a run from `r₀`. -/
structure WindowLaw (cfg : PairingSettings) (ok : PairingState → PairAction → Prop)
    (r₀ s : PairingState) : Prop where
  pending : ∀ d p, s.pendingPeers.get? d = some p →
    s.isPairingWindowOpen = true ∨ s.pairingWindowHandle.isSome = true
  lapses : ∀ a, ok s a → s.isPairingWindowOpen = true → (s.step cfg a).isPairingWindowOpen = false →
    (s.step cfg a).pairingWindowHandle.isSome = true ∨ Closes s (s.step cfg a)
  closes : ∀ a, ok s a → s.pairingWindowHandle.isSome = true →
    (s.step cfg a).pairingWindowHandle = none → Closes s (s.step cfg a)
  later : ∀ v, Reaches (step cfg) ok r₀ v → v.isPairingWindowOpen = false → Reaches (step cfg) ok v s →
    s.isPairingWindowOpen = true → ∀ d p, s.pendingPeers.get? d = some p → Stems cfg ok v s d p

theorem pending_dies (h : Reaches (step cfg) (Punctual cfg) (start cfg file) s) :
    WindowLaw cfg (Punctual cfg) (start cfg file) s := by
  have hw := windowed_reachable h
  have closes : ∀ a, Punctual cfg s a → s.pairingWindowHandle.isSome = true →
      (s.step cfg a).pairingWindowHandle = none → Closes s (s.step cfg a) :=
    fun a hc => (windowed_step hc hw).2
  exact {
    pending := fun d p hp => .inr (hw.pending d p hp)
    lapses := by
      intro a hc ho _
      by_cases hh : (s.step cfg a).pairingWindowHandle.isSome = true
      · exact .inl hh
      · exact .inr (closes a hc (hw.handle ho) (by simpa using hh))
    closes := closes
    later := by
      intro v hv hshut hvs ho
      rcases later_window hv hshut hvs with hl | hs
      · rw [hl.1] at ho
        cases ho
      · exact hs }

/-- The window lapses with a row in it; before its callback runs, the admin leaves the screen. -/
def lateClose : List PairAction :=
  [.setPairingWindow true 0, .dispatch (.pairRequest someRequest), .tick 301,
    .setPairingWindow false 0]

/-- The row outlives its window: the window is closed, and nothing is scheduled to drop it. -/
theorem pending_outlives : ¬∀ (cfg : PairingSettings) (file : PeersFile cfg.lib) (s : PairingState),
    Reaches (step cfg) any (start cfg file) s → WindowLaw cfg any (start cfg file) s := by
  intro h
  have hp := (h someSettings (.none _) _
    (Reaches.foldl lateClose (start someSettings (.none _)))).pending "kitchen"
      (someRequest.handshake someLibrary).storedPeer (by decide)
  revert hp
  decide

/-- The same, with the callback run in time. -/
def onTimeClose : List PairAction :=
  [.setPairingWindow true 0, .dispatch (.pairRequest someRequest), .tick 301, .deadline,
    .setPairingWindow true 0]

/-- A step that sets no window, or finds it open or without a handle. -/
def punctualTest (s : PairingState) (a : PairAction) : Bool :=
  (match a with
    | .setPairingWindow _ _ | .serve _ | .resume _ => false
    | _ => true) || !s.pairingWindowHandle.isSome || s.isPairingWindowOpen

theorem punctual_of_test (h : punctualTest s a = true) : Punctual cfg s a := by
  intro ha hh
  rcases a with _ | _ | _ | ⟨b, c⟩ | key | _ | _ | i | _ | _
  case setPairingWindow | serve | resume => simpa [punctualTest, hh] using h
  all_goals exact absurd ha id

theorem pending_dies_onTimeClose :
    WindowLaw someSettings (Punctual someSettings) (start someSettings (.none _))
      (onTimeClose.foldl (step someSettings) (start someSettings (.none _))) :=
  pending_dies (Reaches.foldl_checks (fun _ _ => punctual_of_test) onTimeClose _ (by decide))

end PairingState

end DeviceBuilder
