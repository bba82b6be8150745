import DeviceBuilder.RemoteBuild.FrameFanout
import DeviceBuilder.Lib.DictOrder

/-!
# The order of the broadcasts

Every unfinished send of a status waits at one session with others ahead of it.
Two broadcasts stay apart while the newer has still to pass where the older one
waits, so that neither reaches a session before an older one does.

* `Ordered`: the invariant; `Limbo` is the part of it a running broadcast owes.
* `Ordered.push`, `Ordered.broadcast`: a status joins a channel, or walks on.
* `Echo`, `Ordered.echo`: steps that queue no status.
* `Ordered.transition`, `Ordered.sendInitial`, `Ordered.write`: the steps that do.
-/

namespace DeviceBuilder

/-- The number and the value of a status. -/
def WireFrame.status? : WireFrame → Option (ℕ × QueueStatus)
  | .queueStatus stamp status _ => some (stamp, status)
  | _ => none

namespace FrameWorld

variable {w w' : FrameWorld} {s a b x : SessionId} {k i : ℕ} {R L : List SessionId} {m : WireFrame}
  {st : QueueStatus} {j : JobId}

/-! ### Vocabulary -/

/-- What has been written or waits on the channel of `s`. -/
def stream (w : FrameWorld) (s : SessionId) : List WireFrame :=
  (w.channels s).sent ++ (w.channels s).waiting

/-- The statuses of a channel. -/
def track (w : FrameWorld) (s : SessionId) : List (ℕ × QueueStatus) :=
  (w.stream s).filterMap WireFrame.status?

def isClosing (w : FrameWorld) (s : SessionId) : Bool := (w.channels s).closing

/-- The sessions of a list that still take frames. -/
def ahead (w : FrameWorld) (R : List SessionId) : List SessionId :=
  R.filter fun s => !w.isClosing s

/-- The unfinished sends of a status: the compile, where it waits, and what is ahead of it. -/
def walks (w : FrameWorld) : List (ℕ × SessionId × List SessionId) :=
  (List.range w.opened).flatMap fun a => (w.channels a).waiting.filterMap fun
    | .queueStatus stamp _ rest => some (stamp, a, rest)
    | _ => none

/-- A send of the `k`-th status waits at `a`. -/
def Walk (w : FrameWorld) (k : ℕ) (a : SessionId) (R : List SessionId) : Prop :=
  ∃ st, WireFrame.queueStatus k st R ∈ (w.channels a).waiting

/-- The sessions a new broadcast visits. -/
def registered (w : FrameWorld) : List SessionId := w.peerLinkSessions.values

/-! ### The order of the broadcasts -/

/-- Broadcasts stay apart: none has reached a session an older one has ahead, and what an older one
has to wait for before a session is still ahead of the newer. -/
structure Ordered (w : FrameWorld) : Prop where
  sorted : ∀ s, (w.track s).Pairwise fun p q => p.1 < q.1
  below : ∀ s, ∀ p ∈ w.track s, p.1 < w.compiled
  reached : ∀ {k a R}, w.Walk k a R → ∀ s ∈ w.ahead R, ∀ p ∈ w.track s, p.1 < k
  behind : ∀ {k a R i b L}, w.Walk k a R → w.Walk i b L → k < i →
    L = [] ∨ w.ahead R = [] ∨ (a :: w.ahead R).Sublist (b :: L)
  alone : ∀ {k a R b L}, w.Walk k a R → w.Walk k b L → a = b
  nodup : ∀ {k a R}, w.Walk k a R → (a :: R).Nodup
  opened : ∀ {k a R}, w.Walk k a R → ∀ s ∈ a :: R, s < w.opened
  order : ∀ {k a R}, w.Walk k a R → ((a :: R).filter (· ∈ w.registered)).Sublist w.registered
  registered : w.registered.Nodup
  known : ∀ s ∈ w.registered, s < w.opened
  fresh : ∀ s, w.opened ≤ s → w.channels s = {}

/-- The rest of a walk: a status whose task runs, with the sessions ahead of it. -/
structure Limbo (w : FrameWorld) (k : ℕ) (L : List SessionId) : Prop where
  lt : k < w.compiled
  reached : ∀ s ∈ w.ahead L, ∀ p ∈ w.track s, p.1 < k
  older : ∀ {i a R}, w.Walk i a R → i < k →
    L = [] ∨ w.ahead R = [] ∨ ((a :: w.ahead R).Sublist L ∧ a ∉ L.takeWhile w.isClosing)
  newer : ∀ {i a R}, w.Walk i a R → k < i → R = [] ∨ (w.ahead L).Sublist (a :: R)
  only : ∀ {a R}, ¬w.Walk k a R
  nodup : L.Nodup
  opened : ∀ s ∈ L, s < w.opened
  order : (L.filter (· ∈ w.registered)).Sublist w.registered

theorem ahead_cons_of_closing (h : w.isClosing s = true) : w.ahead (s :: R) = w.ahead R := by
  unfold ahead
  rw [List.filter_cons_of_neg (by rw [h]; decide)]

theorem ahead_cons_of_open (h : w.isClosing s = false) : w.ahead (s :: R) = s :: w.ahead R := by
  unfold ahead
  rw [List.filter_cons_of_pos (by rw [h]; rfl)]

theorem ahead_sublist : (w.ahead R).Sublist R := List.filter_sublist

/-! ### Queueing one frame -/

section Push

@[simp] theorem push_opened : (w.push s m).opened = w.opened := rfl

@[simp] theorem push_compiled : (w.push s m).compiled = w.compiled := rfl

@[simp] theorem push_registered : (w.push s m).registered = w.registered := rfl

theorem push_channels (x : SessionId) : (w.push s m).channels x =
    if x = s then { w.channels s with waiting := (w.channels s).waiting ++ [m] }
    else w.channels x := by
  exact Function.update_apply _ _ _ _

@[simp] theorem push_isClosing : (w.push s m).isClosing x = w.isClosing x := by
  unfold isClosing
  rw [push_channels]
  split_ifs with h
  · rw [h]
  · rfl

@[simp] theorem push_ahead : (w.push s m).ahead R = w.ahead R := by
  unfold ahead
  congr 1
  funext x
  rw [push_isClosing]

theorem push_stream (x : SessionId) :
    (w.push s m).stream x = w.stream x ++ if x = s then [m] else [] := by
  unfold stream
  rw [push_channels]
  split_ifs with h
  · rw [h, List.append_assoc]
  · rw [List.append_nil]

theorem push_track (x : SessionId) :
    (w.push s m).track x = w.track x ++ if x = s then m.status?.toList else [] := by
  unfold track
  rw [push_stream, List.filterMap_append]
  split_ifs with h
  · cases hm : m.status? <;> simp [hm]
  · rfl

theorem push_walk : (w.push s m).Walk k a R ↔
    w.Walk k a R ∨ a = s ∧ ∃ st, m = .queueStatus k st R := by
  unfold Walk
  rw [push_channels]
  split_ifs with h
  · subst h
    simp only [List.mem_append, List.mem_singleton, true_and, exists_or]
    constructor
    · rintro (h | ⟨st, h⟩)
      exacts [Or.inl h, Or.inr ⟨st, h.symm⟩]
    · rintro (h | ⟨st, h⟩)
      exacts [Or.inl h, Or.inr ⟨st, h.symm⟩]
  · simp [h]

end Push

/-- **One status joins a channel.** -/
theorem Ordered.push (h : w.Ordered) (hk : k < w.compiled) (hs : ∀ p ∈ w.track s, p.1 < k)
    (hr : ∀ x ∈ w.ahead R, x ≠ s ∧ ∀ p ∈ w.track x, p.1 < k)
    (older : ∀ {i a L}, w.Walk i a L → i < k →
      s ∉ w.ahead L ∧ (R = [] ∨ w.ahead L = [] ∨ (a :: w.ahead L).Sublist (s :: R)))
    (newer : ∀ {i a L}, w.Walk i a L → k < i →
      L = [] ∨ w.ahead R = [] ∨ (s :: w.ahead R).Sublist (a :: L))
    (only : ∀ {a L}, ¬w.Walk k a L) (hn : (s :: R).Nodup) (ho : ∀ x ∈ s :: R, x < w.opened)
    (hord : ((s :: R).filter (· ∈ w.registered)).Sublist w.registered) :
    (w.push s (.queueStatus k st R)).Ordered where
  sorted x := by
    rw [push_track]
    split_ifs with hx
    · subst hx
      refine List.pairwise_append.2 ⟨h.sorted _, List.pairwise_singleton _ _, fun p hp q hq => ?_⟩
      rw [List.mem_singleton.1 hq]
      exact hs p hp
    · rw [List.append_nil]
      exact h.sorted x
  below x p hp := by
    rw [push_track, List.mem_append] at hp
    rcases hp with hp | hp
    · exact h.below x p hp
    · split_ifs at hp
      · rw [List.mem_singleton.1 hp]
        exact hk
      · cases hp
  reached {i a L} hw x hx p hp := by
    rw [push_ahead] at hx
    rw [push_track, List.mem_append] at hp
    rcases push_walk.1 hw with hold | ⟨rfl, st', he⟩
    · rcases hp with hp | hp
      · exact h.reached hold x hx p hp
      · split_ifs at hp with hxs
        · subst hxs
          rw [List.mem_singleton.1 hp]
          rcases Nat.lt_trichotomy i k with hik | rfl | hik
          · exact absurd hx (older hold hik).1
          · exact absurd hold only
          · exact hik
        · cases hp
    · cases he
      obtain ⟨hne, hlt⟩ := hr x hx
      rw [if_neg hne] at hp
      rcases hp with hp | hp
      · exact hlt p hp
      · cases hp
  behind {i a L i' b L'} hw hw' hlt := by
    rw [push_ahead]
    rcases push_walk.1 hw with hold | ⟨rfl, st', he⟩
    · rcases push_walk.1 hw' with hold' | ⟨rfl, st', he⟩
      · exact h.behind hold hold' hlt
      · cases he
        exact (older hold hlt).2
    · cases he
      rcases push_walk.1 hw' with hold' | ⟨rfl, st', he⟩
      · exact newer hold' hlt
      · cases he
        exact absurd hlt (Nat.lt_irrefl _)
  alone {i a L b L'} hw hw' := by
    rcases push_walk.1 hw with hold | ⟨rfl, st', he⟩
    · rcases push_walk.1 hw' with hold' | ⟨rfl, st', he⟩
      · exact h.alone hold hold'
      · cases he
        exact absurd hold only
    · cases he
      rcases push_walk.1 hw' with hold' | ⟨rfl, st', he⟩
      · exact absurd hold' only
      · rfl
  nodup hw := by
    rcases push_walk.1 hw with hold | ⟨rfl, st', he⟩
    · exact h.nodup hold
    · cases he
      exact hn
  opened hw := by
    rcases push_walk.1 hw with hold | ⟨rfl, st', he⟩
    · exact h.opened hold
    · cases he
      exact ho
  order hw := by
    rcases push_walk.1 hw with hold | ⟨rfl, st', he⟩
    · exact h.order hold
    · cases he
      exact hord
  registered := h.registered
  known := h.known
  fresh x hx := by
    have hne : x ≠ s := by
      rintro rfl
      exact absurd (ho x List.mem_cons_self) (Nat.not_lt.2 hx)
    rw [push_channels, if_neg hne]
    exact h.fresh x hx

/-! ### A broadcast -/

theorem Limbo.tail (h : w.Limbo k (s :: L)) (hs : w.isClosing s = true) : w.Limbo k L where
  lt := h.lt
  reached x hx := h.reached x (by rwa [ahead_cons_of_closing hs])
  older {i a R} hw hlt := by
    rcases h.older hw hlt with hL | hR | ⟨hsub, hskip⟩
    · cases hL
    · exact Or.inr (Or.inl hR)
    · rw [List.takeWhile_cons_of_pos hs, List.mem_cons, not_or] at hskip
      refine Or.inr (Or.inr ⟨?_, hskip.2⟩)
      cases hsub with
      | cons _ hsub => exact hsub
      | cons_cons _ _ => exact absurd rfl hskip.1
  newer {i a R} hw hlt := by
    have := h.newer hw hlt
    rwa [ahead_cons_of_closing hs] at this
  only := h.only
  nodup := h.nodup.of_cons
  opened x hx := h.opened x (List.mem_cons_of_mem _ hx)
  order := by
    have := h.order
    by_cases hm : s ∈ w.registered
    · rw [List.filter_cons_of_pos (by simpa using hm)] at this
      exact (List.sublist_cons_self _ _).trans this
    · rwa [List.filter_cons_of_neg (by simpa using hm)] at this

/-- **A broadcast keeps its place among the others.** -/
theorem Ordered.broadcast (h : w.Ordered) (hl : w.Limbo k L) : (w.broadcast k st L).Ordered := by
  induction L with
  | nil => exact h
  | cons s L ih =>
    unfold FrameWorld.broadcast
    split_ifs with hs
    · exact ih (hl.tail hs)
    have hc : w.isClosing s = false := by simpa [isClosing] using hs
    have hahead := ahead_cons_of_open (R := L) hc
    have hn := List.nodup_cons.1 hl.nodup
    refine h.push hl.lt (hl.reached s (hahead ▸ List.mem_cons_self)) ?_ ?_ ?_ hl.only hl.nodup
      hl.opened hl.order
    · intro x hx
      refine ⟨?_, hl.reached x (hahead ▸ List.mem_cons_of_mem _ hx)⟩
      rintro rfl
      exact hn.1 (ahead_sublist.subset hx)
    · intro i a R hw hlt
      rcases hl.older hw hlt with hL | hR | ⟨hsub, -⟩
      · cases hL
      · rw [hR]
        exact ⟨List.not_mem_nil, Or.inr (Or.inl rfl)⟩
      · refine ⟨fun hm => ?_, Or.inr (Or.inr hsub)⟩
        cases hsub with
        | cons _ hsub => exact hn.1 (hsub.subset (List.mem_cons_of_mem _ hm))
        | cons_cons _ hsub => exact hn.1 (hsub.subset hm)
    · intro i a R hw hlt
      rcases hl.newer hw hlt with hR | hsub
      · exact Or.inl hR
      · rw [hahead] at hsub
        exact Or.inr (Or.inr hsub)

/-! ### Steps that queue no status -/

def isStatus (m : WireFrame) : Bool := m.status?.isSome

/-- No status is queued or written, and no channel reopens. -/
structure Echo (w w' : FrameWorld) : Prop where
  sent : ∀ s, (w'.channels s).sent.filter isStatus = (w.channels s).sent.filter isStatus
  waiting : ∀ s, (w'.channels s).waiting.filter isStatus = (w.channels s).waiting.filter isStatus
  closing : ∀ s, w.isClosing s = true → w'.isClosing s = true
  wsClosed : ∀ s, (w.channels s).wsClosed = true → (w'.channels s).wsClosed = true
  fresh : ∀ s, w.opened ≤ s → w'.channels s = w.channels s
  compiled : w'.compiled = w.compiled
  opened : w'.opened = w.opened
  peerLinkSessions : w'.peerLinkSessions = w.peerLinkSessions
  registering : w'.registering = w.registering

theorem Echo.refl (w : FrameWorld) : w.Echo w :=
  ⟨fun _ => rfl, fun _ => rfl, fun _ h => h, fun _ h => h, fun _ _ => rfl, rfl, rfl, rfl, rfl⟩

/-- The firmware's own state is not the sessions'. -/
theorem Echo.of_channels (hc : w'.channels = w.channels) (hk : w'.compiled = w.compiled)
    (ho : w'.opened = w.opened) (hp : w'.peerLinkSessions = w.peerLinkSessions)
    (hr : w'.registering = w.registering) : w.Echo w' := by
  have hi : ∀ s, w'.isClosing s = w.isClosing s := fun s => by rw [isClosing, hc, isClosing]
  exact ⟨fun s => by rw [hc], fun s => by rw [hc], fun s h => (hi s).trans h,
    fun s h => by rwa [hc], fun s _ => by rw [hc], hk, ho, hp, hr⟩

theorem Echo.trans {u : FrameWorld} (h : w.Echo w') (h' : w'.Echo u) : w.Echo u where
  sent s := (h'.sent s).trans (h.sent s)
  waiting s := (h'.waiting s).trans (h.waiting s)
  closing s hs := h'.closing s (h.closing s hs)
  wsClosed s hs := h'.wsClosed s (h.wsClosed s hs)
  fresh s hs := (h'.fresh s (h.opened ▸ hs)).trans (h.fresh s hs)
  compiled := h'.compiled.trans h.compiled
  opened := h'.opened.trans h.opened
  peerLinkSessions := h'.peerLinkSessions.trans h.peerLinkSessions
  registering := h'.registering.trans h.registering

theorem filterMap_isStatus (l : List WireFrame) :
    (l.filter isStatus).filterMap WireFrame.status? = l.filterMap WireFrame.status? := by
  induction l with
  | nil => rfl
  | cons m l ih =>
    cases hm : m.status? with
    | none => rw [List.filter_cons_of_neg (by simp [isStatus, hm]), ih, List.filterMap_cons_none hm]
    | some p =>
      rw [List.filter_cons_of_pos (by simp [isStatus, hm]), List.filterMap_cons_some hm, ih,
        List.filterMap_cons_some hm]

theorem mem_isStatus {l : List WireFrame} :
    WireFrame.queueStatus k st R ∈ l.filter isStatus ↔ .queueStatus k st R ∈ l := by
  rw [List.mem_filter, and_iff_left (show isStatus (.queueStatus k st R) = true from rfl)]

theorem Echo.track (h : w.Echo w') (s : SessionId) : w'.track s = w.track s := by
  unfold FrameWorld.track FrameWorld.stream
  rw [List.filterMap_append, List.filterMap_append, ← filterMap_isStatus (w'.channels s).sent,
    h.sent, ← filterMap_isStatus (w'.channels s).waiting, h.waiting, filterMap_isStatus,
    filterMap_isStatus]

theorem Echo.walk (h : w.Echo w') : w'.Walk k a R ↔ w.Walk k a R := by
  unfold Walk
  simp only [← mem_isStatus (l := (w'.channels a).waiting), h.waiting, mem_isStatus]

theorem Echo.ahead (h : w.Echo w') (R : List SessionId) : (w'.ahead R).Sublist (w.ahead R) := by
  refine List.monotone_filter_right R fun s hs => ?_
  cases hc : w.isClosing s with
  | false => rfl
  | true => rw [h.closing s hc] at hs; cases hs

theorem Echo.registered (h : w.Echo w') : w'.registered = w.registered := by
  unfold FrameWorld.registered
  rw [h.peerLinkSessions]

theorem Ordered.echo (h : w.Ordered) (he : w.Echo w') : w'.Ordered where
  sorted s := by
    rw [he.track]
    exact h.sorted s
  below s p hp := by
    rw [he.track] at hp
    rw [he.compiled]
    exact h.below s p hp
  reached hw s hs p hp := by
    rw [he.track] at hp
    exact h.reached (he.walk.1 hw) s ((he.ahead _).subset hs) p hp
  behind {k a R i b L} hw hw' hlt := by
    rcases h.behind (he.walk.1 hw) (he.walk.1 hw') hlt with hL | hR | hsub
    · exact Or.inl hL
    · refine Or.inr (Or.inl (List.sublist_nil.1 ?_))
      rw [← hR]
      exact he.ahead R
    · exact Or.inr (Or.inr (((he.ahead R).cons_cons a).trans hsub))
  alone hw hw' := h.alone (he.walk.1 hw) (he.walk.1 hw')
  nodup hw := h.nodup (he.walk.1 hw)
  opened hw s hs := by
    rw [he.opened]
    exact h.opened (he.walk.1 hw) s hs
  order hw := by
    rw [he.registered]
    exact h.order (he.walk.1 hw)
  registered := by
    rw [he.registered]
    exact h.registered
  known s hs := by
    rw [he.registered] at hs
    rw [he.opened]
    exact h.known s hs
  fresh s hs := by
    rw [he.opened] at hs
    rw [he.fresh s hs]
    exact h.fresh s hs

/-- A change to the channel of an open session that keeps its statuses. -/
theorem echo_setChannel {f : SendChannel → SendChannel} (hs : s < w.opened)
    (h : ∀ c, (f c).sent.filter isStatus = c.sent.filter isStatus ∧
      (f c).waiting.filter isStatus = c.waiting.filter isStatus ∧
      (c.closing = true → (f c).closing = true) ∧ (c.wsClosed = true → (f c).wsClosed = true)) :
    w.Echo (w.setChannel s f) := by
  have hch : ∀ x, (w.setChannel s f).channels x =
      if x = s then f (w.channels s) else w.channels x := fun x => Function.update_apply _ _ _ _
  have hc := h (w.channels s)
  refine ⟨fun x => ?_, fun x => ?_, fun x hx => ?_, fun x hx => ?_, fun x hx => ?_, rfl, rfl, rfl,
    rfl⟩
  · rw [hch]
    split_ifs with h
    exacts [h ▸ hc.1, rfl]
  · rw [hch]
    split_ifs with h
    exacts [h ▸ hc.2.1, rfl]
  · unfold isClosing at hx ⊢
    rw [hch]
    split_ifs with h
    exacts [hc.2.2.1 (h ▸ hx), hx]
  · rw [hch]
    split_ifs with h
    exacts [hc.2.2.2 (h ▸ hx), hx]
  · rw [hch, if_neg]
    rintro rfl
    exact absurd hs (Nat.not_lt.2 hx)

theorem filter_append_other {l : List WireFrame} (hm : isStatus m = false) :
    (l ++ [m]).filter isStatus = l.filter isStatus := by
  rw [List.filter_append, List.filter_cons_of_neg (by rw [hm]; decide), List.filter_nil,
    List.append_nil]

theorem echo_sendAppFrame (hs : s < w.opened) (hm : isStatus m = false) :
    w.Echo (w.sendAppFrame s m) := by
  unfold sendAppFrame
  split_ifs
  · exact Echo.refl w
  · exact echo_setChannel hs fun c => ⟨rfl, filter_append_other hm, id, id⟩

theorem echo_terminate (hs : s < w.opened) : w.Echo (w.terminate s) := by
  unfold terminate
  split_ifs
  · exact Echo.refl w
  · exact echo_setChannel hs fun c => ⟨rfl, filter_append_other rfl, fun _ => rfl, id⟩

section Fire

variable (known : ∀ s ∈ w.registered, s < w.opened) (e : JobEvent)
include known

theorem echo_dispatch (j : JobId) (peer : DashboardId) (remoteJobId : String) :
    w.Echo (w.dispatch j peer remoteJobId e) := by
  unfold dispatch
  cases hp : w.peerLinkSessions.get? peer with
  | none => exact Echo.refl w
  | some s => exact echo_sendAppFrame (known s (Dict.mem_values.2 ⟨peer, hp⟩)) rfl

theorem echo_onQueued (j : JobId) (job : LaneJob) : w.Echo (w.onQueued j job) := by
  unfold onQueued
  split_ifs
  · exact Echo.refl w
  · refine Echo.trans ?_ (echo_dispatch ?_ _ _ _ _)
    · exact Echo.of_channels rfl rfl rfl rfl rfl
    · exact known

theorem echo_onEvent (j : JobId) : w.Echo (w.onEvent j e) := by
  have hw : w.Echo (if e.isTerminal then { w with remoteJobs := w.remoteJobs.erase j } else w) := by
    split_ifs
    · exact Echo.of_channels rfl rfl rfl rfl rfl
    · exact Echo.refl w
  unfold onEvent
  dsimp only
  cases w.remoteJobs.get? j with
  | none => exact hw
  | some p =>
    refine hw.trans (echo_dispatch (fun s hs => ?_) _ _ _ _)
    rw [hw.opened]
    exact known s (hw.registered ▸ hs)

theorem echo_fire (j : JobId) : w.Echo (w.fire j e) := by
  refine Echo.trans ?_ (echo_onEvent ?_ e j)
  · exact Echo.of_channels rfl rfl rfl rfl rfl
  · exact known

end Fire

/-! ### The registry -/

/-- `w` with a session of `d` in the registry. -/
def installed (w : FrameWorld) (d : DashboardId) : FrameWorld := { w with
  channels := Function.update w.channels w.opened { dashboardId := d }
  opened := w.opened + 1
  peerLinkSessions := w.peerLinkSessions.set d w.opened }

/-- A registered session gets its initial status now, or after the superseded one's `terminate`. -/
theorem register_cases (w : FrameWorld) (d : DashboardId) :
    w.registerPeerLinkSession d = (w.installed d).sendInitialQueueStatus w.opened ∨
    ∃ x, w.peerLinkSessions.get? d = some x ∧ w.registerPeerLinkSession d =
      { (w.installed d).terminate x with registering := w.registering ++ [(w.opened, x)] } := by
  unfold registerPeerLinkSession
  dsimp only
  cases hx : w.peerLinkSessions.get? d with
  | none => exact Or.inl rfl
  | some x =>
    dsimp only
    split_ifs
    · exact Or.inl rfl
    · exact Or.inr ⟨x, rfl, rfl⟩

/-- A session joins the registry, in the place of the one it supersedes or last. -/
theorem Ordered.install (h : w.Ordered) (d : DashboardId) : ({ w with
    channels := Function.update w.channels w.opened { dashboardId := d }
    opened := w.opened + 1
    peerLinkSessions := w.peerLinkSessions.set d w.opened } : FrameWorld).Ordered := by
  set u : FrameWorld := { w with
    channels := Function.update w.channels w.opened { dashboardId := d }
    opened := w.opened + 1
    peerLinkSessions := w.peerLinkSessions.set d w.opened } with hu
  have hnew := h.fresh w.opened (Nat.le_refl _)
  have hch : ∀ x, (u.channels x).sent = (w.channels x).sent ∧
      (u.channels x).waiting = (w.channels x).waiting ∧ u.isClosing x = w.isClosing x := by
    intro x
    unfold isClosing
    rw [hu]
    dsimp only
    rw [Function.update_apply]
    split_ifs with hx
    · rw [hx, hnew]
      exact ⟨rfl, rfl, rfl⟩
    · exact ⟨rfl, rfl, rfl⟩
  have htrack : ∀ x, u.track x = w.track x := fun x => by
    unfold track stream
    rw [(hch x).1, (hch x).2.1]
  have hwalk : ∀ {k a R}, u.Walk k a R → w.Walk k a R := fun {k a R} hw => by
    unfold Walk at hw ⊢
    rwa [(hch a).2.1] at hw
  have hahead : ∀ R, u.ahead R = w.ahead R := fun R => by
    unfold ahead
    congr 1
    funext x
    rw [(hch x).2.2]
  have hmem : ∀ {x}, x ∈ u.registered → x = w.opened ∨ x ∈ (w.peerLinkSessions.erase d).values :=
    Dict.mem_values_set
  have herase : ∀ {x}, x ∈ (w.peerLinkSessions.erase d).values → x < w.opened := fun hx =>
    h.known _ (Dict.values_erase_sublist.subset hx)
  refine ⟨fun x => ?_, fun x p hp => ?_, fun hw x hx p hp => ?_, fun hw hw' hlt => ?_,
    fun hw hw' => h.alone (hwalk hw) (hwalk hw'), fun hw => h.nodup (hwalk hw),
    fun hw x hx => Nat.lt_succ_of_lt (h.opened (hwalk hw) x hx), fun {k a R} hw => ?_, ?_,
    fun x hx => ?_, fun x hx => ?_⟩
  · rw [htrack]
    exact h.sorted x
  · rw [htrack] at hp
    exact h.below x p hp
  · rw [htrack] at hp
    rw [hahead] at hx
    exact h.reached (hwalk hw) x hx p hp
  · rw [hahead]
    exact h.behind (hwalk hw) (hwalk hw') hlt
  · have hold : ((a :: R).filter (· ∈ (w.peerLinkSessions.erase d).values)).Sublist _ :=
      List.filter_mem_sublist (h.order (hwalk hw)) Dict.values_erase_sublist h.registered
    refine List.Sublist.trans ?_ (hold.trans Dict.values_erase_sublist_set)
    rw [List.filter_congr fun x hx => ?_]
    have hlt := h.opened (hwalk hw) x hx
    refine decide_eq_decide.2 ⟨fun hm => (hmem hm).resolve_left (Nat.ne_of_lt hlt), fun hm => ?_⟩
    exact Dict.values_erase_sublist_set.subset hm
  · exact Dict.nodup_values_set h.registered fun hm => Nat.lt_irrefl _ (h.known _ hm)
  · rcases hmem hx with rfl | hx
    · exact Nat.lt_succ_self _
    · exact Nat.lt_succ_of_lt (herase hx)
  · have hlt : w.opened < x := hx
    show Function.update w.channels w.opened _ x = _
    rw [Function.update_of_ne (Nat.ne_of_gt hlt)]
    exact h.fresh x (Nat.le_of_lt hlt)

theorem Ordered.unregister (h : w.Ordered) (s : SessionId) :
    (w.unregisterPeerLinkSession s).Ordered := by
  unfold unregisterPeerLinkSession
  split_ifs
  · refine ⟨h.sorted, h.below, h.reached, h.behind, h.alone, h.nodup, h.opened, fun hw => ?_,
      h.registered.sublist Dict.values_erase_sublist,
      fun x hx => h.known x (Dict.values_erase_sublist.subset hx), h.fresh⟩
    exact List.filter_mem_sublist (h.order hw) Dict.values_erase_sublist h.registered
  · exact h

/-! ### Compiled statuses -/

theorem Ordered.tick (h : w.Ordered) :
    ({ w with compiled := w.compiled + 1 } : FrameWorld).Ordered :=
  ⟨h.sorted, fun s p hp => Nat.lt_succ_of_lt (h.below s p hp), h.reached, h.behind, h.alone,
    h.nodup, h.opened, h.order, h.registered, h.known, h.fresh⟩

theorem Ordered.walk_lt (h : w.Ordered) (hw : w.Walk k a R) : k < w.compiled := by
  obtain ⟨st, hm⟩ := hw
  exact h.below a (k, st) (List.mem_filterMap.2 ⟨_, List.mem_append_right _ hm, rfl⟩)

/-- A broadcast that starts now overtakes none: it visits the session each older one waits at and
those that one has ahead. -/
def Follows (w : FrameWorld) : Prop :=
  ∀ t ∈ w.walks, w.ahead t.2.2 = [] ∨
    (∀ x ∈ t.2.1 :: w.ahead t.2.2, x ∈ w.registered) ∧ t.2.1 ∉ w.registered.takeWhile w.isClosing

theorem Ordered.mem_walks (h : w.Ordered) (hw : w.Walk k a R) : (k, a, R) ∈ w.walks := by
  unfold walks
  rw [List.mem_flatMap]
  obtain ⟨st, hm⟩ := id hw
  refine ⟨a, List.mem_range.2 (h.opened hw a List.mem_cons_self), ?_⟩
  exact List.mem_filterMap.2 ⟨_, hm, rfl⟩

theorem Ordered.transition (h : w.Ordered) (hf : w.Follows) :
    w.onFirmwareQueueTransition.Ordered := by
  refine h.tick.broadcast ⟨Nat.lt_succ_self _, fun s _ p hp => h.below s p hp,
    fun {i a R} hw _ => ?_, fun {i a R} hw hlt => ?_, fun {a R} hw => ?_, h.registered, h.known, ?_⟩
  · have hw' : w.Walk i a R := hw
    rcases hf _ (h.mem_walks hw') with hR | ⟨hreg, hskip⟩
    · exact Or.inr (Or.inl hR)
    · have hsub : (a :: w.ahead R).Sublist ((a :: R).filter (· ∈ w.registered)) := by
        have hsub : (a :: w.ahead R).Sublist (a :: R) := ahead_sublist.cons_cons a
        have hself : (a :: w.ahead R).filter (· ∈ w.registered) = a :: w.ahead R :=
          List.filter_eq_self.2 fun x hx => decide_eq_true (hreg x hx)
        exact hself ▸ hsub.filter (· ∈ w.registered)
      exact Or.inr (Or.inr ⟨hsub.trans (h.order hw'), hskip⟩)
  · exact absurd hlt (Nat.lt_asymm (h.walk_lt (show w.Walk i a R from hw)))
  · exact Nat.lt_irrefl _ (h.walk_lt (show w.Walk w.compiled a R from hw))
  · exact List.filter_sublist

theorem Ordered.sendInitial (h : w.Ordered) (hs : s < w.opened)
    (hg : ∀ {k a R}, w.Walk k a R → s ∉ w.ahead R) : (w.sendInitialQueueStatus s).Ordered := by
  unfold sendInitialQueueStatus sendAppFrame
  split_ifs
  · exact h.tick
  refine h.tick.push (Nat.lt_succ_self _) (h.below s) (fun x hx => absurd hx List.not_mem_nil)
    (fun {i a R} hw _ => ⟨hg (show w.Walk i a R from hw), Or.inl rfl⟩) (fun {i a R} hw hlt => ?_)
    (fun {a R} hw => ?_) (List.nodup_singleton s) (fun x hx => ?_) ?_
  · exact absurd hlt (Nat.lt_asymm (h.walk_lt (show w.Walk i a R from hw)))
  · exact Nat.lt_irrefl _ (h.walk_lt (show w.Walk w.compiled a R from hw))
  · rw [List.mem_singleton.1 hx]
    exact hs
  · by_cases hm : s ∈ w.registered
    · rw [List.filter_cons_of_pos (by exact decide_eq_true hm)]
      exact List.singleton_sublist.2 hm
    · rw [List.filter_cons_of_neg (by exact fun hd => hm (of_decide_eq_true hd))]
      exact List.nil_sublist _

/-! ### Writing -/

/-- The broadcast at the head of `s` passes by no session an older one waits at. -/
def Passes (w : FrameWorld) (s : SessionId) : Prop :=
  match (w.channels s).waiting with
  | .queueStatus k _ R :: _ =>
    ∀ t ∈ w.walks, t.1 < k → w.ahead t.2.2 ≠ [] → t.2.1 ∉ R.takeWhile w.isClosing
  | _ => True

/-- The holder of the send lock is done with its frame. -/
def served (w : FrameWorld) (s : SessionId) (m : WireFrame) (ms : List WireFrame) : FrameWorld :=
  w.setChannel s (·.serve m ms)

theorem write_status {ms : List WireFrame}
    (hm : (w.channels s).waiting = .queueStatus k st R :: ms) :
    w.write s = (w.served s (.queueStatus k st R) ms).broadcast k st R := by
  unfold write
  rw [hm]
  rfl

theorem write_other {ms : List WireFrame} (hm : (w.channels s).waiting = m :: ms)
    (hn : isStatus m = false) : w.write s = w.served s m ms := by
  unfold write
  rw [hm]
  cases m with
  | queueStatus _ _ _ => cases hn
  | _ => rfl

theorem served_channels (x : SessionId) (m : WireFrame) (ms : List WireFrame) :
    (w.served s m ms).channels x = if x = s then (w.channels s).serve m ms else w.channels x :=
  Function.update_apply _ _ _ _

theorem serve_stream (c : SendChannel) (m : WireFrame) (ms : List WireFrame) :
    ((c.serve m ms).sent ++ (c.serve m ms).waiting).Sublist (c.sent ++ m :: ms) := by
  unfold SendChannel.serve
  split_ifs
  · exact (List.Sublist.refl _).append (List.sublist_cons_self _ _)
  · rw [List.append_assoc]
    exact List.Sublist.refl _

/-- The frames of a channel lose at most the one that could not be written. -/
theorem served_stream {ms : List WireFrame} (hm : (w.channels s).waiting = m :: ms)
    (x : SessionId) : ((w.served s m ms).stream x).Sublist (w.stream x) := by
  unfold stream
  rw [served_channels]
  split_ifs with hx
  · subst hx
    rw [hm]
    exact serve_stream _ m ms
  · exact List.Sublist.refl _

theorem served_isClosing {ms : List WireFrame} (x : SessionId) :
    (w.served s m ms).isClosing x = w.isClosing x := by
  unfold isClosing
  rw [served_channels]
  split_ifs with hx
  · rw [hx]
    rfl
  · rfl

theorem served_ahead {ms : List WireFrame} (R : List SessionId) :
    (w.served s m ms).ahead R = w.ahead R := by
  unfold ahead
  congr 1
  funext x
  rw [served_isClosing]

theorem served_walk {ms : List WireFrame} (hm : (w.channels s).waiting = m :: ms)
    (h : (w.served s m ms).Walk k a R) :
    w.Walk k a R ∧ (a = s → ∃ st, WireFrame.queueStatus k st R ∈ ms) := by
  obtain ⟨st, hst⟩ := h
  rw [served_channels] at hst
  split_ifs at hst with ha
  · subst ha
    exact ⟨⟨st, hm ▸ List.mem_cons_of_mem _ hst⟩, fun _ => ⟨st, hst⟩⟩
  · exact ⟨⟨st, hst⟩, fun e => absurd e ha⟩

theorem Ordered.served {ms : List WireFrame} (h : w.Ordered)
    (hm : (w.channels s).waiting = m :: ms) (hs : s < w.opened) : (w.served s m ms).Ordered := by
  have htrack : ∀ x, ((w.served s m ms).track x).Sublist (w.track x) := fun x =>
    (served_stream hm x).filterMap _
  refine ⟨fun x => (h.sorted x).sublist (htrack x),
    fun x p hp => h.below x p ((htrack x).subset hp), fun hw x hx p hp => ?_, fun hw hw' hlt => ?_,
    fun hw hw' => h.alone (served_walk hm hw).1 (served_walk hm hw').1,
    fun hw => h.nodup (served_walk hm hw).1, fun hw => h.opened (served_walk hm hw).1,
    fun hw => h.order (served_walk hm hw).1, h.registered, h.known, fun x hx => ?_⟩
  · rw [served_ahead] at hx
    exact h.reached (served_walk hm hw).1 x hx p ((htrack x).subset hp)
  · rw [served_ahead]
    exact h.behind (served_walk hm hw).1 (served_walk hm hw').1 hlt
  · rw [served_channels, if_neg (by rintro rfl; exact absurd hs (Nat.not_lt.2 hx))]
    exact h.fresh x hx

/-- In the queue of one channel a later status waits behind. -/
theorem Ordered.lt_of_waiting {ms : List WireFrame} {q : QueueStatus} (h : w.Ordered)
    (hm : (w.channels s).waiting = .queueStatus k st R :: ms)
    (hi : WireFrame.queueStatus i q L ∈ ms) : k < i := by
  have hsort := h.sorted s
  unfold track stream at hsort
  rw [hm, List.filterMap_append, List.filterMap_cons_some
    (show WireFrame.status? (.queueStatus k st R) = some (k, st) from rfl)] at hsort
  have htail := (List.pairwise_append.1 hsort).2.1
  exact (List.pairwise_cons.1 htail).1 (i, q) (List.mem_filterMap.2 ⟨_, hi, rfl⟩)

theorem Ordered.write (h : w.Ordered) (hp : w.Passes s) : (w.write s).Ordered := by
  cases hm : (w.channels s).waiting with
  | nil =>
    unfold FrameWorld.write
    rw [hm]
    exact h
  | cons m ms =>
    have hs : s < w.opened := by
      by_contra hge
      rw [h.fresh s (Nat.not_lt.1 hge)] at hm
      cases hm
    have hserved := h.served hm hs
    cases m with
    | job _ _ _ => exact write_other hm rfl ▸ hserved
    | terminate => exact write_other hm rfl ▸ hserved
    | other => exact write_other hm rfl ▸ hserved
    | queueStatus k st R =>
      rw [write_status hm]
      have hwalk : w.Walk k s R := ⟨st, hm ▸ List.mem_cons_self⟩
      unfold Passes at hp
      rw [hm] at hp
      have hpass : ∀ t ∈ w.walks, t.1 < k → w.ahead t.2.2 ≠ [] →
          t.2.1 ∉ R.takeWhile w.isClosing := hp
      have hclosing : (w.served s (.queueStatus k st R) ms).isClosing = w.isClosing :=
        funext served_isClosing
      refine hserved.broadcast ⟨h.walk_lt hwalk, fun x hx p hpx => ?_, fun {i a L} hw hlt => ?_,
        fun {i a L} hw hlt => ?_, fun {a L} hw => ?_, (h.nodup hwalk).of_cons,
        fun x hx => h.opened hwalk x (List.mem_cons_of_mem _ hx), ?_⟩
      · rw [served_ahead] at hx
        exact h.reached hwalk x hx p (((served_stream hm x).filterMap _).subset hpx)
      · rw [served_ahead, hclosing]
        obtain ⟨hw, hlater⟩ := served_walk hm hw
        -- The older one cannot wait at `s`: it would stand in front there.
        have has : a ≠ s := fun e => by
          obtain ⟨q, hq⟩ := hlater e
          exact Nat.lt_asymm hlt (h.lt_of_waiting hm hq)
        rcases h.behind hw hwalk hlt with hR | hL | hsub
        · exact Or.inl hR
        · exact Or.inr (Or.inl hL)
        · by_cases hL : w.ahead L = []
          · exact Or.inr (Or.inl hL)
          refine Or.inr (Or.inr ⟨?_, hpass _ (h.mem_walks hw) hlt hL⟩)
          cases hsub with
          | cons _ hsub => exact hsub
          | cons_cons _ _ => exact absurd rfl has
      · rw [served_ahead]
        rcases h.behind hwalk (served_walk hm hw).1 hlt with hL | hR | hsub
        · exact Or.inl hL
        · rw [hR]
          exact Or.inr (List.nil_sublist _)
        · exact Or.inr ((List.sublist_cons_self _ _).trans hsub)
      · obtain ⟨hw, hlater⟩ := served_walk hm hw
        obtain ⟨q, hq⟩ := hlater (h.alone hw hwalk)
        exact Nat.lt_irrefl _ (h.lt_of_waiting hm hq)
      · have hord := h.order hwalk
        by_cases hreg : s ∈ w.registered
        · rw [List.filter_cons_of_pos (by exact decide_eq_true hreg)] at hord
          exact (List.sublist_cons_self _ _).trans hord
        · rwa [List.filter_cons_of_neg (by exact fun hd => hreg (of_decide_eq_true hd))] at hord

end FrameWorld

end DeviceBuilder
