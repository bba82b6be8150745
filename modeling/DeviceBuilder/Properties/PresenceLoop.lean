import DeviceBuilder.Helpers.PresenceGatedLoop
import Mathlib.Tactic.SplitIfs

/-!
# A loop that works only for a watcher

The parked loop is released by the first subscriber and runs at a later turn; it
does not look again, so it works for nobody if that subscriber has left by then.
Every other pass is preceded by the look at the count (`starts_step`). No wake is
lost: from a wake on, while a subscriber stays, the loop is never asleep without
being released (`Due`), and its turns lead to a pass.

* `presence_gated`: both laws, for every run.
-/

namespace DeviceBuilder.PresenceLoop

open Runs

variable {w : World} {a e : Action} {as bs : List Action}

/-- **The gate follows the count**, and a loop parks unreleased only without subscribers. -/
structure Gated (w : World) : Prop where
  flag : w.presence.hasSubscriber = w.presence.hasSubscribers
  parked : w.phase = .parked false → w.presence.count = 0

theorem World.hasSubscribers_iff : w.presence.hasSubscribers = true ↔ 0 < w.presence.count := by
  simp [Presence.hasSubscribers]

theorem Gated.begin (h : Gated w) : Gated w.begin := ⟨h.flag, nofun⟩

theorem Gated.stop (h : Gated w) : Gated w.stop := ⟨h.flag, nofun⟩

theorem Gated.top (h : Gated w) : Gated w.top := by
  unfold World.top
  cases hs : w.presence.hasSubscribers with
  | true => exact h.begin
  | false =>
    have hf : w.presence.hasSubscriber = false := h.flag.trans hs
    simp only [hf, Bool.not_false, if_true, Bool.false_eq_true, if_false]
    refine ⟨h.flag, fun _ => ?_⟩
    have hn : ¬ 0 < w.presence.count := by
      rw [← World.hasSubscribers_iff, hs]
      exact Bool.false_ne_true
    show w.presence.count = 0
    omega

theorem Gated.idle (h : Gated w) : Gated w.idle := by
  unfold World.idle
  split_ifs
  · exact h.top
  · exact ⟨h.flag, nofun⟩

theorem Gated.wake (h : Gated w) : Gated w.wake := by
  refine ⟨h.flag, fun hp => h.parked ?_⟩
  unfold World.wake at hp
  dsimp only at hp
  split at hp
  · cases hp
  · exact hp

theorem Gated.enter (h : Gated w) : Gated w.enter := by
  unfold World.enter
  split_ifs with hc
  · apply Gated.wake
    refine ⟨by simp [Presence.enter, Presence.hasSubscribers, hc], fun hp => ?_⟩
    dsimp only at hp
    split at hp
    · cases hp
    · rename_i hne
      exact absurd hp (hne false)
  · refine ⟨?_, fun hp => absurd (h.parked hp) hc⟩
    have hf := h.flag
    simp only [Presence.hasSubscribers] at hf
    simp [Presence.enter, Presence.hasSubscribers, hf, Nat.pos_of_ne_zero hc]

theorem Gated.leave (h : Gated w) : Gated w.leave := by
  unfold World.leave
  split_ifs with hc
  · exact h
  · refine ⟨?_, fun hp => absurd (h.parked hp) hc⟩
    have hf := h.flag
    simp only [Presence.hasSubscribers] at hf
    simp only [Presence.leave, Presence.hasSubscribers, hf, Nat.pos_of_ne_zero hc]
    by_cases h1 : w.presence.count - 1 = 0
    · simp [h1]
    · have h2 : 0 < w.presence.count - 1 := Nat.pos_of_ne_zero h1
      simp [h1, h2]

theorem Gated.step (h : Gated w) (a : Action) : Gated (w.step a) := by
  cases a with
  | enter => exact h.enter
  | leave => exact h.leave
  | wake => exact h.wake
  | cancel => exact h.stop
  | start =>
    unfold World.step
    dsimp only
    split_ifs
    · exact h
    · exact ⟨h.flag, nofun⟩
  | sleepDone =>
    unfold World.step
    dsimp only
    split_ifs
    · exact ⟨h.flag, nofun⟩
    · exact h
  | prepared enabled =>
    unfold World.step
    dsimp only
    split_ifs
    · exact h.top
    · exact h.stop
    · exact h
  | resume =>
    unfold World.step
    dsimp only
    split_ifs
    · exact h.begin
    · exact h
  | workDone =>
    unfold World.step
    dsimp only
    split_ifs
    · exact h.idle
    · exact h
  | workRaise =>
    unfold World.step
    dsimp only
    split_ifs
    · exact h.idle
    · exact h.stop
    · exact h
  | wakeUp =>
    unfold World.step
    dsimp only
    split_ifs
    · exact h.top
    · exact h
  | timeout =>
    unfold World.step
    dsimp only
    split
    · exact h.top
    · exact h

/-! ### Every pass but the resumed one looks first -/

/-- A step that begins a pass with a subscriber, or none at all. -/
inductive Starts (w w' : World) : Prop
  | same (starts : w'.starts = w.starts)
  | watched (starts : w'.starts = w.starts ++ [w.presence.count]) (pos : 0 < w.presence.count)

theorem Starts.top (h : Gated w) : Starts w w.top := by
  unfold World.top
  cases hs : w.presence.hasSubscribers with
  | true => exact .watched rfl (World.hasSubscribers_iff.1 hs)
  | false =>
    have hf : w.presence.hasSubscriber = false := h.flag.trans hs
    simp only [hf, Bool.not_false, if_true, Bool.false_eq_true, if_false]
    exact .same rfl

theorem Starts.idle (h : Gated w) : Starts w w.idle := by
  unfold World.idle
  split_ifs
  · exact .top h
  · exact .same rfl

/-- The condition: the loop, released from its park, finds a subscriber. -/
def Watched (w : World) (a : Action) : Prop :=
  a = .resume → w.phase = .parked true → 0 < w.presence.count

theorem starts_of_ne_resume (h : Gated w) (ha : a ≠ .resume) : Starts w (w.step a) := by
  cases a with
  | resume => exact absurd rfl ha
  | enter =>
    refine .same ?_
    unfold World.step World.enter World.wake
    dsimp only
    split_ifs <;> rfl
  | leave =>
    refine .same ?_
    unfold World.step World.leave
    dsimp only
    split_ifs <;> rfl
  | wake => exact .same rfl
  | cancel => exact .same rfl
  | start =>
    refine .same ?_
    unfold World.step
    dsimp only
    split_ifs <;> rfl
  | sleepDone =>
    refine .same ?_
    unfold World.step
    dsimp only
    split_ifs <;> rfl
  | prepared enabled =>
    unfold World.step
    dsimp only
    split_ifs
    · exact .top h
    · exact .same rfl
    · exact .same rfl
  | workDone =>
    unfold World.step
    dsimp only
    split_ifs
    · exact .idle h
    · exact .same rfl
  | workRaise =>
    unfold World.step
    dsimp only
    split_ifs
    · exact .idle h
    · exact .same rfl
    · exact .same rfl
  | wakeUp =>
    unfold World.step
    dsimp only
    split_ifs
    · exact .top h
    · exact .same rfl
  | timeout =>
    unfold World.step
    dsimp only
    split
    · exact .top h
    · exact .same rfl

/-- Every pass so far began with a subscriber. -/
def Served (w : World) : Prop := ∀ n ∈ w.starts, 0 < n

/-- **One step** begins no unwatched pass exactly when it meets the condition. -/
theorem starts_step (h : Gated w) : Served (w.step a) ↔ Served w ∧ Watched w a := by
  by_cases ha : a = .resume
  · subst ha
    unfold World.step Watched
    dsimp only
    split_ifs with hp
    · simp only [hp, true_imp_iff]
      constructor
      · intro hall
        exact ⟨fun n hn => hall n (List.mem_append_left _ hn),
          hall _ (List.mem_append_right _ List.mem_cons_self)⟩
      · rintro ⟨hall, hpos⟩ n hn
        rcases List.mem_append.1 hn with hm | hm
        · exact hall n hm
        · rw [List.mem_singleton.1 hm]
          exact hpos
    · exact ⟨fun hall => ⟨hall, fun _ hx => absurd hx hp⟩, fun hall => hall.1⟩
  · have hw : Watched w a := fun hx => absurd hx ha
    cases starts_of_ne_resume h ha with
    | same starts =>
      unfold Served
      rw [starts]
      exact ⟨fun hall => ⟨hall, hw⟩, fun hall => hall.1⟩
    | watched starts pos =>
      unfold Served
      rw [starts]
      constructor
      · exact fun hall => ⟨fun n hn => hall n (List.mem_append_left _ hn), hw⟩
      · rintro ⟨hall, _⟩ n hn
        rcases List.mem_append.1 hn with hm | hm
        · exact hall n hm
        · rw [List.mem_singleton.1 hm]
          exact pos

/-- **A whole run** serves only watchers exactly when every step of it meets the condition. -/
theorem served_run (h : Gated w) :
    Served (as.foldl World.step w) ↔ Served w ∧ Along World.step Watched w as := by
  induction as generalizing w with
  | nil => simp [Along]
  | cons a as ih =>
    rw [List.foldl_cons, ih (h.step a), starts_step h, and_assoc]
    rfl

theorem Gated.run (h : Gated w) : Gated (as.foldl World.step w) := by
  induction as generalizing w with
  | nil => exact h
  | cons a as ih => exact ih (h.step a)

/-! ### No wake is lost -/

/-- The loop's own actions. -/
def Action.isLoop : Action → Bool
  | .sleepDone | .prepared _ | .resume | .workDone | .workRaise | .wakeUp => true
  | _ => false

/-- The loop's turn can be taken: what it awaits is done, without the idle interval. -/
def World.turn (w : World) : Action → Bool
  | .sleepDone => w.phase = .bootstrap
  | .prepared _ => w.phase = .preparing
  | .resume => w.phase = .parked true
  | .workDone | .workRaise => w.phase = .working
  | .wakeUp => w.phase = .idling true
  | _ => false

/-- A subscriber stays, the loop keeps running, and the idle interval does not elapse. -/
structure Stays (w : World) (a : Action) : Prop where
  leave : a = .leave → 1 < w.presence.count
  running : a ≠ .cancel ∧ a ≠ .prepared false ∧ (a = .workRaise → w.continueOnError = true)
  interval : a ≠ .timeout
  turn : a.isLoop = true → w.turn a = true

/-- A pass is due: a subscriber is there, and the loop does not sleep unreleased. -/
structure Due (w : World) : Prop where
  subscribed : 0 < w.presence.count
  running : w.phase ≠ .stopped
  parked : w.phase ≠ .parked false
  idling : w.phase ≠ .idling false
  woken : w.phase = .working → w.wakeSet = true

/-- How many turns the loop takes before the one that begins the pass. -/
def World.turnsLeft (w : World) : ℕ := if w.phase = .bootstrap then 1 else 0

theorem Due.ready (h : Due w) : ∃ a, a.isLoop = true ∧ w.turn a = true := by
  have hr := h.running
  cases hp : w.phase with
  | stopped => exact absurd hp hr
  | bootstrap => exact ⟨.sleepDone, rfl, by simp [World.turn, hp]⟩
  | preparing => exact ⟨.prepared true, rfl, by simp [World.turn, hp]⟩
  | working => exact ⟨.workDone, rfl, by simp [World.turn, hp]⟩
  | parked released =>
    cases released with
    | true => exact ⟨.resume, rfl, by simp [World.turn, hp]⟩
    | false => exact absurd hp h.parked
  | idling released =>
    cases released with
    | true => exact ⟨.wakeUp, rfl, by simp [World.turn, hp]⟩
    | false => exact absurd hp h.idling

theorem top_starts (h : 0 < w.presence.count) : w.top.starts ≠ w.starts := by
  unfold World.top
  rw [World.hasSubscribers_iff.2 h]
  simp [World.begin]

theorem Due.idle_starts (h : Due w) (hp : w.phase = .working) : w.idle.starts ≠ w.starts := by
  unfold World.idle
  rw [if_pos (h.woken hp)]
  exact top_starts h.subscribed

/-- A wake with a subscriber there leaves a running loop due. -/
theorem Due.wake (h : Gated w) (hr : w.phase ≠ .stopped) (hc : 0 < w.presence.count) :
    Due w.wake := by
  have hpark : w.phase ≠ .parked false := fun hp => by
    have := h.parked hp
    omega
  unfold World.wake
  cases hp : w.phase with
  | stopped => exact absurd hp hr
  | parked released =>
    rw [hp] at hpark
    exact ⟨hc, nofun, hpark, nofun, nofun⟩
  | bootstrap => exact ⟨hc, nofun, nofun, nofun, nofun⟩
  | preparing => exact ⟨hc, nofun, nofun, nofun, nofun⟩
  | working => exact ⟨hc, nofun, nofun, nofun, fun _ => rfl⟩
  | idling released => exact ⟨hc, nofun, nofun, nofun, nofun⟩

theorem Due.enter_first (hr : w.phase ≠ .stopped) (hc : w.presence.count = 0) : Due w.enter := by
  unfold World.enter World.wake
  rw [if_pos hc]
  cases hp : w.phase with
  | stopped => exact absurd hp hr
  | parked released => exact ⟨Nat.succ_pos _, nofun, nofun, nofun, nofun⟩
  | bootstrap => exact ⟨Nat.succ_pos _, nofun, nofun, nofun, nofun⟩
  | preparing => exact ⟨Nat.succ_pos _, nofun, nofun, nofun, nofun⟩
  | working => exact ⟨Nat.succ_pos _, nofun, nofun, nofun, fun _ => rfl⟩
  | idling released => exact ⟨Nat.succ_pos _, nofun, nofun, nofun, nofun⟩

/-- **One step while a pass is due** leaves it due, or begins it: and the loop's turns are used
up by it. -/
theorem Due.step (h : Due w) (hg : Gated w) (hs : Stays w a)
    (hsame : (w.step a).starts = w.starts) :
    Due (w.step a) ∧ (if a.isLoop then 1 else 0) + (w.step a).turnsLeft ≤ w.turnsLeft := by
  cases a with
  | cancel => exact absurd rfl hs.running.1
  | timeout => exact absurd rfl hs.interval
  | wake =>
    refine ⟨Due.wake hg h.running h.subscribed, ?_⟩
    unfold World.step World.wake World.turnsLeft
    cases hp : w.phase <;> simp [Action.isLoop]
  | enter =>
    have hc : ¬ w.presence.count = 0 := Nat.pos_iff_ne_zero.1 h.subscribed
    unfold World.step World.enter
    dsimp only
    rw [if_neg hc]
    refine ⟨⟨Nat.succ_pos _, h.running, h.parked, h.idling, h.woken⟩, ?_⟩
    simp [Action.isLoop, World.turnsLeft]
  | leave =>
    have hc := hs.leave rfl
    unfold World.step World.leave
    dsimp only
    rw [if_neg (by omega)]
    have hpos : 0 < w.presence.count - 1 := by omega
    refine ⟨⟨hpos, h.running, h.parked, h.idling, h.woken⟩, ?_⟩
    simp [Action.isLoop, World.turnsLeft]
  | start =>
    have hr : w.running = true := by simpa [World.running] using h.running
    unfold World.step
    dsimp only
    rw [if_pos hr]
    exact ⟨h, by simp [Action.isLoop]⟩
  | sleepDone =>
    have hp : w.phase = .bootstrap := by simpa [World.turn] using hs.turn rfl
    unfold World.step
    dsimp only
    rw [if_pos hp]
    refine ⟨⟨h.subscribed, nofun, nofun, nofun, nofun⟩, ?_⟩
    simp [Action.isLoop, World.turnsLeft, hp]
  | prepared enabled =>
    have hp : w.phase = .preparing := by simpa [World.turn] using hs.turn rfl
    have he : enabled = true := by
      cases enabled with
      | true => rfl
      | false => exact absurd rfl hs.running.2.1
    refine absurd hsame ?_
    unfold World.step
    dsimp only
    rw [if_pos hp, if_pos he]
    exact top_starts h.subscribed
  | resume =>
    have hp : w.phase = .parked true := by simpa [World.turn] using hs.turn rfl
    refine absurd hsame ?_
    unfold World.step
    dsimp only
    rw [if_pos hp]
    simp [World.begin]
  | workDone =>
    have hp : w.phase = .working := by simpa [World.turn] using hs.turn rfl
    refine absurd hsame ?_
    unfold World.step
    dsimp only
    rw [if_pos hp]
    exact h.idle_starts hp
  | workRaise =>
    have hp : w.phase = .working := by simpa [World.turn] using hs.turn rfl
    refine absurd hsame ?_
    unfold World.step
    dsimp only
    rw [if_pos hp, if_pos (hs.running.2.2 rfl)]
    exact h.idle_starts hp
  | wakeUp =>
    have hp : w.phase = .idling true := by simpa [World.turn] using hs.turn rfl
    refine absurd hsame ?_
    unfold World.step
    dsimp only
    rw [if_pos hp]
    exact top_starts h.subscribed

theorem starts_mono (h : Gated w) (a : Action) : w.starts <+: (w.step a).starts := by
  by_cases ha : a = .resume
  · subst ha
    unfold World.step
    dsimp only
    split
    · exact List.prefix_append _ _
    · exact List.prefix_refl _
  · cases starts_of_ne_resume h ha with
    | same starts => exact ⟨[], by rw [starts, List.append_nil]⟩
    | watched starts pos =>
      rw [starts]
      exact List.prefix_append _ _

theorem starts_mono_run (h : Gated w) : w.starts <+: (bs.foldl World.step w).starts := by
  induction bs generalizing w with
  | nil => exact List.prefix_refl _
  | cons a bs ih => exact (starts_mono h a).trans (ih (h.step a))

/-- **While a pass is due and has not begun**, it stays due, and few turns are left before it. -/
theorem Due.run (h : Due w) (hg : Gated w) (hs : Along World.step Stays w bs)
    (hsame : (bs.foldl World.step w).starts = w.starts) :
    Due (bs.foldl World.step w) ∧
      bs.countP (·.isLoop) + (bs.foldl World.step w).turnsLeft ≤ w.turnsLeft := by
  induction bs generalizing w with
  | nil => exact ⟨h, by simp⟩
  | cons a bs ih =>
    obtain ⟨ha, has⟩ := hs
    have hone := starts_mono hg a
    have hrest : (w.step a).starts <+: (bs.foldl World.step (w.step a)).starts :=
      starts_mono_run (hg.step a)
    have hstep : (w.step a).starts = w.starts := by
      refine (hone.eq_of_length_le ?_).symm
      have hlen := hrest.length_le
      rw [List.foldl_cons] at hsame
      rwa [hsame] at hlen
    obtain ⟨hdue, hturns⟩ := h.step hg ha hstep
    obtain ⟨hfin, hcount⟩ := ih hdue (hg.step a) has (hsame.trans hstep.symm)
    refine ⟨hfin, ?_⟩
    rw [List.countP_cons, List.foldl_cons]
    omega

theorem Gated.initial (continueOnError : Bool) : Gated { continueOnError } := ⟨rfl, nofun⟩

/-- **The loop works only for a watcher, and never sleeps through one.** In every run, each pass
began with a subscriber exactly when the parked loop, on each turn it was released for, found one;
and after a wake with a subscriber, or a first subscriber, while one stays and the interval does not
elapse, some turn of the loop can be taken, and at most one is taken before the next pass begins. -/
theorem presence_gated (continueOnError : Bool) (as : List Action) :
    let w := as.foldl World.step { continueOnError }
    ((∀ n ∈ w.starts, 0 < n) ↔ Along World.step Watched { continueOnError } as) ∧
    ∀ e, w.running = true →
      (e = .wake ∧ 0 < w.presence.count ∨ e = .enter ∧ w.presence.count = 0) →
      ∀ bs, Along World.step Stays (w.step e) bs →
        let v := bs.foldl World.step (w.step e)
        v.starts = w.starts →
          (∃ a, a.isLoop = true ∧ v.turn a = true) ∧ bs.countP (·.isLoop) ≤ 1 := by
  intro w
  have hg : Gated w := Gated.run (Gated.initial continueOnError)
  constructor
  · have hserved : Served w ↔ _ := served_run (Gated.initial continueOnError)
    unfold Served at hserved
    rw [hserved]
    exact ⟨fun h => h.2, fun h => ⟨nofun, h⟩⟩
  · intro e hr he bs hbs v hsame
    have hrun : w.phase ≠ .stopped := by simpa [World.running] using hr
    have hdue : Due (w.step e) ∧ (w.step e).starts = w.starts := by
      rcases he with ⟨rfl, hc⟩ | ⟨rfl, hc⟩
      · exact ⟨Due.wake hg hrun hc, rfl⟩
      · refine ⟨Due.enter_first hrun hc, ?_⟩
        unfold World.step World.enter World.wake
        dsimp only
        split_ifs <;> rfl
    obtain ⟨hfin, hcount⟩ := hdue.1.run (hg.step e) hbs (hsame.trans hdue.2.symm)
    refine ⟨hfin.ready, ?_⟩
    have hle : (w.step e).turnsLeft ≤ 1 := by
      unfold World.turnsLeft
      split_ifs <;> omega
    omega

/-- The loop is parked, and the first client comes: its turn can be taken at once. -/
theorem presence_gated_first_client :
    let w := [Action.start, .sleepDone, .prepared true].foldl World.step {}
    ∃ a, a.isLoop = true ∧ (w.step .enter).turn a = true :=
  ((presence_gated true [.start, .sleepDone, .prepared true]).2 .enter rfl (.inr ⟨rfl, rfl⟩) []
    trivial rfl).1

/-- **A pass for nobody**: the client that released the parked loop leaves before its turn. -/
theorem works_for_nobody :
    ([Action.start, .sleepDone, .prepared true, .enter, .leave, .resume].foldl World.step
      {}).starts = [0] := by
  decide

end DeviceBuilder.PresenceLoop
