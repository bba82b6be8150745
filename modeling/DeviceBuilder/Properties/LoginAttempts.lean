import DeviceBuilder.Helpers.RateLimiter
import DeviceBuilder.Lib.Runs
import Mathlib.Tactic.Linarith
import Mathlib.Data.List.Count
import Mathlib.Order.Interval.Set.Basic

/-!
# The limiter bounds guessing

Requests come to the door in any order, over either path. A request either leaves
the limiter alone or tries a password (`step_cases`), and a try leaves the history
of every other IP alone but for the pruning (`tried_other`).

* `Recent`: the histories are in order and not in the future.
* `Bounded`: the wrong guesses of a span shorter than the window are in the
  history, or the lockout outlasts the span, or the span is over.
* `Unlocked`: the history of an IP is part of its failures.
* `guessing_bounded`: what follows for every run.
-/

namespace DeviceBuilder.Login

open Runs SlidingWindow

variable {check : String → String → Bool} {d d' : Door} {r : RateLimiter} {ip ip' : Ip}
  {ok : Bool} {now cutoff a : Time} {t : Clock} {times : List Time}

/-! ### What one request does -/

/-- A password tried: the limiter and the guess, if it was evaluated. -/
def Door.tried (d : Door) (ip : Ip) (ok : Bool) (t : Clock) : Door where
  limiter := (tryPassword d.limiter ip ok t).1
  clock := t.recorded
  guesses := d.guesses ++
    if (d.limiter.remainingLockout ip t.checked).2 > 0 then []
    else [⟨ip, ok, t.evaluated, t.recorded⟩]

/-- **A request tries one password, or does nothing to the limiter.** -/
theorem step_cases (check : String → String → Bool) (d : Door) (q : Request) (t : Clock) :
    (∃ ip ok, d.step check (q, t) = d.tried ip ok t) ∨
      d.step check (q, t) = { d with clock := t.recorded } := by
  cases q with
  | http q =>
    by_cases hx : q.exempt = true
    · exact .inr (by simp [Door.step, Request.serve, authMiddleware, Request.guess,
        Request.credentials, hx])
    by_cases hv : q.tokenValid = true
    · exact .inr (by simp [Door.step, Request.serve, authMiddleware, Request.guess,
        Request.credentials, hx, hv])
    cases hb : q.basicAuth with
    | none => exact .inr (by simp [Door.step, Request.serve, authMiddleware, Request.guess,
        Request.credentials, hx, hv, hb])
    | some c =>
      refine .inl ⟨clientIp q.remote, check c.1 c.2, ?_⟩
      simp only [Door.step, Request.serve, authMiddleware, Request.guess, Request.credentials,
        Door.tried, hx, hv, hb, Bool.false_eq_true, if_false, Bool.or_false, Option.map_some,
        Door.mk.injEq, true_and, List.append_cancel_left_eq]
      refine ⟨by split <;> simp_all, ?_⟩
      split_ifs <;> rfl
  | webSocket q =>
    cases hc : q.client with
    | none => exact .inr (by simp [Door.step, Request.serve, login, Request.guess,
        Request.credentials, hc])
    | some remote =>
      by_cases ht : q.token = ""
      · refine .inl ⟨clientIp remote, check q.username q.password, ?_⟩
        simp only [Door.step, Request.serve, login, Request.guess, Request.credentials,
          Door.tried, hc, ht, ne_eq, not_true_eq_false, if_false, Option.map_some,
          Door.mk.injEq, true_and, List.append_cancel_left_eq]
        refine ⟨by split <;> simp_all, ?_⟩
        split_ifs <;> rfl
      · refine .inr ?_
        simp only [Door.step, Request.serve, login, Request.guess, Request.credentials, hc, ht,
          ne_eq, not_false_eq_true, if_true, Option.toList_none, List.append_nil, Door.mk.injEq,
          and_true]
        split <;> rfl

/-- The recorded failures of an IP. -/
def history (r : RateLimiter) (ip : Ip) : List Time := (r.attempts.get? ip).getD []

/-- `r'` is the limiter `r` once `ip` has been found not to be locked out. -/
structure Opened (r r' : RateLimiter) (ip : Ip) (now : Time) : Prop where
  limits : r'.limits = r.limits
  unlocked : r'.lockouts.get? ip = none
  own : (r.lockouts.get? ip = none ∧ history r' ip = history r ip) ∨
    (∃ u, r.lockouts.get? ip = some u ∧ u ≤ now) ∧ history r' ip = []
  other : ∀ {ip'}, ip' ≠ ip →
    history r' ip' = history r ip' ∧ r'.lockouts.get? ip' = r.lockouts.get? ip'

theorem Opened.expired {r' : RateLimiter} (h : Opened r r' ip now) {u : Time}
    (hu : r.lockouts.get? ip = some u) : u ≤ now := by
  rcases h.own with ⟨hn, _⟩ | ⟨⟨u', hu', hle⟩, _⟩
  · rw [hn] at hu
    cases hu
  · rw [hu'] at hu
    cases hu
    exact hle

theorem Opened.history_eq {r' : RateLimiter} (h : Opened r r' ip now)
    (hn : r.lockouts.get? ip = none) : history r' ip = history r ip := by
  rcases h.own with ⟨_, he⟩ | ⟨⟨u, hu, _⟩, _⟩
  · exact he
  · rw [hn] at hu
    cases hu

theorem remainingLockout_cases (r : RateLimiter) (ip : Ip) (now : Time) :
    (∃ u, r.lockouts.get? ip = some u ∧ now < u ∧ r.remainingLockout ip now = (r, u - now)) ∨
      ∃ r', r.remainingLockout ip now = (r', 0) ∧ Opened r r' ip now := by
  unfold RateLimiter.remainingLockout
  cases hl : r.lockouts.get? ip with
  | none => exact .inr ⟨r, rfl, rfl, hl, .inl ⟨hl, rfl⟩, fun _ => ⟨rfl, rfl⟩⟩
  | some u =>
    by_cases hu : u - now ≤ 0
    · refine .inr ⟨_, if_pos hu, rfl, Dict.get?_erase_self, .inr ⟨⟨u, hl, by linarith⟩, ?_⟩, ?_⟩
      · unfold history
        rw [Dict.get?_erase_self]
        rfl
      · intro ip' hne
        unfold history
        rw [Dict.get?_erase_ne hne, Dict.get?_erase_ne hne]
        exact ⟨rfl, rfl⟩
    · exact .inl ⟨u, rfl, by linarith, if_neg hu⟩

/-- **A try is refused during a lockout; otherwise the guess is counted or clears the history.** -/
theorem tried_cases (d : Door) (ip : Ip) (ok : Bool) (t : Clock) :
    (∃ u, d.limiter.lockouts.get? ip = some u ∧ t.checked < u ∧
      d.tried ip ok t = { d with clock := t.recorded }) ∨
    ∃ r, Opened d.limiter r ip t.checked ∧
      d.tried ip ok t = { limiter := if ok then r.clear ip else r.recordFailure ip t.recorded,
                          clock := t.recorded,
                          guesses := d.guesses ++ [⟨ip, ok, t.evaluated, t.recorded⟩] } := by
  rcases remainingLockout_cases d.limiter ip t.checked with ⟨u, hl, hu, he⟩ | ⟨r, he, ho⟩
  · refine .inl ⟨u, hl, hu, ?_⟩
    have hpos : u - t.checked > 0 := by linarith
    simp [Door.tried, tryPassword, he, hpos]
  · refine .inr ⟨r, ho, ?_⟩
    cases ok <;> simp [Door.tried, tryPassword, he]

/-! ### The history of one IP -/

@[simp] theorem lockouts_maybePrune : (r.maybePrune now).lockouts = r.lockouts := by
  unfold RateLimiter.maybePrune
  split_ifs <;> rfl

@[simp] theorem limits_maybePrune : (r.maybePrune now).limits = r.limits := by
  unfold RateLimiter.maybePrune
  split_ifs <;> rfl

/-- A pruning leaves a history alone, or drops it whole when it is stale and not locked out. -/
theorem maybePrune_cases (r : RateLimiter) (now : Time) (ip : Ip) :
    (r.maybePrune now).attempts.get? ip = r.attempts.get? ip ∨
      (r.maybePrune now).attempts.get? ip = none ∧
        RateLimiter.isStale (now - r.limits.windowSeconds) (history r ip) = true ∧
        r.lockouts.get? ip = none := by
  unfold RateLimiter.maybePrune
  split_ifs with hn
  · exact .inl rfl
  · dsimp only
    rw [Dict.get?_keep]
    unfold history
    cases ha : r.attempts.get? ip with
    | none => exact .inl rfl
    | some times =>
      by_cases hs : RateLimiter.isStale (now - r.limits.windowSeconds) times = true
      · cases hl : r.lockouts.get? ip with
        | none => exact .inr (by simp [hs])
        | some u => exact .inl (by simp)
      · exact .inl (by simp [hs])

/-- A history with an attempt inside the window is not stale. -/
theorem not_isStale (hs : times.Pairwise (· ≤ ·)) (ha : a ∈ times) (hc : cutoff ≤ a) :
    RateLimiter.isStale cutoff times = false := by
  unfold RateLimiter.isStale
  cases hl : times.getLast? with
  | none => exact absurd (List.getLast?_eq_none_iff.1 hl ▸ ha) List.not_mem_nil
  | some last =>
    have hle := le_getLast hs ha hl
    simpa using le_trans hc hle

/-- **Pruning never forgets an attempt inside the window.** -/
theorem get?_maybePrune (hs : (history r ip).Pairwise (· ≤ ·)) (ha : a ∈ history r ip)
    (hc : now - r.limits.windowSeconds ≤ a) :
    (r.maybePrune now).attempts.get? ip = r.attempts.get? ip := by
  rcases maybePrune_cases r now ip with h | ⟨_, h, _⟩
  · exact h
  · rw [not_isStale hs ha hc] at h
    cases h

theorem history_maybePrune (r : RateLimiter) (now : Time) (ip : Ip) : (history (r.maybePrune now) ip).Sublist (history r ip) := by
  unfold history
  rcases maybePrune_cases r now ip with h | ⟨h, _⟩
  · rw [h]
  · rw [h]
    exact List.nil_sublist _

/-- Recent attempts survive a pruning, in order. -/
theorem sublist_maybePrune (hs : (history r ip).Pairwise (· ≤ ·))
    (hsub : times.Sublist (history r ip)) (hc : ∀ a ∈ times, now - r.limits.windowSeconds ≤ a) :
    times.Sublist (history (r.maybePrune now) ip) := by
  cases times with
  | nil => exact List.nil_sublist _
  | cons a times =>
    have hkeep := get?_maybePrune hs (hsub.subset List.mem_cons_self) (hc a List.mem_cons_self)
    unfold history at hsub ⊢
    rwa [hkeep]

@[simp] theorem limits_recordFailure : (r.recordFailure ip now).limits = r.limits := by
  unfold RateLimiter.recordFailure
  dsimp only
  split_ifs <;> simp

/-- **A failure is added to what of the history lies in the window.** -/
theorem history_recordFailure : history (r.recordFailure ip now) ip =
    since (now - r.limits.windowSeconds) (history (r.maybePrune now) ip) ++ [now] := by
  unfold RateLimiter.recordFailure history
  dsimp only
  split_ifs <;> simp

theorem history_recordFailure_ne (h : ip' ≠ ip) :
    history (r.recordFailure ip now) ip' = history (r.maybePrune now) ip' := by
  unfold RateLimiter.recordFailure history
  dsimp only
  split_ifs <;> simp [Dict.get?_set_ne h]

theorem lockouts_recordFailure (r : RateLimiter) (ip ip' : Ip) (now : Time) :
    (r.recordFailure ip now).lockouts.get? ip' =
    if ip' = ip ∧ r.limits.maxAttempts ≤ (history (r.recordFailure ip now) ip).length
    then some (now + r.limits.lockoutSeconds) else r.lockouts.get? ip' := by
  rw [history_recordFailure]
  unfold RateLimiter.recordFailure history
  dsimp only
  rw [limits_maybePrune]
  by_cases hlen : r.limits.maxAttempts ≤ (since (now - r.limits.windowSeconds)
      (((r.maybePrune now).attempts.get? ip).getD []) ++ [now]).length
  · rw [if_pos hlen]
    simp only [hlen, and_true, Dict.get?_set, lockouts_maybePrune]
  · rw [if_neg hlen]
    simp only [hlen, and_false, if_false, lockouts_maybePrune]

theorem history_clear : history (r.clear ip) ip' = if ip' = ip then [] else history r ip' := by
  unfold RateLimiter.clear history
  rw [Dict.get?_erase]
  split_ifs <;> rfl

/-! ### Histories are in order -/

/-- Every history is in the order of the clock and not ahead of it. -/
def Recent (d : Door) : Prop :=
  ∀ ip, (history d.limiter ip).Pairwise (· ≤ ·) ∧ ∀ a ∈ history d.limiter ip, a ≤ d.clock

/-- Histories that lost attempts, or did not change, are still in order later. -/
theorem Recent.sublist (h : Recent d) (hclock : d.clock ≤ d'.clock)
    (hsub : ∀ ip, (history d'.limiter ip).Sublist (history d.limiter ip)) : Recent d' := by
  intro ip
  obtain ⟨hs, hle⟩ := h ip
  exact ⟨hs.sublist (hsub ip), fun a ha => (hle a ((hsub ip).subset ha)).trans hclock⟩

theorem Opened.sublist (h : Opened r r' ip now) (ip' : Ip) :
    (history r' ip').Sublist (history r ip') := by
  by_cases hne : ip' = ip
  · subst hne
    rcases h.own with ⟨_, he⟩ | ⟨_, he⟩
    · rw [he]
    · rw [he]
      exact List.nil_sublist _
  · rw [(h.other hne).1]

theorem clock_le_recorded (hc : d.clock ≤ t.checked) : d.clock ≤ t.recorded :=
  hc.trans (t.checked_le.trans t.evaluated_le)

theorem Recent.tried (h : Recent d) (hc : d.clock ≤ t.checked) : Recent (d.tried ip ok t) := by
  have hrec : d.clock ≤ t.recorded := clock_le_recorded hc
  rcases tried_cases d ip ok t with ⟨_, _, _, he⟩ | ⟨r, ho, he⟩
  · rw [he]
    exact h.sublist hrec fun _ => List.Sublist.refl _
  · rw [he]
    have hr : Recent { d with limiter := r, clock := t.recorded } := h.sublist hrec ho.sublist
    cases ok with
    | true =>
      refine hr.sublist le_rfl fun ip' => ?_
      simp only [if_true, history_clear]
      split_ifs
      · exact List.nil_sublist _
      · exact List.Sublist.refl _
    | false =>
      intro ip'
      obtain ⟨hs, hle⟩ := hr ip'
      simp only [Bool.false_eq_true, if_false]
      by_cases hne : ip' = ip
      · subst hne
        have hsub := (since_sublist_self (t.recorded - r.limits.windowSeconds) _).trans
          (history_maybePrune r t.recorded ip')
        rw [history_recordFailure]
        refine ⟨pairwise_snoc (hs.sublist hsub) fun b hb => hle b (hsub.subset hb), fun a ha => ?_⟩
        rcases List.mem_append.1 ha with hmem | hmem
        · exact hle a (hsub.subset hmem)
        · exact (List.mem_singleton.1 hmem).le
      · rw [history_recordFailure_ne hne]
        exact ⟨hs.sublist (history_maybePrune _ _ _), fun a ha => hle a ((history_maybePrune _ _ _).subset ha)⟩

/-- A door that opens at some time, with no history. -/
def Door.open (limits : Limits) (clock : Time) : Door := { limiter := { limits }, clock }

theorem Recent.open {limits : Limits} {clock : Time} : Recent (Door.open limits clock) :=
  fun _ => ⟨List.Pairwise.nil, fun _ ha => absurd ha List.not_mem_nil⟩

theorem Recent.step (h : Recent d) {a : Request × Clock} (ha : Timely d a) :
    Recent (d.step check a) := by
  obtain ⟨q, t⟩ := a
  rcases step_cases check d q t with ⟨ip, ok, he⟩ | he
  · rw [he]
    exact h.tried ha
  · rw [he]
    exact h.sublist (clock_le_recorded ha) fun _ => List.Sublist.refl _

theorem limits_tried : (d.tried ip ok t).limiter.limits = d.limiter.limits := by
  rcases tried_cases d ip ok t with ⟨_, _, _, he⟩ | ⟨r, ho, he⟩
  · rw [he]
  · rw [he, ← ho.limits]
    cases ok <;> simp [RateLimiter.clear]

/-! ### A span shorter than the window -/

/-- A span of time shorter than `width`, without gaps. -/
structure Short (I : Set Time) (width : Time) : Prop where
  narrow : ∀ {x y}, x ∈ I → y ∈ I → y < x + width
  connected : ∀ {x y z}, x ∈ I → y ∈ I → x ≤ z → z ≤ y → z ∈ I

theorem Short.ico (start width : Time) : Short (Set.Ico start (start + width)) width where
  narrow hx hy := by
    have := hx.1; have := hy.2
    linarith
  connected hx hy hxz hzy := ⟨hx.1.trans hxz, hzy.trans_lt hy.2⟩

theorem Short.ioc (start width : Time) : Short (Set.Ioc start (start + width)) width where
  narrow hx hy := by
    have := hx.1; have := hy.2
    linarith
  connected hx hy hxz hzy := ⟨hx.1.trans_le hxz, hzy.trans hy.2⟩

variable {I : Set Time} [DecidablePred (· ∈ I)]

/-- The wrong passwords of an IP evaluated in a span. -/
def Door.wrongIn (d : Door) (ip : Ip) (I : Set Time) [DecidablePred (· ∈ I)] : ℕ :=
  d.guesses.countP fun g => g.ip = ip ∧ g.right = false ∧ g.evaluated ∈ I

/-- A login of the IP succeeded in the span. -/
def Door.RightIn (d : Door) (ip : Ip) (I : Set Time) : Prop :=
  ∃ g ∈ d.guesses, g.ip = ip ∧ g.right = true ∧ g.evaluated ∈ I

/-- **Why a span has few wrong guesses**: its last one is past, or a lockout outlasts it, or
all of them are in the history, which has not reached the threshold. -/
inductive Bounded (d : Door) (ip : Ip) (I : Set Time) [DecidablePred (· ∈ I)] : Prop
  | fresh (none : d.wrongIn ip I = 0)
  | ended (le : d.wrongIn ip I ≤ d.limiter.limits.maxAttempts) (past : ∀ y ∈ I, y < d.clock)
  | locked (le : d.wrongIn ip I ≤ d.limiter.limits.maxAttempts) (u : Time)
      (lockout : d.limiter.lockouts.get? ip = some u) (outlasts : ∀ y ∈ I, y < u)
  | held (lt : d.wrongIn ip I < d.limiter.limits.maxAttempts)
      (unlocked : d.limiter.lockouts.get? ip = none) (kept : List Time)
      (sublist : kept.Sublist (history d.limiter ip)) (length : kept.length = d.wrongIn ip I)
      (inside : ∀ a ∈ kept, ∃ x ∈ I, x ≤ a)

theorem Bounded.le (h : Bounded d ip I) : d.wrongIn ip I ≤ d.limiter.limits.maxAttempts := by
  cases h with
  | fresh none => rw [none]; exact Nat.zero_le _
  | ended le past => exact le
  | locked le u lockout outlasts => exact le
  | held lt unlocked kept sublist length inside => exact lt.le

/-- Nothing of the span changed but the clock. -/
theorem Bounded.later (h : Bounded d ip I) (hclock : d.clock ≤ d'.clock)
    (hlimits : d'.limiter.limits = d.limiter.limits) (hcount : d'.wrongIn ip I = d.wrongIn ip I)
    (hlock : d'.limiter.lockouts.get? ip = d.limiter.lockouts.get? ip)
    (hkept : ∀ kept : List Time, kept.Sublist (history d.limiter ip) →
      (∀ a ∈ kept, ∃ x ∈ I, x ≤ a) → (∀ y ∈ I, y < d'.clock) ∨
        kept.Sublist (history d'.limiter ip)) : Bounded d' ip I := by
  cases h with
  | fresh none => exact .fresh (hcount.trans none)
  | ended le past => exact .ended (by rw [hcount, hlimits]; exact le) fun y hy =>
      (past y hy).trans_le hclock
  | locked le u lockout outlasts =>
    exact .locked (by rw [hcount, hlimits]; exact le) u (hlock.trans lockout) outlasts
  | held lt unlocked kept sublist length inside =>
    rcases hkept kept sublist inside with hover | hsub
    · exact .ended (by rw [hcount, hlimits]; exact lt.le) hover
    · exact .held (by rw [hcount, hlimits]; exact lt) (hlock.trans unlocked) kept hsub
        (length.trans hcount.symm) inside

/-- The count after one more guess. -/
theorem wrongIn_append {g : Guess} {clock : Time} :
    (Door.mk r clock (d.guesses ++ [g])).wrongIn ip I =
      d.wrongIn ip I + if g.ip = ip ∧ g.right = false ∧ g.evaluated ∈ I then 1 else 0 := by
  unfold Door.wrongIn
  rw [List.countP_append, List.countP_singleton]
  simp only [decide_eq_true_eq]

omit [DecidablePred (· ∈ I)] in
/-- A guess evaluated outside the span, after one inside, ends it. -/
theorem Short.past (hI : Short I now) {x e : Time} (hx : x ∈ I) (hxe : x ≤ e) (he : e ∉ I) :
    ∀ y ∈ I, y < e := by
  intro y hy
  by_contra hle
  exact he (hI.connected hx hy hxe (not_lt.1 hle))

/-- **A guess of the IP outside the span** leaves its count, and ends it if it had begun. -/
theorem Bounded.outside (h : Bounded d ip I) (hr : Recent d)
    (hI : Short I d.limiter.limits.windowSeconds) (hc : d.clock ≤ t.checked)
    (ho : Opened d.limiter r ip t.checked) (he : t.evaluated ∉ I) {g : Guess}
    (hg : g.evaluated = t.evaluated) {r' : RateLimiter} (hl : r'.limits = d.limiter.limits) :
    Bounded ⟨r', t.recorded, d.guesses ++ [g]⟩ ip I := by
  have hcount : (Door.mk r' t.recorded (d.guesses ++ [g])).wrongIn ip I = d.wrongIn ip I := by
    rw [wrongIn_append, if_neg (by rw [hg]; exact fun hx => he hx.2.2), Nat.add_zero]
  have hrec := clock_le_recorded hc
  cases h with
  | fresh none => exact .fresh (hcount.trans none)
  | ended le past =>
    exact .ended (by rw [hcount, hl]; exact le) fun y hy => (past y hy).trans_le hrec
  | locked le u lockout outlasts =>
    have hur : u ≤ t.recorded :=
      (ho.expired lockout).trans (t.checked_le.trans t.evaluated_le)
    exact .ended (by rw [hcount, hl]; exact le) fun y hy => (outlasts y hy).trans_le hur
  | held lt unlocked kept sublist length inside =>
    cases kept with
    | nil => exact .fresh (hcount.trans length.symm)
    | cons a kept =>
      obtain ⟨x, hx, hxa⟩ := inside a List.mem_cons_self
      have ha : a ≤ d.clock := (hr ip).2 a (sublist.subset List.mem_cons_self)
      have hxe : x ≤ t.evaluated := hxa.trans (ha.trans (hc.trans t.checked_le))
      refine .ended (by rw [hcount, hl]; exact lt.le) fun y hy => ?_
      exact (hI.past hx hxe he y hy).trans_le t.evaluated_le

/-- **A wrong guess of the IP inside the span**: it was not locked out, so it is one more in the
history; at the threshold the new lockout outlasts the span. -/
theorem Bounded.inside (h : Bounded d ip I) (hr : Recent d)
    (hI : Short I d.limiter.limits.windowSeconds)
    (hlong : d.limiter.limits.windowSeconds ≤ d.limiter.limits.lockoutSeconds)
    (hc : d.clock ≤ t.checked) (ho : Opened d.limiter r ip t.checked) (he : t.evaluated ∈ I) :
    Bounded ⟨r.recordFailure ip t.recorded, t.recorded,
      d.guesses ++ [⟨ip, false, t.evaluated, t.recorded⟩]⟩ ip I := by
  have hcount : (Door.mk (r.recordFailure ip t.recorded) t.recorded
      (d.guesses ++ [⟨ip, false, t.evaluated, t.recorded⟩])).wrongIn ip I =
      d.wrongIn ip I + 1 := by
    rw [wrongIn_append, if_pos ⟨rfl, rfl, he⟩]
  have hlim : (r.recordFailure ip t.recorded).limits = d.limiter.limits := by
    rw [limits_recordFailure, ho.limits]
  -- before this guess, the wrong ones of the span are all in the history
  obtain ⟨hlt, kept, hsub, hlen, hin⟩ : d.wrongIn ip I < d.limiter.limits.maxAttempts ∧
      ∃ kept : List Time, kept.Sublist (history r ip) ∧ kept.length = d.wrongIn ip I ∧
        ∀ a ∈ kept, ∃ x ∈ I, x ≤ a := by
    cases h with
    | fresh none =>
      rw [none]
      exact ⟨d.limiter.limits.maxAttempts_pos, [], List.nil_sublist _, rfl, nofun⟩
    | ended le past =>
      have := past _ he
      have := t.checked_le
      linarith
    | locked le u lockout outlasts =>
      have := ho.expired lockout
      have := outlasts _ he
      have := t.checked_le
      linarith
    | held lt unlocked kept sublist length inside =>
      exact ⟨lt, kept, by rw [ho.history_eq unlocked]; exact sublist, length, inside⟩
  by_cases hover : ∀ y ∈ I, y < t.recorded
  · refine .ended ?_ hover
    rw [hcount]
    exact (Nat.succ_le_of_lt hlt).trans_eq (congrArg _ hlim.symm)
  · -- the failure is recorded inside the span, so its window reaches back over the span
    obtain ⟨y, hy, hry⟩ : ∃ y ∈ I, t.recorded ≤ y := by
      by_contra hno
      exact hover fun y hy => not_le.1 fun hle => hno ⟨y, hy, hle⟩
    have hrecent : ∀ a ∈ kept, t.recorded - r.limits.windowSeconds ≤ a := by
      intro a ha
      obtain ⟨x, hx, hxa⟩ := hin a ha
      have := hI.narrow hx hy
      rw [ho.limits]
      linarith
    have hsorted : (history r ip).Pairwise (· ≤ ·) := (hr ip).1.sublist (ho.sublist ip)
    have hkept := since_sublist (sublist_maybePrune hsorted hsub hrecent) hrecent
    have hnew : (kept ++ [t.recorded]).Sublist
        (history (r.recordFailure ip t.recorded) ip) := by
      rw [history_recordFailure]
      exact hkept.append (List.Sublist.refl _)
    have hlen' : (kept ++ [t.recorded]).length = d.wrongIn ip I + 1 := by
      rw [List.length_append, hlen]
      rfl
    have hlock := lockouts_recordFailure r ip ip t.recorded
    by_cases hmax : r.limits.maxAttempts ≤ (history (r.recordFailure ip t.recorded) ip).length
    · rw [if_pos ⟨rfl, hmax⟩] at hlock
      refine .locked ?_ _ hlock fun z hz => ?_
      · rw [hcount]
        exact (Nat.succ_le_of_lt hlt).trans_eq (congrArg _ hlim.symm)
      · have := hI.narrow he hz
        have := t.evaluated_le
        rw [ho.limits]
        linarith
    · rw [if_neg fun hx => hmax hx.2] at hlock
      refine .held ?_ (hlock.trans ho.unlocked) _ hnew (hlen'.trans hcount.symm) fun a ha => ?_
      · have hle := hnew.length_le
        rw [ho.limits] at hmax
        rw [hcount, hlim]
        omega
      · rcases List.mem_append.1 ha with hmem | hmem
        · exact hin a hmem
        · rw [List.mem_singleton.1 hmem]
          exact ⟨t.evaluated, he, t.evaluated_le⟩

/-- Another IP's try prunes at most what has left the span. -/
theorem Bounded.other (h : Bounded d ip I) (hr : Recent d)
    (hI : Short I d.limiter.limits.windowSeconds) (hc : d.clock ≤ t.checked) (hne : ip ≠ ip')
    (ho : Opened d.limiter r ip' t.checked) :
    Bounded ⟨if ok then r.clear ip' else r.recordFailure ip' t.recorded, t.recorded,
      d.guesses ++ [⟨ip', ok, t.evaluated, t.recorded⟩]⟩ ip I := by
  obtain ⟨hhist, hlock⟩ := ho.other hne
  refine h.later (clock_le_recorded hc) ?_ ?_ ?_ fun kept hsub hin => ?_
  · cases ok <;> simp [RateLimiter.clear, ho.limits]
  · rw [wrongIn_append, if_neg fun hx => hne hx.1.symm, Nat.add_zero]
  · cases ok with
    | true =>
      simp only [if_true, RateLimiter.clear]
      rw [Dict.get?_erase_ne hne, hlock]
    | false =>
      simp only [Bool.false_eq_true, if_false]
      rw [lockouts_recordFailure, if_neg fun hx => hne hx.1, hlock]
  · cases ok with
    | true =>
      simp only [if_true, history_clear, if_neg hne, hhist]
      exact .inr hsub
    | false =>
      simp only [Bool.false_eq_true, if_false, history_recordFailure_ne hne]
      by_cases hover : ∀ y ∈ I, y < t.recorded
      · exact .inl hover
      · obtain ⟨y, hy, hry⟩ : ∃ y ∈ I, t.recorded ≤ y := by
          by_contra hno
          exact hover fun y hy => not_le.1 fun hle => hno ⟨y, hy, hle⟩
        have hsorted : (history r ip).Pairwise (· ≤ ·) := by
          rw [hhist]
          exact (hr ip).1
        refine .inr (sublist_maybePrune hsorted (by rw [hhist]; exact hsub) fun a ha => ?_)
        obtain ⟨x, hx, hxa⟩ := hin a ha
        have := hI.narrow hx hy
        rw [ho.limits]
        linarith

/-- **One try** keeps a short span bounded, unless the IP logs in during the span. -/
theorem Bounded.tried (h : Bounded d ip I) (hr : Recent d)
    (hI : Short I d.limiter.limits.windowSeconds)
    (hlong : d.limiter.limits.windowSeconds ≤ d.limiter.limits.lockoutSeconds)
    (hc : d.clock ≤ t.checked) (hno : ¬ (d.tried ip' ok t).RightIn ip I) :
    Bounded (d.tried ip' ok t) ip I := by
  rcases tried_cases d ip' ok t with ⟨_, _, _, he⟩ | ⟨r, ho, he⟩
  · rw [he]
    exact h.later (clock_le_recorded hc) rfl rfl rfl fun _ hsub _ => .inr hsub
  rw [he] at hno ⊢
  by_cases hne : ip = ip'
  · subst hne
    by_cases hin : t.evaluated ∈ I
    · cases ok with
      | true =>
        exact absurd ⟨_, List.mem_append_right _ List.mem_cons_self, rfl, rfl, hin⟩ hno
      | false => exact h.inside hr hI hlong hc ho hin
    · refine h.outside hr hI hc ho hin rfl ?_
      cases ok <;> simp [RateLimiter.clear, ho.limits]
  · exact h.other hr hI hc hne ho

theorem guesses_mono (a : Request × Clock) : d.guesses <+: (d.step check a).guesses :=
  List.prefix_append _ _

omit [DecidablePred (· ∈ I)] in
theorem Door.RightIn.mono (h : d.RightIn ip I) (hp : d.guesses <+: d'.guesses) :
    d'.RightIn ip I := by
  obtain ⟨g, hg, hx⟩ := h
  exact ⟨g, hp.subset hg, hx⟩

variable {limits : Limits} {clock : Time}

/-- What every run keeps: the limits, and histories in order. -/
theorem reaches_recent (h : Reaches (Door.step check) Timely (Door.open limits clock) d) :
    d.limiter.limits = limits ∧ Recent d := by
  apply h.invariant (I := fun d => d.limiter.limits = limits ∧ Recent d)
  · exact ⟨rfl, Recent.open⟩
  · rintro d ⟨q, t⟩ ha ⟨hl, hr⟩
    refine ⟨?_, hr.step ha⟩
    rcases step_cases check d q t with ⟨ip, ok, he⟩ | he
    · rw [he, limits_tried, hl]
    · rw [he, hl]

/-- **Few wrong guesses in a span shorter than the window** without a login. -/
theorem reaches_bounded (h : Reaches (Door.step check) Timely (Door.open limits clock) d)
    (hI : Short I limits.windowSeconds) (hlong : limits.windowSeconds ≤ limits.lockoutSeconds)
    (hno : ¬ d.RightIn ip I) : d.wrongIn ip I ≤ limits.maxAttempts := by
  have hb : ¬ d.RightIn ip I → Bounded d ip I := by
    apply h.invariant' (I := fun d => ¬ d.RightIn ip I → Bounded d ip I)
    · exact fun _ => .fresh rfl
    · rintro d ⟨q, t⟩ hd ha ih hno
      obtain ⟨hl, hr⟩ := reaches_recent hd
      have hbefore := ih fun hx => hno (hx.mono (guesses_mono _))
      rcases step_cases check d q t with ⟨ip', ok, he⟩ | he
      · rw [he] at hno ⊢
        exact hbefore.tried hr (by rw [hl]; exact hI) (by rw [hl]; exact hlong) ha hno
      · rw [he]
        exact hbefore.later (clock_le_recorded ha) rfl rfl rfl fun _ hsub _ => .inr hsub
  have hle := (hb hno).le
  rwa [(reaches_recent h).1] at hle

/-! ### An IP below the threshold -/

/-- The times an IP's failures were recorded at. -/
def Door.failures (d : Door) (ip : Ip) : List Time :=
  (d.guesses.filter fun g => g.ip = ip ∧ g.right = false).map (·.recorded)

/-- How many of them lie in a span. -/
def Door.failuresIn (d : Door) (ip : Ip) (I : Set Time) [DecidablePred (· ∈ I)] : ℕ :=
  (d.failures ip).countP (· ∈ I)

theorem failures_append {g : Guess} : (Door.mk r clock (d.guesses ++ [g])).failures ip =
    d.failures ip ++ if g.ip = ip ∧ g.right = false then [g.recorded] else [] := by
  unfold Door.failures
  rw [List.filter_append, List.map_append, List.filter_singleton]
  by_cases hg : g.ip = ip ∧ g.right = false <;> simp [hg]

theorem failures_wrong {g : Guess} (hip : g.ip = ip) (hw : g.right = false) :
    (Door.mk r clock (d.guesses ++ [g])).failures ip = d.failures ip ++ [g.recorded] := by
  rw [failures_append, if_pos ⟨hip, hw⟩]

theorem failures_sublist {g : Guess} :
    (d.failures ip).Sublist ((Door.mk r clock (d.guesses ++ [g])).failures ip) := by
  rw [failures_append]
  exact List.sublist_append_left _ _

theorem failures_mono (hp : d.guesses <+: d'.guesses) :
    (d.failures ip).Sublist (d'.failures ip) := (hp.sublist.filter _).map _

/-- Never locked out so far, and the history is part of the failures. -/
structure Unlocked (d : Door) (ip : Ip) : Prop where
  unlocked : d.limiter.lockouts.get? ip = none
  sublist : (history d.limiter ip).Sublist (d.failures ip)

/-- **A history is no longer than the failures of the window that ends now.** -/
theorem history_length_le {width : Time} (hw : r.limits.windowSeconds = width)
    (hs : (history r ip).Pairwise (· ≤ ·)) (hle : ∀ a ∈ history r ip, a ≤ now)
    {failures : List Time} (hsub : (history r ip).Sublist failures) :
    (history (r.recordFailure ip now) ip).length ≤
      (failures ++ [now]).countP (· ∈ Set.Icc (now - width) now) := by
  have hwidth : 0 ≤ width := hw ▸ r.limits.windowSeconds_nonneg
  rw [history_recordFailure, hw]
  have hkept := (since_sublist_self (now - width) _).trans
    (history_maybePrune r now ip)
  have hall : ∀ a ∈ since (now - width) (history (r.maybePrune now) ip) ++ [now],
      decide (a ∈ Set.Icc (now - width) now) = true := by
    intro a ha
    rw [decide_eq_true_eq]
    rcases List.mem_append.1 ha with hmem | hmem
    · exact ⟨le_of_mem_since (hs.sublist (history_maybePrune _ _ _)) hmem, hle a (hkept.subset hmem)⟩
    · rw [List.mem_singleton.1 hmem]
      exact ⟨by linarith, le_rfl⟩
  rw [← List.countP_eq_length.2 hall]
  exact ((hkept.trans hsub).append (List.Sublist.refl _)).countP_le

theorem Unlocked.tried (h : Unlocked d ip) (hr : Recent d) (hc : d.clock ≤ t.checked)
    (hfew : ∀ start, (d.tried ip' ok t).failuresIn ip
      (Set.Icc start (start + d.limiter.limits.windowSeconds)) <
        d.limiter.limits.maxAttempts) : Unlocked (d.tried ip' ok t) ip := by
  rcases tried_cases d ip' ok t with ⟨_, _, _, he⟩ | ⟨r, ho, he⟩
  · rw [he]
    exact ⟨h.unlocked, h.sublist⟩
  rw [he] at hfew ⊢
  by_cases hne : ip = ip'
  · subst hne
    have hhist := ho.history_eq h.unlocked
    cases ok with
    | true =>
      refine ⟨by simp [RateLimiter.clear], ?_⟩
      simp only [if_true, history_clear]
      exact List.nil_sublist _
    | false =>
      have hrec : d.clock ≤ t.recorded := clock_le_recorded hc
      have hsub : (history r ip).Sublist (d.failures ip) := by rw [hhist]; exact h.sublist
      have hlen : (history (r.recordFailure ip t.recorded) ip).length ≤ _ :=
        history_length_le (congrArg Limits.windowSeconds ho.limits)
          (by rw [hhist]; exact (hr ip).1)
          (by rw [hhist]; exact fun a ha => ((hr ip).2 a ha).trans hrec) hsub
      have hcount := hfew (t.recorded - d.limiter.limits.windowSeconds)
      unfold Door.failuresIn at hcount
      rw [failures_wrong rfl rfl, sub_add_cancel] at hcount
      refine ⟨?_, ?_⟩
      · simp only [Bool.false_eq_true, if_false]
        rw [lockouts_recordFailure, if_neg, ho.unlocked]
        rintro ⟨_, hmax⟩
        rw [ho.limits] at hmax
        exact absurd (hmax.trans hlen) (not_le.2 hcount)
      · rw [failures_wrong rfl rfl]
        simp only [Bool.false_eq_true, if_false, history_recordFailure]
        have hsub := history_maybePrune r t.recorded ip
        rw [hhist] at hsub
        exact ((since_sublist_self _ _).trans (hsub.trans h.sublist)).append (List.Sublist.refl _)
  · obtain ⟨hhist, hlock⟩ := ho.other hne
    refine ⟨?_, ?_⟩
    · cases ok with
      | true =>
        simp only [if_true, RateLimiter.clear]
        rw [Dict.get?_erase_ne hne, hlock, h.unlocked]
      | false =>
        simp only [Bool.false_eq_true, if_false]
        rw [lockouts_recordFailure, if_neg fun hx => hne hx.1, hlock, h.unlocked]
    · refine List.Sublist.trans ?_ failures_sublist
      cases ok with
      | true =>
        simp only [if_true, history_clear, if_neg hne, hhist]
        exact h.sublist
      | false =>
        simp only [Bool.false_eq_true, if_false, history_recordFailure_ne hne]
        have hsub := history_maybePrune r t.recorded ip
        rw [hhist] at hsub
        exact hsub.trans h.sublist

/-- **An IP below the threshold in every window is not locked out**, at any time of the run. -/
theorem reaches_unlocked (h : Reaches (Door.step check) Timely (Door.open limits clock) d)
    (hfew : ∀ start, d.failuresIn ip (Set.Icc start (start + limits.windowSeconds)) <
      limits.maxAttempts) : Unlocked d ip := by
  revert hfew
  apply h.invariant' (I := fun d => (∀ start, d.failuresIn ip
    (Set.Icc start (start + limits.windowSeconds)) < limits.maxAttempts) → Unlocked d ip)
  · exact fun _ => ⟨rfl, List.nil_sublist _⟩
  · rintro d ⟨q, t⟩ hd ha ih hfew
    obtain ⟨hl, hr⟩ := reaches_recent hd
    have hbefore := ih fun start =>
      ((failures_mono (guesses_mono _)).countP_le).trans_lt (hfew start)
    rcases step_cases check d q t with ⟨ip', ok, he⟩ | he
    · rw [he] at hfew ⊢
      exact hbefore.tried hr ha (by rw [hl]; exact hfew)
    · rw [he]
      exact ⟨hbefore.unlocked, hbefore.sublist⟩

/-- **The limiter bounds guessing**, in every run over both paths. A half-open window without a
login of the IP has at most the allowed wrong passwords; an IP with fewer failures than that in
every closed window is never locked out; a pruning forgets no lockout and no attempt of the window. -/
theorem guessing_bounded (check : String → String → Bool) (limits : Limits) (clock : Time) (d : Door)
    (h : Reaches (Door.step check) Timely (Door.open limits clock) d) :
    (limits.windowSeconds ≤ limits.lockoutSeconds → ∀ ip start,
      (¬ d.RightIn ip (Set.Ico start (start + limits.windowSeconds)) →
        d.wrongIn ip (Set.Ico start (start + limits.windowSeconds)) ≤ limits.maxAttempts) ∧
      (¬ d.RightIn ip (Set.Ioc start (start + limits.windowSeconds)) →
        d.wrongIn ip (Set.Ioc start (start + limits.windowSeconds)) ≤ limits.maxAttempts)) ∧
    (∀ ip d', Reaches (Door.step check) Timely d d' →
      (∀ start, d'.failuresIn ip (Set.Icc start (start + limits.windowSeconds)) <
        limits.maxAttempts) →
      d.limiter.lockouts.get? ip = none) ∧
    ∀ now, d.clock ≤ now → (d.limiter.maybePrune now).lockouts = d.limiter.lockouts ∧
      ∀ ip, ∀ a ∈ history d.limiter ip, now - limits.windowSeconds ≤ a →
        a ∈ history (d.limiter.maybePrune now) ip := by
  obtain ⟨hl, hr⟩ := reaches_recent h
  refine ⟨fun hlong ip start => ⟨?_, ?_⟩, fun ip d' hd hfew => ?_, fun now _ => ⟨?_, ?_⟩⟩
  · exact reaches_bounded h (Short.ico _ _) hlong
  · exact reaches_bounded h (Short.ioc _ _) hlong
  · have hp := hd.log_prefix (f := Door.guesses) fun _ _ _ => guesses_mono _
    refine (reaches_unlocked h fun start => ?_).unlocked
    exact (failures_mono hp).countP_le.trans_lt (hfew start)
  · exact lockouts_maybePrune
  · intro ip a ha hc
    rw [← hl] at hc
    have hkeep := get?_maybePrune (hr ip).1 ha hc
    unfold history at ha ⊢
    rwa [hkeep]

/-- Two attempts in a window of a minute. -/
def twoPerMinute : Limits := { maxAttempts := 2, windowSeconds := 60, lockoutSeconds := 60 }

/-- A login attempt at an instant. -/
def attemptAt (now : Time) : Request × Clock :=
  (.webSocket { client := some (some "10.0.0.9") }, ⟨now, now, now, le_rfl, le_rfl⟩)

/-- Wrong passwords at the start and at the end of a minute. -/
def edges : Door :=
  [attemptAt 0, attemptAt 60].foldl (Door.step fun _ _ => false) (Door.open twoPerMinute 0)

theorem guessing_bounded_edges :
    edges.wrongIn "10.0.0.9" (Set.Ico 0 (0 + 60)) ≤ 2 ∧
      (edges.limiter.maybePrune 60).lockouts = edges.limiter.lockouts := by
  have hrun : Reaches (Door.step fun _ _ => false) Timely (Door.open twoPerMinute 0) edges :=
    ((Reaches.refl _).next (a := attemptAt 0) (by unfold Timely; decide +kernel)).next
      (a := attemptAt 60) (by unfold Timely; decide +kernel)
  have hall := guessing_bounded _ _ _ _ hrun
  refine ⟨(hall.1 le_rfl "10.0.0.9" 0).1 ?_, (hall.2.2 60 (by decide +kernel)).1⟩
  have hg : ∀ g ∈ edges.guesses, g.right = false := by decide +kernel
  rintro ⟨g, hmem, _, hright, _⟩
  rw [hg g hmem] at hright
  cases hright

/-- At most one of two instants a minute apart lies in a span that has not both. -/
theorem countP_edges {I : Set Time} [DecidablePred (· ∈ I)] (h : 0 ∈ I → (60 : Time) ∉ I) :
    [(0 : Time), 60].countP (· ∈ I) < 2 := by
  by_cases h0 : (0 : Time) ∈ I
  · simp [h0, h h0]
  · by_cases h1 : (60 : Time) ∈ I <;> simp [h0, h1]

/-- **A half-open window is too short for the second law**: failures exactly one window apart are
never two in a half-open one, and still lock the IP out. -/
theorem locked_out_at_the_edge :
    Reaches (Door.step fun _ _ => false) Timely (Door.open twoPerMinute 0) edges ∧
      (∀ start, edges.failuresIn "10.0.0.9" (Set.Ico start (start + 60)) < 2 ∧
        edges.failuresIn "10.0.0.9" (Set.Ioc start (start + 60)) < 2) ∧
      edges.limiter.lockouts.get? "10.0.0.9" = some 120 := by
  refine ⟨((Reaches.refl _).next (a := attemptAt 0) (by unfold Timely; decide +kernel)).next
    (a := attemptAt 60) (by unfold Timely; decide +kernel), fun start => ?_, by decide +kernel⟩
  have hf : edges.failures "10.0.0.9" = [0, 60] := by decide +kernel
  unfold Door.failuresIn
  rw [hf]
  constructor
  · refine countP_edges fun h0 h1 => ?_
    have := h0.1; have := h1.2
    linarith
  · refine countP_edges fun h0 h1 => ?_
    have := h0.1; have := h1.2
    linarith

end DeviceBuilder.Login
