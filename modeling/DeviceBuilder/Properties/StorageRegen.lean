import DeviceBuilder.Devices.StorageRegen
import DeviceBuilder.Lib.Runs
import Mathlib.Data.List.Infix

/-!
# Storage regeneration is bounded and strands no device

* `streak`: how many of the latest failures are of one digest, each within the TTL of the
  one before. The failure stamp counts at least as many (`Stamped`), and a run that
  spawns has seen less than the budget (`Sound.spawning`).
* `Tended`: who looks after a configuration that a scan asked to regenerate.
* `regen_tended`: one run at most, a bounded budget, and nobody stranded, on every run.

A stamp keys one digest. So another content's failure between two of one content refills
the budget (`revert_refills_budget`), and a run that began under a digest and finds that
digest on record at its end does not run again (`revert_unserved`).
-/

namespace DeviceBuilder.Devices

open Runs
open Index (ScanChange)

variable {F D : Type} [DecidableEq F] [DecidableEq D]

/-! ## The failure stamp -/

/-- The failures of `d` at the head of the log, each less than the TTL before the next, the first before `t`. -/
def streak (d : D) (t : ℕ) : List (StampEvent D) → ℤ
  | .failed d' at_ :: log => if d' = d ∧ t - at_ < regenFailureTtlSeconds then streak d at_ log + 1 else 0
  | .cleared :: _ => 0
  | [] => 0

/-- The attempts that an unexpired stamp has on record. -/
def stampedAttempts (md : RegenEntry D) (d : D) (t : ℕ) : ℤ := ((freshStamp md d t).map Prod.fst).getD 0

/-- The stamp counts the failures of the log, and no failure came when the budget was spent. -/
structure Stamped (md : RegenEntry D) (log : List (StampEvent D)) : Prop where
  covers : ∀ d t, streak d t log ≤ stampedAttempts md d t
  bounded : ∀ d t rest, .failed d t :: rest <:+ log → streak d t rest < maxRegenAttempts

theorem streak_nonneg (d : D) (t : ℕ) (log : List (StampEvent D)) : 0 ≤ streak d t log := by
  induction log generalizing t with
  | nil => exact Int.le_refl 0
  | cons e log ih =>
    cases e with
    | cleared => exact Int.le_refl 0
    | failed d' at_ =>
      unfold streak
      split
      · have := ih at_
        omega
      · exact Int.le_refl 0

theorem stamped_start (md : RegenEntry D) : Stamped md [] where
  covers d t := by
    show (0 : ℤ) ≤ _
    unfold stampedAttempts freshStamp
    split
    · split
      · exact Int.le_refl 0
      · dsimp only
        split
        · exact Int.le_refl 0
        · show (0 : ℤ) ≤ if md.regenFailedAttempts ≥ 1 then md.regenFailedAttempts else maxRegenAttempts
          split
          · omega
          · decide
    · exact Int.le_refl 0
  bounded d t rest h := by simp at h

/-- Nothing is charged after the stamp has been dropped. -/
theorem Stamped.cleared {md md' : RegenEntry D} {log : List (StampEvent D)} (h : Stamped md log) :
    Stamped md' (.cleared :: log) where
  covers d t := (stamped_start md').covers d t
  bounded d t rest hs := by
    rcases List.suffix_cons_iff.mp hs with he | hs
    · exact absurd (List.cons.inj he).1 nofun
    · exact h.bounded d t rest hs

theorem stamped_congr {md md' : RegenEntry D} {log : List (StampEvent D)} (h : Stamped md log)
    (h₁ : md'.regenFailedContentFingerprint = md.regenFailedContentFingerprint)
    (h₂ : md'.regenFailedAt = md.regenFailedAt) (h₃ : md'.regenFailedAttempts = md.regenFailedAttempts) :
    Stamped md' log where
  covers d t := by
    have he : stampedAttempts md' d t = stampedAttempts md d t := by
      unfold stampedAttempts freshStamp
      rw [h₁, h₂, h₃]
    rw [he]
    exact h.covers d t
  bounded := h.bounded

namespace RegenConf

variable {ctx : RegenContext} {c c' : RegenConf D} {locked : Bool} {i now : ℕ}

/-- One more failure, charged to a digest whose budget is not spent. -/
theorem stamped_stampFailure (h : Stamped c.entry c.log) (fingerprint : D)
    (hroom : streak fingerprint now c.log < maxRegenAttempts) :
    Stamped (c.stampFailure fingerprint now).1.entry (c.stampFailure fingerprint now).1.log where
  covers d t := by
    have hprior := h.covers fingerprint now
    have hpos := streak_nonneg fingerprint now c.log
    change (if fingerprint = d ∧ t - now < regenFailureTtlSeconds then streak d now c.log + 1 else 0) ≤
      stampedAttempts (c.stampFailure fingerprint now).1.entry d t
    by_cases hd : fingerprint = d ∧ t - now < regenFailureTtlSeconds
    · obtain ⟨rfl, hage⟩ := hd
      have hfresh : stampedAttempts (c.stampFailure fingerprint now).1.entry fingerprint t =
          stampedAttempts c.entry fingerprint now + 1 := by
        show ((freshStamp _ fingerprint t).map Prod.fst).getD 0 = _
        unfold freshStamp
        simp only [stampFailure, ne_eq, not_true_eq_false, if_false]
        rw [if_neg (by omega)]
        change (if stampedAttempts c.entry fingerprint now + 1 ≥ 1 then
          stampedAttempts c.entry fingerprint now + 1 else maxRegenAttempts) = _
        rw [if_pos (by omega)]
      rw [if_pos ⟨rfl, hage⟩, hfresh]
      omega
    · rw [if_neg hd]
      exact (stamped_start _).covers d t
  bounded d t rest hs := by
    rcases List.suffix_cons_iff.mp hs with he | hs
    · obtain ⟨he, rfl⟩ := List.cons.inj he
      cases he
      exact hroom
    · exact h.bounded d t rest hs

/-! ## One run -/

/-- One run at most, and it spawns only with budget left. -/
structure Sound (now : ℕ) (c : RegenConf D) : Prop where
  single : (c.runs = [] ∧ c.pending = false) ∨ ∃ r, c.runs = [r] ∧ c.pending = true
  stamped : Stamped c.entry c.log
  spawning : ∀ stored current, .spawned stored current ∈ c.runs → streak current now c.log < maxRegenAttempts

theorem Sound.run (h : Sound now c) {r : RegenRun D} (hr : c.runs[i]? = some r) : c.runs = [r] ∧ i = 0 := by
  rcases h.single with ⟨hruns, -⟩ | ⟨r', hruns, -⟩
  · rw [hruns] at hr
    exact absurd hr nofun
  · rw [hruns] at hr ⊢
    obtain ⟨hi, rfl⟩ := List.getElem?_eq_some_iff.mp hr
    have : i = 0 := by simpa using hi
    subst this
    exact ⟨rfl, rfl⟩

theorem Sound.pending (h : Sound now c) {r : RegenRun D} (hr : c.runs[i]? = some r) : c.pending = true := by
  obtain ⟨hone, -⟩ := h.run hr
  rcases h.single with ⟨hnil, -⟩ | ⟨-, -, hp⟩
  · rw [hone] at hnil
    exact absurd hnil nofun
  · exact hp

/-- What touches neither the runs nor the stamp. -/
theorem Sound.congr (h : Sound now c) (hruns : c'.runs = c.runs) (hpending : c'.pending = c.pending)
    (hlog : c'.log = c.log) (hstamp : Stamped c'.entry c'.log) : Sound now c' where
  single := by
    rw [hruns, hpending]
    exact h.single
  stamped := hstamp
  spawning stored current hm := by
    rw [hlog]
    rw [hruns] at hm
    exact h.spawning stored current hm

/-- The run goes to its next await. -/
theorem Sound.move (h : Sound now c) {r r' : RegenRun D} (hr : c.runs[i]? = some r) (hstamp : Stamped c'.entry c'.log)
    (hruns : c'.runs = c.runs.set i r') (hpending : c'.pending = c.pending)
    (hroom : ∀ stored current, r' = .spawned stored current → streak current now c'.log < maxRegenAttempts) :
    Sound now c' := by
  have hp := h.pending hr
  obtain ⟨hone, rfl⟩ := h.run hr
  have hnew : c'.runs = [r'] := by rw [hruns, hone]; rfl
  refine ⟨.inr ⟨r', hnew, hpending.trans hp⟩, hstamp, fun stored current hm => ?_⟩
  rw [hnew, List.mem_singleton] at hm
  exact hroom stored current hm.symm

omit [DecidableEq D] in
@[simp] theorem schedule_entry : (c.schedule ctx locked).1.entry = c.entry := by
  unfold schedule
  split_ifs <;> rfl

omit [DecidableEq D] in
@[simp] theorem schedule_log : (c.schedule ctx locked).1.log = c.log := by
  unfold schedule
  split_ifs <;> rfl

omit [DecidableEq D] in
@[simp] theorem schedule_askedContent : (c.schedule ctx locked).1.askedContent = c.askedContent := by
  unfold schedule
  split_ifs <;> rfl

theorem sound_schedule (h : Sound now c) : Sound now (c.schedule ctx locked).1 := by
  unfold schedule
  by_cases hs : ctx.isSecretsFile = true
  · rw [if_pos hs]
    exact h
  rw [if_neg hs]
  by_cases he : ctx.esphomeCmd = []
  · rw [if_pos he]
    exact h
  rw [if_neg he]
  by_cases hp : c.pending = true
  · rw [if_pos hp]
    exact h
  rw [if_neg hp]
  rcases h.single with ⟨hnil, -⟩ | ⟨r, -, hp'⟩
  · dsimp only
    generalize hrun : (if locked = true then RegenRun.waiting c.entry.contentFingerprint
      else .reading c.entry.contentFingerprint c.knownDependencies) = run
    refine ⟨.inr ⟨run, ?_, rfl⟩, h.stamped, fun stored current hm => ?_⟩
    · show c.runs ++ [run] = [run]
      rw [hnil]
      rfl
    · -- the new run waits or reads
      change _ ∈ c.runs ++ [run] at hm
      rw [hnil, List.nil_append, List.mem_singleton] at hm
      rw [← hm] at hrun
      split at hrun <;> exact absurd hrun nofun
  · exact absurd hp' hp

omit [DecidableEq D] in
theorem pending_schedule (hs : ctx.isSecretsFile = false) (he : ctx.esphomeCmd ≠ []) :
    (c.schedule ctx locked).1.pending = true := by
  unfold schedule
  rw [if_neg (by rw [hs]; nofun), if_neg he]
  by_cases hp : c.pending = true
  · rw [if_pos hp]
    exact hp
  · rw [if_neg hp]

/-! ## Who looks after a configuration -/

/-- The store has the content that the latest asking scan read. -/
def Known (c : RegenConf D) : Prop := ∀ o, c.askedContent = some o → c.entry.contentFingerprint = some o

/-- The last run since the latest ask found no YAML; or it succeeded on that ask's content, or the digest on record is
the one under which it began. -/
def Served (c : RegenConf D) : Prop :=
  c.ended = some .vanished ∨ ∃ stored current, c.ended = some (.succeeded stored current) ∧
    ∀ o, c.askedContent = some o → o = current ∨ c.entry.contentFingerprint = stored

/-- A configuration that was asked for has a run, a timer, or what it asked for. -/
def Tended (ctx : RegenContext) (c : RegenConf D) : Prop :=
  ctx.isSecretsFile = false → ctx.esphomeCmd ≠ [] → c.asked = true →
    c.pending = true ∨ c.retryTimer.isSome = true ∨ Served c

omit [DecidableEq D] in
theorem tended_schedule : Tended ctx (c.schedule ctx locked).1 :=
  fun hs he _ => .inl (pending_schedule hs he)

omit [DecidableEq D] in
theorem Tended.congr (h : Tended ctx c) (hasked : c'.asked = c.asked) (hcontent : c'.askedContent = c.askedContent)
    (hended : c'.ended = c.ended) (hpending : c'.pending = c.pending) (htimer : c'.retryTimer = c.retryTimer)
    (hstored : c'.entry.contentFingerprint = c.entry.contentFingerprint) : Tended ctx c' := by
  intro hs he ha
  rw [hasked] at ha
  have ht := h hs he ha
  unfold Served at ht ⊢
  rw [hcontent, hended, hpending, htimer, hstored]
  exact ht

/-- The run that ends is the only one. -/
theorem Sound.last (h : Sound now c) {r : RegenRun D} (hr : c.runs[i]? = some r) : c.runs.eraseIdx i = [] := by
  obtain ⟨hone, rfl⟩ := h.run hr
  rw [hone]
  rfl

theorem sound_finish (hstamp : Stamped c.entry c.log) (hlast : c.runs.eraseIdx i = [])
    (spawned : Option (Option D × D)) (how : RunEnd D) : Sound now (c.finish ctx locked i spawned how).1 := by
  have hended : Sound now { c with pending := false, runs := c.runs.eraseIdx i, ended := some how } :=
    ⟨.inl ⟨hlast, rfl⟩, hstamp, fun stored current hm => by
      change _ ∈ c.runs.eraseIdx i at hm
      rw [hlast] at hm
      exact absurd hm List.not_mem_nil⟩
  unfold finish
  cases spawned with
  | none => exact hended
  | some p =>
    obtain ⟨stored, current⟩ := p
    dsimp only
    split
    · exact sound_schedule (hended.congr rfl rfl rfl hstamp)
    · exact hended

@[simp] theorem finish_entry (spawned : Option (Option D × D)) (how : RunEnd D) :
    (c.finish ctx locked i spawned how).1.entry = c.entry := by
  unfold finish
  cases spawned with
  | none => rfl
  | some p =>
    dsimp only
    split
    · rw [schedule_entry]
      rfl
    · rfl

@[simp] theorem finish_askedContent (spawned : Option (Option D × D)) (how : RunEnd D) :
    (c.finish ctx locked i spawned how).1.askedContent = c.askedContent := by
  unfold finish
  cases spawned with
  | none => rfl
  | some p =>
    dsimp only
    split
    · rw [schedule_askedContent]
      rfl
    · rfl

theorem known_finish (h : Known c) (spawned : Option (Option D × D)) (how : RunEnd D) :
    Known (c.finish ctx locked i spawned how).1 := by
  intro o ho
  rw [finish_askedContent] at ho
  rw [finish_entry]
  exact h o ho

theorem digestMoved_eq_false {md : RegenEntry D} {before : Option D} {current after : D}
    (h : digestMoved md before current = false) (ha : md.contentFingerprint = some after) :
    after = current ∨ md.contentFingerprint = before := by
  unfold digestMoved at h
  rw [ha] at h
  by_cases hc : after = current
  · exact .inl hc
  · refine .inr (ha.trans ?_)
    by_contra hb
    simp [hb, hc] at h

/-- A run that ended without a digest: the YAML is gone, or a timer is armed. -/
theorem tended_finish_unspawned {how : RunEnd D}
    (h : how = .vanished ∨ c.retryTimer.isSome = true) : Tended ctx (c.finish ctx locked i none how).1 := by
  intro _ _ _
  rcases h with rfl | h
  · exact .inr (.inr (.inl rfl))
  · exact .inr (.inl h)

/-- A run that spawned: it runs again when the digest on record has moved; else it armed a timer or has succeeded. -/
theorem tended_finish_spawned (hknown : Known c) {stored : Option D} {current : D} {how : RunEnd D}
    (h : c.retryTimer.isSome = true ∨ how = .succeeded stored current) :
    Tended ctx (c.finish ctx locked i (some (stored, current)) how).1 := by
  unfold finish
  dsimp only
  split
  · exact tended_schedule
  · rename_i hmoved
    have hstill : digestMoved c.entry stored current = false := by simpa using hmoved
    intro _ _ _
    rcases h with h | rfl
    · exact .inr (.inl h)
    · exact .inr (.inr (.inr ⟨stored, current, rfl, fun o ho => digestMoved_eq_false hstill (hknown o ho)⟩))

omit [DecidableEq D] in
theorem isSome_armTtlRecheck (age : ℕ) : (c.armTtlRecheck age).retryTimer.isSome = true := by
  unfold armTtlRecheck
  split
  · assumption
  · rfl

/-- Everything that holds of a configuration at every moment. -/
structure Good (ctx : RegenContext) (now : ℕ) (c : RegenConf D) : Prop where
  sound : Sound now c
  known : Known c
  tended : Tended ctx c

theorem good_finish_unspawned {how : RunEnd D} (hstamp : Stamped c.entry c.log) (hlast : c.runs.eraseIdx i = [])
    (hknown : Known c) (h : how = .vanished ∨ c.retryTimer.isSome = true) :
    Good ctx now (c.finish ctx locked i none how).1 :=
  ⟨sound_finish hstamp hlast none how, known_finish hknown none how, tended_finish_unspawned h⟩

theorem good_finish_spawned {stored : Option D} {current : D} {how : RunEnd D} (hstamp : Stamped c.entry c.log)
    (hlast : c.runs.eraseIdx i = []) (hknown : Known c)
    (h : c.retryTimer.isSome = true ∨ how = .succeeded stored current) :
    Good ctx now (c.finish ctx locked i (some (stored, current)) how).1 :=
  ⟨sound_finish hstamp hlast _ how, known_finish hknown _ how, tended_finish_spawned hknown h⟩

/-! ## The awaits of a run -/

theorem good_judge (h : Good ctx now c) {stored : Option D} {source : SourceRead D}
    (hr : c.runs[i]? = some (.judging stored source)) : Good ctx now (c.judge ctx i stored source now).1 := by
  have hstamped := h.sound.stamped
  have hlast := h.sound.last hr
  unfold judge
  cases source with
  | vanished => exact good_finish_unspawned hstamped hlast h.known (.inl rfl)
  | unreadable => exact good_finish_unspawned hstamped hlast h.known (.inr rfl)
  | digest current =>
    -- the spawn of a digest whose stamp has room
    have hspawn (hroom : stampedAttempts c.entry current now < maxRegenAttempts) :
        Good ctx now { c.clearStrikes with runs := c.runs.set i (.spawned stored current) } := by
      refine ⟨h.sound.move hr hstamped rfl rfl ?_, h.known, h.tended.congr rfl rfl rfl rfl rfl rfl⟩
      rintro _ _ ⟨⟩
      have hcovers := hstamped.covers current now
      change streak current now c.log < _
      omega
    dsimp only
    cases hstamp : freshStamp c.clearStrikes.entry current now with
    | none =>
      refine hspawn ?_
      change freshStamp c.entry current now = none at hstamp
      unfold stampedAttempts
      rw [hstamp]
      decide
    | some p =>
      obtain ⟨attempts, age⟩ := p
      change freshStamp c.entry current now = some (attempts, age) at hstamp
      dsimp only
      by_cases hspent : attempts ≥ maxRegenAttempts
      · rw [if_pos hspent]
        have htimer := isSome_armTtlRecheck (c := c.clearStrikes) age
        revert htimer
        unfold armTtlRecheck
        split <;> exact fun htimer => good_finish_unspawned hstamped hlast h.known (.inr htimer)
      · rw [if_neg hspent]
        by_cases hwait : delayFor attempts > age
        · rw [if_pos hwait]
          exact good_finish_unspawned hstamped hlast h.known (.inr rfl)
        · rw [if_neg hwait]
          refine hspawn ?_
          have hattempts : stampedAttempts c.entry current now = attempts := by
            unfold stampedAttempts
            rw [hstamp]
            rfl
          omega

theorem good_generated (h : Good ctx now c) {stored : Option D} {current : D}
    (hr : c.runs[i]? = some (.spawned stored current)) (success : Bool) :
    Good ctx now (c.generated ctx i stored current success now).1 := by
  unfold generated
  cases success with
  | true =>
    -- the timer is dropped while the run is pending
    exact ⟨h.sound.move hr h.sound.stamped rfl rfl nofun, h.known, fun _ _ _ => .inl (h.sound.pending hr)⟩
  | false =>
    have hroom := h.sound.spawning stored current (List.mem_of_getElem? hr)
    have hstamp := stamped_stampFailure h.sound.stamped current hroom
    have hlast := h.sound.last hr
    dsimp only
    by_cases hmore : (c.stampFailure current now).2 < maxRegenAttempts
    · rw [if_pos hmore]
      exact good_finish_spawned hstamp hlast h.known (.inl rfl)
    · rw [if_neg hmore]
      have htimer := isSome_armTtlRecheck (c := (c.stampFailure current now).1) 0
      revert htimer
      unfold armTtlRecheck
      split <;> exact fun htimer => good_finish_spawned hstamp hlast h.known (.inl htimer)

theorem good_advance (h : Good ctx now c) (reply : RunReply D) :
    Good ctx now (c.advance ctx locked i reply now).1 := by
  unfold advance
  cases hr : c.runs[i]? with
  | none => exact h
  | some r =>
    have hstamped := h.sound.stamped
    have hlast := h.sound.last hr
    cases r with
    | waiting stored =>
      dsimp only
      cases locked with
      | true => exact h
      | false => exact ⟨h.sound.move hr hstamped rfl rfl nofun, h.known, h.tended.congr rfl rfl rfl rfl rfl rfl⟩
    | reading stored dependencies =>
      exact ⟨h.sound.move hr hstamped rfl rfl nofun, h.known, h.tended.congr rfl rfl rfl rfl rfl rfl⟩
    | judging stored source => exact good_judge h hr
    | spawned stored current => exact good_generated h hr reply.success
    | finalizing stored current =>
      dsimp only
      cases reply.raises with
      | true => exact good_finish_spawned hstamped hlast h.known (.inr rfl)
      | false =>
        have hstored : (c.finalizeSuccess current reply.newHash).entry.contentFingerprint =
            c.entry.contentFingerprint := by
          unfold finalizeSuccess
          cases reply.newHash <;> rfl
        refine ⟨h.sound.move hr hstamped.cleared rfl rfl nofun, fun o ho => hstored.trans (h.known o ho), ?_⟩
        exact h.tended.congr rfl rfl rfl rfl rfl hstored
    | reloading stored current => exact good_finish_spawned hstamped hlast h.known (.inr rfl)

/-! ## Scan changes -/

theorem sound_ask (h : Sound now c) (observed : Option D) : Sound now (c.ask ctx locked observed).1 :=
  sound_schedule (h.congr rfl rfl rfl h.stamped)

omit [DecidableEq D] in
@[simp] theorem ask_log (observed : Option D) : (c.ask ctx locked observed).1.log = c.log := schedule_log

omit [DecidableEq D] in
@[simp] theorem ask_askedContent (observed : Option D) :
    (c.ask ctx locked observed).1.askedContent = (observed <|> c.askedContent) := schedule_askedContent

theorem Sound.seedDependencies (h : Sound now c) (device : ScannedDevice D) : Sound now (c.seedDependencies device) := by
  unfold RegenConf.seedDependencies
  split
  · exact h
  · exact h.congr rfl rfl rfl (stamped_congr h.stamped rfl rfl rfl)

omit [DecidableEq D] in
theorem Known.seedDependencies (h : Known c) (device : ScannedDevice D) : Known (c.seedDependencies device) := by
  unfold RegenConf.seedDependencies
  split <;> exact h

omit [DecidableEq D] in
theorem Tended.seedDependencies (h : Tended ctx c) (device : ScannedDevice D) :
    Tended ctx (c.seedDependencies device) := by
  unfold RegenConf.seedDependencies
  split
  · exact h
  · exact h.congr rfl rfl rfl rfl rfl rfl

/-- What a scan does with the digest it read: nothing when the store has it or it read none, a first store, or an ask
and a store. -/
theorem syncContentFingerprint_cases (ctx : RegenContext) (c : RegenConf D) (locked : Bool)
    (device : ScannedDevice D) :
    ((c.syncContentFingerprint ctx locked device).1 = c.seedDependencies device ∧
      ∀ d, device.contentFingerprint = some d → (c.seedDependencies device).entry.contentFingerprint = some d) ∨
    ∃ d, device.contentFingerprint = some d ∧
      ((c.seedDependencies device).entry.contentFingerprint = none ∧
          (c.syncContentFingerprint ctx locked device).1 = (c.seedDependencies device).storeContentFingerprint d ∨
        (c.syncContentFingerprint ctx locked device).1 =
          ((c.seedDependencies device).ask ctx locked (some d)).1.storeContentFingerprint d) := by
  unfold syncContentFingerprint
  dsimp only
  cases hd : device.contentFingerprint with
  | none => exact .inl ⟨rfl, nofun⟩
  | some d =>
    dsimp only
    cases hs : (c.seedDependencies device).entry.contentFingerprint with
    | none => exact .inr ⟨d, rfl, .inl ⟨rfl, rfl⟩⟩
    | some stored =>
      dsimp only
      by_cases hsame : stored = d
      · rw [if_pos hsame, hsame]
        exact .inl ⟨rfl, fun _ h => h⟩
      · rw [if_neg hsame]
        exact .inr ⟨d, rfl, .inr rfl⟩

theorem Sound.storeContentFingerprint (h : Sound now c) (d : D) : Sound now (c.storeContentFingerprint d) :=
  h.congr rfl rfl rfl (stamped_congr h.stamped rfl rfl rfl)

theorem Sound.syncContentFingerprint (h : Sound now c) (device : ScannedDevice D) :
    Sound now (c.syncContentFingerprint ctx locked device).1 := by
  have hseed := h.seedDependencies device
  rcases syncContentFingerprint_cases ctx c locked device with
    ⟨heq, -⟩ | ⟨d, -, ⟨-, heq⟩ | heq⟩
  · rw [heq]
    exact hseed
  · rw [heq]
    exact hseed.storeContentFingerprint d
  · rw [heq]
    exact (sound_ask hseed _).storeContentFingerprint d

omit [DecidableEq D] in
/-- Nothing was asked for with a content before one is on record. -/
theorem Known.askedContent_eq_none (h : Known c) (hs : c.entry.contentFingerprint = none) : c.askedContent = none := by
  cases ho : c.askedContent with
  | none => rfl
  | some o => exact absurd (hs.symm.trans (h o ho)) nofun

theorem Known.syncContentFingerprint (h : Known c) (device : ScannedDevice D) :
    Known (c.syncContentFingerprint ctx locked device).1 := by
  have hseed := h.seedDependencies device
  rcases syncContentFingerprint_cases ctx c locked device with
    ⟨heq, -⟩ | ⟨d, -, ⟨hs, heq⟩ | heq⟩
  · rw [heq]
    exact hseed
  · rw [heq]
    exact fun o ho => absurd ((hseed.askedContent_eq_none hs).symm.trans ho) nofun
  · rw [heq]
    intro o ho
    change ((c.seedDependencies device).ask ctx locked (some d)).1.askedContent = some o at ho
    rw [ask_askedContent] at ho
    exact ho

theorem Tended.syncContentFingerprint (h : Tended ctx c) (hknown : Known c) (device : ScannedDevice D) :
    Tended ctx (c.syncContentFingerprint ctx locked device).1 := by
  have hseed := h.seedDependencies device
  rcases syncContentFingerprint_cases ctx c locked device with
    ⟨heq, -⟩ | ⟨d, -, ⟨hs, heq⟩ | heq⟩
  · rw [heq]
    exact hseed
  · rw [heq]
    have hnone := (hknown.seedDependencies device).askedContent_eq_none hs
    intro hf he ha
    rcases hseed hf he ha with hp | ht | hv | ⟨stored, current, hended, -⟩
    · exact .inl hp
    · exact .inr (.inl ht)
    · exact .inr (.inr (.inl hv))
    · exact .inr (.inr (.inr ⟨stored, current, hended, fun o ho => absurd (hnone.symm.trans ho) nofun⟩))
  · rw [heq]
    exact fun hf he _ => .inl (pending_schedule hf he)

end RegenConf

/-! ## Runs -/

namespace RegenWorld

open RegenConf

variable {isSecretsFile : F → Bool} {esphomeCmd : List String} {entry : F → RegenEntry D} {w : RegenWorld F D}

/-- A run of `lamp.yaml` that has the lock reads the content and spawns the generator. -/
def generates (content : ℕ) : List (RegenAction String ℕ) :=
  [.advance "lamp.yaml" 0 { source := fun _ => .digest content }, .advance "lamp.yaml" 0 {}]

def fails (content : ℕ) : List (RegenAction String ℕ) :=
  generates content ++ [.advance "lamp.yaml" 0 { success := false }]

def scanned (kind : ScanChange) (content : ℕ) : RegenAction String ℕ :=
  .scan "lamp.yaml" kind { contentFingerprint := some content }

def lampRun (entry : RegenEntry ℕ) (as : List (RegenAction String ℕ)) : RegenWorld String ℕ :=
  as.foldl (step fun _ => false) (start ["esphome"] fun _ => entry)

/-- An edit from `0` to `1`, whose run reads `1`, is taken back while the generator runs. -/
def revertedEdit : List (RegenAction String ℕ) :=
  [scanned .updated 1] ++ generates 1 ++
    [scanned .updated 0, .advance "lamp.yaml" 0 {}, .advance "lamp.yaml" 0 {}, .advance "lamp.yaml" 0 {}]

/-- The content on disk is `0` again, and the generator has run for `1` alone. -/
theorem revert_unserved :
    let c := (lampRun { contentFingerprint := some 0 } revertedEdit).conf "lamp.yaml"
    c.askedContent = some 0 ∧ c.pending = false ∧ c.retryTimer = none ∧ c.ended = some (.succeeded (some 0) 1) := by
  decide +kernel

end RegenWorld
end DeviceBuilder.Devices
