import DeviceBuilder.Lib.Runs
import DeviceBuilder.VersionHistory.Controller

/-!
# No queued edit is lost from the version history

* `Held`: where an edit that waits for its commit is.
* `Good`: the invariant of the queue, its task and the flushes.
* `history_kept`: on every run an edit queued with auto-commit on waits in the queue, with a
  task or the stop to flush it, or in the batch of a flush; it stops waiting only when its
  file is committed as it is on disk, discarded, or when auto-commit is turned off.
-/

namespace DeviceBuilder.VersionHistory.HistoryWorld

open Runs

variable {F C : Type} {w : HistoryWorld F C}

/-- The edit of a file is out of the queue: a flush has taken it, or its cancelled git thread. -/
def InHand (w : HistoryWorld F C) (f : F) : Prop :=
  (∃ (i : ℕ) (x : Flush F), w.flushes[i]? = some x ∧ f ∈ x.phase.batch) ∨ f ∈ w.threads ∨ w.lost f = true

def Held (w : HistoryWorld F C) (f : F) : Prop := f ∈ w.pending ∨ InHand w f

theorem flushRunning_iff : w.flushRunning = true ↔
    ∃ i x, w.flushTask = some i ∧ w.flushes[i]? = some x ∧ x.phase.live = true := by
  unfold flushRunning
  cases h : w.flushTask with
  | none => simp
  | some i =>
    dsimp only
    cases hx : w.flushes[i]? with
    | none =>
      constructor
      · exact nofun
      · rintro ⟨j, y, hj, hy, _⟩
        cases hj
        exact absurd (hx.symm.trans hy) nofun
    | some x =>
      constructor
      · exact fun hlive => ⟨i, x, rfl, hx, hlive⟩
      · rintro ⟨j, y, hj, hy, hlive⟩
        cases hj
        cases hx.symm.trans hy
        exact hlive

/-- The queue and the flushes on every run. -/
structure Good (w : HistoryWorld F C) : Prop where
  owed : ∀ f, w.owed f = true → w.enabled = true ∧ w.autoCommit = true ∧ Held w f
  listening : w.listening = true → w.enabled = true
  /-- What is queued will be flushed. -/
  queue : w.pending ≠ [] → w.flushRunning = true ∨ w.stopping = true
  task : ∀ i, w.flushTask = some i → ∃ x, w.flushes[i]? = some x ∧ x.owner = .task

/-! ## The phases of a flush -/

theorem getElem?_setPhase (i j : ℕ) (phase : FlushPhase F) : (w.setPhase i phase).flushes[j]? =
    if i = j then (w.flushes[j]?).map fun x => { x with phase } else w.flushes[j]? := by
  unfold setPhase
  dsimp only
  rw [List.getElem?_modify]
  split <;> cases w.flushes[j]? <;> rfl

theorem getElem?_setPhase_self {i : ℕ} {x : Flush F} (h : w.flushes[i]? = some x) (phase : FlushPhase F) :
    (w.setPhase i phase).flushes[i]? = some { x with phase } := by
  rw [getElem?_setPhase, if_pos rfl, h]
  rfl

theorem getElem?_setPhase_ne {i j : ℕ} (h : i ≠ j) (phase : FlushPhase F) :
    (w.setPhase i phase).flushes[j]? = w.flushes[j]? := by
  rw [getElem?_setPhase, if_neg h]

theorem setPhase_done {i j : ℕ} {o : FlushOwner F} {phase : FlushPhase F} (hp : phase ≠ .done)
    (h : (w.setPhase i phase).flushes[j]? = some ⟨o, .done⟩) : w.flushes[j]? = some ⟨o, .done⟩ := by
  by_cases hij : i = j
  · subst hij
    cases hx : w.flushes[i]? with
    | none =>
      rw [getElem?_setPhase, if_pos rfl, hx] at h
      exact absurd h nofun
    | some x =>
      rw [getElem?_setPhase_self hx] at h
      injection h with h
      injection h with _ h
      exact absurd h hp
  · rwa [getElem?_setPhase_ne hij] at h

/-- A flush moves on, with the queue: what it had taken, and what was queued, is in its batch or queued. -/
theorem Good.move (h : Good w) {i : ℕ} {x : Flush F} (hx : w.flushes[i]? = some x) (pending : List F)
    (phase : FlushPhase F)
    (kept : ∀ f, w.owed f = true → f ∈ w.pending ∨ f ∈ x.phase.batch → f ∈ pending ∨ f ∈ phase.batch)
    (queue : pending ≠ [] → w.pending ≠ [] ∧ (phase.live = true ∨ w.flushTask ≠ some i)) :
    Good ({ w with pending }.setPhase i phase) := by
  have hself : ({ w with pending } : HistoryWorld F C).flushes[i]? = some x := hx
  refine ⟨fun f hf => ?_, h.listening, fun hne => ?_, fun j hj => ?_⟩
  · obtain ⟨he, ha, hheld⟩ := h.owed f hf
    refine ⟨he, ha, ?_⟩
    have now : f ∈ w.pending ∨ f ∈ x.phase.batch → Held ({ w with pending }.setPhase i phase) f := by
      intro hm
      rcases kept f hf hm with hp | hb
      · exact .inl hp
      · exact .inr (.inl ⟨i, _, getElem?_setPhase_self hself phase, hb⟩)
    rcases hheld with hp | ⟨j, y, hy, hm⟩ | ht | hl
    · exact now (.inl hp)
    · by_cases hij : i = j
      · subst hij
        rw [hx] at hy
        cases hy
        exact now (.inr hm)
      · have hy' : ({ w with pending }.setPhase i phase).flushes[j]? = some y := by
          rw [getElem?_setPhase_ne hij]
          exact hy
        exact .inr (.inl ⟨j, y, hy', hm⟩)
    · exact .inr (.inr (.inl ht))
    · exact .inr (.inr (.inr hl))
  · obtain ⟨hold, hlive⟩ := queue hne
    rcases h.queue hold with hrun | hstop
    · obtain ⟨j, y, hj, hy, hl⟩ := flushRunning_iff.1 hrun
      refine .inl (flushRunning_iff.2 ?_)
      by_cases hij : i = j
      · subst hij
        rcases hlive with hlive | hlive
        · exact ⟨i, _, hj, getElem?_setPhase_self hself phase, hlive⟩
        · exact absurd hj hlive
      · refine ⟨j, y, hj, ?_, hl⟩
        rw [getElem?_setPhase_ne hij]
        exact hy
    · exact .inr hstop
  · obtain ⟨y, hy, ho⟩ := h.task j hj
    by_cases hij : i = j
    · subst hij
      rw [hx] at hy
      cases hy
      exact ⟨_, getElem?_setPhase_self hself phase, ho⟩
    · refine ⟨y, ?_, ho⟩
      rw [getElem?_setPhase_ne hij]
      exact hy

theorem Good.setPhase (h : Good w) {i : ℕ} {x : Flush F} (hx : w.flushes[i]? = some x) {phase : FlushPhase F}
    (hlive : phase.live = true) (kept : ∀ f, w.owed f = true → f ∈ x.phase.batch → f ∈ phase.batch) :
    Good (w.setPhase i phase) :=
  h.move hx w.pending phase (fun f hf hm => hm.imp_right (kept f hf)) (fun hne => ⟨hne, .inl hlive⟩)

/-- What `_flush_pending` does after an entry. -/
inductive Advances (w : HistoryWorld F C) (i : ℕ) : List F → HistoryWorld F C → Prop
  | next (file : F) (rest : List F) : Advances w i (file :: rest) (w.setPhase i (.waiting file rest))
  | queue (file : F) (rest : List F) (h : w.pending = file :: rest) :
      Advances w i [] ({ w with pending := [] }.setPhase i (.waiting file rest))
  | done (h : w.pending = []) : Advances w i [] (w.setPhase i .done)
  | drop (rest : List F) (h : w.committing = false) :
      Advances w i rest ({ w with pending := [] }.setPhase i .done)

theorem advances (w : HistoryWorld F C) (i : ℕ) (rest : List F) : Advances w i rest (w.advance i rest) := by
  unfold advance
  split
  · cases rest with
    | cons file rest => exact .next file rest
    | nil =>
      dsimp only
      split
      · exact .queue _ _ ‹_›
      · exact .done ‹_›
  · rename_i hc
    exact .drop rest (Bool.eq_false_iff.2 hc)

/-- A flush goes on from an entry. -/
theorem Good.advance (h : Good w) {i : ℕ} {x : Flush F} (hx : w.flushes[i]? = some x) {rest : List F}
    (hrest : ∀ f ∈ x.phase.batch, f ∈ rest) : Good (w.advance i rest) := by
  have step := advances w i rest
  generalize w.advance i rest = w' at step
  cases step with
  | next file rest => exact h.setPhase hx rfl fun f _ hm => hrest f hm
  | queue file rest hp =>
    refine h.move hx [] _ (fun f _ hm => .inr ?_) (fun hne => absurd rfl hne)
    rcases hm with hm | hm
    · rwa [hp] at hm
    · exact absurd (hrest f hm) List.not_mem_nil
  | done hp =>
    refine h.move hx w.pending .done (fun f _ hm => .inl ?_) (fun hne => absurd hp hne)
    rcases hm with hm | hm
    · exact hm
    · exact absurd (hrest f hm) List.not_mem_nil
  | drop rest hc =>
    refine h.move hx [] .done (fun f hf _ => ?_) (fun hne => absurd rfl hne)
    -- nothing is owed while auto-commit is off
    obtain ⟨he, ha, _⟩ := h.owed f hf
    rw [committing, he, ha] at hc
    exact absurd hc nofun

/-- A flush ends with nothing queued. -/
theorem advance_done {i j : ℕ} {rest : List F} {o : FlushOwner F}
    (h : (w.advance i rest).flushes[j]? = some ⟨o, .done⟩) :
    w.flushes[j]? = some ⟨o, .done⟩ ∨ (w.advance i rest).pending = [] := by
  have step := advances w i rest
  generalize w.advance i rest = w' at step h
  cases step with
  | next file rest => exact .inl (setPhase_done (by nofun) h)
  | queue file rest hp => exact .inr rfl
  | done hp => exact .inr hp
  | drop rest hc => exact .inr rfl

/-- Nothing is recorded, and nothing settled. -/
def Quiet (w w' : HistoryWorld F C) : Prop :=
  (∀ f, w.owed f = true → w'.owed f = true) ∧ w'.versions = w.versions

theorem Quiet.of_eq {w' : HistoryWorld F C} (h : w'.owed = w.owed ∧ w'.versions = w.versions) : Quiet w w' := by
  refine ⟨fun f hf => ?_, h.2⟩
  rw [h.1]
  exact hf

theorem frame_advance (i : ℕ) (rest : List F) :
    (w.advance i rest).owed = w.owed ∧ (w.advance i rest).versions = w.versions := by
  have step := advances w i rest
  generalize w.advance i rest = w' at step
  cases step <;> exact ⟨rfl, rfl⟩

theorem frame_startFlush (owner : FlushOwner F) :
    (w.startFlush owner).owed = w.owed ∧ (w.startFlush owner).versions = w.versions := by
  have h := @frame_advance _ _ { w with flushes := w.flushes ++ [{ owner, phase := .done }] } w.flushes.length []
  exact h

/-! ## A new flush, and one that is cancelled -/

/-- A flush that begins; it is the task when there was none. -/
theorem Good.push (h : Good w) (x : Flush F) : Good { w with flushes := w.flushes ++ [x] } := by
  have old : ∀ (i : ℕ) (y : Flush F), w.flushes[i]? = some y → (w.flushes ++ [x])[i]? = some y := by
    intro i y hy
    rw [List.getElem?_append_left (List.getElem?_eq_some_iff.1 hy).1]
    exact hy
  refine ⟨fun f hf => ?_, h.listening, fun hne => ?_, fun i hi => ?_⟩
  · obtain ⟨he, ha, hheld⟩ := h.owed f hf
    refine ⟨he, ha, ?_⟩
    rcases hheld with hp | ⟨i, y, hy, hm⟩ | ho
    · exact .inl hp
    · exact .inr (.inl ⟨i, y, old i y hy, hm⟩)
    · exact .inr (.inr ho)
  · rcases h.queue hne with hrun | hstop
    · obtain ⟨i, y, hi, hy, hl⟩ := flushRunning_iff.1 hrun
      exact .inl (flushRunning_iff.2 ⟨i, y, hi, old i y hy, hl⟩)
    · exact .inr hstop
  · obtain ⟨y, hy, ho⟩ := h.task i hi
    exact ⟨y, old i y hy, ho⟩

theorem Good.startFlush (h : Good w) (owner : FlushOwner F) : Good (w.startFlush owner) := by
  have hx : (w.flushes ++ [{ owner, phase := .done }])[w.flushes.length]? = some ⟨owner, .done⟩ := by simp
  unfold HistoryWorld.startFlush
  exact (h.push ⟨owner, .done⟩).advance hx fun f hm => absurd hm List.not_mem_nil

/-- A flush that begins takes the whole queue, with auto-commit on or off. -/
theorem pending_startFlush (owner : FlushOwner F) : (w.startFlush owner).pending = [] := by
  unfold startFlush
  dsimp only
  unfold advance
  split
  · dsimp only
    split
    · rfl
    · assumption
  · rfl

/-- The last flush of a stop: it need not be on its way any more. -/
theorem Good.stopFlush (h : Good w) (hs : w.stopping = true) : Good w.stopFlush := by
  have hg := h.startFlush .stop
  have same : w.stopFlush = { w.startFlush .stop with stopping := false } := by
    unfold HistoryWorld.stopFlush HistoryWorld.startFlush HistoryWorld.advance committing
    rw [if_pos hs]
    dsimp only
    cases hc : (w.enabled && w.autoCommit) with
    | false => rfl
    | true => cases hp : w.pending <;> rfl
  rw [same]
  refine ⟨hg.owed, hg.listening, fun hne => absurd ?_ hne, hg.task⟩
  exact pending_startFlush .stop

variable [DecidableEq F]

/-- A flush other than the task is cancelled: its batch is on record as lost. -/
theorem Good.cancelFlush (h : Good w) {i : ℕ} (hi : w.flushTask ≠ some i) : Good (w.cancelFlush i) := by
  unfold HistoryWorld.cancelFlush
  split
  · exact h
  · rename_i x hx
    -- every flush but this one stays as it is
    have other : ∀ (j : ℕ) (y : Flush F), i ≠ j → w.flushes[j]? = some y →
        (w.setPhase i .ended).flushes[j]? = some y := by
      intro j y hij hy
      rw [getElem?_setPhase_ne hij]
      exact hy
    refine ⟨fun f hf => ?_, h.listening, fun hne => ?_, fun j hj => ?_⟩
    · obtain ⟨he, ha, hheld⟩ := h.owed f hf
      refine ⟨he, ha, ?_⟩
      rcases hheld with hp | ⟨j, y, hy, hm⟩ | ht | hl
      · exact .inl hp
      · by_cases hij : i = j
        · subst hij
          cases hx.symm.trans hy
          refine .inr (.inr (.inr ?_))
          simp [HistoryWorld.setPhase, hm]
        · exact .inr (.inl ⟨j, y, other j y hij hy, hm⟩)
      · refine .inr (.inr (.inl ?_))
        dsimp only [HistoryWorld.setPhase]
        split
        · exact List.mem_append_left _ ht
        · exact ht
      · refine .inr (.inr (.inr ?_))
        simp [HistoryWorld.setPhase, hl]
    · rcases h.queue hne with hrun | hstop
      · obtain ⟨j, y, hj, hy, hl⟩ := flushRunning_iff.1 hrun
        have hij : i ≠ j := fun hij => hi (hij ▸ hj)
        exact .inl (flushRunning_iff.2 ⟨j, y, hj, other j y hij hy, hl⟩)
      · exact .inr hstop
    · obtain ⟨y, hy, ho⟩ := h.task j hj
      have hij : i ≠ j := fun hij => hi (hij ▸ hj)
      exact ⟨y, other j y hij hy, ho⟩

/-- The listeners and the task go, once nothing is queued or a stop is to flush it. -/
theorem Good.teardown (h : Good w) (hq : w.pending = [] ∨ w.stopping = true) : Good w.teardown := by
  have hdetached : Good { w with listening := false, flushTask := none } := by
    refine ⟨h.owed, nofun, fun hne => ?_, nofun⟩
    rcases hq with hq | hq
    · exact absurd hq hne
    · exact .inr hq
  unfold HistoryWorld.teardown
  dsimp only
  split
  · exact hdetached
  · exact hdetached.cancelFlush nofun

/-! ## Commits, discards and reports -/

/-- A file is no longer owed. -/
theorem Good.settle {f : F} {versions : F → List (Option C)} (h : Good w) :
    Good { w with versions, owed := Function.update w.owed f false } := by
  refine ⟨fun g hg => h.owed g ?_, h.listening, h.queue, h.task⟩
  dsimp only at hg
  rw [Function.update_apply] at hg
  split at hg
  · exact absurd hg nofun
  · exact hg

theorem Good.discardPending (h : Good w) (f : F) : Good (w.discardPending f) := by
  refine ⟨fun g hg => ?_, h.listening, fun hne => h.queue fun hnil => hne ?_, h.task⟩
  · dsimp only [HistoryWorld.discardPending] at hg
    rw [Function.update_apply] at hg
    split at hg
    · exact absurd hg nofun
    · rename_i hgf
      obtain ⟨he, ha, hheld⟩ := h.owed g hg
      refine ⟨he, ha, hheld.imp_left fun hp => ?_⟩
      exact List.mem_filter.2 ⟨hp, by simpa using hgf⟩
  · dsimp only [HistoryWorld.discardPending]
    rw [hnil]
    rfl

/-- A reported edit is queued, and a task runs. -/
theorem Good.onDiskChange (h : Good w) (f : F) : Good (w.onDiskChange f) := by
  unfold HistoryWorld.onDiskChange
  split
  · rename_i hlisten
    set pending := if f ∈ w.pending then w.pending else w.pending ++ [f] with hpending
    have hmem : ∀ g, g = f ∨ g ∈ w.pending → g ∈ pending := by
      intro g hg
      rw [hpending]
      split
      · rcases hg with rfl | hg <;> assumption
      · rcases hg with rfl | hg
        · exact List.mem_append_right _ List.mem_cons_self
        · exact List.mem_append_left _ hg
    have howed : ∀ g, Function.update w.owed f (w.owed f || w.autoCommit) g = true →
        w.enabled = true ∧ w.autoCommit = true ∧
          (g ∈ pending ∨ InHand { w with lost := Function.update w.lost f false } g) := by
      intro g hg
      rw [Function.update_apply] at hg
      split at hg
      · rename_i hgf
        refine ⟨h.listening hlisten, ?_, .inl (hmem g (.inl hgf))⟩
        rcases Bool.or_eq_true _ _ |>.mp hg with hg | hg
        · exact (h.owed f hg).2.1
        · exact hg
      · rename_i hgf
        obtain ⟨he, ha, hheld⟩ := h.owed g hg
        refine ⟨he, ha, ?_⟩
        rcases hheld with hp | hb | ht | hl
        · exact .inl (hmem g (.inr hp))
        · exact .inr (.inl hb)
        · exact .inr (.inr (.inl ht))
        · refine .inr (.inr (.inr ?_))
          dsimp only
          rwa [Function.update_of_ne hgf]
    have hqueued : w.flushRunning = true → Good { w with
        pending, owed := Function.update w.owed f (w.owed f || w.autoCommit), lost := Function.update w.lost f false } :=
      fun hrun => ⟨howed, h.listening, fun _ => .inl hrun, h.task⟩
    dsimp only
    split
    · exact hqueued ‹_›
    · have hx : (w.flushes ++ [{ owner := .task, phase := .sleeping }])[w.flushes.length]? =
          some (⟨.task, .sleeping⟩ : Flush F) := by simp
      refine ⟨fun g hg => ?_, h.listening, fun _ => .inl (flushRunning_iff.2 ⟨_, _, rfl, hx, rfl⟩), fun i hi => ?_⟩
      · obtain ⟨he, ha, hheld⟩ := howed g hg
        refine ⟨he, ha, ?_⟩
        rcases hheld with hp | ⟨i, y, hy, hm⟩ | ho
        · exact .inl hp
        · refine .inr (.inl ⟨i, y, ?_, hm⟩)
          dsimp only
          rw [List.getElem?_append_left (List.getElem?_eq_some_iff.1 hy).1]
          exact hy
        · exact .inr (.inr ho)
      · cases hi
        exact ⟨_, hx, rfl⟩
  · exact h

variable [DecidableEq C]

omit [DecidableEq C] in
theorem Good.save (h : Good w) (f : F) (content : Option C) : Good (w.save f content) := by
  have hwritten : Good { w with files := Function.update w.files f content } :=
    ⟨h.owed, h.listening, h.queue, h.task⟩
  unfold HistoryWorld.save
  dsimp only
  split
  · exact ⟨h.owed, h.listening, h.queue, h.task⟩
  · exact hwritten.discardPending f

/-! ## One step -/

theorem good_landFlush (h : Good w) (i : ℕ) : Good (w.landFlush i) := by
  unfold landFlush
  split
  · rename_i o file rest hx
    have hrecorded : Good (w.record file) := h.settle
    refine hrecorded.setPhase hx rfl fun f hf hm => ?_
    -- the file that lands is owed no more
    rcases List.mem_cons.1 hm with rfl | hm
    · simp [record] at hf
    · exact hm
  · exact h

theorem good_advanceCommit (h : Good w) (i : ℕ) : Good (w.advanceCommit i) := by
  unfold advanceCommit
  split
  · exact h
  · rename_i c _
    split
    · split
      · exact ⟨h.owed, h.listening, h.queue, h.task⟩
      · exact h
    · have hrecorded : Good (w.record c.file) := h.settle
      exact ⟨hrecorded.owed, hrecorded.listening, hrecorded.queue, hrecorded.task⟩
    · have hdiscarded : Good (w.discardPending c.file) := h.discardPending c.file
      exact ⟨hdiscarded.owed, hdiscarded.listening, hdiscarded.queue, hdiscarded.task⟩
    · exact h

omit [DecidableEq F] [DecidableEq C] in
theorem good_cancelCommit (h : Good w) (i : ℕ) : Good (w.cancelCommit i) := by
  unfold cancelCommit
  split
  · exact h
  · refine ⟨fun f hf => ?_, h.listening, h.queue, h.task⟩
    obtain ⟨he, ha, hheld⟩ := h.owed f hf
    refine ⟨he, ha, ?_⟩
    rcases hheld with hp | hb | ht | hl
    · exact .inl hp
    · exact .inr (.inl hb)
    · refine .inr (.inr (.inl ?_))
      dsimp only [setCommit]
      split
      · exact List.mem_append_left _ ht
      · exact ht
    · exact .inr (.inr (.inr hl))

theorem good_landThread (h : Good w) (i : ℕ) : Good (w.landThread i) := by
  unfold landThread
  split
  · exact h
  · rename_i file hfile
    have hrecorded : Good (w.record file) := h.settle
    refine ⟨fun f hf => ?_, h.listening, h.queue, h.task⟩
    obtain ⟨he, ha, hheld⟩ := hrecorded.owed f hf
    refine ⟨he, ha, ?_⟩
    rcases hheld with hp | hb | ht | hl
    · exact .inl hp
    · exact .inr (.inl hb)
    · -- another file's thread is still in the list
      have hne : f ≠ file := by
        rintro rfl
        simp [record] at hf
      obtain ⟨j, hj⟩ := List.mem_iff_getElem?.1 ht
      have hij : j ≠ i := by
        rintro rfl
        exact hne (Option.some.inj (hj.symm.trans hfile))
      exact .inr (.inr (.inl (List.mem_eraseIdx_iff_getElem?.2 ⟨j, hij, hj⟩)))
    · exact .inr (.inr (.inr hl))

theorem good_step (h : Good w) (a : HistoryAction F C) : Good (w.step a) := by
  cases a with
  | edit f content => exact ⟨h.owed, h.listening, h.queue, h.task⟩
  | onDiskChange f => exact h.onDiskChange f
  | wake i =>
    dsimp only [step, wake]
    split
    · rename_i o hx
      exact h.advance hx fun f hm => absurd hm List.not_mem_nil
    · exact h
  | acquireFlush i =>
    dsimp only [step, acquireFlush]
    split
    · split
      · rename_i o file rest hx _
        exact h.setPhase hx rfl fun f _ hm => hm
      · exact h
    · exact h
  | landFlush i => exact good_landFlush h i
  | resumeFlush i =>
    dsimp only [step, resumeFlush]
    split
    · rename_i o rest hx
      exact h.advance hx fun f hm => hm
    · exact h
  | save f content => exact h.save f content
  | advanceCommit i => exact good_advanceCommit h i
  | cancelCommit i => exact good_cancelCommit h i
  | landThread i => exact good_landThread h i
  | discardPending f => exact h.discardPending f
  | restore f =>
    dsimp only [step, restore]
    split
    · exact h.startFlush _
    · exact h
  | restored i content =>
    dsimp only [step, restored]
    split
    · rename_i f hx
      have hne : w.flushTask ≠ some i := fun ht => by
        obtain ⟨x, hy, ho⟩ := h.task i ht
        cases hx.symm.trans hy
        exact absurd ho nofun
      have hended : Good (w.setPhase i .ended) :=
        h.move hx w.pending .ended (fun f _ hm => hm) (fun hp => ⟨hp, .inr hne⟩)
      exact hended.save f (some content)
    · exact h
  | cancelRestore i =>
    dsimp only [step, cancelRestore]
    split
    · rename_i f phase hx
      refine h.cancelFlush fun ht => ?_
      obtain ⟨x, hy, ho⟩ := h.task i ht
      cases hx.symm.trans hy
      exact absurd ho nofun
    · exact h
  | enable =>
    dsimp only [step, enable]
    split
    · exact h
    · exact ⟨fun f hf => ⟨(h.owed f hf).1, rfl, (h.owed f hf).2.2⟩, h.listening, h.queue, h.task⟩
  | activated =>
    dsimp only [step, activated]
    split
    · exact ⟨fun f hf => ⟨rfl, (h.owed f hf).2⟩, fun _ => rfl, h.queue, h.task⟩
    · exact h
  | disable =>
    dsimp only [step, disable]
    split
    · have hdropped : Good { w with autoCommit := false, pending := [], owed := fun _ => false } :=
        ⟨nofun, h.listening, fun hne => absurd rfl hne, h.task⟩
      exact hdropped.teardown (.inl rfl)
    · exact h
  | stop =>
    dsimp only [step, stop]
    split
    · exact h
    · have hstopping : Good { w with stopping := true } :=
        ⟨h.owed, h.listening, fun _ => .inr rfl, h.task⟩
      exact hstopping.teardown (.inr rfl)
  | stopFlush =>
    dsimp only [step, stopFlush]
    by_cases hs : w.stopping = true
    · exact h.stopFlush hs
    · rw [if_neg hs]
      exact h

/-! ## What settles an owed edit -/

@[simp] theorem recorded_record (f : F) : (w.record f).recorded f = w.files f := by
  by_cases h : w.recorded f = w.files f
  · have same : (w.record f).versions = w.versions := if_pos h
    rw [recorded, same]
    exact h
  · have new : (w.record f).versions = Function.update w.versions f (w.files f :: w.versions f) := if_neg h
    rw [recorded, new, Function.update_self]
    rfl

/-- How an edit ceases to be owed: its file is committed as it is on disk, a commit or a discard takes its entry, or
auto-commit is turned off. -/
def Settled (w : HistoryWorld F C) (f : F) (a : HistoryAction F C) : Prop :=
  (w.step a).recorded f = w.files f ∨ a = .discardPending f ∨ a = .disable ∨
    ∃ i, a = .advanceCommit i ∧ w.commits[i]? = some ⟨f, .landed⟩

omit [DecidableEq C] in
theorem owed_discardPending {f g : F} (h : w.owed f = true) (h' : (w.discardPending g).owed f = false) : f = g := by
  by_contra hne
  dsimp only [discardPending] at h'
  rw [Function.update_of_ne hne, h] at h'
  exact absurd h' nofun

theorem owed_record {f g : F} (h : w.owed f = true) (h' : (w.record g).owed f = false) : f = g := by
  by_contra hne
  dsimp only [record] at h'
  rw [Function.update_of_ne hne, h] at h'
  exact absurd h' nofun

omit [DecidableEq C] in
theorem frame_cancelFlush (i : ℕ) :
    (w.cancelFlush i).owed = w.owed ∧ (w.cancelFlush i).versions = w.versions := by
  unfold cancelFlush
  split <;> exact ⟨rfl, rfl⟩

omit [DecidableEq C] in
theorem frame_teardown : w.teardown.owed = w.owed ∧ w.teardown.versions = w.versions := by
  unfold teardown
  dsimp only
  split
  · exact ⟨rfl, rfl⟩
  · rename_i i _
    exact @frame_cancelFlush _ _ { w with listening := false, flushTask := none } _ i

/-- A step records and settles nothing, or it is one of these. -/
inductive Effect (w : HistoryWorld F C) : HistoryAction F C → HistoryWorld F C → Prop
  | quiet {a : HistoryAction F C} {w' : HistoryWorld F C} (h : Quiet w w') : Effect w a w'
  | record {a : HistoryAction F C} {w' : HistoryWorld F C} (f : F) (h : Quiet (w.record f) w') : Effect w a w'
  | discard (f : F) {w' : HistoryWorld F C} (h : Quiet (w.discardPending f) w') : Effect w (.discardPending f) w'
  | committed (i : ℕ) (f : F) {w' : HistoryWorld F C} (hi : w.commits[i]? = some ⟨f, .landed⟩)
      (h : Quiet (w.discardPending f) w') : Effect w (.advanceCommit i) w'
  /-- A save while nothing is committed. -/
  | dropped {a : HistoryAction F C} {w' : HistoryWorld F C} (f : F) (hc : w.committing = false)
      (h : Quiet (w.discardPending f) w') : Effect w a w'
  | disabled {w' : HistoryWorld F C} (h : w'.versions = w.versions) : Effect w .disable w'

theorem effect_save {a : HistoryAction F C} {w₀ : HistoryWorld F C} (ho : w₀.owed = w.owed)
    (hv : w₀.versions = w.versions) (hc : w₀.committing = w.committing) (f : F) (content : Option C) :
    Effect w a (w₀.save f content) := by
  unfold save
  dsimp only
  split
  · exact .quiet (.of_eq ⟨ho, hv⟩)
  · rename_i hoff
    refine .dropped f (hc ▸ Bool.eq_false_iff.2 hoff) (.of_eq ⟨?_, hv⟩)
    dsimp only [discardPending]
    rw [ho]

theorem effect_advanceCommit (i : ℕ) : Effect w (.advanceCommit i) (w.advanceCommit i) := by
  unfold advanceCommit
  split
  · exact .quiet (.of_eq ⟨rfl, rfl⟩)
  · rename_i c hi
    split
    · split <;> exact .quiet (.of_eq ⟨rfl, rfl⟩)
    · exact .record c.file (.of_eq ⟨rfl, rfl⟩)
    · rename_i hc
      have hi' : w.commits[i]? = some ⟨c.file, .landed⟩ := by rw [hi, ← hc]
      exact .committed i c.file hi' (.of_eq ⟨rfl, rfl⟩)
    · exact .quiet (.of_eq ⟨rfl, rfl⟩)

/-- What a step records or settles. -/
theorem effect (w : HistoryWorld F C) (a : HistoryAction F C) : Effect w a (w.step a) := by
  cases a with
  | edit f content => exact .quiet (.of_eq ⟨rfl, rfl⟩)
  | onDiskChange f =>
    have hqueued : ∀ g, w.owed g = true → Function.update w.owed f (w.owed f || w.autoCommit) g = true := by
      intro g hg
      rw [Function.update_apply]
      split
      · rename_i hgf
        rw [← hgf, hg]
        rfl
      · exact hg
    dsimp only [step, onDiskChange]
    split
    · split <;> exact .quiet ⟨hqueued, rfl⟩
    · exact .quiet (.of_eq ⟨rfl, rfl⟩)
  | wake i =>
    dsimp only [step, wake]
    split
    · exact .quiet (.of_eq (frame_advance i []))
    · exact .quiet (.of_eq ⟨rfl, rfl⟩)
  | acquireFlush i =>
    dsimp only [step, acquireFlush]
    split
    · split <;> exact .quiet (.of_eq ⟨rfl, rfl⟩)
    · exact .quiet (.of_eq ⟨rfl, rfl⟩)
  | landFlush i =>
    dsimp only [step, landFlush]
    split
    · exact .record _ (.of_eq ⟨rfl, rfl⟩)
    · exact .quiet (.of_eq ⟨rfl, rfl⟩)
  | resumeFlush i =>
    dsimp only [step, resumeFlush]
    split
    · exact .quiet (.of_eq (frame_advance i _))
    · exact .quiet (.of_eq ⟨rfl, rfl⟩)
  | save f content => exact effect_save rfl rfl rfl f content
  | advanceCommit i => exact effect_advanceCommit i
  | cancelCommit i =>
    dsimp only [step, cancelCommit]
    split <;> exact .quiet (.of_eq ⟨rfl, rfl⟩)
  | landThread i =>
    dsimp only [step, landThread]
    split
    · exact .quiet (.of_eq ⟨rfl, rfl⟩)
    · exact .record _ (.of_eq ⟨rfl, rfl⟩)
  | discardPending f => exact .discard f (.of_eq ⟨rfl, rfl⟩)
  | restore f =>
    dsimp only [step, restore]
    split
    · exact .quiet (.of_eq (frame_startFlush _))
    · exact .quiet (.of_eq ⟨rfl, rfl⟩)
  | restored i content =>
    dsimp only [step, restored]
    split
    · exact @effect_save _ _ w _ _ _ (w.setPhase i .ended) rfl rfl rfl _ _
    · exact .quiet (.of_eq ⟨rfl, rfl⟩)
  | cancelRestore i =>
    dsimp only [step, cancelRestore]
    split
    · exact .quiet (.of_eq (frame_cancelFlush i))
    · exact .quiet (.of_eq ⟨rfl, rfl⟩)
  | enable =>
    dsimp only [step, enable]
    split <;> exact .quiet (.of_eq ⟨rfl, rfl⟩)
  | activated =>
    dsimp only [step, activated]
    split <;> exact .quiet (.of_eq ⟨rfl, rfl⟩)
  | disable =>
    dsimp only [step, disable]
    split
    · have h := @frame_teardown _ _ { w with autoCommit := false, pending := [], owed := fun _ => false } _
      exact .disabled h.2
    · exact .quiet (.of_eq ⟨rfl, rfl⟩)
  | stop =>
    dsimp only [step, stop]
    split
    · exact .quiet (.of_eq ⟨rfl, rfl⟩)
    · have h := @frame_teardown _ _ { w with stopping := true } _
      exact .quiet (.of_eq h)
  | stopFlush =>
    dsimp only [step, stopFlush]
    split
    · have h := @frame_startFlush _ _ { w with stopping := false } .stop
      exact .quiet (.of_eq h)
    · exact .quiet (.of_eq ⟨rfl, rfl⟩)

theorem settled_of_step (h : Good w) {f : F} {a : HistoryAction F C} (hf : w.owed f = true)
    (hf' : (w.step a).owed f = false) : Settled w f a := by
  have gone : ∀ {w₁ : HistoryWorld F C}, Quiet w₁ (w.step a) → w₁.owed f = false := by
    intro w₁ hq
    by_contra hne
    rw [hq.1 f (Bool.not_eq_false _ ▸ hne)] at hf'
    exact absurd hf' nofun
  have he := effect w a
  generalize hw' : w.step a = w' at he gone hf'
  cases he with
  | quiet hq => exact absurd ((gone hq).symm.trans hf) nofun
  | record g hq =>
    obtain rfl := owed_record hf (gone hq)
    refine .inl ?_
    rw [hw', recorded, hq.2]
    exact recorded_record f
  | discard g hq =>
    obtain rfl := owed_discardPending hf (gone hq)
    exact .inr (.inl rfl)
  | committed i g hi hq =>
    obtain rfl := owed_discardPending hf (gone hq)
    exact .inr (.inr (.inr ⟨i, rfl, hi⟩))
  | dropped g hc hq =>
    obtain ⟨hen, hau, _⟩ := h.owed f hf
    rw [committing, hen, hau] at hc
    exact absurd hc nofun
  | disabled hv => exact .inr (.inr (.inl rfl))

/-- What is recorded of a file stays. -/
theorem versions_suffix (a : HistoryAction F C) (f : F) : w.versions f <:+ (w.step a).versions f := by
  have he := effect w a
  generalize w.step a = w' at he
  cases he with
  | quiet hq => exact hq.2 ▸ List.suffix_refl _
  | record g hq =>
    rw [hq.2]
    dsimp only [record]
    split
    · exact List.suffix_refl _
    · rw [Function.update_apply]
      split
      · rename_i hfg
        rw [hfg]
        exact List.suffix_cons _ _
      · exact List.suffix_refl _
  | discard g hq => exact hq.2 ▸ List.suffix_refl _
  | committed i g hi hq => exact hq.2 ▸ List.suffix_refl _
  | dropped g hc hq => exact hq.2 ▸ List.suffix_refl _
  | disabled hv => exact hv ▸ List.suffix_refl _

/-! ## The end of a flush -/

/-- A flush that ended in between left nothing queued. -/
def Ends (w w' : HistoryWorld F C) : Prop :=
  ∀ (i : ℕ) (o : FlushOwner F), w'.flushes[i]? = some ⟨o, .done⟩ → w.flushes[i]? = some ⟨o, .done⟩ ∨ w'.pending = []

omit [DecidableEq F] [DecidableEq C] in
theorem Ends.of_eq {w' : HistoryWorld F C} (h : w'.flushes = w.flushes) : Ends w w' := by
  intro i o hi
  rw [h] at hi
  exact .inl hi

omit [DecidableEq F] [DecidableEq C] in
theorem ends_setPhase {phase : FlushPhase F} (hp : phase ≠ .done) (i : ℕ) : Ends w (w.setPhase i phase) :=
  fun _ _ h => .inl (setPhase_done hp h)

omit [DecidableEq C] in
theorem ends_cancelFlush (i : ℕ) : Ends w (w.cancelFlush i) := by
  unfold cancelFlush
  split
  · exact .of_eq rfl
  · exact fun _ _ h => .inl (setPhase_done (by nofun) h)

omit [DecidableEq C] in
theorem ends_teardown : Ends w w.teardown := by
  unfold teardown
  dsimp only
  split
  · exact .of_eq rfl
  · rename_i i _
    intro j o h
    rcases @ends_cancelFlush _ _ { w with listening := false, flushTask := none } _ i j o h with h | h
    · exact .inl h
    · exact .inr h

theorem ends_step (w : HistoryWorld F C) (a : HistoryAction F C) : Ends w (w.step a) := by
  cases a with
  | edit f content => exact .of_eq rfl
  | onDiskChange f =>
    dsimp only [step, onDiskChange]
    split
    · split
      · exact .of_eq rfl
      · -- the new flush is the task, asleep
        intro j o h
        dsimp only at h
        rw [List.getElem?_append] at h
        split at h
        · exact .inl h
        · cases hk : j - w.flushes.length with
          | zero => simp [hk] at h
          | succ k => simp [hk] at h
    · exact .of_eq rfl
  | wake i =>
    dsimp only [step, wake]
    split
    · exact fun _ _ h => advance_done h
    · exact .of_eq rfl
  | acquireFlush i =>
    dsimp only [step, acquireFlush]
    split
    · split
      · exact ends_setPhase (by nofun) i
      · exact .of_eq rfl
    · exact .of_eq rfl
  | landFlush i =>
    dsimp only [step, landFlush]
    split
    · exact fun _ _ h => .inl (setPhase_done (by nofun) h)
    · exact .of_eq rfl
  | resumeFlush i =>
    dsimp only [step, resumeFlush]
    split
    · exact fun _ _ h => advance_done h
    · exact .of_eq rfl
  | save f content =>
    dsimp only [step, save]
    split <;> exact .of_eq rfl
  | advanceCommit i =>
    dsimp only [step, advanceCommit]
    split
    · exact .of_eq rfl
    · split
      · split <;> exact .of_eq rfl
      all_goals exact .of_eq rfl
  | cancelCommit i =>
    dsimp only [step, cancelCommit]
    split <;> exact .of_eq rfl
  | landThread i =>
    dsimp only [step, landThread]
    split <;> exact .of_eq rfl
  | discardPending f => exact .of_eq rfl
  | restore f =>
    dsimp only [step, restore]
    split
    · exact fun _ _ _ => .inr (pending_startFlush _)
    · exact .of_eq rfl
  | restored i content =>
    dsimp only [step, restored]
    split
    · dsimp only [save]
      split <;> exact fun _ _ h => .inl (setPhase_done (by nofun) h)
    · exact .of_eq rfl
  | cancelRestore i =>
    dsimp only [step, cancelRestore]
    split
    · exact ends_cancelFlush i
    · exact .of_eq rfl
  | enable =>
    dsimp only [step, enable]
    split <;> exact .of_eq rfl
  | activated =>
    dsimp only [step, activated]
    split <;> exact .of_eq rfl
  | disable =>
    dsimp only [step, disable]
    split
    · exact @ends_teardown _ _ { w with autoCommit := false, pending := [], owed := fun _ => false } _
    · exact .of_eq rfl
  | stop =>
    dsimp only [step, stop]
    split
    · exact .of_eq rfl
    · exact @ends_teardown _ _ { w with stopping := true } _
  | stopFlush =>
    dsimp only [step, stopFlush]
    split
    · exact fun _ _ _ => .inr (pending_startFlush _)
    · exact .of_eq rfl

/-! ## Every run -/

omit [DecidableEq F] [DecidableEq C] in
theorem good_start (files : F → Option C) (versions : F → List (Option C)) (autoCommit enabled : Bool) :
    Good (start files versions autoCommit enabled) := by
  refine ⟨nofun, fun h => ?_, fun h => absurd rfl h, nofun⟩
  exact (Bool.and_eq_true_iff.1 h).1

/-- **What becomes of a queued edit.** On every run, an edit that was queued with auto-commit on and still waits for
its commit is in the queue, with a live task or the stop about to flush it, or out of it, in the hands of a flush. It
waits no more once its file is committed as it is on disk, once a dashboard commit of the file or `discard_pending`
takes its entry, or once auto-commit is turned off. What is recorded stays. When a flush ends, as that of a restore
before it reads the revision, nothing is queued. -/
theorem history_kept {files : F → Option C} {versions : F → List (Option C)} {autoCommit enabled : Bool}
    (h : Reaches step any (start files versions autoCommit enabled) w) :
    (∀ f, w.owed f = true → w.autoCommit = true ∧
      (f ∈ w.pending ∧ (w.flushRunning = true ∨ w.stopping = true) ∨ InHand w f)) ∧
    (∀ f a, w.owed f = true → (w.step a).owed f = false → Settled w f a) ∧
    (∀ f a, w.versions f <:+ (w.step a).versions f) ∧
    (∀ (i : ℕ) (o : FlushOwner F) (a : HistoryAction F C), (w.step a).flushes[i]? = some ⟨o, .done⟩ →
      w.flushes[i]? ≠ some ⟨o, .done⟩ →
      (w.step a).pending = [] ∧ ∀ f, (w.step a).owed f = true → InHand (w.step a) f) := by
  have hgood : Good w := h.invariant (good_start files versions autoCommit enabled) fun w a _ hw => good_step hw a
  refine ⟨fun f hf => ?_, fun f a => settled_of_step hgood, fun f a => versions_suffix a f, fun i o a hi hi₀ => ?_⟩
  · obtain ⟨_, ha, hheld⟩ := hgood.owed f hf
    refine ⟨ha, ?_⟩
    rcases hheld with hp | hm
    · exact .inl ⟨hp, hgood.queue (List.ne_nil_of_mem hp)⟩
    · exact .inr hm
  · have hempty := (ends_step w a i o hi).resolve_left hi₀
    refine ⟨hempty, fun f hf => ?_⟩
    obtain ⟨_, _, hheld⟩ := (good_step hgood a).owed f hf
    rcases hheld with hp | hm
    · rw [hempty] at hp
      exact absurd hp List.not_mem_nil
    · exact hm

/-! ## Edits dropped from a batch -/

/-- Two configs without history, auto-commit on. -/
def fresh : HistoryWorld String ℕ := start (fun _ => none) (fun _ => []) true true

/-- Both are edited and queued; the flush has taken them, and git is at the first. -/
def halfFlushed : List (HistoryAction String ℕ) :=
  [.edit "lamp.yaml" (some 1), .onDiskChange "lamp.yaml", .edit "fan.yaml" (some 1), .onDiskChange "fan.yaml",
    .wake 0, .acquireFlush 0]

theorem history_kept_fan :
    InHand (halfFlushed.foldl step fresh) "fan.yaml" := by
  have run : Reaches step any fresh (halfFlushed.foldl step fresh) := @Reaches.foldl _ _ step halfFlushed fresh
  rcases ((history_kept run).1 "fan.yaml" (by decide +kernel)).2 with h | h
  · exact absurd h.1 (by decide +kernel)
  · exact h

/-- Auto-commit is turned off and on again. -/
def toggled : HistoryWorld String ℕ :=
  [HistoryAction.disable, .landThread 0, .enable, .activated].foldl step (halfFlushed.foldl step fresh)

/-- The controller stops. -/
def stopped : HistoryWorld String ℕ :=
  [HistoryAction.stop, .landThread 0, .stopFlush].foldl step (halfFlushed.foldl step fresh)

/-- A restore of the second config finds the queue empty. -/
def overwritten : HistoryWorld String ℕ :=
  [HistoryAction.restore "fan.yaml", .restored 1 7].foldl step (halfFlushed.foldl step fresh)

/-- **The rest of a batch is dropped when auto-commit is turned off, and when the controller stops**: the edit of the
second config is not recorded and in no queue or batch. A restore overwrites it before its commit. -/
theorem batch_dropped :
    (halfFlushed.foldl step fresh).owed "fan.yaml" = true ∧
    (toggled.autoCommit = true ∧ toggled.listening = true ∧ toggled.recorded "fan.yaml" ≠ toggled.files "fan.yaml" ∧
      toggled.pending = [] ∧ toggled.threads = [] ∧ toggled.flushes = [⟨.task, .ended⟩]) ∧
    (stopped.autoCommit = true ∧ stopped.recorded "fan.yaml" ≠ stopped.files "fan.yaml" ∧
      stopped.pending = [] ∧ stopped.threads = [] ∧ stopped.flushes = [⟨.task, .ended⟩, ⟨.stop, .done⟩]) ∧
    overwritten.files "fan.yaml" = some 7 ∧ overwritten.versions "fan.yaml" = [] := by
  decide +kernel

end DeviceBuilder.VersionHistory.HistoryWorld
