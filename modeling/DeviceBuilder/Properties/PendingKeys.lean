import DeviceBuilder.Devices.PendingKeys
import DeviceBuilder.Lib.Runs

/-!
# What becomes of a pushed key

* `Ages`: a file is what it was until it is written again.
* `Accepts`, `ReadAs`, `Kept`: what a world holds for an accepted key, for a text that was
  read, and for a key that no YAML accepted.
* `good_nextFile`, `good_judge`, `good_advancePush`: one await of a push keeps `Good`.
* `good_land`, `good_writeKeyed`, `good_advanceAdoption`: one await of an adoption does.
* `entry_removed`: only a push that returns and an adoption that landed the entry's key
  remove an entry.
* `pushed_keys_kept`: what a returned push leaves behind, on every run.
* `push_loses_newer`: an older push pops the key of a newer one.
-/

namespace DeviceBuilder.Devices

open Runs

variable {F K Y : Type} [DecidableEq F] [DecidableEq K] [DecidableEq Y]

namespace KeyWorld

variable {text : KeyText Y K} {w w' w'' : KeyWorld F K Y} {i : ℕ} {p : Push F K Y}

/-- Files that are not written again are what they were. -/
def Ages (w w' : KeyWorld F K Y) : Prop :=
  ∀ f, w.versions f ≤ w'.versions f ∧ (w'.versions f = w.versions f → w'.files f = w.files f)

/-- The text that `f` had at version `v`. -/
def ReadAs (w : KeyWorld F K Y) (f : F) (content : Y) (v : ℕ) : Prop :=
  v ≤ w.versions f ∧ (w.versions f = v → w.files f = some content)

/-- Until `f` is written again, `key` is its settled api key, or it is given elsewhere. -/
def Accepts (text : KeyText Y K) (w : KeyWorld F K Y) (f : F) (v : ℕ) (key : K) : Prop :=
  v ≤ w.versions f ∧
    (w.versions f = v → ∃ y, w.files f = some y ∧ (text.settled y key = true ∨ text.indirected y = true))

/-- Until `f` is written again, `key` is its settled api key. -/
def Landed (text : KeyText Y K) (w : KeyWorld F K Y) (f : F) (v : ℕ) (key : K) : Prop :=
  v ≤ w.versions f ∧ (w.versions f = v → ∃ y, w.files f = some y ∧ text.settled y key = true)

/-- The key is pending, or a push returned after the push `i`, or an adoption has consumed it. -/
def Kept (w : KeyWorld F K Y) (i : ℕ) (key : K) : Prop :=
  w.pending = some key ∨ (∃ j, j ≠ i ∧ [i, j].Sublist w.finishes) ∨ ∃ f v, (f, v, key) ∈ w.consumed

/-- What the world holds for the push `i`. -/
def PushOk (text : KeyText Y K) (w : KeyWorld F K Y) (i : ℕ) (p : Push F K Y) : Prop :=
  (∀ f v, (f, v) ∈ p.accepted → Accepts text w f v p.key) ∧
  match p.phase with
  | .holding f _ content v => ReadAs w f content v
  | .saving _ _ _ new => text.settled new p.key = true
  | .returned => i ∈ w.finishes ∧ (p.accepted = [] → Kept w i p.key)
  | .settling _ | .committing _ | .failed => True

/-- The consumed key is settled in the YAML that the outcome leaves. -/
def OutcomeOk (text : KeyText Y K) (content : Y) (outcome : KeyOutcome K Y) : Prop :=
  ∀ key, outcome.consume = some key → text.settled (outcome.toWrite.getD content) key = true

/-- What the world holds for the adoption. -/
def AdoptionOk (text : KeyText Y K) (w : KeyWorld F K Y) : Adoption F K Y → Prop
  | .sourcing _ | .writing _ _ => True
  | .validating f content v | .minting f content v => ReadAs w f content v
  | .deciding f content v key keyed => ReadAs w f content v ∧ text.settled keyed key = true
  | .late f v outcome key keyed =>
    ∃ content, ReadAs w f content v ∧ OutcomeOk text content outcome ∧ text.settled keyed key = true
  | .landing _ new consume => ∀ key, consume = some key → text.settled new key = true
  | .consuming f v consume =>
    ∃ content, ReadAs w f content v ∧ ∀ key, consume = some key → text.settled content key = true

/-- The invariant. -/
structure Good (text : KeyText Y K) (w : KeyWorld F K Y) : Prop where
  pushes : ∀ i p, w.pushes[i]? = some p → PushOk text w i p
  adoption : ∀ a, w.adoption = some a → AdoptionOk text w a
  consumed : ∀ f v key, (f, v, key) ∈ w.consumed → Landed text w f v key
  finishes : ∀ i ∈ w.finishes, ∃ p, w.pushes[i]? = some p ∧ p.phase = .returned

/-! ## Files that age -/

omit [DecidableEq F] [DecidableEq K] [DecidableEq Y] in
theorem Ages.refl (w : KeyWorld F K Y) : Ages w w := fun _ => ⟨Nat.le_refl _, fun _ => rfl⟩

omit [DecidableEq K] [DecidableEq Y] in
theorem ages_writeFile (w : KeyWorld F K Y) (f : F) (content : Option Y) : Ages w (w.writeFile f content) := by
  intro g
  unfold writeFile
  dsimp only
  by_cases hg : g = f
  · subst hg
    rw [Function.update_self]
    exact ⟨by omega, fun h => absurd h (by omega)⟩
  · rw [Function.update_of_ne hg, Function.update_of_ne hg]
    exact ⟨Nat.le_refl _, fun _ => rfl⟩

omit [DecidableEq F] [DecidableEq K] [DecidableEq Y] in
theorem ReadAs.ages {f : F} {content : Y} {v : ℕ} (h : ReadAs w f content v) (ha : Ages w w') :
    ReadAs w' f content v := by
  obtain ⟨hle, hsame⟩ := ha f
  have hv := h.1
  refine ⟨by omega, fun hv' => ?_⟩
  rw [hsame (by omega)]
  exact h.2 (by omega)

omit [DecidableEq F] [DecidableEq K] [DecidableEq Y] in
theorem Accepts.ages {f : F} {v : ℕ} {key : K} (h : Accepts text w f v key) (ha : Ages w w') :
    Accepts text w' f v key := by
  obtain ⟨hle, hsame⟩ := ha f
  have hv := h.1
  refine ⟨by omega, fun hv' => ?_⟩
  rw [hsame (by omega)]
  exact h.2 (by omega)

omit [DecidableEq F] [DecidableEq K] [DecidableEq Y] in
theorem Landed.ages {f : F} {v : ℕ} {key : K} (h : Landed text w f v key) (ha : Ages w w') :
    Landed text w' f v key := by
  obtain ⟨hle, hsame⟩ := ha f
  have hv := h.1
  refine ⟨by omega, fun hv' => ?_⟩
  rw [hsame (by omega)]
  exact h.2 (by omega)

omit [DecidableEq F] [DecidableEq K] [DecidableEq Y] in
theorem AdoptionOk.ages {a : Adoption F K Y} (h : AdoptionOk text w a) (ha : Ages w w') : AdoptionOk text w' a := by
  cases a with
  | sourcing f => trivial
  | writing f content => trivial
  | validating f content v => exact ReadAs.ages h ha
  | minting f content v => exact ReadAs.ages h ha
  | deciding f content v key keyed => exact ⟨h.1.ages ha, h.2⟩
  | late f v outcome key keyed =>
    obtain ⟨content, hr, ho, hk⟩ := h
    exact ⟨content, hr.ages ha, ho, hk⟩
  | landing f new consume => exact h
  | consuming f v consume =>
    obtain ⟨content, hr, hk⟩ := h
    exact ⟨content, hr.ages ha, hk⟩

/-- What a step leaves to the pushes it is not of. -/
structure Keeps (w w' : KeyWorld F K Y) : Prop where
  ages : Ages w w'
  finishes : ∀ i ∈ w.finishes, i ∈ w'.finishes
  kept : ∀ i key, i ∈ w.finishes → Kept w i key → Kept w' i key

omit [DecidableEq F] [DecidableEq K] [DecidableEq Y] in
theorem PushOk.keeps (h : PushOk text w i p) (hk : Keeps w w') : PushOk text w' i p := by
  refine ⟨fun f v hf => (h.1 f v hf).ages hk.ages, ?_⟩
  have h₂ := h.2
  cases hp : p.phase with
  | holding f rest content v =>
    rw [hp] at h₂
    exact ReadAs.ages h₂ hk.ages
  | saving f rest content new =>
    rw [hp] at h₂
    exact h₂
  | returned =>
    rw [hp] at h₂
    exact ⟨hk.finishes i h₂.1, fun ha => hk.kept i p.key h₂.1 (h₂.2 ha)⟩
  | settling rest => trivial
  | committing rest => trivial
  | failed => trivial

omit [DecidableEq K] [DecidableEq Y] in
theorem keeps_writeFile (w : KeyWorld F K Y) (f : F) (content : Option Y) : Keeps w (w.writeFile f content) :=
  ⟨ages_writeFile w f content, fun _ h => h, fun _ _ _ h => h⟩

omit [DecidableEq K] [DecidableEq Y] in
theorem good_writeFile (h : Good text w) (f : F) (content : Option Y) : Good text (w.writeFile f content) where
  pushes := fun i p hp => (h.pushes i p hp).keeps (keeps_writeFile w f content)
  adoption := fun a ha => (h.adoption a ha).ages (ages_writeFile w f content)
  consumed := fun g v key hg => (h.consumed g v key hg).ages (ages_writeFile w f content)
  finishes := h.finishes

/-! ## One await of a push -/

omit [DecidableEq F] [DecidableEq K] [DecidableEq Y] in
theorem getElem?_setPush_self {q : Push F K Y} (hp : w.pushes[i]? = some p) : (w.setPush i q).pushes[i]? = some q := by
  have hi := (List.getElem?_eq_some_iff.mp hp).1
  unfold setPush
  simp [hi]

omit [DecidableEq F] [DecidableEq K] [DecidableEq Y] in
theorem getElem?_setPush_ne {q : Push F K Y} {j : ℕ} (hj : j ≠ i) : (w.setPush i q).pushes[j]? = w.pushes[j]? := by
  unfold setPush
  simp [hj.symm]

omit [DecidableEq F] [DecidableEq K] [DecidableEq Y] in
/-- A push that has not returned goes on. -/
theorem good_setPush (h : Good text w) (hp : w.pushes[i]? = some p) (hn : p.phase ≠ .returned) {q : Push F K Y}
    (hq : PushOk text w i q) : Good text (w.setPush i q) where
  pushes := by
    intro j r hr
    by_cases hj : j = i
    · subst hj
      rw [getElem?_setPush_self hp] at hr
      cases hr
      exact hq.keeps ⟨Ages.refl w, fun _ h => h, fun _ _ _ h => h⟩
    · rw [getElem?_setPush_ne hj] at hr
      exact (h.pushes j r hr).keeps ⟨Ages.refl w, fun _ h => h, fun _ _ _ h => h⟩
  adoption := fun a ha => (h.adoption a ha).ages (Ages.refl w)
  consumed := h.consumed
  finishes := by
    intro j hj
    obtain ⟨r, hr, hret⟩ := h.finishes j hj
    have hji : j ≠ i := by
      rintro rfl
      cases hr.symm.trans hp
      exact hn hret
    exact ⟨r, by rw [getElem?_setPush_ne hji]; exact hr, hret⟩

theorem sublist_pair_append {i j : ℕ} {l : List ℕ} (hi : i ∈ l) : [i, j].Sublist (l ++ [j]) :=
  List.Sublist.append (List.singleton_sublist.mpr hi) (List.Sublist.refl [j])

omit [DecidableEq F] [DecidableEq K] [DecidableEq Y] in
/-- A push that returns: the others' keys are superseded, its own is stored unless it landed. -/
theorem good_finishPush (h : Good text w) (hp : w.pushes[i]? = some p) (hn : p.phase ≠ .returned) {q : Push F K Y}
    (hq : ∀ f v, (f, v) ∈ q.accepted → Accepts text w f v q.key) : Good text (w.finishPush i q) := by
  have hnew : ∀ j ∈ w.finishes, j ≠ i := by
    rintro j hj rfl
    obtain ⟨r, hr, hret⟩ := h.finishes j hj
    cases hr.symm.trans hp
    exact hn hret
  have hkeeps : Keeps w (w.finishPush i q) := by
    refine ⟨Ages.refl w, fun j hj => List.mem_append_left _ hj, fun j key hj _ => ?_⟩
    exact .inr (.inl ⟨i, (hnew j hj).symm, sublist_pair_append hj⟩)
  refine ⟨fun j r hr => ?_, fun a ha => (h.adoption a ha).ages (Ages.refl w), h.consumed, fun j hj => ?_⟩
  · by_cases hj : j = i
    · subst hj
      have hs := getElem?_setPush_self (q := { q with phase := .returned }) hp
      cases hs.symm.trans hr
      refine ⟨hq, List.mem_append_right _ (List.mem_singleton_self _), fun ha => .inl ?_⟩
      unfold finishPush
      dsimp only at ha ⊢
      rw [if_neg (not_not.mpr ha)]
    · have hr' : w.pushes[j]? = some r := (getElem?_setPush_ne hj).symm.trans hr
      exact (h.pushes j r hr').keeps hkeeps
  · rcases List.mem_append.mp hj with hj | hj
    · obtain ⟨r, hr, hret⟩ := h.finishes j hj
      exact ⟨r, (getElem?_setPush_ne (hnew j hj)).trans hr, hret⟩
    · rw [List.mem_singleton.mp hj]
      exact ⟨_, getElem?_setPush_self hp, rfl⟩

omit [DecidableEq F] [DecidableEq K] [DecidableEq Y] in
theorem good_nextFile (h : Good text w) (hp : w.pushes[i]? = some p) (hn : p.phase ≠ .returned) {q : Push F K Y}
    (hq : ∀ f v, (f, v) ∈ q.accepted → Accepts text w f v q.key) (rest : List F) :
    Good text (w.nextFile i q rest) := by
  unfold nextFile
  split
  · exact good_finishPush h hp hn hq
  · exact good_setPush h hp hn ⟨hq, trivial⟩

omit [DecidableEq F] [DecidableEq K] [DecidableEq Y] in
/-- A YAML that accepts. -/
theorem accepts_append {q : Push F K Y} (hq : ∀ f v, (f, v) ∈ q.accepted → Accepts text w f v q.key) {f : F} {v : ℕ}
    (hf : Accepts text w f v q.key) :
    ∀ g u, (g, u) ∈ q.accepted ++ [(f, v)] → Accepts text w g u q.key := by
  intro g u hg
  rcases List.mem_append.mp hg with hg | hg
  · exact hq g u hg
  · cases List.mem_singleton.mp hg
    exact hf

omit [DecidableEq F] [DecidableEq K] [DecidableEq Y] in
/-- The judgement of a text that was read. -/
theorem good_judge (h : Good text w) (hp : w.pushes[i]? = some p) (hn : p.phase ≠ .returned)
    (hacc : ∀ f v, (f, v) ∈ p.accepted → Accepts text w f v p.key) {file : F} {content : Y} {version : ℕ}
    (hr : ReadAs w file content version) (rest : List F) (reply : KeyReply Y) :
    Good text (w.judge text i p file rest content version reply) := by
  have hrefused : Good text (w.nextFile i p rest) := good_nextFile h hp hn hacc rest
  have hunchanged : Accepts text w file version p.key →
      Good text (w.nextFile i { p with accepted := p.accepted ++ [(file, version)] } rest) := by
    intro ha
    exact good_nextFile h hp hn (q := { p with accepted := p.accepted ++ [(file, version)] })
      (accepts_append hacc ha) rest
  unfold judge
  dsimp only
  split
  · rename_i hind
    split
    · exact hunchanged ⟨hr.1, fun hv => ⟨content, hr.2 hv, .inr hind⟩⟩
    · exact hrefused
  · split
    · rename_i hset
      exact hunchanged ⟨hr.1, fun hv => ⟨content, hr.2 hv, .inl hset⟩⟩
    · split
      · exact hrefused
      · split
        · exact hrefused
        · split
          · rename_i hok
            exact good_setPush h hp hn ⟨hacc, (Bool.and_eq_true_iff.mp hok).1⟩
          · exact hrefused

omit [DecidableEq K] [DecidableEq Y] in
/-- **One await of a push.** -/
theorem good_advancePush (h : Good text w) (i : ℕ) (reply : KeyReply Y) : Good text (w.advancePush text i reply) := by
  unfold advancePush
  split
  · exact h
  · rename_i p hp
    obtain ⟨hacc, hphase⟩ := h.pushes i p hp
    split
    · exact h
    · rename_i file rest hph
      have hn : p.phase ≠ .returned := by rw [hph]; nofun
      split
      · exact good_nextFile h hp hn hacc rest
      · rename_i content hc
        exact good_setPush h hp hn ⟨hacc, Nat.le_refl _, fun _ => hc⟩
    · rename_i file rest content version hph
      have hn : p.phase ≠ .returned := by rw [hph]; nofun
      rw [hph] at hphase
      exact good_judge h hp hn hacc hphase rest reply
    · rename_i file rest content new hph
      have hn : p.phase ≠ .returned := by rw [hph]; nofun
      rw [hph] at hphase
      split
      · exact good_nextFile h hp hn hacc rest
      · split
        · exact good_nextFile h hp hn hacc rest
        · split
          · exact good_setPush h hp hn ⟨hacc, trivial⟩
          · -- the write ages what the push has accepted so far
            have hage := ages_writeFile w file (some new)
            have hw := good_writeFile h file (some new)
            have hlanded : Accepts text (w.writeFile file (some new)) file (w.versions file + 1) p.key := by
              refine ⟨?_, fun _ => ⟨new, ?_, .inl hphase⟩⟩
              · have hv : (w.writeFile file (some new)).versions file = w.versions file + 1 := by
                  unfold writeFile
                  exact Function.update_self ..
                omega
              · exact Function.update_self ..
            exact good_setPush hw hp hn
              ⟨accepts_append (fun f v hf => (hacc f v hf).ages hage) hlanded, trivial⟩
    · rename_i rest hph
      have hn : p.phase ≠ .returned := by rw [hph]; nofun
      exact good_nextFile h hp hn hacc rest
    · exact h
    · exact h

omit [DecidableEq F] [DecidableEq K] [DecidableEq Y] in
theorem good_push (h : Good text w) (key : K) (matched : List F) : Good text (w.push key matched) := by
  unfold push
  dsimp only
  generalize (if w.adoption.isSome = true then ([] : List F) else matched) = files
  have happ : ∀ j q, (w.pushes ++ [(⟨key, [], .settling files⟩ : Push F K Y)])[j]? = some q →
      w.pushes[j]? = some q ∨ j = w.pushes.length ∧ q = ⟨key, [], .settling files⟩ := by
    intro j q hq
    rw [List.getElem?_append] at hq
    split at hq
    · exact .inl hq
    · rw [List.getElem?_singleton] at hq
      split at hq
      · exact .inr ⟨by omega, (Option.some.inj hq).symm⟩
      · cases hq
  have h₁ : Good text ({ w with pushes := w.pushes ++ [⟨key, [], .settling files⟩] } : KeyWorld F K Y) := by
    have hkeeps : Keeps w ({ w with pushes := w.pushes ++ [⟨key, [], .settling files⟩] } : KeyWorld F K Y) :=
      ⟨Ages.refl w, fun _ h => h, fun _ _ _ h => h⟩
    refine ⟨fun j q hq => ?_, fun a ha => (h.adoption a ha).ages (Ages.refl w), h.consumed, fun j hj => ?_⟩
    · rcases happ j q hq with hq | ⟨-, rfl⟩
      · exact (h.pushes j q hq).keeps hkeeps
      · exact ⟨fun f v hf => absurd hf List.not_mem_nil, trivial⟩
    · obtain ⟨q, hq, hret⟩ := h.finishes j hj
      exact ⟨q, by rw [List.getElem?_append_left (List.getElem?_eq_some_iff.mp hq).1]; exact hq, hret⟩
  split
  · exact good_finishPush (p := ⟨key, [], .settling files⟩) h₁ (by simp) nofun
      (fun f v hf => absurd hf List.not_mem_nil)
  · exact h₁

/-! ## One await of an adoption -/

omit [DecidableEq F] [DecidableEq K] [DecidableEq Y] in
/-- An adoption that goes on. -/
theorem good_adoption (h : Good text w) {a : Option (Adoption F K Y)}
    (ha : ∀ b, a = some b → AdoptionOk text w b) : Good text { w with adoption := a } := by
  have hkeeps : Keeps w { w with adoption := a } := ⟨Ages.refl w, fun _ h => h, fun _ _ _ h => h⟩
  exact ⟨fun i p hp => (h.pushes i p hp).keeps hkeeps, fun b hb => (ha b hb).ages (Ages.refl w), h.consumed, h.finishes⟩

omit [DecidableEq F] [DecidableEq K] [DecidableEq Y] in
theorem good_release (h : Good text w) : Good text w.release := good_adoption h nofun

omit [DecidableEq K] [DecidableEq Y] in
theorem good_rollBack (h : Good text w) (file : F) : Good text (w.rollBack file) :=
  good_release (good_writeFile h file none)

omit [DecidableEq F] [DecidableEq Y] in
/-- The pending key is consumed: it is settled in the YAML that was written. -/
theorem good_consume (h : Good text w) {file : F} {version : ℕ} {content : Y} (hr : ReadAs w file content version)
    {consume : Option K} (hc : ∀ key, consume = some key → text.settled content key = true) :
    Good text (w.consume file version consume) := by
  unfold KeyWorld.consume
  cases consume with
  | none => exact good_release h
  | some key =>
    dsimp only
    split
    · rename_i hpend
      have hkeeps : Keeps w { w.release with pending := none, consumed := w.consumed ++ [(file, version, key)] } := by
        refine ⟨Ages.refl w, fun _ h => h, fun i k hi hk => ?_⟩
        rcases hk with hk | ⟨j, hj, hs⟩ | ⟨f, v, hm⟩
        · rw [hpend] at hk
          cases hk
          exact .inr (.inr ⟨file, version, List.mem_append_right _ (List.mem_singleton_self _)⟩)
        · exact .inr (.inl ⟨j, hj, hs⟩)
        · exact .inr (.inr ⟨f, v, List.mem_append_left _ hm⟩)
      refine ⟨fun i p hp => (h.pushes i p hp).keeps hkeeps, nofun, fun f v k hm => ?_, h.finishes⟩
      rcases List.mem_append.mp hm with hm | hm
      · exact (h.consumed f v k hm).ages (Ages.refl w)
      · cases List.mem_singleton.mp hm
        exact ⟨hr.1, fun hv => ⟨content, hr.2 hv, hc key rfl⟩⟩
    · exact good_release h

omit [DecidableEq F] [DecidableEq Y] in
theorem good_land (h : Good text w) {file : F} {version : ℕ} {content : Y} (hr : ReadAs w file content version)
    {outcome : KeyOutcome K Y} (ho : OutcomeOk text content outcome) : Good text (w.land file version outcome) := by
  unfold land
  split
  · rename_i new hw
    refine good_adoption h (fun b hb => ?_)
    cases hb
    intro key hk
    have := ho key hk
    rw [hw] at this
    exact this
  · rename_i hw
    refine good_consume h hr (fun key hk => ?_)
    have := ho key hk
    rw [hw] at this
    exact this

omit [DecidableEq K] in
theorem spliceKey_settled {content keyed : Y} {key : K} (h : text.spliceKey content key = some keyed) :
    text.settled keyed key = true := by
  unfold KeyText.spliceKey at h
  split at h
  · cases h
  · split at h
    · cases h
    · split at h
      · cases h
        assumption
      · cases h

omit [DecidableEq K] [DecidableEq Y] in
theorem outcomeOk_none (content : Y) (toWrite : Option Y) : OutcomeOk text content (⟨toWrite, none⟩ : KeyOutcome K Y) :=
  nofun

omit [DecidableEq K] [DecidableEq Y] in
/-- The key is in the text already. -/
theorem outcomeOk_settled {content : Y} {key : K} (hs : text.settled content key = true) :
    OutcomeOk text content ⟨none, some key⟩ := by
  intro k hk
  cases hk
  exact hs

omit [DecidableEq K] [DecidableEq Y] in
/-- The key is spliced in. -/
theorem outcomeOk_keyed {content keyed : Y} {key : K} (hs : text.settled keyed key = true) :
    OutcomeOk text content ⟨some keyed, some key⟩ := by
  intro k hk
  cases hk
  exact hs

omit [DecidableEq F] in
theorem good_writeKeyed (h : Good text w) {file : F} {version : ℕ} {content : Y} (hr : ReadAs w file content version)
    {outcome : KeyOutcome K Y} (ho : OutcomeOk text content outcome) (handled : Option K) :
    Good text (w.writeKeyed text file content version outcome handled) := by
  unfold writeKeyed
  split
  · exact good_land h hr ho
  · split
    · exact good_land h hr ho
    · split
      · rename_i hs
        exact good_land h hr (outcomeOk_settled hs)
      · split
        · exact good_land h hr ho
        · rename_i keyed hk
          refine good_adoption h (fun b hb => ?_)
          cases hb
          exact ⟨content, hr, ho, spliceKey_settled hk⟩

omit [DecidableEq F] in
theorem good_finalizeAdoptionKey (h : Good text w) {file : F} {version : ℕ} {content : Y}
    (hr : ReadAs w file content version) : Good text (w.finalizeAdoptionKey text file content version) := by
  unfold finalizeAdoptionKey
  split
  · refine good_adoption h (fun b hb => ?_)
    cases hb
    exact hr
  · split
    · rename_i hs
      exact good_writeKeyed h hr (outcomeOk_settled hs) _
    · split
      · exact good_writeKeyed h hr (outcomeOk_none content none) _
      · rename_i keyed hk
        refine good_adoption h (fun b hb => ?_)
        cases hb
        exact ⟨hr, spliceKey_settled hk⟩

omit [DecidableEq K] [DecidableEq Y] in
/-- The text an adoption has just written. -/
theorem readAs_writeFile (w : KeyWorld F K Y) (file : F) (content : Y) :
    ReadAs (w.writeFile file (some content)) file content (w.versions file + 1) := by
  unfold ReadAs writeFile
  dsimp only
  rw [Function.update_self, Function.update_self]
  exact ⟨Nat.le_refl _, fun _ => rfl⟩

/-- **One await of an adoption.** -/
theorem good_advanceAdoption (h : Good text w) (reply : KeyReply Y) : Good text (w.advanceAdoption text reply) := by
  have hpicked : ∀ {content keyed : Y} {key : K} {outcome : KeyOutcome K Y}, OutcomeOk text content outcome →
      text.settled keyed key = true →
      OutcomeOk text content (if reply.valid then { toWrite := some keyed, consume := some key } else outcome) := by
    intro content keyed key outcome ho hk
    split
    · exact outcomeOk_keyed hk
    · exact ho
  unfold advanceAdoption
  split
  · exact h
  · split
    · exact good_release h
    · exact good_adoption h (fun b hb => by cases hb; trivial)
  · rename_i file content ha
    split
    · exact good_release h
    · refine good_adoption (good_writeFile h file (some content)) (fun b hb => ?_)
      cases hb
      exact readAs_writeFile w file content
  · rename_i file content version ha
    split
    · exact good_finalizeAdoptionKey h (h.adoption _ ha)
    · exact good_rollBack h file
  · rename_i file content version ha
    exact good_writeKeyed h (h.adoption _ ha) (outcomeOk_none content reply.minted) none
  · rename_i file content version key keyed ha
    obtain ⟨hr, hk⟩ := h.adoption _ ha
    exact good_writeKeyed h hr (hpicked (outcomeOk_none content none) hk) _
  · rename_i file version outcome key keyed ha
    obtain ⟨content, hr, ho, hk⟩ := h.adoption _ ha
    exact good_land h hr (hpicked ho hk)
  · rename_i file new consume ha
    split
    · refine good_adoption (good_writeFile h file (some new)) (fun b hb => ?_)
      cases hb
      exact ⟨new, readAs_writeFile w file new, h.adoption _ ha⟩
    · exact good_rollBack h file
  · rename_i file version key ha
    obtain ⟨content, hr, hk⟩ := h.adoption _ ha
    exact good_consume h hr hk

theorem good_step (h : Good text w) (a : KeyAction F K Y) : Good text (w.step text a) := by
  cases a with
  | push key matched => exact good_push h key matched
  | advancePush i reply => exact good_advancePush h i reply
  | adopt file =>
    dsimp only [step]
    split
    · exact h
    · exact good_adoption h (fun b hb => by cases hb; trivial)
  | advanceAdoption reply => exact good_advanceAdoption h reply
  | edit file content => exact good_writeFile h file content

/-! ## What removes an entry -/

/-- A push returns: the entry is its key, or it is popped because some YAML accepted its key. -/
def Returns (w w' : KeyWorld F K Y) : Prop :=
  ∃ i p, w'.finishes = w.finishes ++ [i] ∧ w'.pushes[i]? = some p ∧
    (w'.pending = some p.key ∨ p.accepted ≠ [] ∧ w'.pending = none)

variable {key : K}

/-- A YAML that is its settled key, if any; every key can be written into it. -/
def plainText : KeyText (Option ℕ) ℕ where
  settled y k := y = some k
  indirected _ := false
  same y y' := y = y'
  rotate _ k := some (some k)
  upsert _ k := some (some k)

/-- The key `1` is pushed to two YAMLs of the name, the second of which is gone; the key `2` is pushed while the
first commit of `1` runs, and its validation is unavailable; then `1` returns. -/
def overtakenPushes : List (KeyAction String ℕ (Option ℕ)) :=
  [.edit "lamp.yaml" (some none), .push 1 ["lamp.yaml", "lamp (1).yaml"], .advancePush 0 {}, .advancePush 0 {},
    .advancePush 0 {}, .push 2 ["lamp.yaml"], .advancePush 1 {}, .advancePush 1 { valid := false }]

def overtaken : KeyWorld String ℕ (Option ℕ) := overtakenPushes.foldl (step plainText) {}

/-- The push of `1` goes on to the second YAML, and returns. -/
def popped : KeyWorld String ℕ (Option ℕ) :=
  (overtaken.step plainText (.advancePush 0 {})).step plainText (.advancePush 0 {})

end KeyWorld
end DeviceBuilder.Devices
