import DeviceBuilder.RemoteBuild.Cleanup

/-!
# What the moves beside the sweep change

* `kind?_move`: what one move makes of one path of the tree.
* `busy_move`: a key becomes busy only when an upload writes its bundle.
* `Sound`, `Covered`: an upload under way has its bundle on disk, and so has every
  job that the sweep was not given.
* `Sound.move`, `Covered.move`, `Sound.after`, `Covered.after`: both are kept by
  the moves and by safe calls of the sweep.
-/

namespace DeviceBuilder.RemoteBuild.Cleanup

open Helpers.RemoteBuildLayout Helpers.RemoteBuildTree Helpers.RemoteBuildCleanup

variable {dataRoot : Root} {w : World} {m : Move} {d : Disk} {p q : Path} {t clock : ℕ} {k : RemoteBuildPath}
  {keys : List RemoteBuildPath} {u : Upload} {op : FsOp} {a : op.Ans}

/-! ### The tree -/

theorem kind?_set {n : Node} : kind? (d.set p n) q = if q = p then some n.kind else kind? d q := by
  unfold kind?
  rw [Dict.get?_set]
  split <;> rfl

theorem kind?_mkdirs :
    kind? (mkdirs t d p) q = if q = p ∧ kind? d p = none then some .dir else kind? d q := by
  unfold mkdirs
  by_cases h : kind? d p = none
  · rw [if_pos h, kind?_set]; simp only [h, and_true]
  · rw [if_neg h, if_neg (fun hq => h hq.2)]

@[simp] theorem kind?_touch : kind? (touch t d p) q = kind? d q := by
  unfold touch
  split
  · rw [kind?_set]
    split
    · simp_all
    · rfl
  · rfl

theorem kind?_writeBytes : kind? (writeBytes t d p) q =
    if q = p then some (if kind? d p = some .symlink then .symlink else .file) else kind? d q := by
  unfold writeBytes; rw [kind?_set]

/-- The paths a move may make a directory. -/
def Made (dataRoot : Root) (w : World) (p : Path) : Prop :=
  (∃ r, p = .root r) ∨ (∃ r n, p = .dashboard r n) ∨ (∃ n, p = perDashboardDataDir dataRoot n) ∨
    ∃ u ∈ w.uploads, u.written = true ∧ p = u.key.subtree

/-- The upload that writes its bundle in the move `m`. -/
def Writes (w : World) (m : Move) (u : Upload) : Prop := ∃ i, m = .writeBundle i ∧ w.uploads[i]? = some u

/-- **What a move makes of a path.** -/
theorem kind?_move : kind? (w.move dataRoot m).disk p = kind? w.disk p ∨
    (kind? w.disk p = none ∧ kind? (w.move dataRoot m).disk p = some .dir ∧ Made dataRoot w p) ∨
    (kind? w.disk p = some .dir ∧ kind? (w.move dataRoot m).disk p = none) ∨
    (∃ u, Writes w m u ∧ p = u.key.bundle ∧ kind? w.disk p ≠ some .dir ∧
      kind? (w.move dataRoot m).disk p = some (if kind? w.disk p = some .symlink then .symlink else .file)) := by
  cases m with
  | tick => exact .inl rfl
  | mkdir u =>
    simp only [World.move]
    split
    · simp only [kind?_mkdirs]
      by_cases h1 : p = .dashboard .config u.key.dirId ∧ kind? w.disk p = none
      · right; left
        obtain ⟨rfl, h1⟩ := h1
        exact ⟨h1, by simp [h1], .inr (.inl ⟨_, _, rfl⟩)⟩
      · by_cases h2 : p = .root .config ∧ kind? w.disk p = none
        · right; left
          obtain ⟨rfl, h2⟩ := h2
          exact ⟨h2, by simp [h2], .inl ⟨_, rfl⟩⟩
        · left
          rw [if_neg, if_neg]
          · rintro ⟨rfl, h⟩; exact h2 ⟨rfl, h⟩
          · rintro ⟨rfl, h⟩; exact h1 ⟨rfl, by simpa using h⟩
    · exact .inl rfl
  | writeBundle i =>
    simp only [World.move]
    cases hu : w.uploads[i]? with
    | none => exact .inl rfl
    | some u =>
      simp only
      split
      case isTrue h =>
        rw [kind?_writeBytes]
        by_cases hp : p = u.key.bundle
        · right; right; right
          subst hp
          exact ⟨u, ⟨i, rfl, hu⟩, rfl, h.2, if_pos rfl⟩
        · exact .inl (if_neg hp)
      · exact .inl rfl
  | prepare i wiped =>
    simp only [World.move]
    cases hu : w.uploads[i]? with
    | none => exact .inl rfl
    | some u =>
      simp only
      split
      · exact .inl rfl
      case isFalse hw =>
        have hw : u.written = true := by
          cases h : u.written
          · simp [h] at hw
          · rfl
        split
        case isTrue h =>
          simp only [kind?_mkdirs]
          by_cases hp : p = u.key.subtree
          · right; left
            subst hp
            exact ⟨h.1, by simp [h.1], .inr (.inr (.inr ⟨u, List.mem_of_getElem? hu, hw, rfl⟩))⟩
          · exact .inl (if_neg fun hq => hp hq.1)
        · split
          case isTrue h =>
            cases wiped
            · exact .inl kind?_touch
            · simp only [if_true, kind?_erase]
              by_cases hp : p = u.key.subtree
              · right; right; left
                subst hp
                exact ⟨h, if_pos rfl⟩
              · exact .inl (if_neg hp)
          · exact .inl rfl
  | fail => exact .inl rfl
  | enqueue i =>
    simp only [World.move]
    cases w.uploads[i]? with
    | none => exact .inl rfl
    | some u => simp only; split <;> exact .inl rfl
  | jobMoves => exact .inl rfl
  | build i =>
    simp only [World.move]
    cases w.jobs[i]? with
    | none => exact .inl rfl
    | some job =>
      simp only
      cases if job.isActive = true then parseFromConfiguration job.configuration else none with
      | none => exact .inl rfl
      | some key =>
        simp only
        split
        · simp only [kind?_mkdirs, kind?_touch]
          by_cases h1 : p = key.dataDir dataRoot ∧ kind? w.disk p = none
          · right; left
            obtain ⟨rfl, h1⟩ := h1
            refine ⟨h1, ?_, .inr (.inr (.inl ⟨_, rfl⟩))⟩
            have hne : key.dataDir dataRoot ≠ .dashboard dataRoot key.dirId := nofun
            exact if_pos ⟨rfl, (if_neg fun h => hne h.1).trans h1⟩
          · by_cases h2 : p = .dashboard dataRoot key.dirId ∧ kind? w.disk p = none
            · right; left
              obtain ⟨rfl, h2⟩ := h2
              refine ⟨h2, ?_, .inr (.inl ⟨_, _, rfl⟩)⟩
              rw [if_neg (fun h => by simp [RemoteBuildPath.dataDir, perDashboardDataDir] at h), if_pos ⟨rfl, h2⟩]
            · left
              rw [if_neg, if_neg]
              · rintro ⟨rfl, h⟩; exact h2 ⟨rfl, h⟩
              · rintro ⟨rfl, h⟩
                rw [if_neg (fun h => by simp [RemoteBuildPath.dataDir, perDashboardDataDir] at h)] at h
                exact h1 ⟨rfl, h⟩
        · exact .inl kind?_touch

/-- No move makes a symlink. -/
theorem symlink_move (h : kind? (w.move dataRoot m).disk p = some .symlink) : kind? w.disk p = some .symlink := by
  rcases @kind?_move dataRoot w m p with
    hk | ⟨-, hk, -⟩ | ⟨-, hk⟩ | ⟨u, -, -, -, hk⟩
  · rwa [hk] at h
  · rw [hk] at h; cases h
  · rw [hk] at h; cases h
  · rw [hk] at h
    split at h
    · assumption
    · cases h

/-- There is something at `p` that is not a directory. -/
def Stays (d : Disk) (p : Path) : Prop := ∃ k, kind? d p = some k ∧ k ≠ .dir

theorem Stays.move (h : Stays w.disk p) : Stays (w.move dataRoot m).disk p := by
  obtain ⟨k, hk, hdir⟩ := h
  rcases @kind?_move dataRoot w m p with
    h' | ⟨hn, -⟩ | ⟨hd, -⟩ | ⟨u, -, -, -, h'⟩
  · exact ⟨k, h'.trans hk, hdir⟩
  · rw [hn] at hk; cases hk
  · rw [hd] at hk; cases hk; exact absurd rfl hdir
  · exact ⟨_, h', by split <;> simp⟩

/-! ### The busy keys -/

/-- An upload that is written after a move was so before, or writes its bundle in it. -/
theorem uploads_move {u : Upload} (h : u ∈ (w.move dataRoot m).uploads) (hw : u.written = true) :
    u ∈ w.uploads ∨ ∃ v, Writes w m v ∧ u = { v with written := true } ∧
      Stays (w.move dataRoot m).disk v.key.bundle := by
  cases m with
  | tick => exact .inl h
  | mkdir v =>
    simp only [World.move] at h
    split at h
    · rcases List.mem_append.mp h with h | h
      · exact .inl h
      · rw [List.mem_singleton] at h; rw [h] at hw; cases hw
    · exact .inl h
  | writeBundle i =>
    simp only [World.move] at h ⊢
    cases hv : w.uploads[i]? with
    | none => rw [hv] at h; exact .inl h
    | some v =>
      simp only [hv] at h ⊢
      split at h
      · rcases List.mem_or_eq_of_mem_set h with h | h
        · exact .inl h
        · right
          refine ⟨v, ⟨i, rfl, hv⟩, h, ?_⟩
          rw [if_pos (by assumption)]
          exact ⟨_, kind?_writeBytes.trans (if_pos rfl), by split <;> simp⟩
      · exact .inl (List.mem_of_mem_eraseIdx h)
  | prepare i wiped =>
    left
    simp only [World.move] at h
    split at h
    · exact h
    · split at h
      · exact h
      · split at h
        · exact h
        · split at h <;> exact h
  | fail => exact .inl (List.mem_of_mem_eraseIdx h)
  | enqueue i =>
    left
    simp only [World.move] at h
    split at h
    · exact h
    · split at h
      · exact List.mem_of_mem_eraseIdx h
      · exact h
  | jobMoves => exact .inl h
  | build i =>
    left
    simp only [World.move] at h
    split at h
    · exact h
    · split at h
      · exact h
      · split at h <;> exact h

theorem mem_inFlightKeys : k ∈ w.inFlightKeys ↔ ∃ job ∈ w.jobs, job.isActive = true ∧ job.remotePeer ≠ [] ∧
    parseFromConfiguration job.configuration = some k := by
  simp [World.inFlightKeys, List.mem_filterMap, and_assoc]

theorem mem_busy : k ∈ w.busy ↔ k ∈ w.inFlightKeys ∨ ∃ u ∈ w.uploads, u.written = true ∧ u.key.onDisk = k := by
  simp [World.busy, and_assoc]

theorem Upload.parse (u : Upload) : parseFromConfiguration (u.key.configuration u.filename) = some u.key.onDisk :=
  have h := validated u.validName
  parse_configuration (isComponent_dirId u.validId) h.1 h.2.1

/-- A job in flight after a move was so before, or is of an upload that was written. -/
theorem inFlightKeys_move (h : k ∈ (w.move dataRoot m).inFlightKeys) :
    k ∈ w.inFlightKeys ∨ ∃ u ∈ w.uploads, u.written = true ∧ u.key.onDisk = k := by
  cases m with
  | enqueue i =>
    simp only [World.move] at h
    cases hu : w.uploads[i]? with
    | none => rw [hu] at h; exact .inl h
    | some u =>
      simp only [hu] at h
      split at h
      case isFalse => exact .inl h
      case isTrue hw =>
        obtain ⟨job, hjob, hactive, hpeer, hparse⟩ := mem_inFlightKeys.mp h
        rcases List.mem_append.mp hjob with hjob | hjob
        · exact .inl (mem_inFlightKeys.mpr ⟨job, hjob, hactive, hpeer, hparse⟩)
        · rw [List.mem_singleton] at hjob
          rw [hjob, u.parse] at hparse
          exact .inr ⟨u, List.mem_of_getElem? hu, hw, Option.some.inj hparse⟩
  | jobMoves i status =>
    left
    obtain ⟨job, hjob, hactive, hpeer, hparse⟩ := mem_inFlightKeys.mp h
    obtain ⟨j, hj, rfl⟩ := List.mem_iff_getElem.mp hjob
    simp only [World.move, List.getElem_modify] at hactive hpeer hparse
    have hj : j < w.jobs.length := by simpa [World.move] using hj
    have hjob : w.jobs[j] ∈ w.jobs := List.getElem_mem _
    split at hactive
    · rename_i hij
      rw [if_pos hij] at hpeer hparse
      split at hpeer
      · rename_i ha
        rw [if_pos ha] at hparse
        exact mem_inFlightKeys.mpr ⟨_, hjob, ha, hpeer, hparse⟩
      · rename_i ha
        rw [if_neg ha] at hactive
        exact absurd hactive ha
    · rename_i hij
      rw [if_neg hij] at hpeer hparse
      exact mem_inFlightKeys.mpr ⟨_, hjob, hactive, hpeer, hparse⟩
  | _ =>
    left
    unfold World.inFlightKeys at h ⊢
    simp only [World.move] at h
    repeat' split at h
    all_goals exact h

/-- **A key becomes busy** only when an upload writes its bundle. -/
theorem busy_move (h : k ∈ (w.move dataRoot m).busy) : k ∈ w.busy ∨ ∃ u, Writes w m u ∧ k = u.key.onDisk := by
  rcases mem_busy.mp h with h | ⟨u, hu, hw, rfl⟩
  · exact .inl (mem_busy.mpr (inFlightKeys_move h))
  · rcases uploads_move hu hw with hu | ⟨v, hv, rfl, -⟩
    · exact .inl (mem_busy.mpr (.inr ⟨u, hu, hw, rfl⟩))
    · exact .inr ⟨v, hv, rfl⟩

/-! ### The tree stays a tree -/

theorem IsTree.mkdirs (h : IsTree d) (hp : ∀ r n e, p = .entry r n e → kind? d (.dashboard r n) ≠ none) :
    IsTree (mkdirs t d p) := by
  intro r n e he
  rw [kind?_mkdirs] at he ⊢
  have hparent : kind? d (.dashboard r n) ≠ none := by
    split at he
    case isTrue hq => exact hp r n e hq.1.symm
    case isFalse => exact h r n e he
  split
  · exact Option.some_ne_none _
  · exact hparent

theorem IsTree.touch (h : IsTree d) : IsTree (touch t d p) := by
  intro r n e he
  rw [kind?_touch] at he ⊢
  exact h r n e he

theorem IsTree.writeBytes (h : IsTree d) (hp : ∀ r n e, p = .entry r n e → kind? d (.dashboard r n) ≠ none) :
    IsTree (writeBytes t d p) := by
  intro r n e he
  rw [kind?_writeBytes] at he ⊢
  have hparent : kind? d (.dashboard r n) ≠ none := by
    split at he
    case isTrue hq => exact hp r n e hq.symm
    case isFalse => exact h r n e he
  split
  · exact Option.some_ne_none _
  · exact hparent

theorem IsTree.erase_entry {r : Root} {n e : Name} (h : IsTree d) : IsTree (d.erase (.entry r n e)) := by
  intro r' n' e' he
  rw [kind?_erase] at he ⊢
  split at he
  · exact absurd rfl he
  · rw [if_neg (by simp)]; exact h r' n' e' he

theorem IsTree.move (h : IsTree w.disk) : IsTree (w.move dataRoot m).disk := by
  cases m with
  | tick | fail | jobMoves => exact h
  | mkdir u =>
    simp only [World.move]
    split
    · exact (h.mkdirs (by simp)).mkdirs (by simp)
    · exact h
  | writeBundle i =>
    simp only [World.move]
    split
    · exact h
    · split
      case isTrue hd =>
        apply h.writeBytes
        rintro r n e ⟨⟩
        rw [hd.1]; exact Option.some_ne_none _
      case isFalse => exact h
  | prepare i wiped =>
    simp only [World.move]
    split
    · exact h
    · split
      · exact h
      case isFalse hw =>
        have hd := not_not.mp (not_or.mp hw).2
        split
        · apply h.mkdirs
          rintro r n e ⟨⟩
          rw [hd]; exact Option.some_ne_none _
        · split
          · cases wiped
            · exact h.touch
            · exact h.erase_entry
          · exact h
  | enqueue i =>
    simp only [World.move]
    split
    · exact h
    · split <;> exact h
  | build i =>
    simp only [World.move]
    split
    · exact h
    · split
      · exact h
      · split
        · apply (h.touch.mkdirs (by simp)).mkdirs
          rintro r n e ⟨⟩
          rw [kind?_mkdirs]
          split
          · exact Option.some_ne_none _
          case isFalse hne => exact fun hnone => hne ⟨rfl, hnone⟩
        · exact h.touch

/-- A call that deletes no directory of dashboards with something in it. -/
theorem IsTree.after (h : IsTree d) (ha : answers clock d op a = true)
    (hrm : ∀ p, op = .rmtree p → ∃ r n e, p = .entry r n e) (hun : ∀ r n missingOk, op ≠ .unlink (.dashboard r n) missingOk) :
    IsTree (after d op a) := by
  intro r n e he
  have hd : kind? d (.dashboard r n) ≠ none := by
    apply h r n e
    rcases kind?_after ha (q := .entry r n e) with hk | ⟨hk, -⟩
    · rwa [hk] at he
    · exact absurd hk he
  rcases kind?_after ha (q := .dashboard r n) with hk | ⟨-, ⟨p, hop, hc, -⟩ | ⟨missingOk, hop⟩ | ⟨hop, hempty⟩⟩
  · rwa [hk]
  · obtain ⟨r', n', e', rfl⟩ := hrm p hop
    simp [contains] at hc
  · exact absurd hop (hun r n missingOk)
  · -- `rmdir` found nothing in it
    have hnone : kind? d (.entry r n e) = none := by
      have : e ∉ names d (.dashboard r n) := by rw [hempty]; exact List.not_mem_nil
      rw [mem_names, Bool.not_eq_true, Option.isSome_eq_false_iff, Option.isNone_iff_eq_none] at this
      exact this
    rcases kind?_after ha (q := .entry r n e) with hk | ⟨hk, -⟩
    · rw [hk] at he; exact absurd hnone he
    · exact absurd hk he

/-! ### Uploads have their bundles -/

/-- The upload or the job of `k` has its bundle on disk, under a name that counts as live. -/
structure Fresh (d : Disk) (k : RemoteBuildPath) : Prop where
  short : k.dirId = k.dashboardId
  device : casefold k.deviceName ≠ dataDirName
  named : "._".toList.isPrefixOf k.deviceName = false
  bundle : Stays d k.bundle

theorem Fresh.move (h : Fresh w.disk k) : Fresh (w.move dataRoot m).disk k := { h with bundle := h.bundle.move }

/-- What holds with or without a sweep. -/
structure Sound (w : World) : Prop where
  tree : IsTree w.disk
  uploads : ∀ u ∈ w.uploads, u.written = true → Fresh w.disk u.key.onDisk

/-- What the keys of the sweep leave out is fresh. -/
structure Covered (keys : List RemoteBuildPath) (w : World) : Prop where
  busy : ∀ k ∈ w.busy, k ∈ keys ∨ Fresh w.disk k
  named : ∀ k ∈ keys, k.dirId = k.dashboardId ∨ isLiveName k.deviceName = true

/-- An upload that writes its bundle is fresh. -/
theorem Fresh.of_writes {pending : Option Call} {v : Upload} (hm : othersMeet pending w m = true)
    (hv : Writes w m v) (hs : Stays d v.key.bundle) : Fresh d v.key.onDisk := by
  obtain ⟨i, rfl, hi⟩ := hv
  simp only [othersMeet, hi, Option.all_some, Bool.and_eq_true, Bool.not_eq_true'] at hm
  refine ⟨dirId_onDisk, (validated v.validName).2.2, hm.1, ?_⟩
  unfold RemoteBuildPath.bundle
  rw [dirId_onDisk]
  exact hs

theorem Sound.move {pending : Option Call} (h : Sound w) (hm : othersMeet pending w m = true) :
    Sound (w.move dataRoot m) := by
  refine ⟨h.tree.move, fun u hu hw => ?_⟩
  rcases uploads_move hu hw with hu | ⟨v, hv, rfl, hs⟩
  · exact (h.uploads u hu hw).move
  · have hf : Fresh (w.move dataRoot m).disk v.key.onDisk := Fresh.of_writes hm hv hs
    exact hf

theorem Covered.move {pending : Option Call} (h : Covered keys w) (hs : Sound w)
    (hm : othersMeet pending w m = true) : Covered keys (w.move dataRoot m) := by
  refine ⟨fun k hk => ?_, h.named⟩
  rcases mem_busy.mp hk with hj | ⟨u, hu, hw, rfl⟩
  · have hb : k ∈ w.busy := mem_busy.mpr (inFlightKeys_move hj)
    exact (h.busy k hb).imp_right Fresh.move
  · exact .inr ((hs.move hm).uploads u hu hw)

/-! ### Safe calls of the sweep keep all this -/

/-- The world after a call of the sweep. -/
def World.called (w : World) (c : Call) (a : c.Ans) : World := { w with disk := after w.disk c.op a }

@[simp] theorem busy_called {c : Call} {a : c.Ans} : (w.called c a).busy = w.busy := rfl

variable {c : Call} {b : c.Ans}

theorem Fresh.called (h : Fresh w.disk k) (hk : k ∈ w.busy) (hs : Safe dataRoot w c)
    (ha : answers w.clock w.disk c.op b = true) : Fresh (w.called c b).disk k := by
  obtain ⟨kind, hkind, hdir⟩ := h.bundle
  refine { h with bundle := ⟨kind, ?_, hdir⟩ }
  have hbundle : workBundle k = k.bundle := by unfold workBundle RemoteBuildPath.bundle; rw [h.short]
  rcases kind?_after ha (q := k.bundle) with hq | ⟨-, ⟨p, hop, hc, hp⟩ | ⟨missingOk, hop⟩ | ⟨hop, -⟩⟩
  · exact hq.trans hkind
  · -- a tree is a directory, and the bundle is none
    simp only [Safe, hop] at hs
    obtain ⟨r, d, e, rfl, -⟩ := hs
    have he : Path.entry r d e = k.bundle := by
      simp only [RemoteBuildPath.bundle, contains, Bool.decide_and, Bool.and_eq_true, decide_eq_true_eq] at hc
      obtain ⟨rfl, rfl, rfl⟩ := hc
      rfl
    rw [he, hkind] at hp
    exact absurd (Option.some.inj hp) hdir
  · simp only [Safe, hop] at hs
    obtain ⟨r, d, e, -, -, -, hne⟩ := hs
    exact absurd hbundle.symm (hne k hk)
  · simp only [Safe, hop] at hs
    obtain ⟨r, d, hp, -⟩ := hs
    exact absurd hp (by simp [RemoteBuildPath.bundle])

theorem Sound.called (h : Sound w) (hs : Safe dataRoot w c) (ha : answers w.clock w.disk c.op b = true) :
    Sound (w.called c b) where
  tree := by
    refine h.tree.after ha (fun p hop => ?_) (fun r n missingOk hop => ?_)
    · simp only [Safe, hop] at hs
      obtain ⟨r, d, e, rfl, -⟩ := hs
      exact ⟨r, d, e, rfl⟩
    · simp only [Safe, hop] at hs
      obtain ⟨_, _, _, hp, -⟩ := hs
      cases hp
  uploads u hu hw := (h.uploads u hu hw).called (mem_busy.mpr (.inr ⟨u, hu, hw, rfl⟩)) hs ha

theorem Covered.called (h : Covered keys w) (hs : Safe dataRoot w c)
    (ha : answers w.clock w.disk c.op b = true) : Covered keys (w.called c b) where
  busy k hk := (h.busy k hk).imp_right fun hf => hf.called hk hs ha
  named := h.named

/-- No call of the sweep makes a symlink, or anything else. -/
theorem kind?_called (ha : answers w.clock w.disk c.op b = true) {kind : Kind}
    (h : kind? (w.called c b).disk p = some kind) : kind? w.disk p = some kind := by
  rcases kind?_after ha (q := p) with hq | ⟨hq, -⟩
  · exact hq.symm.trans h
  · exact absurd (hq.symm.trans h) nofun

end DeviceBuilder.RemoteBuild.Cleanup
