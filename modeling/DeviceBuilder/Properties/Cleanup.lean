import DeviceBuilder.Lib.Runs
import DeviceBuilder.RemoteBuild.CleanupMoves

/-!
# The cleanup sweep never removes work in use

* `setting`: the sweep beside the moves of the others, on the steps that meet the
  condition of `Receiver.meets`.
* `safely_sweepEntry`, `safely_reclaimDashboard`, `safely_sweepRemoteBuilds`: every
  call of the sweep is safe.
* `sweep_safe`: so it is in every run.
* `sweep_deletes_active`: a directory with a long name makes the sweep delete the
  subtree of an active job.
-/

namespace DeviceBuilder.RemoteBuild.Cleanup

open Helpers.RemoteBuildLayout Helpers.RemoteBuildTree Helpers.RemoteBuildCleanup
open Interleaved (Prog Safely safely_ask safely_bind safely_pure safely_foldlM)
open Runs

/-- The sweep with the keys `keys`, on steps that meet the condition. -/
def setting (dataRoot : Root) (keys : List RemoteBuildPath) : Interleaved.Setting Call Call.Ans World where
  rely c w w' := ∃ m, othersMeet (some c) w m = true ∧ w.move dataRoot m = w'
  reply c w a w' := answers w.clock w.disk c.op a = true ∧ callMeets keys w c = true ∧ w' = w.called c a
  safe c w := Safe dataRoot w c

variable {dataRoot : Root} {keys : List RemoteBuildPath} {ps : List Path} {w : World} {site : Site}
  {op : FsOp} {p : Path} {cutoff : ℤ} {d e : Name} {k : RemoteBuildPath}

/-- What the sweep knows between two calls: the paths `ps` are no symlinks. -/
structure Base (keys : List RemoteBuildPath) (ps : List Path) (w : World) : Prop where
  sound : Sound w
  covered : Covered keys w
  clear : ∀ p ∈ ps, kind? w.disk p ≠ some .symlink

theorem Base.move {pending : Option Call} {m : Move} (h : Base keys ps w) (hm : othersMeet pending w m = true) :
    Base keys ps (w.move dataRoot m) where
  sound := h.sound.move hm
  covered := h.covered.move h.sound hm
  clear p hp hl := h.clear p hp (symlink_move hl)

theorem Base.called {c : Call} {a : c.Ans} (h : Base keys ps w) (hs : Safe dataRoot w c)
    (ha : answers w.clock w.disk c.op a = true) : Base keys ps (w.called c a) where
  sound := h.sound.called hs ha
  covered := h.covered.called hs ha
  clear p hp hl := h.clear p hp (kind?_called ha hl)

theorem Base.of_subset {ps' : List Path} (h : Base keys ps w) (hps : ps' ⊆ ps) : Base keys ps' w :=
  { h with clear := fun p hp => h.clear p (hps hp) }

theorem Base.cons (h : Base keys ps w) (ha : answers w.clock w.disk (.isSymlink p) false = true) :
    Base keys (p :: ps) w where
  sound := h.sound
  covered := h.covered
  clear q hq := by
    rcases List.mem_cons.mp hq with rfl | hq
    · simpa [answers] using ha
    · exact h.clear q hq

theorem Base.noLink_root {r : Root} (h : Base keys ps w) (hr : .root r ∈ ps) : NoLink w.disk (.root r) := by
  intro q hq
  cases q <;> simp only [contains, decide_eq_true_eq, Bool.false_eq_true] at hq
  subst hq; exact h.clear _ hr

theorem Base.noLink_dashboard {r : Root} (h : Base keys ps w) (hr : .root r ∈ ps) (hd : .dashboard r d ∈ ps) :
    NoLink w.disk (.dashboard r d) := by
  intro q hq
  cases q <;> simp only [contains, decide_eq_true_eq, Bool.false_eq_true] at hq
  · subst hq; exact h.clear _ hr
  · obtain ⟨rfl, rfl⟩ := hq; exact h.clear _ hd

theorem Base.noLink_entry {r : Root} (h : Base keys ps w) (hr : .root r ∈ ps) (hd : .dashboard r d ∈ ps)
    (he : .entry r d e ∈ ps) : NoLink w.disk (.entry r d e) := by
  intro q hq
  cases q <;> simp only [contains, decide_eq_true_eq] at hq
  · subst hq; exact h.clear _ hr
  · obtain ⟨rfl, rfl⟩ := hq; exact h.clear _ hd
  · obtain ⟨rfl, rfl, rfl⟩ := hq; exact h.clear _ he

/-! ### The rules for a call -/

/-- The answer `a` to the call was given in the world `v`, and left `w`. -/
structure Replied (keys : List RemoteBuildPath) (site : Site) (op : FsOp) (a : op.Ans) (v w : World) : Prop where
  answered : answers v.clock v.disk op a = true
  met : callMeets keys v ⟨site, op⟩ = true
  called : w = v.called ⟨site, op⟩ a

/-- A call, with an assertion `F` that the others keep. -/
theorem safely_call {F : World → Prop} (hB : Base keys ps w) (hF : F w)
    (stable : ∀ v m, Base keys ps v → othersMeet (some ⟨site, op⟩) v m = true → F v → F (v.move dataRoot m))
    (safe : ∀ v, Base keys ps v → F v → Safe dataRoot v ⟨site, op⟩) :
    Safely (setting dataRoot keys) (call site op)
      (fun a w' => Base keys ps w' ∧ ∃ v, Base keys ps v ∧ F v ∧ Replied keys site op a v w') w := by
  refine safely_ask (P := fun v => Base keys ps v ∧ F v) ⟨hB, hF⟩ ?_ (fun v hv => safe v hv.1 hv.2) ?_
  · rintro v _ ⟨hv, hFv⟩ ⟨m, hm, rfl⟩
    exact ⟨hv.move hm, stable v m hv hm hFv⟩
  · rintro v a _ ⟨hv, hFv⟩ ⟨ha, hmet, rfl⟩
    exact ⟨hv.called (safe v hv hFv) ha, v, hv, hFv, ha, hmet, rfl⟩

/-- A call that is safe anyway. -/
theorem safely_probe (hB : Base keys ps w) (safe : ∀ v, Base keys ps v → Safe dataRoot v ⟨site, op⟩) :
    Safely (setting dataRoot keys) (call site op)
      (fun a w' => Base keys ps w' ∧ ∃ v, Base keys ps v ∧ Replied keys site op a v w') w :=
  (safely_call (F := fun _ => True) hB trivial (fun _ _ _ _ _ => trivial) (fun v hv _ => safe v hv)).mono
    fun _ _ ⟨hB, v, hv, _, hr⟩ => ⟨hB, v, hv, hr⟩

/-- After a negative answer the path is known to be no symlink. -/
theorem safely_isSymlink (hB : Base keys ps w) :
    Safely (setting dataRoot keys) (call site (.isSymlink p))
      (fun (b : Bool) w' => Base keys ps w' ∧ (b = false → Base keys (p :: ps) w')) w := by
  have h := @safely_probe dataRoot keys ps w site (.isSymlink p) hB fun _ _ => trivial
  refine h.mono ?_
  rintro b _ ⟨hw, v, -, ha, -, rfl⟩
  exact ⟨hw, fun hb => hw.cons (hb ▸ ha)⟩

/-- A call whose answer does not matter. -/
theorem safely_other (hB : Base keys ps w) (safe : ∀ v, Base keys ps v → Safe dataRoot v ⟨site, op⟩) :
    Safely (setting dataRoot keys) (call site op) (fun _ => Base keys ps) w :=
  (safely_probe hB safe).mono fun _ _ h => h.1

theorem safely_safeIterdir (hB : Base keys ps w) (hp : ∀ v, Base keys ps v → NoLink v.disk p) :
    Safely (setting dataRoot keys) (safeIterdir site p) (fun _ => Base keys ps) w := by
  have h := @safely_other dataRoot keys ps w site (.iterdir p) hB hp
  refine h.bind fun l v hv => ?_
  cases l <;> exact hv

/-! ### The entries of a dashboard -/

/-- No busy key has its YAML in the entry `e` of `d`. -/
def Unused (d e : Name) (w : World) : Prop := ∀ k ∈ w.busy, workTree k ≠ .entry .config d e

/-- The gap between the check and the deletion of a subtree. -/
theorem Unused.move {m : Move} (h : Unused d e w) (hd : d.length ≤ dashboardDirIdChars)
    (hm : othersMeet (some ⟨.deleteSubtreeAndSibling ⟨d, e⟩, op⟩) w m = true) :
    Unused d e (w.move dataRoot m) := by
  intro k hk
  rcases busy_move hk with hk | ⟨u, ⟨i, rfl, hi⟩, rfl⟩
  · exact h k hk
  · simp only [othersMeet, hi, Option.all_some, between, Bool.and_eq_true, Bool.not_eq_true',
      decide_eq_false_iff_not] at hm
    intro hq
    simp only [workTree, Path.entry.injEq, true_and] at hq
    obtain ⟨rfl, rfl⟩ := hq
    exact hm.2 ⟨dirId_of_length hd, rfl⟩

theorem entry_inj {r r' : Root} {d' e' : Name} (h : Path.entry r d e = .entry r' d' e') : r = r' ∧ d = d' ∧ e = e' :=
  Path.entry.inj h

theorem safely_deleteSubtreeAndSibling (hr : .root .config ∈ ps)
    (hd : .dashboard .config d ∈ ps) (hB : Base keys (.entry .config d e :: ps) w)
    (hU : Unused d e w) (hshort : d.length ≤ dashboardDirIdChars) (hvenvs : casefold d ≠ venvsName)
    (hdata : casefold e ≠ dataDirName) :
    Safely (setting dataRoot keys) (deleteSubtreeAndSibling ⟨d, e⟩)
      (fun _ => Base keys (.entry .config d e :: ps)) w := by
  have hsub : RemoteBuildPath.subtree ⟨d, e⟩ = .entry .config d e := by
    unfold RemoteBuildPath.subtree; rw [dirId_of_length hshort]
  have hbundle : RemoteBuildPath.bundle ⟨d, e⟩ = .entry .config d (e ++ bundleSuffix) := by
    unfold RemoteBuildPath.bundle; rw [dirId_of_length hshort]; rfl
  unfold deleteSubtreeAndSibling
  rw [hsub, hbundle]
  refine Safely.bind (safely_call (F := Unused d e) hB hU (fun v m _ hm hv => hv.move hshort hm) ?_) ?_
  · intro v hv hF
    refine ⟨.config, d, e, rfl, hv.noLink_entry (.tail _ hr) (.tail _ hd) (.head _), hvenvs, ?_, fun h => absurd h hdata⟩
    exact fun k hk h => hF k hk h.symm
  · rintro ok v' ⟨hv', v, -, hF, -, -, rfl⟩
    cases ok
    · exact hv'
    · refine Safely.bind (safely_call (F := Unused d e) hv' hF (fun v m _ hm hv => hv.move hshort hm) ?_)
        fun _ _ h => h.1
      intro v hv hF
      refine ⟨.config, d, _, rfl, hv.noLink_dashboard (.tail _ hr) (.tail _ hd), hvenvs, fun k hk h => ?_⟩
      -- the bundle names its key
      obtain ⟨-, hid, hname⟩ := entry_inj h
      apply hF k hk
      rw [workTree, ← hid, List.append_cancel_right hname]

/-- What the sweep finds cold may be, and is there. -/
theorem safely_isCold {F : World → Prop} (hB : Base keys ps w) (hF : F w) (hp : p ∈ ps)
    (hlink : ∀ v, Base keys ps v → NoLink v.disk p)
    (stable : ∀ v m, Base keys ps v → F v → F (v.move dataRoot m)) :
    Safely (setting dataRoot keys) (isCold p cutoff)
      (fun cold w' => Base keys ps w' ∧ (cold = true → ∃ v, F v ∧ mayBeCold keys v p = true ∧
        (∃ kind, kind? v.disk p = some kind ∧ kind ≠ .symlink) ∧ v.busy = w'.busy)) w := by
  have h := @safely_call dataRoot keys ps w (.isCold cutoff) (.stat p) F hB hF
    (fun v m hv _ => stable v m hv) (fun v hv _ => hlink v hv)
  refine h.bind ?_
  rintro a w' ⟨hw', v, hv, hFv, ha, hmet, rfl⟩
  cases a with
  | none => exact ⟨hw', nofun⟩
  | some t =>
    refine ⟨hw', fun hcold => ⟨v, hFv, ?_⟩⟩
    have hlt : (t : ℤ) < cutoff := of_decide_eq_true hcold
    have hno := hv.clear p hp
    obtain ⟨n, hn, rfl⟩ : ∃ n, v.disk.get? p = some n ∧ n.mtime = t := by
      simp only [answers, Bool.or_eq_true, decide_eq_true_eq] at ha
      exact Option.map_eq_some_iff.mp (ha.resolve_left hno)
    have hkind : kind? v.disk p = some n.kind := kind?_eq_some.mpr ⟨n, hn, rfl⟩
    refine ⟨?_, ⟨n.kind, hkind, fun hs => hno (hkind.trans (congrArg some hs))⟩, rfl⟩
    simp only [callMeets, hn, Option.all_some, Bool.or_eq_true, decide_eq_true_eq] at hmet
    exact hmet.resolve_left (by omega)

/-- The directory found at the entry is none, or the dashboard's name is short. -/
def FileOnlyIfShort (d e : Name) (w : World) : Prop :=
  kind? w.disk (.entry .config d e) = some .file → d.length ≤ dashboardDirIdChars

theorem FileOnlyIfShort.move {m : Move} (h : FileOnlyIfShort d e w) : FileOnlyIfShort d e (w.move dataRoot m) := by
  intro hk
  rcases @kind?_move dataRoot w m (.entry .config d e) with h' | ⟨-, h', -⟩ | ⟨-, h'⟩ | ⟨u, -, hp, -⟩
  · exact h (h'.symm.trans hk)
  · rw [h'] at hk; cases hk
  · rw [h'] at hk; cases hk
  · -- an upload wrote it
    obtain ⟨-, hd, -⟩ := entry_inj hp
    rw [hd]; exact length_dirId

theorem safely_reclaimOrphanBundle (hr : .root .config ∈ ps)
    (hd : .dashboard .config d ∈ ps) (hB : Base keys (.entry .config d e :: ps) w)
    (hvenvs : casefold d ≠ venvsName) :
    Safely (setting dataRoot keys) (reclaimOrphanBundle d e keys cutoff)
      (fun _ => Base keys (.entry .config d e :: ps)) w := by
  unfold reclaimOrphanBundle
  simp only
  split
  · exact hB
  · refine Safely.bind (safely_other hB fun _ _ => trivial) fun present w₁ h₁ => ?_
    cases present
    case true => exact h₁
    refine Safely.bind (safely_other h₁ fun _ _ => trivial) fun link w₂ h₂ => ?_
    cases link
    case true => exact h₂
    simp only [Bool.false_eq_true, if_false]
    split
    · exact h₂
    case isFalse hkeys =>
      refine Safely.bind (safely_isCold (F := fun _ => True) h₂ trivial (by simp)
        (fun v hv => hv.noLink_entry (.tail _ hr) (.tail _ hd) (.head _)) fun _ _ _ _ => trivial) ?_
      rintro cold w₃ ⟨h₃, hcold⟩
      cases cold
      case false => exact h₃
      obtain ⟨v, -, hmay, -, hbusy⟩ := hcold rfl
      -- no busy key has this bundle: a key given to the sweep would have been skipped
      have hF : ∀ k ∈ w₃.busy, workBundle k ≠ .entry .config d e := by
        intro k hk hq
        simp only [mayBeCold, Bool.and_eq_true, List.all_eq_true, Bool.or_eq_true, decide_eq_true_eq] at hmay
        rcases hmay.2 k (hbusy ▸ hk) with hin | ⟨-, hne⟩
        · apply hkeys
          obtain ⟨-, hd, he⟩ := entry_inj hq
          have hname : e.take (e.length - bundleSuffix.length) = k.deviceName := by
            rw [← he, RemoteBuildPath.bundleName, List.length_append, Nat.add_sub_cancel, List.take_left]
          rw [hname, ← hd]
          exact hin
        · exact hne hq
      refine Safely.bind (safely_call (F := fun v => ∀ k ∈ v.busy, workBundle k ≠ .entry .config d e) h₃ hF ?_ ?_)
        fun _ _ h => h.1
      · intro v m _ hm hv k hk
        rcases busy_move hk with hk | ⟨u, ⟨i, rfl, hi⟩, rfl⟩
        · exact hv k hk
        · simp only [othersMeet, hi, Option.all_some, between, Bool.and_eq_true, Bool.not_eq_true',
            decide_eq_false_iff_not] at hm
          exact fun hq => hm.2 hq.symm
      · intro v hv hF
        exact ⟨.config, d, e, rfl, hv.noLink_dashboard (.tail _ hr) (.tail _ hd), hvenvs, fun k hk h => hF k hk h.symm⟩

theorem safely_sweepEntry {n : ℕ} (hr : .root .config ∈ ps)
    (hd : .dashboard .config d ∈ ps) (hB : Base keys ps w)
    (hvenvs : casefold d ≠ venvsName) :
    Safely (setting dataRoot keys) (sweepEntry d keys cutoff n e)
      (fun _ => Base keys ps) w := by
  unfold sweepEntry
  simp only
  split
  · exact hB
  case isFalse hdata =>
    refine Safely.bind (safely_isSymlink hB) ?_
    rintro link w₁ ⟨h₁, hclear⟩
    cases link
    case true => exact h₁
    have h₁ := hclear rfl
    simp only [Bool.false_eq_true, if_false]
    refine Safely.bind (safely_probe h₁ fun _ _ => trivial) ?_
    rintro dir _ ⟨h₂, v, hv, ha, -, rfl⟩
    have drop : ∀ {w : World}, Base keys (.entry .config d e :: ps) w →
        Base keys ps w := fun h => h.of_subset (List.subset_cons_self ..)
    cases dir
    case false =>
      simp only [Bool.false_eq_true, if_false]
      refine Safely.bind (safely_other h₂ fun _ _ => trivial) fun file w₃ h₃ => ?_
      cases file
      · exact drop h₃
      · simp only [if_true]
        split
        · exact Safely.bind (safely_reclaimOrphanBundle hr hd h₃ hvenvs) fun _ _ h => drop h
        · exact drop h₃
    case true =>
      simp only [if_true]
      split
      · exact drop h₂
      case isFalse hkeys =>
        have hdir : kind? v.disk (.entry .config d e) = some .dir := by
          have hno := hv.clear (.entry .config d e) (by simp)
          simpa [answers, hno] using ha
        have hF : FileOnlyIfShort d e (v.called ⟨.sweepDashboardDir d, .isDir (.entry .config d e)⟩ true) := by
          intro hfile
          have : kind? v.disk (.entry .config d e) = some .file := hfile
          rw [hdir] at this; cases this
        refine Safely.bind (safely_isCold h₂ hF (by simp)
          (fun v hv => hv.noLink_entry (.tail _ hr) (.tail _ hd) (.head _)) fun v m _ h => h.move) ?_
        rintro cold w₃ ⟨h₃, hcold⟩
        cases cold
        case false => exact drop h₃
        obtain ⟨v, hF, hmay, ⟨kind, hkind, hlink⟩, hbusy⟩ := hcold rfl
        simp only [mayBeCold, Bool.and_eq_true, List.all_eq_true, Bool.or_eq_true, decide_eq_true_eq] at hmay
        have hshort : d.length ≤ dashboardDirIdChars := by
          cases kind with
          | dir => exact hmay.1.resolve_left (fun h => h hkind)
          | file => exact hF hkind
          | symlink => exact absurd rfl hlink
        have hU : Unused d e w₃ := by
          intro k hk hq
          rcases hmay.2 k (hbusy ▸ hk) with hin | ⟨hne, -⟩
          · -- a key given to the sweep is skipped
            obtain ⟨-, rfl, rfl⟩ := entry_inj hq
            exact hkeys hin
          · exact hne hq
        simp only [if_true]
        refine Safely.bind (safely_deleteSubtreeAndSibling hr hd h₃ hU hshort hvenvs hdata) fun ok _ h => ?_
        cases ok <;> exact drop h

theorem safely_sweepDashboardDir (hr : .root .config ∈ ps)
    (hd : .dashboard .config d ∈ ps) (hB : Base keys ps w)
    (hvenvs : casefold d ≠ venvsName) :
    Safely (setting dataRoot keys) (sweepDashboardDir d keys cutoff)
      (fun _ => Base keys ps) w :=
  Safely.bind (safely_safeIterdir hB fun _ hv => hv.noLink_dashboard hr hd) fun _ _ hv =>
    safely_foldlM (fun _ _ _ _ ht => safely_sweepEntry hr hd ht hvenvs) 0 hv

/-! ### The shared data dir and the empty parents -/

/-- The bundle of a device not named like macOS metadata counts as live. -/
theorem bundleName_named (h : isMacosMetadata k.bundleName = true) : "._".toList.isPrefixOf k.deviceName = true := by
  unfold isMacosMetadata RemoteBuildPath.bundleName at h
  rw [Bool.or_eq_true, decide_eq_true_eq] at h
  rcases h with h | h
  · have hlast := congrArg List.getLast? h
    rw [List.getLast?_append] at hlast
    have hlast : some 'z' = some 'e' := hlast
    exact absurd hlast (by decide)
  · match hk : k.deviceName with
    | [] => rw [hk] at h; revert h; decide
    | [a] =>
      rw [hk] at h
      have h : ('.' == a && ('_' == '.' && true)) = true := h
      exact absurd (Bool.and_eq_true _ _ ▸ h).2 (by decide)
    | a :: b :: rest =>
      rw [hk] at h
      have h : ('.' == a && ('_' == b && true)) = true := h
      exact h

theorem isLiveName_bundleName (h : "._".toList.isPrefixOf k.deviceName = false) : isLiveName k.bundleName = true := by
  unfold isLiveName
  rw [Bool.and_eq_true, decide_eq_true_eq, Bool.not_eq_true']
  constructor
  · intro hq
    have hlast := congrArg List.getLast? hq
    rw [casefold, RemoteBuildPath.bundleName, List.map_append, List.getLast?_append] at hlast
    have hlast : some 'z' = some 'e' := hlast
    exact absurd hlast (by decide)
  · cases hm : isMacosMetadata k.bundleName with
    | false => rfl
    | true => rw [bundleName_named hm] at h; cases h

/-- Nothing of the dashboard `d` is in use, and no live entry is left. -/
def Idle (d : Name) (w : World) : Prop := (∀ k ∈ w.busy, k.dirId ≠ d) ∧ NoLiveEntry w.disk d

/-- The gap between the listing and the deletion of a data dir. -/
theorem Idle.move {m : Move} (h : Idle d w)
    (hm : othersMeet (some ⟨.reclaimDashboardDataDir d, op⟩) w m = true) : Idle d (w.move dataRoot m) := by
  have hwrites : ∀ u, Writes w m u → u.key.dirId ≠ d := by
    rintro u ⟨i, rfl, hi⟩ rfl
    simp [othersMeet, hi, between] at hm
  refine ⟨fun k hk => ?_, fun e he => ?_⟩
  · rcases busy_move hk with hk | ⟨u, hu, rfl⟩
    · exact h.1 k hk
    · rw [dirId_onDisk]; exact hwrites u hu
  · have hnone := h.2 e he
    rcases @kind?_move dataRoot w m (.entry .config d e) with h' | ⟨-, -, hmade⟩ | ⟨h', -⟩ | ⟨u, hu, hp, -⟩
    · exact h'.trans hnone
    · exfalso
      rcases hmade with ⟨r, hp⟩ | ⟨r, n, hp⟩ | ⟨n, hp⟩ | ⟨u, hu, hw, hp⟩
      · cases hp
      · cases hp
      · obtain ⟨-, -, rfl⟩ := entry_inj hp
        revert he; decide
      · obtain ⟨-, hd, -⟩ := entry_inj hp
        exact h.1 u.key.onDisk (mem_busy.mpr (.inr ⟨u, hu, hw, rfl⟩)) (dirId_onDisk.trans hd.symm)
    · rw [hnone] at h'; cases h'
    · obtain ⟨-, hd, -⟩ := entry_inj hp
      exact absurd hd.symm (hwrites u hu)

theorem safely_holdsLiveEntries (hr : .root .config ∈ ps) (hd : .dashboard .config d ∈ ps) (hB : Base keys ps w)
    (hkeys : d ∉ keys.map RemoteBuildPath.dirId) :
    Safely (setting dataRoot keys) (holdsLiveEntries d)
      (fun live w' => Base keys ps w' ∧ (live = false → Idle d w')) w := by
  have h := @safely_probe dataRoot keys ps w (.holdsLiveEntries d) (.iterdir (.dashboard .config d)) hB
    fun v hv => hv.noLink_dashboard hr hd
  refine h.bind ?_
  rintro l _ ⟨hw', v, hv, ha, -, rfl⟩
  have hno := hv.clear _ hd
  -- an upload or a job that the sweep was not given has its bundle there
  have idle : NoLiveEntry v.disk d → Idle d v := fun hlive => ⟨fun k hk hkd => by
    rcases hv.covered.busy k hk with hin | hf
    · exact hkeys (List.mem_map.mpr ⟨k, hin, hkd⟩)
    · obtain ⟨kind, hkind, -⟩ := hf.bundle
      have hnone := hlive k.bundleName (isLiveName_bundleName hf.named)
      rw [← hkd] at hnone
      exact absurd (hkind.symm.trans hnone) (by simp), hlive⟩
  rcases l with ((_ | _) | l)
  case ok =>
    refine ⟨hw', fun hany => idle fun e he => ?_⟩
    simp only [answers, Bool.or_eq_true, Bool.and_eq_true, decide_eq_true_eq] at ha
    obtain ⟨-, hperm⟩ := ha.resolve_left hno
    have hout : e ∉ names v.disk (.dashboard .config d) := by
      intro hmem
      have hl : e ∈ l := (List.isPerm_iff.mp hperm).mem_iff.mpr hmem
      rw [List.any_eq_false] at hany
      exact hany e hl he
    rw [mem_names, Bool.not_eq_true, Option.isSome_eq_false_iff, Option.isNone_iff_eq_none] at hout
    exact hout
  case error.fileNotFound =>
    refine ⟨hw', fun _ => idle fun e _ => ?_⟩
    simp only [answers, Bool.or_eq_true, decide_eq_true_eq] at ha
    by_contra hne
    exact hv.sound.tree _ _ _ hne (ha.resolve_left hno)
  case error.other => exact ⟨hw', fun h => by cases h⟩

/-- A question in `_reclaim_dashboard_data_dir`. -/
theorem safely_idle (hB : Base keys ps w) (hI : Idle d w)
    (safe : ∀ v, Safe dataRoot v ⟨.reclaimDashboardDataDir d, op⟩)
    (same : ∀ (v : World) a, v.called ⟨.reclaimDashboardDataDir d, op⟩ a = v) :
    Safely (setting dataRoot keys) (call (.reclaimDashboardDataDir d) op)
      (fun a w' => Base keys ps w' ∧ Idle d w' ∧ answers w'.clock w'.disk op a = true) w := by
  refine (safely_call (F := Idle d) hB hI (fun v m _ hm hv => hv.move hm) fun v _ _ => safe v).mono ?_
  rintro a _ ⟨hw', v, hv, hI, ha, -, rfl⟩
  rw [same] at hw' ⊢
  exact ⟨hw', hI, ha⟩

theorem safely_reclaimDashboardDataDir (hr : .root dataRoot ∈ ps) (hB : Base keys ps w) (hI : Idle d w)
    (hvenvs : casefold d ≠ venvsName) :
    Safely (setting dataRoot keys) (reclaimDashboardDataDir dataRoot d) (fun _ => Base keys ps) w := by
  unfold reclaimDashboardDataDir
  simp only
  refine Safely.bind (@safely_idle dataRoot keys ps w (.isSymlink (.dashboard dataRoot d)) d hB hI
    (fun _ => trivial) fun _ _ => rfl) ?_
  rintro link w₁ ⟨h₁, hI, ha⟩
  cases link
  case true => exact h₁
  have h₁ := h₁.cons ha
  simp only [Bool.false_eq_true, if_false]
  refine Safely.bind (@safely_idle dataRoot keys _ w₁ (.isSymlink (perDashboardDataDir dataRoot d)) d h₁ hI
    (fun _ => trivial) fun _ _ => rfl) ?_
  rintro link w₂ ⟨h₂, hI, ha⟩
  cases link
  case true => exact h₂.of_subset (List.subset_cons_self ..)
  have h₂ := h₂.cons ha
  have drop : ∀ {w : World}, Base keys (perDashboardDataDir dataRoot d :: .dashboard dataRoot d :: ps) w →
      Base keys ps w := fun h => h.of_subset fun _ hq => .tail _ (.tail _ hq)
  simp only [Bool.false_eq_true, if_false]
  refine Safely.bind (@safely_idle dataRoot keys _ w₂ (.isDir (perDashboardDataDir dataRoot d)) d h₂ hI
    (fun _ => trivial) fun _ _ => rfl) ?_
  rintro dir w₃ ⟨h₃, hI, -⟩
  cases dir
  case false => exact drop h₃
  simp only [if_true]
  refine Safely.bind (safely_call (F := Idle d) h₃ hI (fun v m _ hm hv => hv.move hm) ?_) ?_
  · intro v hv hI
    refine ⟨dataRoot, d, dataDirName, rfl, hv.noLink_entry (.tail _ (.tail _ hr)) (.tail _ (.head _)) (.head _),
      hvenvs, fun k hk hq => ?_, fun _ => ⟨rfl, hI⟩⟩
    -- no key of another directory is of a device named like the data dir
    obtain ⟨-, hd, he⟩ := entry_inj hq
    rcases hv.covered.busy k hk with hin | hf
    · rcases hv.covered.named k hin with hshort | hlive
      · exact hI.1 k hk (hshort.trans hd.symm)
      · rw [← he] at hlive; revert hlive; decide
    · exact hf.device (by rw [← he]; decide)
  · rintro ok _ ⟨h, -⟩
    cases ok <;> exact drop h

theorem safely_onlyMetadata {r : Root} {l : List Name} (hB : Base keys ps w) :
    Safely (setting dataRoot keys) (onlyMetadata r d l)
      (fun only w' => Base keys ps w' ∧ (only = true → ∀ e ∈ l, isMacosMetadata e = true)) w := by
  induction l generalizing w with
  | nil => exact ⟨hB, fun _ _ he => absurd he List.not_mem_nil⟩
  | cons e l ih =>
    unfold onlyMetadata
    refine Safely.bind (safely_other hB fun _ _ => trivial) fun link v hv => ?_
    cases link
    case true => exact ⟨hv, nofun⟩
    simp only [Bool.false_eq_true, if_false]
    split
    case isTrue he =>
      refine (ih hv).mono fun only v' ⟨hv', hl⟩ => ⟨hv', fun ho => ?_⟩
      exact List.forall_mem_cons.mpr ⟨he, hl ho⟩
    case isFalse => exact ⟨hv, nofun⟩

/-- A bundle that a busy key uses is no macOS metadata, where no key of the sweep has its directory. -/
theorem Base.workBundle_ne {r : Root} (hB : Base keys ps w) (hkeys : d ∉ keys.map RemoteBuildPath.dirId)
    (he : isMacosMetadata e = true) (hk : k ∈ w.busy) : .entry r d e ≠ workBundle k := by
  intro hq
  obtain ⟨-, hd, rfl⟩ := entry_inj hq
  have hnamed := bundleName_named he
  rcases hB.covered.busy k hk with hin | hf
  · rcases hB.covered.named k hin with hshort | hlive
    · exact hkeys (List.mem_map.mpr ⟨k, hin, hshort.trans hd.symm⟩)
    · have hmeta : isMacosMetadata k.deviceName = true := by
        unfold isMacosMetadata; rw [hnamed, Bool.or_true]
      unfold isLiveName at hlive
      rw [hmeta, Bool.not_true, Bool.and_false] at hlive
      cases hlive
  · rw [hf.named] at hnamed; cases hnamed

theorem safely_pruneEmptyDir {r : Root} (hr : .root r ∈ ps) (hB : Base keys ps w)
    (hkeys : d ∉ keys.map RemoteBuildPath.dirId) (hvenvs : casefold d ≠ venvsName) :
    Safely (setting dataRoot keys) (pruneEmptyDir r d) (fun _ => Base keys ps) w := by
  unfold pruneEmptyDir
  simp only
  refine Safely.bind (safely_isSymlink hB) ?_
  rintro link w₁ ⟨h₁, hclear⟩
  cases link
  case true => exact h₁
  have h₁ := hclear rfl
  have drop : ∀ {w : World}, Base keys (.dashboard r d :: ps) w → Base keys ps w :=
    fun h => h.of_subset (List.subset_cons_self ..)
  have nolink : ∀ v, Base keys (.dashboard r d :: ps) v → NoLink v.disk (.dashboard r d) :=
    fun v hv => hv.noLink_dashboard (.tail _ hr) (.head _)
  simp only [Bool.false_eq_true, if_false]
  refine Safely.bind (safely_other h₁ fun _ _ => trivial) fun dir w₂ h₂ => ?_
  cases dir
  case false => exact drop h₂
  simp only [if_true]
  refine Safely.bind (safely_safeIterdir h₂ nolink) fun l w₃ h₃ => ?_
  refine Safely.bind (safely_onlyMetadata h₃) ?_
  rintro only w₄ ⟨h₄, hl⟩
  cases only
  case false => exact drop h₄
  simp only [if_true]
  refine Safely.bind (safely_foldlM (I := Base keys (.dashboard r d :: ps)) ?_ () h₄) fun _ w₅ h₅ => ?_
  · intro _ e he v hv
    refine Safely.bind (safely_other hv fun v hv => ?_) fun _ _ h => h
    exact ⟨r, d, e, rfl, nolink v hv, hvenvs, fun k hk => hv.workBundle_ne hkeys (hl rfl e he) hk⟩
  · refine Safely.bind (safely_other h₅ fun v hv => ?_) fun _ _ h => drop h
    exact ⟨r, d, rfl, nolink v hv, hvenvs⟩

/-! ### The whole sweep -/

theorem safely_isForeign (hB : Base keys ps w) :
    Safely (setting dataRoot keys) (isForeign p)
      (fun foreign w' => Base keys ps w' ∧ (foreign = false → Base keys (p :: ps) w')) w := by
  unfold isForeign
  refine Safely.bind (safely_isSymlink hB) ?_
  rintro link w₁ ⟨h₁, hclear⟩
  cases link
  case true => exact ⟨h₁, nofun⟩
  have h₁ := hclear rfl
  have drop : ∀ {w : World}, Base keys (p :: ps) w → Base keys ps w :=
    fun h => h.of_subset (List.subset_cons_self ..)
  simp only [Bool.false_eq_true, if_false]
  refine Safely.bind (safely_other h₁ fun _ _ => trivial) fun present w₂ h₂ => ?_
  cases present
  case false => exact ⟨drop h₂, fun _ => h₂⟩
  exact Safely.bind (safely_other h₂ fun _ _ => trivial) fun dir w₃ h₃ => ⟨drop h₃, fun _ => h₃⟩

theorem safely_reclaimDashboard {reclaim : Bool} {n : ℕ} (hr : .root .config ∈ ps)
    (hdata : reclaim = true → .root dataRoot ∈ ps) (hB : Base keys ps w) (hI : Idle d w)
    (hkeys : d ∉ keys.map RemoteBuildPath.dirId) (hvenvs : casefold d ≠ venvsName) :
    Safely (setting dataRoot keys) (reclaimDashboard dataRoot reclaim n d) (fun _ => Base keys ps) w := by
  unfold reclaimDashboard
  cases reclaim
  case false => exact Safely.bind (safely_pruneEmptyDir hr hB hkeys hvenvs) fun _ _ h => h
  simp only [if_true]
  refine Safely.bind (safely_reclaimDashboardDataDir (hdata rfl) hB hI hvenvs) fun _ w₁ h₁ => ?_
  refine Safely.bind (safely_pruneEmptyDir (hdata rfl) h₁ hkeys hvenvs) fun _ w₂ h₂ => ?_
  exact Safely.bind (safely_pruneEmptyDir hr h₂ hkeys hvenvs) fun _ _ h => h

theorem safely_sweepDashboard {reclaim : Bool} {n : ℕ} (hr : .root .config ∈ ps)
    (hdata : reclaim = true → .root dataRoot ∈ ps) (hB : Base keys ps w) (hvenvs : casefold d ≠ venvsName) :
    Safely (setting dataRoot keys) (sweepDashboard dataRoot reclaim keys cutoff n d) (fun _ => Base keys ps) w := by
  unfold sweepDashboard
  simp only
  refine Safely.bind (safely_isForeign hB) ?_
  rintro foreign w₁ ⟨h₁, hclear⟩
  cases foreign
  case true => exact h₁
  have h₁ := hclear rfl
  have drop : ∀ {w : World}, Base keys (.dashboard .config d :: ps) w → Base keys ps w :=
    fun h => h.of_subset (List.subset_cons_self ..)
  simp only [Bool.false_eq_true, if_false]
  -- what follows the sweep of the entries, if there was one
  have rest : ∀ n w, Base keys (.dashboard .config d :: ps) w →
      Safely (setting dataRoot keys)
        (if d ∈ keys.map RemoteBuildPath.dirId then pure n else do
          if ← holdsLiveEntries d then pure n else reclaimDashboard dataRoot reclaim n d)
        (fun _ => Base keys ps) w := by
    intro n w h
    split
    · exact drop h
    case isFalse hkeys =>
      refine Safely.bind (safely_holdsLiveEntries (.tail _ hr) (.head _) h hkeys) ?_
      rintro live w₃ ⟨h₃, hI⟩
      cases live
      case true => exact drop h₃
      exact safely_reclaimDashboard hr hdata (drop h₃) (hI rfl) hkeys hvenvs
  refine Safely.bind (safely_other h₁ fun _ _ => trivial) fun dir w₂ h₂ => ?_
  cases dir
  case false => exact rest _ _ h₂
  exact Safely.bind (safely_sweepDashboardDir (.tail _ hr) (.head _) h₂ hvenvs) fun _ _ h => rest _ _ h

theorem safely_dashboardNames {roots : List Root} (hB : Base keys ps w) :
    Safely (setting dataRoot keys) (dashboardNames roots)
      (fun names w' => Base keys ps w' ∧ ∀ d ∈ names, casefold d ≠ venvsName) w := by
  unfold dashboardNames
  refine Safely.bind (safely_foldlM (I := Base keys ps) ?_ [] hB) fun names w₁ h₁ => ?_
  · intro names r _ v hv
    refine Safely.bind (safely_isSymlink hv) ?_
    rintro link v₁ ⟨h₁, hclear⟩
    cases link
    case true => exact h₁
    have h₁ := hclear rfl
    have drop : ∀ {w : World}, Base keys (.root r :: ps) w → Base keys ps w :=
      fun h => h.of_subset (List.subset_cons_self ..)
    simp only [Bool.false_eq_true, if_false]
    refine Safely.bind (safely_other h₁ fun _ _ => trivial) fun dir v₂ h₂ => ?_
    cases dir
    case false => exact drop h₂
    exact Safely.bind (safely_safeIterdir h₂ fun v hv => hv.noLink_root (.head _)) fun _ _ h => drop h
  · have h := @safely_probe dataRoot keys ps w₁ .dashboardNames
      (.order (names.filter fun n => casefold n ≠ venvsName)) h₁ fun _ _ => trivial
    refine h.mono ?_
    rintro l _ ⟨hw', v, -, ha, -, rfl⟩
    refine ⟨hw', fun d hd => ?_⟩
    have hmem := (List.isPerm_iff.mp ha).mem_iff.mp hd
    exact of_decide_eq_true (List.mem_filter.mp hmem).2

theorem safely_sweepRemoteBuilds {ttl : ℤ} (hB : Base keys [] w) :
    Safely (setting dataRoot keys) (sweepRemoteBuilds dataRoot ttl keys) (fun _ => Base keys []) w := by
  unfold sweepRemoteBuilds
  refine Safely.bind (safely_other hB fun _ _ => trivial) fun now w₁ h₁ => ?_
  refine Safely.bind (safely_isSymlink h₁) ?_
  rintro link w₂ ⟨h₂, hclear⟩
  cases link
  case true => exact h₂
  have h₂ := hclear rfl
  simp only [Bool.false_eq_true, if_false]
  refine Safely.bind (safely_isSymlink h₂) ?_
  rintro dataLink w₃ ⟨h₃, hdata⟩
  have done : ∀ ps, .root .config ∈ ps → (dataLink = false → .root dataRoot ∈ ps) → Base keys ps w₃ →
      Safely (setting dataRoot keys) (do
        let names ← dashboardNames [.config, dataRoot]
        names.foldlM (sweepDashboard dataRoot (!dataLink) keys (now - ttl)) 0) (fun _ => Base keys []) w₃ := by
    intro ps hr hd h
    refine Safely.bind (safely_dashboardNames h) ?_
    rintro names w₄ ⟨h₄, hvenvs⟩
    refine (safely_foldlM (fun n d hmem t ht => ?_) 0 h₄).mono fun _ _ h => h.of_subset (List.nil_subset _)
    exact safely_sweepDashboard hr (fun h => hd (by simpa using h)) ht (hvenvs d hmem)
  cases dataLink with
  | true => exact done _ (.head _) nofun h₃
  | false => exact done _ (.tail _ (.head _)) (fun _ => .head _) (hdata rfl)

/-! ### Every run -/

/-- What holds of the receiver after every run that meets the condition. -/
structure Receiver.Good (dataRoot : Root) (r : Receiver) : Prop where
  sound : Sound r.world
  sweep : ∀ s, r.sweep = some s →
    Safely (setting dataRoot s.inFlightKeys) s.rest (fun _ => Base s.inFlightKeys []) r.world

theorem Receiver.Good.step {r : Receiver} {e : Event} (h : r.Good dataRoot) (he : r.meets e = true) :
    (r.step dataRoot e).Good dataRoot := by
  obtain ⟨w, sweep⟩ := r
  cases e with
  | others m =>
    refine ⟨h.sound.move he, fun s hs => ?_⟩
    obtain rfl : sweep = some s := hs
    have hsafe := h.sweep s rfl
    obtain ⟨keys, rest⟩ := s
    cases rest with
    | done n => exact Base.move hsafe he
    | call c next => exact hsafe.others rfl ⟨m, he, rfl⟩
  | startSweep ttl =>
    cases sweep with
    | some s => exact h
    | none =>
      refine ⟨h.sound, fun s hs => ?_⟩
      cases hs
      apply safely_sweepRemoteBuilds
      refine ⟨h.sound, ⟨fun k hk => ?_, fun k hk => ?_⟩, fun _ hp => absurd hp List.not_mem_nil⟩
      · rcases mem_busy.mp hk with hk | ⟨u, hu, hw, rfl⟩
        · exact .inl hk
        · exact .inr (h.sound.uploads u hu hw)
      · have hk := List.all_eq_true.mp he k hk
        rw [Bool.or_eq_true, decide_eq_true_eq] at hk
        exact hk.imp_left fun hlen => List.take_of_length_le hlen
  | answer a =>
    cases sweep with
    | none => exact h
    | some s =>
      obtain ⟨keys, rest⟩ := s
      have hsafe := h.sweep _ rfl
      cases rest with
      | done n => exact ⟨h.sound, nofun⟩
      | call c next =>
        simp only [Receiver.step]
        split
        case isFalse => exact h
        case isTrue ha =>
          have hmet : callMeets keys w c = true := he
          refine ⟨h.sound.called (hsafe.safe rfl) ha, fun s hs => ?_⟩
          cases hs
          exact hsafe.answered ⟨ha, hmet, rfl⟩

/-- **The sweep never removes work in use** on the steps that meet the condition, whatever the
tree, the jobs and the TTL, and in whatever order the sweep and the uploads take turns. -/
theorem sweep_safe {w : World} {r : Receiver} (htree : IsTree w.disk) (huploads : w.uploads = [])
    (h : Reaches (Receiver.step dataRoot) (fun r e => r.meets e = true) ⟨w, none⟩ r) :
    ∀ c, r.pending? = some c → Safe dataRoot r.world c := by
  have hgood : r.Good dataRoot := by
    refine h.invariant (I := Receiver.Good dataRoot) ⟨⟨htree, fun u hu => ?_⟩, nofun⟩ fun r e he hr => hr.step he
    rw [huploads] at hu
    exact absurd hu List.not_mem_nil
  intro c hc
  obtain ⟨s, hs, hrest⟩ := Option.bind_eq_some_iff.mp hc
  exact (hgood.sweep s hs).safe hrest

/-! ### Two runs -/

theorem isTree_of_items {items : Disk} (h : items.keys.all (fun
    | .entry r n _ => (kind? items (.dashboard r n)).isSome
    | _ => true) = true) : IsTree items := by
  intro r n e he
  obtain ⟨v, hv⟩ := Option.isSome_iff_exists.mp (Option.isSome_iff_ne_none.mpr he)
  obtain ⟨node, hnode, -⟩ := kind?_eq_some.mp hv
  have hk := List.all_eq_true.mp h _ (Dict.mem_keys.mpr ⟨node, hnode⟩)
  exact Option.isSome_iff_ne_none.mp hk

/-- A standalone install: the device `pump` of the dashboard `ab` was left long ago. -/
def idleWorld : World where
  disk := ⟨[(.root .config, ⟨.dir, 0⟩), (.dashboard .config "ab".toList, ⟨.dir, 0⟩),
    (.entry .config "ab".toList "pump".toList, ⟨.dir, 0⟩)], by decide⟩
  clock := 100
  jobs := []
  uploads := []

/-- The sweep up to the deletion of `pump`, with a TTL of ten seconds. -/
def idleRun : List Event :=
  .startSweep 10 :: List.replicate 18 (.answer fun c => truthful 100 idleWorld.disk c.op)

theorem sweep_safe_idle : ∃ c, (idleRun.foldl (Receiver.step .config) ⟨idleWorld, none⟩).pending? = some c ∧
    c.op = .rmtree (.entry .config "ab".toList "pump".toList) ∧
    Safe .config (idleRun.foldl (Receiver.step .config) ⟨idleWorld, none⟩).world c :=
  ⟨⟨.deleteSubtreeAndSibling ⟨"ab".toList, "pump".toList⟩, .rmtree (.entry .config "ab".toList "pump".toList)⟩,
    by decide +kernel, rfl,
    sweep_safe (isTree_of_items (by decide +kernel)) rfl
      (Reaches.foldl_checks (fun _ _ h => h) idleRun _ (by decide +kernel)) _ (by decide +kernel)⟩

/-- A job of the dashboard `12345678…` is queued, and an older directory has the full id. -/
def renamedWorld : World where
  disk := ⟨[(.root .config, ⟨.dir, 0⟩), (.dashboard .config "123456789".toList, ⟨.dir, 0⟩),
    (.entry .config "123456789".toList "pump".toList, ⟨.dir, 0⟩), (.dashboard .config "12345678".toList, ⟨.dir, 0⟩),
    (.entry .config "12345678".toList "pump".toList, ⟨.dir, 100⟩)], by decide⟩
  clock := 100
  jobs := [⟨".esphome/.remote_builds/12345678/pump/pump.yaml".toList, "123456789".toList, .queued⟩]
  uploads := []

def renamedRun : List Event :=
  .startSweep 10 :: List.replicate 18 (.answer fun c => truthful 100 renamedWorld.disk c.op)

/-- **An active job loses its subtree**: the old directory's id is compared in full and deletes by its
first eight characters. No time passes, so the TTL is longer than the sweep. -/
theorem sweep_deletes_active : IsTree renamedWorld.disk ∧ renamedWorld.uploads = [] ∧
    (⟨"12345678".toList, "pump".toList⟩ : RemoteBuildPath) ∈
      (renamedRun.foldl (Receiver.step .config) ⟨renamedWorld, none⟩).world.busy ∧
    (renamedRun.foldl (Receiver.step .config) ⟨renamedWorld, none⟩).pending? =
      some ⟨.deleteSubtreeAndSibling ⟨"123456789".toList, "pump".toList⟩,
        .rmtree (workTree ⟨"12345678".toList, "pump".toList⟩)⟩ ∧
    kind? renamedWorld.disk (workTree ⟨"12345678".toList, "pump".toList⟩) = some .dir ∧
    kind? ((renamedRun ++ [Event.answer fun c => truthful 100 renamedWorld.disk c.op]).foldl (Receiver.step .config)
      ⟨renamedWorld, none⟩).world.disk (workTree ⟨"12345678".toList, "pump".toList⟩) = none :=
  ⟨isTree_of_items (by decide +kernel), rfl, by decide +kernel, by decide +kernel, by decide +kernel, by decide +kernel⟩

end DeviceBuilder.RemoteBuild.Cleanup
