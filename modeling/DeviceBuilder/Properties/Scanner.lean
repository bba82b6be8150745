import DeviceBuilder.Devices.ScanLoads

/-!
# Scans and edits

* `ScanWorld.Sound`: every row is guarded by its key, and so is all that a load has read.
* `sound_step`: scans, reloads and, outside of the windows of a load, edits keep it.
* `edits_seen`: after the last change a deep scan leaves fresh rows.
-/

namespace DeviceBuilder.Devices

open Runs VersionedStore

variable {P C R V : Type} [LinearOrder P]
variable {lib : ScanLibrary P C R V} {p q : P}

namespace ScanWorld

variable {w w' : ScanWorld P C R V}

/-! ### The invariant -/

/-- A row guarded by its key; the poisoned key matches no file. -/
def Kept (lib : ScanLibrary P C R V) (disk : VersionedStore P C) (p : P) (row : Row P C V) (key : CacheKey) : Prop :=
  ∀ n, key.main = some n → RowOk lib disk p (disk.Guards p (some n)) row key.dependencies

/-- A load under way. -/
structure LoadOk (lib : ScanLibrary P C R V) (disk : VersionedStore P C) (l : ScanLoad P C R V) : Prop where
  batch : BatchOk lib disk l.batch
  kind : ∀ p, KindOk disk p l.kind
  current : ∀ t, l.current = some t → ItemOk lib disk l.kind l.batch t
  result : ∀ p row keys, l.result.get? p = some (row, keys) → RowOk lib disk p (fun a => MainOk disk p a l.kind) row keys
  todo : ∀ p, l.kind = .reload p → ∀ q ∈ l.todo, q = p
  path : ∀ p, l.kind = .reload p → ∀ t, l.current = some t → t.path = p
  loaded : ∀ p, l.kind = .reload p → ∀ q e, l.result.get? q = some e → q = p

/-- What the holder of the lock has. -/
def WorkOk (lib : ScanLibrary P C R V) (disk : VersionedStore P C) : Work P C R V → Prop
  | .starting _ => True
  | .listing _ l => (∀ p key n, l.keys.get? p = some key → key.main = some n → n < disk.clock) ∧
    ∀ p n rest keys, l.current = some (p, n, rest, keys) → n < disk.clock
  | .loading l => LoadOk lib disk l
  | .restat p row keys => RowOk lib disk p (fun a => MainOk disk p a (.reload p)) row keys

/-- **Keys guard what was read under them.** -/
structure Sound (lib : ScanLibrary P C R V) (w : ScanWorld P C R V) : Prop where
  cache : CacheOk lib w.disk w.secretsCache
  rows : ∀ p row key, w.index.get? p = some (row, key) → Kept lib w.disk p row key
  work : ∀ work, w.work = some work → WorkOk lib w.disk work

/-- The file a load is at has read dependency `q`, and has no key for it. -/
def Window (w : ScanWorld P C R V) (q : P) : Prop :=
  ∃ l t, w.work = some (.loading l) ∧ l.current = some t ∧ t.Window l.batch q

/-- The load under way has found that `q` is not there. -/
def FoundAbsent (w : ScanWorld P C R V) (q : P) : Prop := ∃ l, w.work = some (.loading l) ∧ l.batch.FoundAbsent q

/-- A reload has read `q`, its main file, and has not stat'ed it again. -/
def Reloading (w : ScanWorld P C R V) (q : P) : Prop :=
  (∃ l, w.work = some (.loading l) ∧ l.kind = .reload q ∧
    ((∃ e, l.result.get? q = some e) ∨ ∃ t, l.current = some t ∧ t.phase ≠ .text)) ∨
    ∃ row keys, w.work = some (.restat q row keys)

/-- No edit falls between a read and the stat that stands for it. -/
def Steady (w : ScanWorld P C R V) : ScanAction P C → Prop
  | .write q _ => ¬w.Window q ∧ ¬w.FoundAbsent q ∧ ¬w.Reloading q
  | .delete q => ¬w.Window q
  | _ => True

/-! ### Edits -/

theorem kept_changes {disk disk' : VersionedStore P C} {row : Row P C V} {key : CacheKey} (h : Kept lib disk p row key)
    (hc : disk.Changes disk' q) : Kept lib disk' p row key :=
  fun n hn => (h n hn).changes hc fun _ hm => hm.changes hc

/-- **An edit outside of the windows.** -/
theorem sound_changes {disk' : VersionedStore P C} (h : Sound lib w) (hc : w.disk.Changes disk' q) (hwin : ¬w.Window q)
    (habs : disk'.get? q = none ∨ ¬w.FoundAbsent q) (hre : disk'.get? q = none ∨ ¬w.Reloading q) :
    Sound lib { w with disk := disk' } := by
  refine ⟨h.cache.changes hc, fun p row key hrow => kept_changes (h.rows p row key hrow) hc, fun work hwork => ?_⟩
  have hok := h.work work hwork
  cases work with
  | starting => trivial
  | listing shallow l =>
    exact ⟨fun p key n hkey hn => lt_of_lt_of_le (hok.1 p key n hkey hn) hc.clock,
      fun p n rest keys hcur => lt_of_lt_of_le (hok.2 p n rest keys hcur) hc.clock⟩
  | loading l =>
    change LoadOk lib w.disk l at hok
    change LoadOk lib disk' l
    refine ⟨?_, fun p => (hok.kind p).changes hc, fun t ht => ?_, fun p row keys hres => ?_, hok.todo, hok.path, hok.loaded⟩
    · exact hok.batch.changes hc (habs.imp_right fun hn hf => hn ⟨l, hwork, hf⟩)
    · refine (hok.current t ht).changes hc (fun hw => hwin ⟨l, t, hwork, ht, hw⟩) (fun p hp => (hok.path p hp t ht).symm) ?_
      intro hkind hpath hphase
      refine hre.resolve_right fun hn => hn (.inl ⟨l, hwork, ?_, .inr ⟨t, ht, hphase⟩⟩)
      rw [← hpath]
      exact hkind
    · refine (hok.result p row keys hres).changes hc fun a hm => ?_
      refine hm.changes hc (fun hkind hpath => ?_) fun p' hp' => (hok.loaded p' hp' p _ hres).symm
      refine hre.resolve_right fun hn => hn (.inl ⟨l, hwork, ?_, .inl ?_⟩)
      · rw [← hpath]; exact hkind
      · rw [← hpath]; exact ⟨_, hres⟩
  | restat p row keys =>
    refine RowOk.changes hok hc fun a hm => hm.changes hc (fun _ hpath => ?_) fun p' hp' => ?_
    · refine hre.resolve_right fun hn => hn (.inr ⟨row, keys, ?_⟩)
      rw [← hpath]
      exact hwork
    · cases hp'
      rfl

/-! ### The holder of the lock -/

theorem sound_work (h : Sound lib w) {next : Option (Work P C R V)} (hn : ∀ work, next = some work → WorkOk lib w.disk work) :
    Sound lib { w with work := next } := ⟨h.cache, h.rows, hn⟩

theorem sound_listing (h : Sound lib w) {shallow : Bool} {l : Listing P} (hw : w.work = some (.listing shallow l)) :
    WorkOk lib w.disk (.listing shallow (w.listingStep l)) := by
  obtain ⟨hkeys, hcur⟩ : WorkOk lib w.disk (.listing shallow l) := h.work _ hw
  unfold listingStep
  split
  · split
    · exact ⟨hkeys, hcur⟩
    · split
      · exact ⟨hkeys, hcur⟩
      · rename_i n hn
        refine ⟨hkeys, ?_⟩
        rintro _ _ _ _ ⟨⟩
        exact stat_lt hn
  · rename_i p n keys hc
    refine ⟨fun p' key n' hkey hn' => ?_, nofun⟩
    rw [Dict.get?_set] at hkey
    split at hkey
    · cases hkey
      cases hn'
      exact hcur p n [] keys hc
    · exact hkeys p' key n' hkey hn'
  · rename_i p n q rest keys hc
    split <;> refine ⟨hkeys, ?_⟩ <;> rintro _ _ _ _ ⟨⟩ <;> exact hcur p n (q :: rest) keys hc

/-- The thread's accesses. -/
theorem sound_advanceItem (h : Sound lib w) {l : ScanLoad P C R V} {t : Item P C R V} (hw : w.work = some (.loading l))
    (ht : l.current = some t) : Sound lib (w.advanceItem lib l t) := by
  have hok : LoadOk lib w.disk l := h.work _ hw
  obtain ⟨hb, hc, hp⟩ := advance_ok hok.batch h.cache (hok.current t ht) (hok.kind t.path)
  unfold advanceItem
  revert hb hc hp
  generalize t.advance lib w.disk w.secretsCache l.batch = r
  obtain ⟨b, cache, progress⟩ := r
  intro hb hc hp
  refine ⟨hc, h.rows, ?_⟩
  rintro _ ⟨⟩
  change LoadOk lib w.disk _
  cases progress with
  | goes t' =>
    obtain ⟨hpath, -, hitem⟩ := hp
    refine ⟨hb, hok.kind, ?_, hok.result, hok.todo, fun p hp' => ?_, hok.loaded⟩
    · rintro _ ⟨⟩
      exact hitem
    · rintro _ ⟨⟩
      rw [hpath]
      exact hok.path p hp' t ht
  | done row keys =>
    refine ⟨hb, hok.kind, nofun, fun p row' keys' hres => ?_, hok.todo, fun _ _ => nofun, fun p hp' q e hres => ?_⟩
    · change (l.result.set t.path (row, keys)).get? p = some (row', keys') at hres
      rw [Dict.get?_set] at hres
      split at hres
      · rename_i he
        cases hres
        rw [he]
        exact hp.1
      · exact hok.result p row' keys' hres
    · change (l.result.set t.path (row, keys)).get? q = some e at hres
      rw [Dict.get?_set] at hres
      split at hres
      · rename_i he
        rw [he]
        exact hok.path p hp' t ht
      · exact hok.loaded p hp' q e hres
  | raises =>
    exact ⟨hb, hok.kind, nofun, hok.result, hok.todo, fun _ _ => nofun, hok.loaded⟩

/-- The rows after a scan. -/
theorem applyScan_get? (w : ScanWorld P C R V) (keys : Dict P CacheKey) (result : Dict P (Row P C V × List (Option ℕ))) (p : P) :
    (w.applyScan keys result).get? p = if p ∈ keys.keys then
      (match result.get? p with
        | some e => some (e.1, ((keys.get? p).getD .poisoned).withDependencyKeys e.2)
        | none => w.index.get? p)
      else none := by
  have hfold := Dict.get?_foldl_set (k := p)
    (fun e => (e.2.1, ((keys.get? e.1).getD .poisoned).withDependencyKeys e.2.2)) result w.index
  unfold applyScan
  simp only at hfold ⊢
  rw [Dict.get?_keep, hfold]
  by_cases hp : p ∈ keys.keys
  · have keeps : ∀ o : Option (Row P C V × CacheKey), o.filter (fun _ => decide (p ∈ keys.keys)) = o := by
      intro o
      cases o with
      | none => rfl
      | some e => exact Option.filter_some_pos (decide_eq_true hp)
    rw [if_pos hp]
    cases result.get? p with
    | none => exact keeps _
    | some e => exact keeps _
  · rw [if_neg hp]
    exact Option.filter_eq_none_iff.2 fun _ _ => by simpa using hp

theorem kept_scan {disk : VersionedStore P C} {row : Row P C V} {dependencies : List (Option ℕ)} {shallow : Bool}
    {keys : Dict P CacheKey} (h : RowOk lib disk p (fun a => MainOk disk p a (.scan shallow keys)) row dependencies) :
    Kept lib disk p row (((keys.get? p).getD .poisoned).withDependencyKeys dependencies) := by
  intro n hn
  cases hkey : keys.get? p with
  | none =>
    rw [hkey] at hn
    cases hn
  | some key =>
    rw [hkey] at hn
    exact RowOk.main h fun a hm => hm key n hkey hn

theorem sound_finish (h : Sound lib w) {l : ScanLoad P C R V} (hok : LoadOk lib w.disk l) : Sound lib (w.finish l) := by
  unfold finish
  split
  · rename_i shallow keys hkind
    refine ⟨h.cache, fun p row key hrow => ?_, nofun⟩
    rw [applyScan_get?] at hrow
    split at hrow
    · split at hrow
      · rename_i e he
        cases hrow
        have hres := hok.result p e.1 e.2 he
        rw [hkind] at hres
        exact kept_scan hres
      · exact h.rows p row key hrow
    · cases hrow
  · rename_i p hkind
    split
    · refine ⟨h.cache, fun p' row key hrow => ?_, nofun⟩
      rw [Dict.get?_adjust] at hrow
      split at hrow
      · obtain ⟨e, -, he⟩ := Option.map_eq_some_iff.1 hrow
        cases he
        exact nofun
      · exact h.rows p' row key hrow
    · rename_i row keys hres
      refine sound_work h ?_
      rintro _ ⟨⟩
      have := hok.result p row keys hres
      rw [hkind] at this
      exact this

/-- The reloaded row, under the stamp of now, or under the old one. -/
theorem sound_restat (h : Sound lib w) {row : Row P C V} {keys : List (Option ℕ)}
    (hok : RowOk lib w.disk p (fun a => MainOk w.disk p a (.reload p)) row keys) : Sound lib (w.restat p row keys) := by
  refine ⟨h.cache, fun p' row' key' hrow => ?_, by rintro _ ⟨⟩⟩
  unfold restat at hrow
  change (w.index.set p _).get? p' = some (row', key') at hrow
  rw [Dict.get?_set] at hrow
  split at hrow
  · rename_i hp
    subst hp
    cases hrow
    intro n hn
    split at hn
    · rename_i n' hstat
      cases hn
      refine RowOk.main hok fun a hm => ?_
      have hthere : w.disk.get? p' = a := by
        rcases hm with hm | hm
        · exact hm
        · rw [stat, hm] at hstat
          cases hstat
      rw [← hstat, ← hthere]
      exact guards_now w.disk p'
    · -- the file is gone: the old stamp is not its stamp again
      rename_i hstat
      have hgone : w.disk.get? p' = none := stat_eq_none.1 hstat
      refine RowOk.main hok fun a _ => ?_
      cases hrow' : w.index.get? p' with
      | none =>
        rw [hrow'] at hn
        cases hn
      | some e =>
        rw [hrow'] at hn
        have hold := (h.rows p' e.1 e.2 hrow' n hn).text.old n rfl
        refine ⟨fun m hm => ?_, fun m f _ hf => ?_, by rintro ⟨⟩⟩
        · cases hm
          exact hold
        · cases hgone.symm.trans hf
  · exact h.rows p' row' key' hrow

theorem sound_advance (h : Sound lib w) : Sound lib (w.advance lib) := by
  unfold advance
  split
  · exact h
  · refine sound_work h ?_
    rintro _ ⟨⟩
    exact ⟨(fun p key n hkey => nomatch hkey), nofun⟩
  · rename_i shallow l hw
    split
    · refine sound_work h ?_
      rintro _ ⟨⟩
      obtain ⟨hkeys, -⟩ : WorkOk lib w.disk (.listing shallow l) := h.work _ hw
      refine ⟨batchOk_empty, fun p key n hkey hn => hkeys p key n hkey hn, nofun, (fun _ _ _ hres => nomatch hres), nofun, nofun,
        (fun _ _ _ _ hres => nomatch hres)⟩
    · refine sound_work h ?_
      rintro _ ⟨⟩
      exact sound_listing h hw
  · rename_i l hw
    split
    · rename_i t ht
      exact sound_advanceItem h hw ht
    · exact sound_finish h (h.work _ hw)
    · exact h
  · rename_i p row keys hw
    exact sound_restat h (h.work _ hw)

theorem sound_takeItem (h : Sound lib w) (path : P) (persisted : Option (List P)) : Sound lib (w.takeItem path persisted) := by
  unfold takeItem
  split
  · rename_i l hw
    have hok : LoadOk lib w.disk l := h.work _ hw
    split
    · rename_i hc
      refine sound_work h ?_
      rintro _ ⟨⟩
      refine ⟨hok.batch, hok.kind, ?_, hok.result, fun p hp q hq => hok.todo p hp q (List.mem_of_mem_erase hq), ?_, hok.loaded⟩
      · rintro _ ⟨⟩
        refine ⟨nofun, nofun, nofun, nofun, fun _ => ⟨[], fun _ => rfl, fun d _ => ⟨rfl, nofun⟩, nofun, nofun, nofun, nofun⟩⟩
      · rintro p hp _ ⟨⟩
        exact hok.todo p hp path hc.2
    · exact h
  · exact h

theorem sound_raises (h : Sound lib w) : Sound lib w.raises := by
  unfold raises
  split
  · rename_i l hw
    have hok : LoadOk lib w.disk l := h.work _ hw
    split
    · refine sound_work h ?_
      rintro _ ⟨⟩
      exact ⟨hok.batch, hok.kind, nofun, hok.result, hok.todo, fun _ _ => nofun, hok.loaded⟩
    · exact h
  · exact h

/-- **One step.** -/
theorem sound_step {a : ScanAction P C} (h : Sound lib w) (ha : Steady w a) : Sound lib (w.step lib a) := by
  cases a with
  | write q text =>
    obtain ⟨hwin, habs, hre⟩ := ha
    exact sound_changes h (changes_write w.disk q text) hwin (.inr habs) (.inr hre)
  | delete q =>
    have hgone : (w.disk.delete q).get? q = none := by rw [get?_delete, if_pos rfl]
    exact sound_changes h (changes_delete w.disk q) ha (.inl hgone) (.inl hgone)
  | readSecrets q =>
    simp only [step]
    split
    · exact h
    · rename_i f hf
      split
      · rename_i hr
        refine ⟨fun q' f' hc => ?_, h.rows, h.work⟩
        by_cases hq : q' = q
        · subst hq
          change Function.update w.secretsCache q' (some f) q' = some f' at hc
          rw [Function.update_self] at hc
          cases hc
          refine ⟨?_, hr⟩
          have := guards_now w.disk q'
          rw [stat, hf] at this
          exact this
        · refine h.cache q' f' ?_
          rw [← hc]
          exact (Function.update_of_ne hq _ _).symm
      · exact h
  | beginScan shallow =>
    simp only [step]
    split
    · refine sound_work h ?_
      rintro _ ⟨⟩
      trivial
    · exact h
  | beginReload path =>
    simp only [step]
    split
    · refine sound_work h ?_
      rintro _ ⟨⟩
      refine ⟨batchOk_empty, fun p => trivial, by rintro _ ⟨⟩, (fun _ _ _ hres => by cases hres), ?_,
        (fun _ _ _ hres => by cases hres), (fun _ _ _ _ hres => by cases hres)⟩
      rintro _ ⟨⟩ q hq
      exact List.mem_singleton.1 hq
    · exact h
  | takeItem path persisted => exact sound_takeItem h path persisted
  | advance => exact sound_advance h
  | raises => exact sound_raises h

/-! ### A deep scan after the last change -/

/-- The scan goes on, and nothing changes; other callers may read the secrets. -/
def Quiet (_ : ScanWorld P C R V) : ScanAction P C → Prop
  | .advance | .takeItem .. | .readSecrets _ => True
  | _ => False

/-- The key of `p` as it is now, with the dependencies of its row. -/
def Current (w : ScanWorld P C R V) (p : P) (key : CacheKey) : Prop :=
  ∃ n, w.disk.stat p = some n ∧ key = ⟨some n, (w.knownDependencies p).map w.disk.stat⟩

/-- What the scan has listed. -/
structure Listed (lib : ScanLibrary P C R V) (w : ScanWorld P C R V) (l : Listing P) : Prop where
  key : ∀ p key, l.keys.get? p = some key → lib.isYaml p = true ∧ w.Current p key
  todo : ∀ p ∈ l.todo, lib.isYaml p = true
  current : ∀ p n rest keys, l.current = some (p, n, rest, keys) → lib.isYaml p = true ∧ w.disk.stat p = some n ∧
    keys ++ rest.map w.disk.stat = (w.knownDependencies p).map w.disk.stat
  all : ∀ p, lib.isYaml p = true → w.disk.get? p ≠ none →
    p ∈ l.todo ∨ (∃ n rest keys, l.current = some (p, n, rest, keys)) ∨ ∃ key, l.keys.get? p = some key
  stats : ∀ q k, l.stats.get? q = some k → k = w.disk.stat q

/-- What it has loaded, with `keys` listed. -/
structure Loading (lib : ScanLibrary P C R V) (w : ScanWorld P C R V) (l : ScanLoad P C R V) (keys : Dict P CacheKey) :
    Prop where
  kind : l.kind = .scan false keys
  key : ∀ p key, keys.get? p = some key → lib.isYaml p = true ∧ w.Current p key
  all : ∀ p, lib.isYaml p = true → w.disk.get? p ≠ none → ∃ key, keys.get? p = some key
  now : BatchNow w.disk l.batch
  todo : ∀ p ∈ l.todo, ∃ key, keys.get? p = some key
  item : ∀ t, l.current = some t → t.shallow = false ∧ ItemNow w.disk t ∧ ∃ key, keys.get? t.path = some key
  result : ∀ p row ks, l.result.get? p = some (row, ks) → row.shallow = false ∧
    ∀ dependencies, row.dependencies = some dependencies → ks = dependencies.map w.disk.stat
  covered : ∀ p ∈ w.pathsToLoad keys, p ∈ l.todo ∨ (∃ t, l.current = some t ∧ t.path = p) ∨
    (∃ e, l.result.get? p = some e) ∨ freshDevice lib w.disk.get? p = none

/-- What it leaves. -/
structure Rescanned (lib : ScanLibrary P C R V) (w : ScanWorld P C R V) : Prop where
  there : ∀ p e, w.index.get? p = some e → lib.isYaml p = true ∧ w.disk.get? p ≠ none
  loaded : ∀ p, lib.isYaml p = true → w.disk.get? p ≠ none → freshDevice lib w.disk.get? p ≠ none →
    ∃ e, w.index.get? p = some e
  key : ∀ p row key, w.index.get? p = some (row, key) → freshDevice lib w.disk.get? p ≠ none → key.main = w.disk.stat p ∧
    ∀ dependencies, row.dependencies = some dependencies → key.dependencies = dependencies.map w.disk.stat

/-- Where the scan is. -/
def Scanning (lib : ScanLibrary P C R V) (w : ScanWorld P C R V) : Prop :=
  match w.work with
  | some (.starting shallow) => shallow = false
  | some (.listing shallow l) => shallow = false ∧ Listed lib w l
  | some (.loading l) => ∃ keys, Loading lib w l keys
  | some (.restat ..) => False
  | none => Rescanned lib w

theorem stat_ne_none {disk : VersionedStore P C} : disk.get? p ≠ none ↔ ∃ n, disk.stat p = some n := by
  rw [← Option.ne_none_iff_exists', ne_eq, ne_eq, stat_eq_none]

/-- One file access of the listing. -/
theorem listed_step {l : Listing P} (h : Listed lib w l) : Listed lib w (w.listingStep l) := by
  unfold listingStep
  split
  · rename_i hc
    split
    · exact h
    · rename_i p todo ht
      have htodo : ∀ p ∈ todo, lib.isYaml p = true := fun p' hp' => h.todo p' (by rw [ht]; exact List.mem_cons_of_mem p hp')
      split
      · -- the file is gone
        rename_i hn
        refine ⟨h.key, htodo, fun p' n rest keys hcur => absurd (hc.symm.trans hcur) nofun, fun p' hy hd => ?_, h.stats⟩
        rcases h.all p' hy hd with hmem | ⟨n, rest, keys, hcur⟩ | hkey
        · rw [ht] at hmem
          rcases List.mem_cons.1 hmem with rfl | hmem
          · exact absurd (stat_eq_none.1 hn) hd
          · exact .inl hmem
        · rw [hc] at hcur
          cases hcur
        · exact .inr (.inr hkey)
      · rename_i n hn
        refine ⟨h.key, htodo, ?_, fun p' hy hd => ?_, h.stats⟩
        · rintro _ _ _ _ ⟨⟩
          exact ⟨h.todo p (by rw [ht]; exact List.mem_cons_self ..), hn, rfl⟩
        · rcases h.all p' hy hd with hmem | ⟨n', rest, keys, hcur⟩ | hkey
          · rw [ht] at hmem
            rcases List.mem_cons.1 hmem with rfl | hmem
            · exact .inr (.inl ⟨_, _, _, rfl⟩)
            · exact .inl hmem
          · rw [hc] at hcur
            cases hcur
          · exact .inr (.inr hkey)
  · rename_i p n keys hc
    obtain ⟨hy, hn, hkeys⟩ := h.current p n [] keys hc
    refine ⟨fun p' key hkey => ?_, h.todo, nofun, fun p' hy' hd => ?_, h.stats⟩
    · rw [Dict.get?_set] at hkey
      split at hkey
      · rename_i hp
        cases hkey
        subst hp
        refine ⟨hy, n, hn, ?_⟩
        rw [← hkeys, List.map_nil, List.append_nil]
      · exact h.key p' key hkey
    · rcases h.all p' hy' hd with hmem | ⟨n', rest, keys', hcur⟩ | ⟨key, hkey⟩
      · exact .inl hmem
      · rw [hc] at hcur
        cases hcur
        exact .inr (.inr ⟨_, Dict.get?_set_self⟩)
      · right; right
        rw [Dict.get?_set]
        split
        · exact ⟨_, rfl⟩
        · exact ⟨key, hkey⟩
  · rename_i p n q rest keys hc
    obtain ⟨hy, hn, hkeys⟩ := h.current p n (q :: rest) keys hc
    have goes : ∀ stats : Dict P (Option ℕ), (∀ q k, stats.get? q = some k → k = w.disk.stat q) →
        Listed lib w { l with current := some (p, n, rest, keys ++ [w.disk.stat q]), stats := stats } := by
      intro stats hstats
      refine ⟨h.key, h.todo, ?_, fun p' hy' hd => ?_, hstats⟩
      · rintro _ _ _ _ ⟨⟩
        refine ⟨hy, hn, ?_⟩
        rw [← hkeys, List.map_cons, List.append_assoc, List.singleton_append]
      · rcases h.all p' hy' hd with hmem | ⟨n', rest', keys', hcur⟩ | hkey
        · exact .inl hmem
        · rw [hc] at hcur
          cases hcur
          exact .inr (.inl ⟨_, _, _, rfl⟩)
        · exact .inr (.inr hkey)
    split
    · rename_i k hk
      rw [h.stats q k hk]
      exact goes l.stats h.stats
    · refine goes _ fun q' k hk => ?_
      rw [Dict.get?_set] at hk
      split at hk
      · rename_i hq
        cases hk
        rw [hq]
      · exact h.stats q' k hk

/-- The main file of a listed path is as it was read. -/
theorem main_now {keys : Dict P CacheKey} (hkey : ∃ key, keys.get? p = some key)
    (hcur : ∀ p key, keys.get? p = some key → lib.isYaml p = true ∧ w.Current p key) {a : Option (Stamped C)}
    (hm : MainOk w.disk p a (.scan false keys)) : w.disk.get? p = a := by
  obtain ⟨key, hk⟩ := hkey
  obtain ⟨-, n, hn, he⟩ := hcur p key hk
  exact (hm key n hk (by rw [he])).eq hn

/-- The thread goes on. -/
theorem loading_advanceItem (h : Sound lib w) {l : ScanLoad P C R V} {t : Item P C R V} {keys : Dict P CacheKey}
    (hw : w.work = some (.loading l)) (ht : l.current = some t) (hl : Loading lib w l keys) :
    Scanning lib (w.advanceItem lib l t) := by
  have hok : LoadOk lib w.disk l := h.work _ hw
  obtain ⟨hs, hitem, hlisted⟩ := hl.item t ht
  obtain ⟨-, -, hp⟩ := advance_ok hok.batch h.cache (hok.current t ht) (hok.kind t.path)
  obtain ⟨hb, hnow⟩ : BatchNow w.disk (t.advance lib w.disk w.secretsCache l.batch).1 ∧
      ProgressNow w.disk (t.advance lib w.disk w.secretsCache l.batch).2.2 := advance_now hl.now (hok.current t ht) hitem
  unfold advanceItem
  revert hb hnow hp
  generalize t.advance lib w.disk w.secretsCache l.batch = r
  obtain ⟨b, cache, progress⟩ := r
  intro hp hb hnow
  refine ⟨keys, ?_⟩
  -- where the current file goes
  have covered : ∀ l' : ScanLoad P C R V, l'.todo = l.todo →
      (∀ p e, l.result.get? p = some e → ∃ e, l'.result.get? p = some e) →
      ((∃ t', l'.current = some t' ∧ t'.path = t.path) ∨ (∃ e, l'.result.get? t.path = some e) ∨
        freshDevice lib w.disk.get? t.path = none) →
      ∀ p ∈ w.pathsToLoad keys, p ∈ l'.todo ∨ (∃ t, l'.current = some t ∧ t.path = p) ∨
        (∃ e, l'.result.get? p = some e) ∨ freshDevice lib w.disk.get? p = none := by
    intro l' htodo hres hcur p hmem
    rcases hl.covered p hmem with hp | ⟨t', ht', rfl⟩ | ⟨e, he⟩ | hf
    · left
      rw [htodo]
      exact hp
    · rw [ht] at ht'
      cases ht'
      exact .inr hcur
    · exact .inr (.inr (.inl (hres p e he)))
    · exact .inr (.inr (.inr hf))
  cases progress with
  | goes t' =>
    obtain ⟨hpath, hshallow, -⟩ := hp
    refine ⟨hl.kind, hl.key, hl.all, hb, hl.todo, ?_, hl.result, covered _ rfl (fun p e he => ⟨e, he⟩) (.inl ⟨t', rfl, hpath⟩)⟩
    rintro _ ⟨⟩
    refine ⟨hshallow.trans hs, hnow, ?_⟩
    rw [hpath]
    exact hlisted
  | done row ks =>
    refine ⟨hl.kind, hl.key, hl.all, hb, hl.todo, nofun, fun p row' ks' hres => ?_, covered _ rfl (fun p e he => ?_) (.inr (.inl ?_))⟩
    · change (l.result.set t.path (row, ks)).get? p = some (row', ks') at hres
      rw [Dict.get?_set] at hres
      split at hres
      · cases hres
        exact ⟨hp.2.trans hs, hnow⟩
      · exact hl.result p row' ks' hres
    · change ∃ e, (l.result.set t.path (row, ks)).get? p = some e
      rw [Dict.get?_set]
      split
      · exact ⟨_, rfl⟩
      · exact ⟨e, he⟩
    · exact ⟨_, Dict.get?_set_self⟩
  | raises =>
    refine ⟨hl.kind, hl.key, hl.all, hb, hl.todo, nofun, hl.result, covered _ rfl (fun p e he => ⟨e, he⟩) (.inr (.inr ?_))⟩
    have hraised : Raised lib w.disk l.kind b t.path := hp hs
    rw [hl.kind] at hraised
    exact hraised.fresh hb fun a hm => main_now hlisted hl.key hm

/-- The rows are set. -/
theorem rescanned_finish {l : ScanLoad P C R V} {keys : Dict P CacheKey} (hl : Loading lib w l keys) (htodo : l.todo = [])
    (hcur : l.current = none) : Rescanned lib { w with index := w.applyScan keys l.result, work := none } := by
  have mem : ∀ p, p ∈ keys.keys ↔ ∃ key, keys.get? p = some key := fun p => Dict.mem_keys
  have kept : ∀ p, (∃ key, keys.get? p = some key) → l.result.get? p = none → freshDevice lib w.disk.get? p ≠ none →
      (w.index.get? p).map Prod.snd = keys.get? p := by
    intro p hkey hres hf
    by_contra hne
    have hload : p ∈ w.pathsToLoad keys := by
      unfold pathsToLoad
      exact List.mem_filter.2 ⟨(mem p).2 hkey, decide_eq_true hne⟩
    rcases hl.covered p hload with hp | ⟨t, ht, -⟩ | ⟨e, he⟩ | hnone
    · rw [htodo] at hp
      cases hp
    · rw [hcur] at ht
      cases ht
    · rw [hres] at he
      cases he
    · exact hf hnone
  refine ⟨fun p e he => ?_, fun p hy hd hf => ?_, fun p row key he hf => ?_⟩
  · change (w.applyScan keys l.result).get? p = some e at he
    rw [applyScan_get?] at he
    split at he
    · rename_i hp
      obtain ⟨key, hkey⟩ := (mem p).1 hp
      obtain ⟨hy, n, hn, -⟩ := hl.key p key hkey
      exact ⟨hy, stat_ne_none.2 ⟨n, hn⟩⟩
    · cases he
  · have hkey := hl.all p hy hd
    change ∃ e, (w.applyScan keys l.result).get? p = some e
    rw [applyScan_get?, if_pos ((mem p).2 hkey)]
    cases hres : l.result.get? p with
    | some e => exact ⟨_, rfl⟩
    | none =>
      obtain ⟨key, hkey'⟩ := hkey
      have hsame := kept p ⟨key, hkey'⟩ hres hf
      rw [hkey'] at hsame
      obtain ⟨e, he, -⟩ := Option.map_eq_some_iff.1 hsame
      exact ⟨e, he⟩
  · change (w.applyScan keys l.result).get? p = some (row, key) at he
    rw [applyScan_get?] at he
    split at he
    · rename_i hp
      obtain ⟨listed, hkey⟩ := (mem p).1 hp
      obtain ⟨-, n, hn, hlisted⟩ := hl.key p listed hkey
      split at he
      · rename_i e hres
        cases he
        refine ⟨?_, fun dependencies hdeps => (hl.result p e.1 e.2 hres).2 dependencies hdeps⟩
        change ((keys.get? p).getD .poisoned).main = w.disk.stat p
        rw [hkey, hn, hlisted]
        rfl
      · rename_i hres
        have hsame := kept p ⟨listed, hkey⟩ hres hf
        rw [he, hkey, hlisted] at hsame
        have hk : key = ⟨some n, (w.knownDependencies p).map w.disk.stat⟩ := Option.some.inj hsame
        rw [hk]
        refine ⟨hn.symm, fun dependencies hdeps => ?_⟩
        have hknown : w.knownDependencies p = dependencies := by
          unfold knownDependencies
          rw [he, Option.bind_some, hdeps, Option.getD_some]
        change (w.knownDependencies p).map w.disk.stat = dependencies.map w.disk.stat
        rw [hknown]
    · cases he

theorem scanning_advance (h : Sound lib w) (hs : Scanning lib w) : Scanning lib (w.advance lib) := by
  unfold Scanning at hs
  unfold advance
  cases hw : w.work with
  | none =>
    simp only
    unfold Scanning
    rw [hw] at hs ⊢
    exact hs
  | some work =>
    rw [hw] at hs
    cases work with
    | starting shallow =>
      refine ⟨hs, (fun p key hkey => nomatch hkey), fun p hp => ?_, nofun, fun p hy hd => .inl ?_, fun q k hk => nomatch hk⟩
      · exact (List.mem_filter.1 hp).2
      · refine List.mem_filter.2 ⟨?_, hy⟩
        obtain ⟨f, hf⟩ := Option.ne_none_iff_exists'.1 hd
        exact Dict.mem_keys.2 ⟨f, hf⟩
    | listing shallow l =>
      obtain ⟨hshallow, hl⟩ := hs
      simp only
      split
      · rename_i hcur htodo
        refine ⟨l.keys, by rw [hshallow], hl.key, fun p hy hd => ?_, ⟨(fun q k hk => nomatch hk), fun q s hs => nomatch hs⟩,
          fun p hp => ?_, nofun, (fun p row ks hres => nomatch hres), fun p hp => .inl hp⟩
        · rcases hl.all p hy hd with hmem | ⟨n, rest, keys, hc⟩ | hkey
          · rw [htodo] at hmem
            cases hmem
          · rw [hcur] at hc
            cases hc
          · exact hkey
        · exact Dict.mem_keys.1 (List.mem_filter.1 hp).1
      · obtain ⟨hkey, htodo, hcur, hall, hstats⟩ := listed_step hl
        exact ⟨hshallow, hkey, htodo, hcur, hall, hstats⟩
    | loading l =>
      obtain ⟨keys, hl⟩ := hs
      simp only
      split
      · rename_i t ht
        exact loading_advanceItem h hw ht hl
      · rename_i hcur htodo
        unfold finish
        rw [hl.kind]
        exact rescanned_finish hl htodo hcur
      · unfold Scanning
        rw [hw]
        exact ⟨keys, hl⟩
    | restat => exact hs.elim

theorem scanning_takeItem (hs : Scanning lib w) (path : P) (persisted : Option (List P)) :
    Scanning lib (w.takeItem path persisted) := by
  unfold takeItem
  split
  · rename_i l hw
    split
    · rename_i hc
      unfold Scanning at hs
      rw [hw] at hs
      obtain ⟨keys, hl⟩ := hs
      refine ⟨keys, hl.kind, hl.key, hl.all, hl.now, fun p hp => hl.todo p (List.mem_of_mem_erase hp), ?_, hl.result, fun p hp => ?_⟩
      · rintro _ ⟨⟩
        refine ⟨?_, nofun, hl.todo path hc.2⟩
        rw [hl.kind]
        rfl
      · rcases hl.covered p hp with hmem | ⟨t, ht, -⟩ | hrest
        · by_cases he : p = path
          · exact .inr (.inl ⟨_, rfl, he.symm⟩)
          · exact .inl ((List.mem_erase_of_ne he).2 hmem)
        · have hnone := hc.1
          rw [ht] at hnone
          cases hnone
        · exact .inr (.inr hrest)
    · exact hs
  · exact hs

/-- A cached secrets file is nothing a scan goes by. -/
theorem scanning_cache (hs : Scanning lib w) (cache : P → Option (Stamped C)) :
    Scanning lib { w with secretsCache := cache } := by
  unfold Scanning at hs ⊢
  split
  · rename_i hw
    rw [hw] at hs
    exact hs
  · rename_i hw
    rw [hw] at hs
    obtain ⟨hshallow, hl⟩ := hs
    exact ⟨hshallow, hl.key, hl.todo, hl.current, hl.all, hl.stats⟩
  · rename_i hw
    rw [hw] at hs
    obtain ⟨keys, hl⟩ := hs
    exact ⟨keys, hl.kind, hl.key, hl.all, hl.now, hl.todo, hl.item, hl.result, hl.covered⟩
  · rename_i hw
    rw [hw] at hs
    exact hs
  · rename_i hw
    rw [hw] at hs
    exact ⟨hs.there, hs.loaded, hs.key⟩

theorem scanning_step {a : ScanAction P C} (h : Sound lib w) (hs : Scanning lib w) (ha : Quiet w a) :
    Scanning lib (w.step lib a) := by
  cases a with
  | advance => exact scanning_advance h hs
  | takeItem path persisted => exact scanning_takeItem hs path persisted
  | readSecrets q =>
    simp only [step]
    split
    · exact hs
    · split
      · exact scanning_cache hs _
      · exact hs
  | _ => exact ha.elim

theorem quiet_steady {a : ScanAction P C} (ha : Quiet w a) : Steady w a := by
  cases a with
  | write => exact ha.elim
  | delete => exact ha.elim
  | _ => trivial

/-- Before the first scan. -/
def start (disk : VersionedStore P C) : ScanWorld P C R V := { disk := disk }

theorem sound_start (disk : VersionedStore P C) : Sound lib (start disk : ScanWorld P C R V) := by
  refine ⟨?_, (fun p row key hrow => nomatch hrow), nofun⟩
  intro q f hf
  cases hf

theorem sound_run {disk : VersionedStore P C} (h : Reaches (step lib) Steady (start disk) w) : Sound lib w :=
  h.invariant (I := fun w => Sound lib w) (sound_start disk) fun _ _ ha hs => sound_step hs ha

/-- A row under the stamp of its file was loaded from that text. -/
theorem Sound.text (h : Sound lib w) {row : Row P C V} {key : CacheKey} (hrow : w.index.get? p = some (row, key))
    (hd : w.disk.get? p ≠ none) (hk : key.main = w.disk.stat p) : row.text = w.disk.get? p := by
  obtain ⟨n, hn⟩ := stat_ne_none.1 hd
  exact ((h.rows p row key hrow n (hk.trans hn)).text.eq hn).symm

/-- **The rows a deep scan leaves are fresh.** -/
theorem Rescanned.fresh (hs : Rescanned lib w) (h : Sound lib w) {row : Row P C V} {key : CacheKey}
    (hrow : w.index.get? p = some (row, key)) (hf : freshDevice lib w.disk.get? p ≠ none) (hdeep : row.shallow = false)
    {dependencies : List P} (hd : row.dependencies = some dependencies) :
    freshDevice lib w.disk.get? p = some row.device ∧ freshDependencies lib w.disk.get? p dependencies = dependencies := by
  obtain ⟨n, hn⟩ := stat_ne_none.1 (hs.there p _ hrow).2
  obtain ⟨hmain, hdeps⟩ := hs.key p row key hrow hf
  exact (h.rows p row key hrow n (hmain.trans hn)).fresh hdeep (fun a hm => hm.eq hn) hd (hdeps dependencies hd)

/-! ### A scan ends -/

/-- Some quiet run of the scan comes to this. -/
def Leads (lib : ScanLibrary P C R V) (w : ScanWorld P C R V) (G : ScanWorld P C R V → Prop) : Prop :=
  ∃ w', Reaches (step lib) Quiet w w' ∧ G w'

variable {G G' : ScanWorld P C R V → Prop}

theorem Leads.here (h : G w) : Leads lib w G := ⟨w, .refl w, h⟩

theorem Leads.trans (h : Leads lib w G) (hG : ∀ w, G w → Leads lib w G') : Leads lib w G' := by
  obtain ⟨v, hv, hg⟩ := h
  obtain ⟨u, hu, hg'⟩ := hG v hg
  exact ⟨u, hv.trans hu, hg'⟩

/-- One access, and then. -/
theorem Leads.advance (h : Leads lib (w.advance lib) G) : Leads lib w G := by
  obtain ⟨v, hv, hg⟩ := h
  have hstep : Reaches (step lib) Quiet w (w.step lib .advance) := (Reaches.refl w).next trivial
  exact ⟨v, hstep.trans hv, hg⟩

/-- A load that is done with its file, and has these files to go. -/
def Between (todo : List P) (w : ScanWorld P C R V) : Prop :=
  ∃ l, w.work = some (.loading l) ∧ l.current = none ∧ l.todo = todo

theorem advance_item {l : ScanLoad P C R V} {t : Item P C R V} (hw : w.work = some (.loading l)) (ht : l.current = some t) :
    w.advance lib = w.advanceItem lib l t := by
  unfold advance
  rw [hw]
  simp only [ht]

/-- An access of the current file, by what it makes of it. -/
theorem advanceItem_cases (w : ScanWorld P C R V) (l : ScanLoad P C R V) (t : Item P C R V) :
    (∃ t', (t.advance lib w.disk w.secretsCache l.batch).2.2 = .goes t' ∧ ∃ l', (w.advanceItem lib l t).work = some (.loading l') ∧
      l'.current = some t' ∧ l'.todo = l.todo ∧ l'.batch = (t.advance lib w.disk w.secretsCache l.batch).1) ∨
      Between l.todo (w.advanceItem lib l t) := by
  unfold advanceItem
  generalize t.advance lib w.disk w.secretsCache l.batch = r
  obtain ⟨b, cache, progress⟩ := r
  cases progress with
  | goes t' => exact .inl ⟨t', rfl, _, rfl, rfl, rfl, rfl⟩
  | done row keys => exact .inr ⟨_, rfl, rfl, rfl⟩
  | raises => exact .inr ⟨_, rfl, rfl, rfl⟩

/-- The current file is in a phase from which the load comes to its end. -/
def Ends (lib : ScanLibrary P C R V) (b : LoadBatch P C) (t : Item P C R V) : Prop :=
  ∀ (w : ScanWorld P C R V) l, w.work = some (.loading l) → l.current = some t → l.batch = b →
    Leads lib w (Between l.todo)

theorem Ends.step {b : LoadBatch P C} {t : Item P C R V}
    (h : ∀ disk cache t', (t.advance lib disk cache b).2.2 = .goes t' → Ends lib (t.advance lib disk cache b).1 t') :
    Ends lib b t := by
  intro w l hw ht hb
  refine Leads.advance ?_
  rw [advance_item hw ht]
  rcases @advanceItem_cases P C R V _ lib w l t with ⟨t', hgoes, l', hw', ht', htodo, hb'⟩ | hend
  · rw [hb] at hgoes hb'
    rw [← htodo]
    exact h w.disk w.secretsCache t' hgoes _ l' hw' ht' hb'
  · exact .here hend

section Ends

variable {b : LoadBatch P C} {t : Item P C R V}

theorem ends_keys {row : Row P C V} {keys : List (Option ℕ)} {todo : List P} (hp : t.phase = .keys row keys todo) :
    Ends lib b t := by
  induction todo generalizing b t keys with
  | nil =>
    refine .step fun disk cache t' h => ?_
    simp only [Item.advance, hp] at h
    cases h
  | cons q todo ih =>
    refine .step fun disk cache t' h => ?_
    simp only [Item.advance, hp] at h
    cases h
    exact ih rfl

theorem ends_build {text : Option (Stamped C)} {config : Option R} {sources : Option (List (P × Option (Stamped C)))}
    {dependencies : Option (List P)} {t' : Item P C R V} (h : t.build lib text config sources dependencies = .goes t') :
    Ends lib b t' := by
  unfold Item.build at h
  split at h
  · cases h
  · cases h
    exact ends_keys rfl

theorem ends_unreadable {text : Option (Stamped C)} {config : Option R} {dependencies : List P} {f : Stamped C}
    (hp : t.phase = .unreadable text config dependencies q f) : Ends lib b t := by
  refine .step fun disk cache t' h => ?_
  simp only [Item.advance, hp] at h
  exact ends_build h

theorem ends_digest {text : Option (Stamped C)} {config : Option R} {dependencies : List P}
    {lines : List (P × Option (Stamped C))} {todo : List P} (hp : t.phase = .digest text config dependencies lines todo) :
    Ends lib b t := by
  induction todo generalizing b t lines with
  | nil =>
    refine .step fun disk cache t' h => ?_
    simp only [Item.advance, hp] at h
    exact ends_build h
  | cons q todo ih =>
    -- a dependency has its source, or is read, or is stat'ed and then read
    have sourced : ∀ b : LoadBatch P C, b.sources.get? q ≠ none → Ends lib b t := by
      intro b hs
      refine .step fun disk cache t' h => ?_
      simp only [Item.advance, hp] at h
      cases hsource : b.sources.get? q with
      | none => exact absurd hsource hs
      | some source =>
        rw [hsource] at h
        cases source with
        | read a =>
          cases h
          exact ih rfl
        | unreadable f k => exact ends_build h
    have read : ∀ b : LoadBatch P C, b.sources.get? q = none → ¬(lib.isSecrets q = true ∧ b.stats.get? q = none) → Ends lib b t := by
      intro b hs hstat
      refine .step fun disk cache t' h => ?_
      have hsome : ∀ source, (b.source q source).sources.get? q ≠ none := by
        intro source
        rw [source_get?, if_pos rfl]
        exact nofun
      simp only [Item.advance, hp, hs, if_neg hstat] at h ⊢
      split at h
      · cases h
        exact sourced _ (hsome _)
      · split at h
        · cases h
          exact sourced _ (hsome _)
        · cases h
          exact ends_unreadable rfl
    by_cases hs : b.sources.get? q = none
    · by_cases hstat : lib.isSecrets q = true ∧ b.stats.get? q = none
      · refine .step fun disk cache t' h => ?_
        simp only [Item.advance, hp, hs, if_pos hstat] at h ⊢
        cases h
        refine read _ ?_ fun hboth => ?_
        · rw [statted_sources]
          exact hs
        · obtain ⟨k, hk, -⟩ : ∃ k, (b.statted disk q).statKey? q = some k ∧ _ := statKey_statted
          unfold LoadBatch.statKey? at hk
          rw [statted_sources, hs, hboth.2] at hk
          cases hk
      · exact read b hs hstat
    · exact sourced b hs

theorem ends_parse {text : Option (Stamped C)} {rest : Reader P (Option (Stamped C)) (Option (Option R × Bool))}
    (hp : t.phase = .parse text rest) : Ends lib b t := by
  induction rest generalizing b t with
  | done result =>
    refine .step fun disk cache t' h => ?_
    cases result with
    | none =>
      simp only [Item.advance, hp] at h
      cases h
    | some r =>
      obtain ⟨config, complete⟩ := r
      simp only [Item.advance, hp, Item.parsed] at h
      split at h
      · cases h
        exact ends_digest rfl
      · split at h
        · exact ends_build h
        · exact ends_build h
  | read q rest ih =>
    refine .step fun disk cache t' h => ?_
    simp only [Item.advance, hp] at h
    cases h
    exact ih _ rfl

theorem ends_item (hp : t.phase = .text) : Ends lib b t := by
  refine .step fun disk cache t' h => ?_
  simp only [Item.advance, hp] at h
  split at h
  · cases h
    refine .step fun disk cache t' h => ?_
    simp only [Item.advance] at h
    cases h
    split
    · exact ends_digest rfl
    · exact ends_parse rfl
  · cases h

end Ends

theorem leads_between (todo : List P) (h : Between todo w) : Leads lib w fun w => w.work = none := by
  induction todo generalizing w with
  | nil =>
    obtain ⟨l, hw, hc, ht⟩ := h
    refine Leads.advance ?_
    have hfinish : w.advance lib = w.finish l := by
      unfold advance
      rw [hw]
      simp only [hc, ht]
    rw [hfinish]
    unfold finish
    split
    · exact .here rfl
    · split
      · exact .here rfl
      · exact Leads.advance (.here rfl)
  | cons p todo ih =>
    obtain ⟨l, hw, hc, ht⟩ := h
    have htake : Leads lib w (Between todo) := by
      obtain ⟨v, hv, hg⟩ : Leads lib (w.takeItem p none) (Between todo) := by
        unfold takeItem
        rw [hw]
        simp only [hc, ht, Option.isNone_none, List.mem_cons_self, and_self, if_true, List.erase_cons_head]
        generalize hload : ({ l with todo := todo, current := some ⟨p, _, _, [], .text⟩ } : ScanLoad P C R V) = load
        have htodo : load.todo = todo := by rw [← hload]
        rw [← htodo]
        exact ends_item (t := ⟨p, _, _, [], .text⟩) rfl _ load rfl (by rw [← hload]) rfl
      have hstep : Reaches (step lib) Quiet w (w.step lib (.takeItem p none)) := (Reaches.refl w).next trivial
      exact ⟨v, hstep.trans hv, hg⟩
    exact htake.trans fun w hw => ih hw

theorem advance_listing {shallow : Bool} {l : Listing P} (hw : w.work = some (.listing shallow l))
    (h : l.current ≠ none ∨ l.todo ≠ []) :
    w.advance lib = { w with work := some (.listing shallow (w.listingStep l)) } := by
  unfold advance
  rw [hw]
  simp only
  split
  · rename_i hc ht
    rcases h with h | h
    · exact absurd hc h
    · exact absurd ht h
  · rfl

theorem leads_listing {shallow : Bool} (todo : List P) :
    ∀ (w : ScanWorld P C R V) (l : Listing P), w.work = some (.listing shallow l) → l.current = none → l.todo = todo →
      Leads lib w fun w => w.work = none := by
  induction todo with
  | nil =>
    intro w l hw hc ht
    refine Leads.advance ?_
    have hload : w.advance lib = { w with work := some (.loading { kind := .scan shallow l.keys, todo := w.pathsToLoad l.keys }) } := by
      unfold advance
      rw [hw]
      simp only [hc, ht]
    rw [hload]
    exact leads_between _ ⟨_, rfl, rfl, rfl⟩
  | cons p todo ih =>
    have file : ∀ (rest : List P) (w : ScanWorld P C R V) (l : Listing P) n keys, w.work = some (.listing shallow l) →
        l.current = some (p, n, rest, keys) → l.todo = todo → Leads lib w fun w => w.work = none := by
      intro rest
      induction rest with
      | nil =>
        intro w l n keys hw hc ht
        refine Leads.advance ?_
        rw [advance_listing hw (.inl (by rw [hc]; exact nofun))]
        refine ih _ _ rfl ?_ ?_
        · simp only [listingStep, hc]
        · simp only [listingStep, hc]
          exact ht
      | cons q rest ihr =>
        intro w l n keys hw hc ht
        refine Leads.advance ?_
        rw [advance_listing hw (.inl (by rw [hc]; exact nofun))]
        cases hk : l.stats.get? q with
        | some k =>
          refine ihr _ _ n (keys ++ [k]) rfl ?_ ?_
          · simp only [listingStep, hc, hk]
          · simp only [listingStep, hc, hk]
            exact ht
        | none =>
          refine ihr _ _ n (keys ++ [w.disk.stat q]) rfl ?_ ?_
          · simp only [listingStep, hc, hk]
          · simp only [listingStep, hc, hk]
            exact ht
    intro w l hw hc ht
    refine Leads.advance ?_
    rw [advance_listing hw (.inr (by rw [ht]; exact nofun))]
    cases hn : w.disk.stat p with
    | none =>
      refine ih _ _ rfl ?_ ?_
      · simp only [listingStep, hc, ht, hn]
      · simp only [listingStep, hc, ht, hn]
    | some n =>
      refine file (w.knownDependencies p) _ _ n [] rfl ?_ ?_
      · simp only [listingStep, hc, ht, hn]
      · simp only [listingStep, hc, ht, hn]

/-- **A scan comes to its end.** -/
theorem scan_ends (hidle : w.work = none) (shallow : Bool) :
    Leads lib (w.step lib (.beginScan shallow)) fun w => w.work = none := by
  have hbegin : w.step lib (.beginScan shallow) = { w with work := some (.starting shallow) } := by
    simp only [step, hidle, Option.isNone_none, if_true]
  rw [hbegin]
  refine Leads.advance ?_
  exact leads_listing _ _ _ rfl rfl rfl

/-! ### No edit is missed -/

theorem quiet_disk {a : ScanAction P C} (ha : Quiet w a) : (w.step lib a).disk = w.disk := by
  cases a with
  | advance =>
    simp only [step, advance]
    split
    · rfl
    · rfl
    · split <;> rfl
    · split
      · rfl
      · unfold finish
        split
        · rfl
        · split <;> rfl
      · rfl
    · rfl
  | takeItem path persisted =>
    simp only [step, takeItem]
    split
    · split <;> rfl
    · rfl
  | readSecrets q =>
    simp only [step]
    split
    · rfl
    · split <;> rfl
  | _ => exact ha.elim

/-- **A deep scan after the last change leaves fresh rows**, where no edit fell between a read and its stat. -/
theorem edits_seen (lib : ScanLibrary P C R V) (disk : VersionedStore P C) {w₀ : ScanWorld P C R V}
    (h : Reaches (step lib) Steady (start disk) w₀) :
    -- no row is older than the file whose stamp it has
    (∀ p row key, w₀.index.get? p = some (row, key) → w₀.disk.get? p ≠ none → key.main = w₀.disk.stat p →
      row.text = w₀.disk.get? p) ∧
    (w₀.work = none →
      -- the scan comes to its end
      (∃ w, Reaches (step lib) Quiet (w₀.step lib (.beginScan false)) w ∧ w.work = none) ∧
      ∀ w, Reaches (step lib) Quiet (w₀.step lib (.beginScan false)) w → w.work = none → w.disk = w₀.disk ∧
        -- rows are of files that are there, and every file that loads has one
        (∀ p e, w.index.get? p = some e → lib.isYaml p = true ∧ w₀.disk.get? p ≠ none) ∧
        (∀ p, lib.isYaml p = true → w₀.disk.get? p ≠ none → freshDevice lib w₀.disk.get? p ≠ none →
          ∃ e, w.index.get? p = some e) ∧
        -- which is a fresh load's, unless it is shallow, or its dependencies are not known
        ∀ p row key, w.index.get? p = some (row, key) → freshDevice lib w₀.disk.get? p ≠ none → row.shallow = false →
          ∀ dependencies, row.dependencies = some dependencies →
            freshDevice lib w₀.disk.get? p = some row.device ∧
              freshDependencies lib w₀.disk.get? p dependencies = dependencies) := by
  have hsound := sound_run h
  refine ⟨fun p row key hrow hd hk => hsound.text hrow hd hk, fun hidle => ⟨scan_ends hidle false, fun w hw hdone => ?_⟩⟩
  have hbegin : w₀.step lib (.beginScan false) = { w₀ with work := some (.starting false) } := by
    simp only [step, hidle, Option.isNone_none, if_true]
  have hfirst : Sound lib (w₀.step lib (.beginScan false)) := sound_step hsound trivial
  have hscan : Scanning lib (w₀.step lib (.beginScan false)) := by
    rw [hbegin]
    rfl
  obtain ⟨hs, hscanning, hdisk⟩ : Sound lib w ∧ Scanning lib w ∧ w.disk = w₀.disk := by
    refine hw.invariant (I := fun w => Sound lib w ∧ Scanning lib w ∧ w.disk = w₀.disk) ⟨hfirst, hscan, ?_⟩ ?_
    · rw [hbegin]
    · rintro v a ha ⟨hv, hvs, hvd⟩
      exact ⟨sound_step hv (quiet_steady ha), scanning_step hv hvs ha, (quiet_disk ha).trans hvd⟩
  have hrescanned : Rescanned lib w := by
    unfold Scanning at hscanning
    rw [hdone] at hscanning
    exact hscanning
  rw [← hdisk]
  exact ⟨rfl, hrescanned.there, hrescanned.loaded, fun p row key hrow hf hdeep dependencies hd =>
    hrescanned.fresh hs hrow hf hdeep hd⟩

/-! ### One file and its include -/

/-- File 0 includes file 1; a text that starts with `?` does not decode. -/
def someScan : ScanLibrary ℕ String Unit String where
  isYaml p := p = 0
  isSecrets _ := false
  secrets := 2
  decodes text := text ≠ "?"
  readable _ _ := true
  parse p _ := .read p fun _ => .read 1 fun _ => .done (some (some (), true))
  device _ _ text _ sources := some <|
    ((text.map Stamped.value).getD "") ++ String.join ((sources.getD []).map fun e => (e.2.map Stamped.value).getD "")

/-- The rest of a scan that loads file 0. -/
def deepScan : List (ScanAction ℕ String) :=
  List.replicate 6 .advance ++ .takeItem 0 none :: List.replicate 13 .advance

/-- The two files are written, scanned, and the include is written again. -/
def editedInclude : List (ScanAction ℕ String) :=
  [.write 0 "esphome:", .write 1 "api:", .beginScan false] ++ deepScan ++ [.write 1 "ota:"]

/-- `Steady`, as a test, for runs that write between the scans. -/
def steady (w : ScanWorld P C R V) : ScanAction P C → Bool
  | .write .. => w.work.isNone
  | .delete _ => w.work.isNone
  | _ => true

theorem steady_of_test (w : ScanWorld P C R V) (a : ScanAction P C) (h : steady w a = true) : Steady w a := by
  have idle : ∀ work, w.work.isNone = true → w.work ≠ some work := by
    intro work hn hw
    rw [hw] at hn
    cases hn
  cases a with
  | write q text =>
    refine ⟨?_, ?_, ?_⟩
    · rintro ⟨l, t, hw, -⟩
      exact idle _ h hw
    · rintro ⟨l, hw, -⟩
      exact idle _ h hw
    · rintro (⟨l, hw, -⟩ | ⟨row, keys, hw⟩)
      · exact idle _ h hw
      · exact idle _ h hw
  | delete q =>
    rintro ⟨l, t, hw, -⟩
    exact idle _ h hw
  | _ => trivial

/-- `Quiet`, as a test. -/
def quiet (_ : ScanWorld P C R V) : ScanAction P C → Bool
  | .advance | .takeItem .. => true
  | _ => false

theorem quiet_of_test (w : ScanWorld P C R V) (a : ScanAction P C) (h : quiet w a = true) : Quiet w a := by
  cases a with
  | advance => trivial
  | takeItem => trivial
  | _ => cases h

theorem edits_seen_included :
    let w₀ := editedInclude.foldl (step someScan) (start .empty)
    let w := deepScan.foldl (step someScan) (w₀.step someScan (.beginScan false))
    ∃ row key, w.index.get? 0 = some (row, key) ∧ row.device = "esphome:ota:" ∧
      freshDevice someScan w₀.disk.get? 0 = some row.device ∧ freshDependencies someScan w₀.disk.get? 0 [1] = [1] :=
  ⟨⟨"esphome:ota:", some [1], some ⟨0, "esphome:"⟩, false⟩, ⟨some 0, [some 2]⟩, by decide, rfl,
    (((edits_seen someScan .empty (Reaches.foldl_checks steady_of_test editedInclude _ (by decide))).2 (by decide)).2 _
      (Reaches.foldl_checks quiet_of_test deepScan _ (by decide)) (by decide)).2.2.2 0 _ ⟨some 0, [some 2]⟩ (by decide)
      (by decide) rfl [1] rfl⟩

/-- File 0 is scanned; then it has a text that does not decode. -/
def spoiled : List (ScanAction ℕ String) :=
  [.write 0 "esphome:", .beginScan false] ++ deepScan ++ [.write 0 "?"]

/-- **A file that does not load keeps its row.** -/
theorem spoiled_keeps_row : ¬∀ w₀ : ScanWorld ℕ String Unit String, Reaches (step someScan) any (start .empty) w₀ →
    w₀.work = none → ∀ w, Reaches (step someScan) Quiet (w₀.step someScan (.beginScan false)) w → w.work = none →
      ∀ p, (∃ e, w.index.get? p = some e) ↔ someScan.isYaml p = true ∧ freshDevice someScan w₀.disk.get? p ≠ none := by
  intro h
  have hrow := (h _ (Reaches.foldl spoiled _) (by decide) _ (Reaches.foldl_checks quiet_of_test deepScan _ (by decide))
    (by decide) 0).1 ⟨(⟨"esphome:", some [1], some ⟨0, "esphome:"⟩, false⟩, ⟨some 0, [none]⟩), by decide⟩
  revert hrow
  decide

end ScanWorld

end DeviceBuilder.Devices
