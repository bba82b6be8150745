import DeviceBuilder.Devices.Scanner

/-!
# What a load knows of the files it has read

* `Item.Means`: on a disk that gives the same answers a fresh load comes to the same point.
* `Guarded`: a dependency that has no key yet is as it was read; its key guards what was read.
* `advance_ok`: an access of the thread keeps both.
* `ItemOk.changes`: so does a change of the disk, outside of the item's `Window`.
-/

namespace DeviceBuilder.Devices

open VersionedStore

variable {P C R V : Type} [LinearOrder P]
variable {lib : ScanLibrary P C R V} {disk : VersionedStore P C} {cache : P → Option (Stamped C)} {b : LoadBatch P C}
  {t : Item P C R V} {kind : LoadKind P} {p q : P} {a : Option (Stamped C)} {reads : List (P × Option (Stamped C))}

/-! ### Dependency lists -/

theorem mem_normalize {own : P} {loaded : List P} : q ∈ normalizeDependencies own loaded ↔ q ∈ loaded ∧ q ≠ own := by
  unfold normalizeDependencies
  rw [List.mem_insertionSort, List.mem_dedup, List.mem_filter, decide_eq_true_eq]

/-- A list that has the recorder's files already stays as it is. -/
theorem normalize_known {own : P} {loaded known : List P} :
    normalizeDependencies own (loaded ++ normalizeDependencies own (loaded ++ known)) =
      normalizeDependencies own (loaded ++ known) := by
  have hperm : ((loaded ++ normalizeDependencies own (loaded ++ known)).filter (· ≠ own)).dedup.Perm
      (((loaded ++ known).filter (· ≠ own)).dedup) := by
    refine (List.perm_ext_iff_of_nodup (List.nodup_dedup _) (List.nodup_dedup _)).2 fun q => ?_
    simp only [List.mem_dedup, List.mem_filter, List.mem_append, mem_normalize, decide_eq_true_eq]
    tauto
  unfold normalizeDependencies at hperm ⊢
  refine List.Perm.eq_of_pairwise' (r := (· ≤ ·)) ?_ ?_ ?_
  · exact List.pairwise_insertionSort _ _
  · exact List.pairwise_insertionSort _ _
  · exact (List.perm_insertionSort _ _).trans (hperm.trans (List.perm_insertionSort _ _).symm)

/-! ### The batch -/

/-- The keys of a batch were taken of the disk, and guard what was read under them. -/
structure BatchOk (lib : ScanLibrary P C R V) (disk : VersionedStore P C) (b : LoadBatch P C) : Prop where
  stats : ∀ q k, b.stats.get? q = some k → disk.Valid q k
  sources : ∀ q s, b.sources.get? q = some s → disk.Valid q s.statKey
  answers : ∀ q a, b.sources.get? q = some (.read a) → disk.Guards q (a.map Stamped.stamp) a ∧
    a.all (fun f => lib.readable q f.value) = true
  failed : ∀ q f k, b.sources.get? q = some (.unreadable f k) → disk.Guards q k (some f) ∧ lib.readable q f.value = false

/-- A cached secrets file is what it was under its stamp. -/
def CacheOk (lib : ScanLibrary P C R V) (disk : VersionedStore P C) (cache : P → Option (Stamped C)) : Prop :=
  ∀ q f, cache q = some f → disk.Guards q (some f.stamp) (some f) ∧ lib.readable q f.value = true

theorem batchOk_empty : BatchOk lib disk {} := by
  refine ⟨fun q k h => ?_, fun q s h => ?_, fun q a h => ?_, fun q f k h => ?_⟩ <;> cases h

@[simp] theorem statted_sources : (b.statted disk q).sources = b.sources := by
  unfold LoadBatch.statted
  split <;> rfl

theorem BatchOk.statKey (h : BatchOk lib disk b) {k : Option ℕ} (hk : b.statKey? q = some k) : disk.Valid q k := by
  unfold LoadBatch.statKey? at hk
  split at hk
  · rename_i s hs
    cases hk
    exact h.sources q s hs
  · exact h.stats q k hk

theorem BatchOk.statted (h : BatchOk lib disk b) (q : P) : BatchOk lib disk (b.statted disk q) := by
  refine ⟨fun q' k hk => ?_, ?_, ?_, ?_⟩
  · unfold LoadBatch.statted at hk
    split at hk
    · exact h.stats q' k hk
    · change (b.stats.set q (disk.stat q)).get? q' = some k at hk
      rw [Dict.get?_set] at hk
      split at hk
      · rename_i hq
        cases hk
        rw [hq]
        exact valid_now disk q
      · exact h.stats q' k hk
  · rw [statted_sources]; exact h.sources
  · rw [statted_sources]; exact h.answers
  · rw [statted_sources]; exact h.failed

/-- After its stat a file has a key. -/
theorem statKey_statted : ∃ k, (b.statted disk q).statKey? q = some k ∧ (b.statKey? q = some k ∨ k = disk.stat q) := by
  unfold LoadBatch.statted
  cases hk : b.statKey? q with
  | some k => exact ⟨k, hk, .inl rfl⟩
  | none =>
    refine ⟨disk.stat q, ?_, .inr rfl⟩
    unfold LoadBatch.statKey? at hk ⊢
    cases hs : b.sources.get? q with
    | some s => rw [hs] at hk; cases hk
    | none => exact Dict.get?_set_self

theorem source_get? {s : Source C} {q' : P} : (b.source q s).sources.get? q' = if q' = q then some s else b.sources.get? q' :=
  Dict.get?_set

theorem BatchOk.read (h : BatchOk lib disk b) (hv : disk.Valid q (a.map Stamped.stamp))
    (hg : disk.Guards q (a.map Stamped.stamp) a) (hr : a.all (fun f => lib.readable q f.value) = true) :
    BatchOk lib disk (b.source q (.read a)) := by
  refine ⟨h.stats, fun q' s hs => ?_, fun q' a' hs => ?_, fun q' f k hs => ?_⟩ <;> rw [source_get?] at hs <;> split at hs
  · rename_i hq; cases hs; rw [hq]; exact hv
  · exact h.sources q' s hs
  · rename_i hq; cases hs; rw [hq]; exact ⟨hg, hr⟩
  · exact h.answers q' a' hs
  · cases hs
  · exact h.failed q' f k hs

theorem BatchOk.unreadable (h : BatchOk lib disk b) {f : Stamped C} {k : Option ℕ} (hv : disk.Valid q k)
    (hg : disk.Guards q k (some f)) (hr : lib.readable q f.value = false) : BatchOk lib disk (b.source q (.unreadable f k)) := by
  refine ⟨h.stats, fun q' s hs => ?_, fun q' a' hs => ?_, fun q' f' k' hs => ?_⟩ <;> rw [source_get?] at hs <;> split at hs
  · rename_i hq; cases hs; rw [hq]; exact hv
  · exact h.sources q' s hs
  · cases hs
  · exact h.answers q' a' hs
  · rename_i hq; cases hs; rw [hq]; exact ⟨hg, hr⟩
  · exact h.failed q' f' k' hs

/-! ### One file -/

/-- The text, once it is read. -/
def Phase.text? : Phase P C R V → Option (Option (Stamped C))
  | .text => none
  | .secrets a | .parse a _ | .digest a .. | .unreadable a .. => some a
  | .keys row .. => some row.text

/-- Where a fresh load of the file stands. -/
def Item.Stands (lib : ScanLibrary P C R V) (t : Item P C R V) (d : P → Option (Stamped C)) : Prop :=
  match t.phase with
  | .text => t.loaded = []
  | .secrets _ => t.loaded = []
  | .parse text rest => freshParse lib d t.path = rest.run d ∧ freshLoaded lib d t.path = t.loaded ++ rest.reads d ∧ d t.path = text
  | .digest _ config dependencies lines todo => freshParse lib d t.path = some (config, true) ∧
    dependencies = normalizeDependencies t.path (freshLoaded lib d t.path) ∧
    readLines lib d dependencies = (readLines lib d todo).map (lines ++ ·)
  | .unreadable _ config dependencies _ _ => freshParse lib d t.path = some (config, true) ∧
    dependencies = normalizeDependencies t.path (freshLoaded lib d t.path) ∧ readLines lib d dependencies = none
  | .keys row _ _ => freshDevice lib d t.path = some row.device ∧
    ∀ dependencies, row.dependencies = some dependencies → freshDependencies lib d t.path dependencies = dependencies

/-- **On a disk that gives these answers a fresh load comes to the same point.** -/
def Item.Means (lib : ScanLibrary P C R V) (t : Item P C R V) (reads : List (P × Option (Stamped C))) : Prop :=
  ∀ d, Answers d reads → t.Stands lib d ∧
    ∀ text, t.phase.text? = some text → d t.path = text ∧ text.all (fun f => lib.decodes f.value) = true

/-- The files that will be among the row's dependencies, as far as they are known. -/
def Item.Covers (t : Item P C R V) (q : P) : Prop :=
  match t.phase with
  | .digest _ _ dependencies _ _ => q ∈ dependencies
  | .unreadable _ _ dependencies _ _ => q ∈ dependencies
  | .keys row _ _ => ∀ dependencies, row.dependencies = some dependencies → q ∈ dependencies
  | _ => q ∈ t.loaded

/-- The row has no key for `q` yet, unless the batch has one. -/
def Phase.Unkeyed (q : P) : Phase P C R V → Prop
  | .keys _ _ todo => q ∈ todo
  | _ => True

/-- A dependency that was read as `a`: it is guarded by its key, or it has none yet and is still `a`. -/
structure Guarded (disk : VersionedStore P C) (b : LoadBatch P C) (t : Item P C R V) (q : P) (a : Option (Stamped C)) :
    Prop where
  source : ∀ s, b.sources.get? q = some s → disk.Guards q s.statKey a
  unkeyed : b.sources.get? q = none → t.phase.Unkeyed q → disk.get? q = a
  taken : ∀ row keys todo dependencies, t.phase = .keys row keys todo → row.dependencies = some dependencies →
    ∀ k, (q, k) ∈ dependencies.zip keys → disk.Guards q k a

/-- The main file that was read as `a`: a scan has its stamp from before, a reload will stat it. -/
def MainOk (disk : VersionedStore P C) (p : P) (a : Option (Stamped C)) : LoadKind P → Prop
  | .scan _ keys => ∀ key n, keys.get? p = some key → key.main = some n → disk.Guards p (some n) a
  | .reload _ => disk.get? p = a ∨ disk.get? p = none

/-- The answers of a deep load. -/
structure Deep (lib : ScanLibrary P C R V) (disk : VersionedStore P C) (kind : LoadKind P) (b : LoadBatch P C)
    (t : Item P C R V) (reads : List (P × Option (Stamped C))) : Prop where
  start : t.phase = .text → reads = []
  means : t.Means lib reads
  main : ∀ a, (t.path, a) ∈ reads → MainOk disk t.path a kind
  covers : ∀ q a, (q, a) ∈ reads → q ≠ t.path → t.Covers q
  guarded : ∀ q a, (q, a) ∈ reads → q ≠ t.path → Guarded disk b t q a
  read : ∀ q a, (q, a) ∈ reads → q ≠ t.path → b.sources.get? q = none → q ∈ t.loaded ∨
    ∃ text config dependencies f, t.phase = .unreadable text config dependencies q f

/-- **The invariant of the file a load is at.** -/
structure ItemOk (lib : ScanLibrary P C R V) (disk : VersionedStore P C) (kind : LoadKind P) (b : LoadBatch P C)
    (t : Item P C R V) : Prop where
  text : ∀ text, t.phase.text? = some text → MainOk disk t.path text kind
  failed : ∀ text config dependencies q f, t.phase = .unreadable text config dependencies q f →
    b.sources.get? q = none ∧ disk.get? q = some f ∧ lib.readable q f.value = false
  digest : ∀ text config dependencies lines todo, t.phase = .digest text config dependencies lines todo →
    t.shallow = false → ∀ q ∈ todo, q ∈ dependencies ∧ q ≠ t.path
  keys : ∀ row keys todo, t.phase = .keys row keys todo → todo = (row.dependencies.getD []).drop keys.length ∧
    row.shallow = t.shallow
  deep : t.shallow = false → ∃ reads, Deep lib disk kind b t reads

/-- What a load has for a file: the row, and the keys that guard it. -/
structure RowOk (lib : ScanLibrary P C R V) (disk : VersionedStore P C) (p : P) (main : Option (Stamped C) → Prop)
    (row : Row P C V) (keys : List (Option ℕ)) : Prop where
  text : main row.text
  deep : row.shallow = false → ∃ reads,
    (∀ d, Answers d reads → d p = row.text ∧ freshDevice lib d p = some row.device ∧
      ∀ dependencies, row.dependencies = some dependencies → freshDependencies lib d p dependencies = dependencies) ∧
    (∀ a, (p, a) ∈ reads → main a) ∧
    ∀ q a, (q, a) ∈ reads → q ≠ p → ∀ dependencies, row.dependencies = some dependencies →
      ∃ k, (q, k) ∈ dependencies.zip keys ∧ disk.Guards q k a

/-- The stamps a scan has taken are old. -/
def KindOk (disk : VersionedStore P C) (p : P) : LoadKind P → Prop
  | .scan _ keys => ∀ key n, keys.get? p = some key → key.main = some n → n < disk.clock
  | .reload _ => True

theorem mainOk_now (h : KindOk disk p kind) : MainOk disk p (disk.get? p) kind := by
  cases kind with
  | scan shallow keys =>
    intro key n hkey hn
    have hv : disk.Valid p (some n) := by
      refine ⟨fun m hm => ?_, nofun⟩
      cases hm
      exact h key n hkey hn
    exact hv.guards
  | reload => exact .inl rfl

/-! ### Guards along a load -/

/-- The item goes on, without a key for the file. -/
theorem Guarded.goes {t' : Item P C R V} (h : Guarded disk b t q a) (hu : t.phase.Unkeyed q)
    (hk : ∀ row keys todo, t'.phase = .keys row keys todo → keys = []) : Guarded disk b t' q a := by
  refine ⟨h.source, fun hs _ => h.unkeyed hs hu, fun row keys todo dependencies hp _ k hmem => ?_⟩
  rw [hk row keys todo hp, List.zip_nil_right] at hmem
  cases hmem

theorem Guarded.batch {b' : LoadBatch P C} (h : Guarded disk b t q a) (hs : b'.sources = b.sources) :
    Guarded disk b' t q a := by
  obtain ⟨h₁, h₂, h₃⟩ := h
  refine ⟨?_, ?_, h₃⟩
  · rw [hs]; exact h₁
  · rw [hs]; exact h₂

/-- A file of the batch gets its source, and with it its key. -/
theorem Guarded.sourced {q' : P} {s : Source C} (h : Guarded disk b t q a) (hn : b.sources.get? q' = none)
    (hv : disk.Valid q' s.statKey) (hu : t.phase.Unkeyed q') : Guarded disk (b.source q' s) t q a := by
  refine ⟨fun s' hs => ?_, fun hs hu' => ?_, h.taken⟩
  · rw [source_get?] at hs
    split at hs
    · rename_i hq
      cases hs
      subst hq
      rw [← h.unkeyed hn hu]
      exact hv.guards
    · exact h.source s' hs
  · rw [source_get?] at hs
    split at hs
    · cases hs
    · exact h.unkeyed hs hu'

/-- A file is read now. -/
theorem guarded_now (hb : BatchOk lib disk b) (hk : ∀ row keys todo, t.phase ≠ .keys row keys todo) :
    Guarded disk b t q (disk.get? q) :=
  ⟨fun s hs => (hb.sources q s hs).guards, fun _ _ => rfl, fun row keys todo _ hp => absurd hp (hk row keys todo)⟩

/-- A file is read from the batch. -/
theorem guarded_batch (hb : BatchOk lib disk b) (hs : b.sources.get? q = some (.read a))
    (hk : ∀ row keys todo, t.phase ≠ .keys row keys todo) : Guarded disk b t q a := by
  refine ⟨fun s hs' => ?_, fun hn => ?_, fun row keys todo _ hp => absurd hp (hk row keys todo)⟩
  · rw [hs] at hs'
    cases hs'
    exact (hb.answers q a hs).1
  · rw [hs] at hn
    cases hn

theorem guarded_failed {f : Stamped C} {k : Option ℕ} (hb : BatchOk lib disk b)
    (hs : b.sources.get? q = some (.unreadable f k)) (hk : ∀ row keys todo, t.phase ≠ .keys row keys todo) :
    Guarded disk b t q (some f) := by
  refine ⟨fun s hs' => ?_, fun hn => ?_, fun row keys todo _ hp => absurd hp (hk row keys todo)⟩
  · rw [hs] at hs'
    cases hs'
    exact (hb.failed q f k hs).1
  · rw [hs] at hn
    cases hn

/-! ### The accesses of a load -/

/-- A load has raised: on a disk that gives these answers a fresh load raises. -/
def Raised (lib : ScanLibrary P C R V) (disk : VersionedStore P C) (kind : LoadKind P) (b : LoadBatch P C) (p : P) : Prop :=
  ∃ reads, (∀ d, Answers d reads → freshDevice lib d p = none) ∧ (∀ a, (p, a) ∈ reads → MainOk disk p a kind) ∧
    ∀ q a, (q, a) ∈ reads → q ≠ p →
      (∀ s, b.sources.get? q = some s → disk.Guards q s.statKey a) ∧ (b.sources.get? q = none → disk.get? q = a)

/-- What an access of the thread leaves of item `t`. -/
def ProgressOk (lib : ScanLibrary P C R V) (disk : VersionedStore P C) (kind : LoadKind P) (b : LoadBatch P C)
    (t : Item P C R V) : Progress P C R V → Prop
  | .goes t' => t'.path = t.path ∧ t'.shallow = t.shallow ∧ ItemOk lib disk kind b t'
  | .done row keys => RowOk lib disk t.path (fun a => MainOk disk t.path a kind) row keys ∧ row.shallow = t.shallow
  | .raises => t.shallow = false → Raised lib disk kind b t.path

/-- A load that has all it needs to build the row. -/
structure Ready (lib : ScanLibrary P C R V) (disk : VersionedStore P C) (kind : LoadKind P) (b : LoadBatch P C)
    (t : Item P C R V) (text : Option (Stamped C)) (config : Option R) (sources : Option (List (P × Option (Stamped C))))
    (dependencies : Option (List P)) (reads : List (P × Option (Stamped C))) : Prop where
  means : ∀ d, Answers d reads → d t.path = text ∧ text.all (fun f => lib.decodes f.value) = true ∧
    freshDevice lib d t.path = lib.device t.path false text config sources ∧
    ∀ list, dependencies = some list → freshDependencies lib d t.path list = list
  main : ∀ a, (t.path, a) ∈ reads → MainOk disk t.path a kind
  covers : ∀ q a, (q, a) ∈ reads → q ≠ t.path → ∀ list, dependencies = some list → q ∈ list
  guarded : ∀ q a, (q, a) ∈ reads → q ≠ t.path → Guarded disk b t q a
  read : ∀ q a, (q, a) ∈ reads → q ≠ t.path → b.sources.get? q = none → q ∈ t.loaded

theorem build_ok {text : Option (Stamped C)} {config : Option R} {sources : Option (List (P × Option (Stamped C)))}
    {dependencies : Option (List P)} (htext : MainOk disk t.path text kind) (hu : ∀ q, t.phase.Unkeyed q)
    (h : t.shallow = false → ∃ reads, Ready lib disk kind b t text config sources dependencies reads) :
    ProgressOk lib disk kind b t (t.build lib text config sources dependencies) := by
  unfold Item.build
  cases hdev : lib.device t.path t.shallow text config sources with
  | none =>
    intro hs
    obtain ⟨reads, hr⟩ := h hs
    refine ⟨reads, fun d hd => ?_, hr.main, fun q a hq hne => ⟨(hr.guarded q a hq hne).source, fun hn => ?_⟩⟩
    · rw [hs] at hdev
      exact (hr.means d hd).2.2.1.trans hdev
    · exact (hr.guarded q a hq hne).unkeyed hn (hu q)
  | some device =>
    refine ⟨rfl, rfl, ?_, nofun, nofun, ?_, fun hs => ?_⟩
    · rintro _ ⟨⟩
      exact htext
    · rintro row keys todo ⟨⟩
      exact ⟨rfl, rfl⟩
    · obtain ⟨reads, hr⟩ := h hs
      refine ⟨reads, nofun, fun d hd => ⟨⟨?_, ?_⟩, ?_⟩, hr.main, fun q a hq hne => ?_, fun q a hq hne => ?_, fun q a hq hne hn => ?_⟩
      · obtain ⟨-, -, hdevice, -⟩ := hr.means d hd
        rw [hs] at hdev
        exact hdevice.trans hdev
      · exact (hr.means d hd).2.2.2
      · rintro _ ⟨⟩
        exact ⟨(hr.means d hd).1, (hr.means d hd).2.1⟩
      · exact hr.covers q a hq hne
      · refine (hr.guarded q a hq hne).goes (hu q) ?_
        rintro _ _ _ ⟨⟩
        rfl
      · exact .inl (hr.read q a hq hne hn)

theorem freshDevice_eq {d : P → Option (Stamped C)} {text : Option (Stamped C)} {config : Option R} {complete : Bool}
    (ht : d p = text) (hdec : text.all (fun f => lib.decodes f.value) = true)
    (hp : freshParse lib d p = some (config, complete)) :
    freshDevice lib d p = lib.device p false text config
      (if complete then readLines lib d (normalizeDependencies p (freshLoaded lib d p)) else none) := by
  unfold freshDevice
  rw [ht, if_pos hdec, hp]

omit [LinearOrder P] in
/-- The digest reads a file: the lines so far go on. -/
theorem readLines_cons {d : P → Option (Stamped C)} {lines : List (P × Option (Stamped C))} {todo : List P}
    (hq : d q = a) (hr : a.all (fun f => lib.readable q f.value) = true) :
    (readLines lib d (q :: todo)).map (lines ++ ·) = (readLines lib d todo).map (lines ++ [(q, a)] ++ ·) := by
  rw [readLines, hq, if_pos hr, Option.map_map]
  refine congrArg (Option.map · (readLines lib d todo)) (funext fun rest => ?_)
  simp

omit [LinearOrder P] in
theorem readLines_unreadable {d : P → Option (Stamped C)} {f : Stamped C} {todo : List P} (hq : d q = some f)
    (hr : lib.readable q f.value = false) : readLines lib d (q :: todo) = none := by
  rw [readLines, hq, if_neg]
  simp [hr]

omit [LinearOrder P] in
/-- A file that cannot be read leaves no sources. -/
theorem readLines_mem {d : P → Option (Stamped C)} {f : Stamped C} {todo : List P} (hmem : q ∈ todo) (hq : d q = some f)
    (hr : lib.readable q f.value = false) : readLines lib d todo = none := by
  induction todo with
  | nil => cases hmem
  | cons q' todo ih =>
    rcases List.mem_cons.1 hmem with rfl | hmem
    · exact readLines_unreadable hq hr
    · rw [readLines, ih hmem]
      split <;> rfl

/-- The item goes on with what it has read. -/
theorem Deep.goes {t' : Item P C R V} {b' : LoadBatch P C} (hd : Deep lib disk kind b t reads) (hpath : t'.path = t.path)
    (hloaded : t'.loaded = t.loaded) (hb : b'.sources = b.sources)
    (ht : t'.phase ≠ .text) (hm : t'.Means lib reads)
    (hc : ∀ q a, (q, a) ∈ reads → q ≠ t.path → t.Covers q → t'.Covers q) (hu : ∀ q, t.phase.Unkeyed q)
    (hk : ∀ row keys todo, t'.phase = .keys row keys todo → keys = [])
    (hf : ∀ text config dependencies q f, t.phase ≠ .unreadable text config dependencies q f) :
    Deep lib disk kind b' t' reads := by
  refine ⟨fun h => absurd h ht, hm, ?_, ?_, ?_, ?_⟩
  · rw [hpath]; exact hd.main
  · intro q a ha hne
    rw [hpath] at hne
    exact hc q a ha hne (hd.covers q a ha hne)
  · intro q a ha hne
    rw [hpath] at hne
    exact ((hd.guarded q a ha hne).goes (hu q) hk).batch hb
  · intro q a ha hne hn
    rw [hpath] at hne
    rw [hb] at hn
    rcases hd.read q a ha hne hn with h | ⟨text, config, dependencies, f, h⟩
    · rw [hloaded]
      exact .inl h
    · exact absurd h (hf text config dependencies q f)

/-- The item goes on and has read one more file. -/
theorem Deep.adds {t' : Item P C R V} (hd : Deep lib disk kind b t reads) (hpath : t'.path = t.path)
    (ht : t'.phase ≠ .text) (hm : t'.Means lib (reads ++ [(q, a)])) (hmain : q = t.path → MainOk disk t.path a kind)
    (hc : ∀ q', t.Covers q' → t'.Covers q') (hu : ∀ q', t.phase.Unkeyed q')
    (hk : ∀ row keys todo, t'.phase = .keys row keys todo → keys = [])
    (hf : ∀ text config dependencies q f, t.phase ≠ .unreadable text config dependencies q f)
    (hl : ∀ q' ∈ t.loaded, q' ∈ t'.loaded)
    (hq : q ≠ t.path → t'.Covers q ∧ Guarded disk b t' q a ∧ (b.sources.get? q = none → q ∈ t'.loaded ∨
      ∃ text config dependencies f, t'.phase = .unreadable text config dependencies q f)) :
    Deep lib disk kind b t' (reads ++ [(q, a)]) := by
  have either : ∀ {q' a'}, (q', a') ∈ reads ++ [(q, a)] → (q', a') ∈ reads ∨ (q' = q ∧ a' = a) := by
    intro q' a' h
    rcases List.mem_append.1 h with h | h
    · exact .inl h
    · cases List.mem_singleton.1 h
      exact .inr ⟨rfl, rfl⟩
  refine ⟨fun h => absurd h ht, hm, fun a' ha => ?_, fun q' a' ha hne => ?_, fun q' a' ha hne => ?_, fun q' a' ha hne hn => ?_⟩
  · rw [hpath] at ha ⊢
    rcases either ha with ha | ⟨he, rfl⟩
    · exact hd.main a' ha
    · exact hmain he.symm
  · rw [hpath] at hne
    rcases either ha with ha | ⟨rfl, -⟩
    · exact hc q' (hd.covers q' a' ha hne)
    · exact (hq hne).1
  · rw [hpath] at hne
    rcases either ha with ha | ⟨rfl, rfl⟩
    · exact (hd.guarded q' a' ha hne).goes (hu q') hk
    · exact (hq hne).2.1
  · rw [hpath] at hne
    rcases either ha with ha | ⟨rfl, -⟩
    · rcases hd.read q' a' ha hne hn with h | ⟨text, config, dependencies, f, h⟩
      · exact .inl (hl q' h)
      · exact absurd h (hf text config dependencies q' f)
    · exact (hq hne).2.2 hn

theorem text_ok (ht : ItemOk lib disk kind b t) (hk : KindOk disk t.path kind) (hp : t.phase = .text)
    (hdec : (disk.get? t.path).all (fun f => lib.decodes f.value) = true) :
    ProgressOk lib disk kind b t (.goes { t with phase := .secrets (disk.get? t.path) }) := by
  refine ⟨rfl, rfl, ?_, nofun, nofun, nofun, fun hs => ?_⟩
  · rintro _ ⟨⟩
    exact mainOk_now hk
  · obtain ⟨reads, hd⟩ := ht.deep hs
    refine ⟨_, hd.adds rfl nofun (fun d h => ?_) (fun _ => mainOk_now hk) (fun q hc => ?_) ?_ nofun ?_ (fun _ hq => hq)
      fun hne => absurd rfl hne⟩
    · obtain ⟨hr, hpath⟩ := answers_append.1 h
      have hstands := (hd.means d hr).1
      unfold Item.Stands at hstands ⊢
      rw [hp] at hstands
      refine ⟨hstands, ?_⟩
      rintro _ ⟨⟩
      exact ⟨hpath, hdec⟩
    · unfold Item.Covers at hc ⊢
      rw [hp] at hc
      exact hc
    · rw [hp]
      exact fun _ => trivial
    · rw [hp]
      exact nofun

theorem secrets_ok (ht : ItemOk lib disk kind b t) {text : Option (Stamped C)} (hp : t.phase = .secrets text) :
    ProgressOk lib disk kind (b.statted disk lib.secrets) t (.goes { t with phase :=
      match t.shallow, t.known with
      | true, some known => .digest text none known [] known
      | _, _ => .parse text (lib.parse t.path text) }) := by
  have htext : MainOk disk t.path text kind := ht.text text (by rw [hp]; rfl)
  have parse : ProgressOk lib disk kind (b.statted disk lib.secrets) t
      (.goes { t with phase := .parse text (lib.parse t.path text) }) := by
    refine ⟨rfl, rfl, ?_, nofun, nofun, nofun, fun hs => ?_⟩
    · rintro _ ⟨⟩
      exact htext
    · obtain ⟨reads, hd⟩ := ht.deep hs
      refine ⟨reads, hd.goes rfl rfl statted_sources nofun (fun d h => ?_) (fun q a _ _ hc => ?_) ?_ nofun ?_⟩
      · obtain ⟨hstands, hmain⟩ := hd.means d h
        obtain ⟨hpath, hdec⟩ := hmain text (by rw [hp]; rfl)
        unfold Item.Stands at hstands ⊢
        rw [hp] at hstands
        refine ⟨⟨?_, ?_, hpath⟩, ?_⟩
        · rw [freshParse, hpath]
        · rw [freshLoaded, hpath, hstands, List.nil_append]
        · rintro _ ⟨⟩
          exact ⟨hpath, hdec⟩
      · unfold Item.Covers at hc ⊢
        rw [hp] at hc
        exact hc
      · rw [hp]
        exact fun _ => trivial
      · rw [hp]
        exact nofun
  split
  · rename_i known hs _
    refine ⟨rfl, rfl, ?_, nofun, ?_, nofun, fun hs' => ?_⟩
    · rintro _ ⟨⟩
      exact htext
    · intro _ _ _ _ _ _ hs'
      exact absurd (hs.symm.trans hs') nofun
    · exact absurd (hs.symm.trans hs') nofun
  · exact parse

theorem parse_ok (hb : BatchOk lib disk b) (ht : ItemOk lib disk kind b t) (hk : KindOk disk t.path kind)
    {text : Option (Stamped C)} {rest : Option (Stamped C) → Reader P (Option (Stamped C)) (Option (Option R × Bool))}
    (hp : t.phase = .parse text (.read q rest)) :
    ProgressOk lib disk kind b t
      (.goes { t with loaded := t.loaded ++ [q], phase := .parse text (rest (disk.get? q)) }) := by
  have htext : MainOk disk t.path text kind := ht.text text (by rw [hp]; rfl)
  have hq : q ∈ t.loaded ++ [q] := List.mem_append_right _ (List.mem_singleton_self q)
  refine ⟨rfl, rfl, ?_, nofun, nofun, nofun, fun hs => ?_⟩
  · rintro _ ⟨⟩
    exact htext
  · obtain ⟨reads, hd⟩ := ht.deep hs
    refine ⟨_, hd.adds (q := q) (a := disk.get? q) rfl nofun (fun d h => ?_) (fun he => ?_) (fun q' hc => ?_) ?_ nofun ?_
      (fun q' hq' => List.mem_append_left _ hq') fun _ => ⟨hq, guarded_now hb nofun, fun _ => .inl hq⟩⟩
    · obtain ⟨hr, hdq⟩ := answers_append.1 h
      obtain ⟨hstands, hmain⟩ := hd.means d hr
      obtain ⟨hpath, hdec⟩ := hmain text (by rw [hp]; rfl)
      unfold Item.Stands at hstands ⊢
      rw [hp] at hstands
      obtain ⟨hparse, hloaded, -⟩ := hstands
      refine ⟨⟨?_, ?_, hpath⟩, ?_⟩
      · rw [hparse, Reader.run, hdq]
      · rw [hloaded, Reader.reads, hdq, List.append_assoc]
        rfl
      · rintro _ ⟨⟩
        exact ⟨hpath, hdec⟩
    · rw [he]
      exact mainOk_now hk
    · unfold Item.Covers at hc ⊢
      rw [hp] at hc
      exact List.mem_append_left _ hc
    · rw [hp]
      exact fun _ => trivial
    · rw [hp]
      exact nofun

/-- The text cannot be decoded. -/
theorem text_raises (hk : KindOk disk p kind) (hdec : ¬(disk.get? p).all (fun f => lib.decodes f.value) = true) :
    Raised lib disk kind b p := by
  refine ⟨[(p, disk.get? p)], fun d h => ?_, fun a ha => ?_, fun q a ha hne => ?_⟩
  · have hp : d p = disk.get? p := h _ (List.mem_singleton_self _)
    rw [freshDevice, hp, if_neg hdec]
  · cases List.mem_singleton.1 ha
    exact mainOk_now hk
  · cases List.mem_singleton.1 ha
    exact absurd rfl hne

/-- The loader raises. -/
theorem parse_raises (ht : ItemOk lib disk kind b t) {text : Option (Stamped C)} (hp : t.phase = .parse text (.done none)) :
    t.shallow = false → Raised lib disk kind b t.path := by
  intro hs
  obtain ⟨reads, hd⟩ := ht.deep hs
  refine ⟨reads, fun d h => ?_, hd.main, fun q a ha hne => ⟨(hd.guarded q a ha hne).source, fun hn => ?_⟩⟩
  · have hstands := (hd.means d h).1
    unfold Item.Stands at hstands
    rw [hp] at hstands
    have hparse : freshParse lib d t.path = none := hstands.1
    unfold freshDevice
    rw [hparse]
    split <;> rfl
  · refine (hd.guarded q a ha hne).unkeyed hn ?_
    rw [hp]
    trivial

theorem parsed_ok (ht : ItemOk lib disk kind b t) {text : Option (Stamped C)} {config : Option R} {complete : Bool}
    (hp : t.phase = .parse text (.done (some (config, complete)))) :
    ProgressOk lib disk kind b t (t.parsed lib text config complete) := by
  have htext : MainOk disk t.path text kind := ht.text text (by rw [hp]; rfl)
  have hu : ∀ q, t.phase.Unkeyed q := by
    rw [hp]
    exact fun _ => trivial
  have hf : ∀ text config dependencies q f, t.phase ≠ .unreadable text config dependencies q f := by
    rw [hp]
    exact nofun
  have hstands : ∀ {reads}, Deep lib disk kind b t reads → ∀ d, Answers d reads →
      freshParse lib d t.path = some (config, complete) ∧ freshLoaded lib d t.path = t.loaded ∧ d t.path = text ∧
        text.all (fun f => lib.decodes f.value) = true := by
    intro reads hd d h
    obtain ⟨hstands, hmain⟩ := hd.means d h
    obtain ⟨hpath, hdec⟩ := hmain text (by rw [hp]; rfl)
    unfold Item.Stands at hstands
    rw [hp] at hstands
    obtain ⟨hparse, hloaded, -⟩ := hstands
    refine ⟨hparse, ?_, hpath, hdec⟩
    rw [hloaded, Reader.reads, List.append_nil]
  have hcovers : ∀ {reads}, Deep lib disk kind b t reads → ∀ q a, (q, a) ∈ reads → q ≠ t.path → q ∈ t.loaded := by
    intro reads hd q a ha hne
    have := hd.covers q a ha hne
    unfold Item.Covers at this
    rw [hp] at this
    exact this
  unfold Item.parsed
  split
  · rename_i hcomplete
    refine ⟨rfl, rfl, ?_, nofun, ?_, nofun, fun hs => ?_⟩
    · rintro _ ⟨⟩
      exact htext
    · rintro _ _ _ _ _ ⟨⟩ _ q hq
      exact ⟨hq, (mem_normalize.1 hq).2⟩
    · obtain ⟨reads, hd⟩ := ht.deep hs
      refine ⟨reads, hd.goes rfl rfl rfl nofun (fun d h => ?_) (fun q a ha hne _ => ?_) hu nofun hf⟩
      · obtain ⟨hparse, hloaded, hpath, hdec⟩ := hstands hd d h
        refine ⟨⟨?_, ?_, ?_⟩, ?_⟩
        · rw [hparse, hcomplete]
        · rw [hloaded]
        · rw [show (([] : List (P × Option (Stamped C))) ++ ·) = id from rfl, Option.map_id, id]
        · rintro _ ⟨⟩
          exact ⟨hpath, hdec⟩
      · exact mem_normalize.2 ⟨hcovers hd q a ha hne, hne⟩
  · rename_i hcomplete
    have hfalse : complete = false := by simpa using hcomplete
    have ready : ∀ dependencies : Option (List P), (∀ list, dependencies = some list →
        normalizeDependencies t.path (t.loaded ++ list) = list ∧ ∀ q ∈ t.loaded, q ≠ t.path → q ∈ list) →
        t.shallow = false → ∃ reads, Ready lib disk kind b t text config none dependencies reads := by
      intro dependencies hlist hs
      obtain ⟨reads, hd⟩ := ht.deep hs
      refine ⟨reads, fun d h => ?_, hd.main, fun q a ha hne list hl => ?_, hd.guarded, fun q a ha hne _ => hcovers hd q a ha hne⟩
      · obtain ⟨hparse, hloaded, hpath, hdec⟩ := hstands hd d h
        refine ⟨hpath, hdec, ?_, fun list hl => ?_⟩
        · rw [freshDevice_eq hpath hdec hparse, hfalse]
          rfl
        · rw [freshDependencies, hparse, hfalse, hloaded]
          exact (hlist list hl).1
      · exact (hlist list hl).2 q (hcovers hd q a ha hne) hne
    split
    · exact build_ok htext hu (ready none nofun)
    · rename_i known _
      refine build_ok htext hu (ready _ ?_)
      rintro _ ⟨⟩
      exact ⟨normalize_known, fun q hq hne => mem_normalize.2 ⟨List.mem_append_left _ hq, hne⟩⟩

/-! ### The digest -/

section Digest

variable {text : Option (Stamped C)} {config : Option R} {dependencies : List P} {lines : List (P × Option (Stamped C))}
  {todo : List P}

theorem digest_stands (hp : t.phase = .digest text config dependencies lines todo) (hd : Deep lib disk kind b t reads)
    {d : P → Option (Stamped C)} (h : Answers d reads) : freshParse lib d t.path = some (config, true) ∧
      dependencies = normalizeDependencies t.path (freshLoaded lib d t.path) ∧
      readLines lib d dependencies = (readLines lib d todo).map (lines ++ ·) ∧ d t.path = text ∧
      text.all (fun f => lib.decodes f.value) = true := by
  obtain ⟨hstands, hmain⟩ := hd.means d h
  obtain ⟨hpath, hdec⟩ := hmain text (by rw [hp]; rfl)
  unfold Item.Stands at hstands
  rw [hp] at hstands
  obtain ⟨hparse, hdeps, hlines⟩ := hstands
  exact ⟨hparse, hdeps, hlines, hpath, hdec⟩

theorem digest_covers (hp : t.phase = .digest text config dependencies lines todo) (hd : Deep lib disk kind b t reads)
    (ha : (q, a) ∈ reads) (hne : q ≠ t.path) : q ∈ dependencies := by
  have := hd.covers q a ha hne
  unfold Item.Covers at this
  rw [hp] at this
  exact this

theorem digest_read (hp : t.phase = .digest text config dependencies lines todo) (hd : Deep lib disk kind b t reads)
    (ha : (q, a) ∈ reads) (hne : q ≠ t.path) (hn : b.sources.get? q = none) : q ∈ t.loaded := by
  rcases hd.read q a ha hne hn with h | ⟨_, _, _, _, h⟩
  · exact h
  · rw [hp] at h
    cases h

omit [LinearOrder P] in
theorem digest_unkeyed (hp : t.phase = .digest text config dependencies lines todo) (q : P) : t.phase.Unkeyed q := by
  rw [hp]
  trivial

/-- All the dependencies are read. -/
theorem digestDone_ok (ht : ItemOk lib disk kind b t) (hp : t.phase = .digest text config dependencies lines []) :
    ProgressOk lib disk kind b t (t.build lib text config (some lines) (some dependencies)) := by
  refine build_ok (ht.text text (by rw [hp]; rfl)) (digest_unkeyed hp) fun hs => ?_
  obtain ⟨reads, hd⟩ := ht.deep hs
  refine ⟨reads, fun d h => ?_, hd.main, ?_, hd.guarded, fun q a ha hne hn => digest_read hp hd ha hne hn⟩
  · obtain ⟨hparse, hdeps, hlines, hpath, hdec⟩ := digest_stands hp hd h
    refine ⟨hpath, hdec, ?_, ?_⟩
    · rw [freshDevice_eq hpath hdec hparse, if_pos rfl, ← hdeps, hlines]
      simp [readLines]
    · rintro _ ⟨⟩
      rw [freshDependencies, hparse]
      exact hdeps.symm
  · rintro q a ha hne _ ⟨⟩
    exact digest_covers hp hd ha hne

omit [LinearOrder P] in
theorem digest_not_failing (hp : t.phase = .digest text config dependencies lines todo) :
    ∀ text' config' dependencies' q f, t.phase ≠ .unreadable text' config' dependencies' q f := by
  rw [hp]
  exact nofun

/-- A dependency is read, from the batch. -/
theorem digestLine_ok (hb : BatchOk lib disk b) (ht : ItemOk lib disk kind b t)
    (hp : t.phase = .digest text config dependencies lines (q :: todo)) (hq : b.sources.get? q = some (.read a)) :
    ProgressOk lib disk kind b t
      (.goes { t with phase := .digest text config dependencies (lines ++ [(q, a)]) todo }) := by
  refine ⟨rfl, rfl, ?_, nofun, ?_, nofun, fun hs => ?_⟩
  · rintro _ ⟨⟩
    exact ht.text text (by rw [hp]; rfl)
  · rintro _ _ _ _ _ ⟨⟩ hs q' hq'
    exact ht.digest text config dependencies lines (q :: todo) hp hs q' (List.mem_cons_of_mem q hq')
  · obtain ⟨reads, hd⟩ := ht.deep hs
    obtain ⟨hmem, hne⟩ := ht.digest text config dependencies lines (q :: todo) hp hs q (List.mem_cons_self ..)
    refine ⟨_, hd.adds (q := q) (a := a) rfl nofun (fun d h => ?_) (fun he => absurd he hne) (fun q' hc => ?_)
      (digest_unkeyed hp) nofun (digest_not_failing hp) (fun _ hq' => hq')
      fun _ => ⟨hmem, guarded_batch hb hq nofun, fun hn => ?_⟩⟩
    · obtain ⟨hr, hqa⟩ := answers_append.1 h
      obtain ⟨hparse, hdeps, hlines, hpath, hdec⟩ := digest_stands hp hd hr
      refine ⟨⟨hparse, hdeps, ?_⟩, ?_⟩
      · rw [hlines]
        exact readLines_cons hqa (hb.answers q a hq).2
      · rintro _ ⟨⟩
        exact ⟨hpath, hdec⟩
    · unfold Item.Covers at hc ⊢
      rw [hp] at hc
      exact hc
    · rw [hq] at hn
      cases hn

/-- A dependency cannot be read: the row has no sources. -/
theorem Ready.failed {f : Stamped C} (hs : t.shallow = false) (ht : ItemOk lib disk kind b t)
    (hp : t.phase = .digest text config dependencies lines (q :: todo)) (hr : lib.readable q f.value = false)
    (hg : Guarded disk b t q (some f)) (hq : b.sources.get? q ≠ none) :
    ∃ reads, Ready lib disk kind b t text config none (some dependencies) reads := by
  obtain ⟨reads, hd⟩ := ht.deep hs
  obtain ⟨hmem, hne⟩ := ht.digest text config dependencies lines (q :: todo) hp hs q (List.mem_cons_self ..)
  refine ⟨reads ++ [(q, some f)], fun d h => ?_, fun a ha => ?_, ?_, fun q' a ha hne' => ?_, fun q' a ha hne' hn => ?_⟩
  · obtain ⟨hreads, hqf⟩ := answers_append.1 h
    obtain ⟨hparse, hdeps, hlines, hpath, hdec⟩ := digest_stands hp hd hreads
    refine ⟨hpath, hdec, ?_, ?_⟩
    · rw [freshDevice_eq hpath hdec hparse, if_pos rfl, ← hdeps, readLines_mem hmem hqf hr]
    · rintro _ ⟨⟩
      rw [freshDependencies, hparse]
      exact hdeps.symm
  · rcases List.mem_append.1 ha with ha | ha
    · exact hd.main a ha
    · have he : (t.path, a) = (q, some f) := List.mem_singleton.1 ha
      cases he
      exact absurd rfl hne
  · rintro q' a ha hne' _ ⟨⟩
    rcases List.mem_append.1 ha with ha | ha
    · exact digest_covers hp hd ha hne'
    · cases List.mem_singleton.1 ha
      exact hmem
  · rcases List.mem_append.1 ha with ha | ha
    · exact hd.guarded q' a ha hne'
    · cases List.mem_singleton.1 ha
      exact hg
  · rcases List.mem_append.1 ha with ha | ha
    · exact digest_read hp hd ha hne' hn
    · cases List.mem_singleton.1 ha
      exact absurd hn hq

/-- The item stays where it is. -/
theorem ItemOk.batch {b' : LoadBatch P C} (h : ItemOk lib disk kind b t) (hs : b'.sources = b.sources) :
    ItemOk lib disk kind b' t := by
  refine ⟨h.text, fun text config dependencies q f hp => ?_, h.digest, h.keys, fun hshallow => ?_⟩
  · rw [hs]
    exact h.failed text config dependencies q f hp
  · obtain ⟨reads, hd⟩ := h.deep hshallow
    refine ⟨reads, hd.start, hd.means, hd.main, hd.covers, fun q a ha hne => (hd.guarded q a ha hne).batch hs, ?_⟩
    rw [hs]
    exact hd.read

/-- The file at the head of the digest gets its source. -/
theorem ItemOk.sourced {s : Source C} (h : ItemOk lib disk kind b t)
    (hp : t.phase = .digest text config dependencies lines todo) (hn : b.sources.get? q = none)
    (hv : disk.Valid q s.statKey) : ItemOk lib disk kind (b.source q s) t := by
  refine ⟨h.text, fun _ _ _ _ _ hp' => ?_, h.digest, h.keys, fun hshallow => ?_⟩
  · rw [hp] at hp'
    cases hp'
  · obtain ⟨reads, hd⟩ := h.deep hshallow
    refine ⟨reads, hd.start, hd.means, hd.main, hd.covers, fun q' a ha hne => ?_, fun q' a ha hne hn' => ?_⟩
    · exact (hd.guarded q' a ha hne).sourced hn hv (digest_unkeyed hp q)
    · rw [source_get?] at hn'
      split at hn'
      · cases hn'
      · exact hd.read q' a ha hne hn'

/-- A dependency could not be read. -/
theorem digestFailed_ok {f : Stamped C} (hb : BatchOk lib disk b) (ht : ItemOk lib disk kind b t)
    (hp : t.phase = .digest text config dependencies lines (q :: todo)) (hn : b.sources.get? q = none)
    (hf : disk.get? q = some f) (hr : lib.readable q f.value = false) :
    ProgressOk lib disk kind b t (.goes { t with phase := .unreadable text config dependencies q f }) := by
  refine ⟨rfl, rfl, ?_, ?_, nofun, nofun, fun hs => ?_⟩
  · rintro _ ⟨⟩
    exact ht.text text (by rw [hp]; rfl)
  · rintro _ _ _ _ _ ⟨⟩
    exact ⟨hn, hf, hr⟩
  · obtain ⟨reads, hd⟩ := ht.deep hs
    obtain ⟨hmem, hne⟩ := ht.digest text config dependencies lines (q :: todo) hp hs q (List.mem_cons_self ..)
    have hnow : Guarded disk b ({ t with phase := .unreadable text config dependencies q f } : Item P C R V) q
        (some f) := by
      rw [← hf]
      exact guarded_now hb nofun
    refine ⟨_, hd.adds (q := q) (a := some f) rfl nofun (fun d h => ?_) (fun he => absurd he hne) (fun q' hc => ?_)
      (digest_unkeyed hp) nofun (digest_not_failing hp) (fun _ hq' => hq')
      fun _ => ⟨hmem, hnow, fun _ => .inr ⟨text, config, dependencies, f, rfl⟩⟩⟩
    · obtain ⟨hreads, hqf⟩ := answers_append.1 h
      obtain ⟨hparse, hdeps, hlines, hpath, hdec⟩ := digest_stands hp hd hreads
      refine ⟨⟨hparse, hdeps, readLines_mem hmem hqf hr⟩, ?_⟩
      rintro _ ⟨⟩
      exact ⟨hpath, hdec⟩
    · unfold Item.Covers at hc ⊢
      rw [hp] at hc
      exact hc

end Digest

/-! ### The keys -/

/-- The unreadable dependency is stat'ed. -/
theorem unreadable_ok (hb : BatchOk lib disk b) (ht : ItemOk lib disk kind b t) {text : Option (Stamped C)}
    {config : Option R} {dependencies : List P} {f : Stamped C}
    (hp : t.phase = .unreadable text config dependencies q f) :
    let b' := (b.statted disk q).source q (.unreadable f (((b.statted disk q).statKey? q).getD none))
    BatchOk lib disk b' ∧ ProgressOk lib disk kind b' t (t.build lib text config none (some dependencies)) := by
  obtain ⟨hn, hf, hr⟩ := ht.failed text config dependencies q f hp
  obtain ⟨k, hk, -⟩ : ∃ k, (b.statted disk q).statKey? q = some k ∧ _ := statKey_statted
  have hbs := hb.statted q
  have hv : disk.Valid q k := hbs.statKey hk
  have hg : disk.Guards q k (some f) := by
    rw [← hf]
    exact hv.guards
  have hu : ∀ q, t.phase.Unkeyed q := by
    rw [hp]
    exact fun _ => trivial
  rw [hk, Option.getD_some]
  refine ⟨hbs.unreadable hv hg hr, build_ok (ht.text text (by rw [hp]; rfl)) hu fun hs => ?_⟩
  obtain ⟨reads, hd⟩ := ht.deep hs
  have hn' : (b.statted disk q).sources.get? q = none := by
    rw [statted_sources]
    exact hn
  refine ⟨reads, fun d h => ?_, hd.main, ?_, fun q' a ha hne => ?_, fun q' a ha hne hnone => ?_⟩
  · obtain ⟨hstands, hmain⟩ := hd.means d h
    obtain ⟨hpath, hdec⟩ := hmain text (by rw [hp]; rfl)
    unfold Item.Stands at hstands
    rw [hp] at hstands
    obtain ⟨hparse, hdeps, hlines⟩ := hstands
    refine ⟨hpath, hdec, ?_, ?_⟩
    · rw [freshDevice_eq hpath hdec hparse, if_pos rfl, ← hdeps, hlines]
    · rintro _ ⟨⟩
      rw [freshDependencies, hparse]
      exact hdeps.symm
  · rintro q' a ha hne _ ⟨⟩
    have := hd.covers q' a ha hne
    unfold Item.Covers at this
    rw [hp] at this
    exact this
  · exact ((hd.guarded q' a ha hne).batch statted_sources).sourced hn' hv (hu q)
  · rw [source_get?] at hnone
    split at hnone
    · cases hnone
    · rename_i hq
      rw [statted_sources] at hnone
      rcases hd.read q' a ha hne hnone with h | ⟨_, _, _, _, h⟩
      · exact h
      · rw [hp] at h
        cases h
        exact absurd rfl hq

theorem zip_concat {α β : Type} {xs : List α} {ys : List β} {x : α} {rest : List α} (y : β)
    (h : x :: rest = xs.drop ys.length) : xs.zip (ys ++ [y]) = xs.zip ys ++ [(x, y)] := by
  induction ys generalizing xs with
  | nil =>
    rw [List.length_nil, List.drop_zero] at h
    rw [← h]
    simp
  | cons y' ys ih =>
    cases xs with
    | nil => simp at h
    | cons x' xs =>
      rw [List.length_cons, List.drop_succ_cons] at h
      rw [List.cons_append, List.zip_cons_cons, List.zip_cons_cons, ih h, List.cons_append]

/-- A dependency gets its key. -/
theorem keys_ok (hb : BatchOk lib disk b) (ht : ItemOk lib disk kind b t) {row : Row P C V} {keys : List (Option ℕ)}
    {todo : List P} (hp : t.phase = .keys row keys (q :: todo)) :
    ProgressOk lib disk kind (b.statted disk q) t
      (.goes { t with phase := .keys row (keys ++ [((b.statted disk q).statKey? q).getD none]) todo }) := by
  obtain ⟨k, hk, -⟩ : ∃ k, (b.statted disk q).statKey? q = some k ∧ _ := statKey_statted
  have hbs := hb.statted q
  have hv : disk.Valid q k := hbs.statKey hk
  obtain ⟨htodo, hshallow⟩ := ht.keys row keys (q :: todo) hp
  rw [hk, Option.getD_some]
  refine ⟨rfl, rfl, ?_, nofun, nofun, ?_, fun hs => ?_⟩
  · rintro _ ⟨⟩
    exact ht.text row.text (by rw [hp]; rfl)
  · rintro _ _ _ ⟨⟩
    refine ⟨?_, hshallow⟩
    rw [List.length_append, List.length_singleton, ← List.drop_drop, ← htodo]
    rfl
  · obtain ⟨reads, hd⟩ := ht.deep hs
    refine ⟨reads, nofun, fun d h => ?_, hd.main, fun q' a ha hne => ?_, fun q' a ha hne => ?_, fun q' a ha hne hn => ?_⟩
    · obtain ⟨hstands, hmain⟩ := hd.means d h
      unfold Item.Stands at hstands ⊢
      rw [hp] at hstands
      refine ⟨hstands, ?_⟩
      rintro _ ⟨⟩
      exact hmain row.text (by rw [hp]; rfl)
    · have := hd.covers q' a ha hne
      unfold Item.Covers at this ⊢
      rw [hp] at this
      exact this
    · have hg := hd.guarded q' a ha hne
      refine ⟨fun s hs => ?_, fun hn hu => ?_, ?_⟩
      · rw [statted_sources] at hs
        exact hg.source s hs
      · rw [statted_sources] at hn
        refine hg.unkeyed hn ?_
        rw [hp]
        exact List.mem_cons_of_mem q hu
      · rintro _ _ _ dependencies ⟨⟩ hdeps k' hmem
        rw [hdeps, Option.getD_some] at htodo
        rw [zip_concat k htodo, List.mem_append] at hmem
        rcases hmem with hmem | hmem
        · exact hg.taken row keys (q :: todo) dependencies hp hdeps k' hmem
        · cases List.mem_singleton.1 hmem
          -- the key of the batch, or of now
          cases hsrc : b.sources.get? q with
          | some s =>
            have hks : k = s.statKey := by
              unfold LoadBatch.statKey? at hk
              rw [statted_sources, hsrc] at hk
              exact (Option.some.inj hk).symm
            rw [hks]
            exact hg.source s hsrc
          | none =>
            rw [← hg.unkeyed hsrc (by rw [hp]; exact List.mem_cons_self ..)]
            exact hv.guards
    · rw [statted_sources] at hn
      rcases hd.read q' a ha hne hn with h | ⟨_, _, _, _, h⟩
      · exact .inl h
      · rw [hp] at h
        cases h

theorem keysDone_ok (ht : ItemOk lib disk kind b t) {row : Row P C V} {keys : List (Option ℕ)}
    (hp : t.phase = .keys row keys []) : ProgressOk lib disk kind b t (.done row keys) := by
  obtain ⟨htodo, hshallow⟩ := ht.keys row keys [] hp
  refine ⟨⟨ht.text row.text (by rw [hp]; rfl), fun hs => ?_⟩, hshallow⟩
  obtain ⟨reads, hd⟩ := ht.deep (hshallow.symm.trans hs)
  refine ⟨reads, fun d h => ?_, hd.main, fun q a ha hne dependencies hdeps => ?_⟩
  · obtain ⟨hstands, hmain⟩ := hd.means d h
    unfold Item.Stands at hstands
    rw [hp] at hstands
    exact ⟨(hmain row.text (by rw [hp]; rfl)).1, hstands⟩
  · have hmem : q ∈ dependencies := by
      have := hd.covers q a ha hne
      unfold Item.Covers at this
      rw [hp] at this
      exact this dependencies hdeps
    rw [hdeps, Option.getD_some] at htodo
    have hlength : dependencies.length ≤ keys.length := List.drop_eq_nil_iff.1 htodo.symm
    obtain ⟨i, hi, rfl⟩ := List.mem_iff_getElem.1 hmem
    have hz : (dependencies[i], keys[i]) ∈ dependencies.zip keys := by
      have hiz : i < (dependencies.zip keys).length := by
        rw [List.length_zip]
        omega
      rw [← List.getElem_zip (h := hiz)]
      exact List.getElem_mem hiz
    exact ⟨keys[i], hz, (hd.guarded _ a ha hne).taken row keys [] dependencies hp hdeps _ hz⟩

/-- **An access of the thread keeps what the load knows.** -/
theorem advance_ok (hb : BatchOk lib disk b) (hc : CacheOk lib disk cache) (ht : ItemOk lib disk kind b t)
    (hk : KindOk disk t.path kind) :
    BatchOk lib disk (t.advance lib disk cache b).1 ∧ CacheOk lib disk (t.advance lib disk cache b).2.1 ∧
      ProgressOk lib disk kind (t.advance lib disk cache b).1 t (t.advance lib disk cache b).2.2 := by
  unfold Item.advance
  split
  · rename_i hp
    simp only
    split
    · rename_i hdec
      exact ⟨hb, hc, text_ok ht hk hp hdec⟩
    · rename_i hdec
      exact ⟨hb, hc, fun _ => text_raises hk hdec⟩
  · rename_i hp
    exact ⟨hb.statted lib.secrets, hc, secrets_ok ht hp⟩
  · rename_i hp
    exact ⟨hb, hc, parse_ok hb ht hk hp⟩
  · rename_i hp
    exact ⟨hb, hc, parse_raises ht hp⟩
  · rename_i hp
    exact ⟨hb, hc, parsed_ok ht hp⟩
  · rename_i hp
    exact ⟨hb, hc, digestDone_ok ht hp⟩
  · rename_i text config dependencies lines q todo hp
    split
    · rename_i hq
      exact ⟨hb, hc, digestLine_ok hb ht hp hq⟩
    · rename_i f k hq
      refine ⟨hb, hc, build_ok (ht.text text (by rw [hp]; rfl)) (digest_unkeyed hp) fun hs => ?_⟩
      refine Ready.failed hs ht hp (hb.failed q f k hq).2 (guarded_failed hb hq ?_) ?_
      · rw [hp]; exact nofun
      · rw [hq]; exact nofun
    · rename_i hn
      split
      · exact ⟨hb.statted q, hc, rfl, rfl, ht.batch statted_sources⟩
      · split
        · rename_i f hf
          -- the cached file is the one of the batch's key
          have hcached : cache q = some f ∧ b.stats.get? q = some (some f.stamp) := by
            split at hf
            · obtain ⟨hf, hst⟩ := Option.filter_eq_some_iff.1 hf
              exact ⟨hf, of_decide_eq_true hst⟩
            · cases hf
          obtain ⟨hg, hr⟩ := hc q f hcached.1
          have hv : disk.Valid q (some f.stamp) := hb.stats q _ hcached.2
          exact ⟨hb.read hv hg hr, hc, rfl, rfl, ht.sourced hp hn hv⟩
        · unfold Item.readSource
          cases hf : disk.get? q with
          | none =>
            have hv : disk.Valid q none := by
              refine ⟨nofun, fun _ => hf⟩
            refine ⟨hb.read hv ⟨nofun, nofun, fun _ => rfl⟩ rfl, ?_, rfl, rfl, ht.sourced hp hn hv⟩
            simp only
            split <;> exact hc
          | some f =>
            have hv : disk.Valid q (some f.stamp) := by
              have := valid_now disk q
              rw [stat, hf] at this
              exact this
            have hg : disk.Guards q (some f.stamp) (some f) := by
              rw [← hf]
              exact hv.guards
            cases hr : lib.readable q f.value with
            | true =>
              simp only [hr, if_true]
              refine ⟨hb.read hv hg hr, ?_, rfl, rfl, ht.sourced hp hn hv⟩
              split
              · intro q' f' hc'
                by_cases hq : q' = q
                · subst hq
                  rw [Function.update_self] at hc'
                  cases hc'
                  exact ⟨hg, hr⟩
                · rw [Function.update_of_ne hq] at hc'
                  exact hc q' f' hc'
              · exact hc
            | false =>
              simp only [hr, Bool.false_eq_true, if_false]
              exact ⟨hb, hc, digestFailed_ok hb ht hp hn hf hr⟩
  · rename_i hp
    obtain ⟨hb', hpr⟩ := unreadable_ok hb ht hp
    exact ⟨hb', hc, hpr⟩
  · rename_i hp
    exact ⟨hb, hc, keysDone_ok ht hp⟩
  · rename_i q _ hp
    exact ⟨hb.statted q, hc, keys_ok hb ht hp⟩

/-! ### Changes of the disk -/

section Changes

variable {disk' : VersionedStore P C}

/-- A key of the batch says that the file is not there. -/
def LoadBatch.FoundAbsent (b : LoadBatch P C) (q : P) : Prop :=
  (∃ s, b.sources.get? q = some s ∧ s.statKey = none) ∨ b.stats.get? q = some none

/-- The loader, or the digest in vain, has read the dependency, and it has no key yet. -/
def Item.Window (t : Item P C R V) (b : LoadBatch P C) (q : P) : Prop :=
  b.sources.get? q = none ∧ t.phase.Unkeyed q ∧
    ((q ∈ t.loaded ∧ q ≠ t.path) ∨ ∃ text config dependencies f, t.phase = .unreadable text config dependencies q f)

theorem BatchOk.changes (h : BatchOk lib disk b) (hc : disk.Changes disk' q)
    (ha : disk'.get? q = none ∨ ¬b.FoundAbsent q) : BatchOk lib disk' b := by
  refine ⟨fun q' k hk => ?_, fun q' s hs => ?_, fun q' a hs => ?_, fun q' f k hs => ?_⟩
  · refine (h.stats q' k hk).changes hc fun hn he => ?_
    subst he hn
    exact ha.resolve_right fun hf => hf (.inr hk)
  · refine (h.sources q' s hs).changes hc fun hn he => ?_
    subst he
    exact ha.resolve_right fun hf => hf (.inl ⟨s, hs, hn⟩)
  · exact ⟨(h.answers q' a hs).1.changes hc, (h.answers q' a hs).2⟩
  · exact ⟨(h.failed q' f k hs).1.changes hc, (h.failed q' f k hs).2⟩

theorem CacheOk.changes (h : CacheOk lib disk cache) (hc : disk.Changes disk' q) : CacheOk lib disk' cache :=
  fun q' f hf => ⟨(h q' f hf).1.changes hc, (h q' f hf).2⟩

theorem KindOk.changes (h : KindOk disk p kind) (hc : disk.Changes disk' q) : KindOk disk' p kind := by
  cases kind with
  | scan shallow keys => exact fun key n hkey hn => lt_of_lt_of_le (h key n hkey hn) hc.clock
  | reload => trivial

/-- The file of a reload may go, and not change. -/
theorem MainOk.changes (h : MainOk disk p a kind) (hc : disk.Changes disk' q)
    (hr : kind = .reload p → p = q → disk'.get? q = none) (hk : ∀ p', kind = .reload p' → p' = p) :
    MainOk disk' p a kind := by
  cases kind with
  | scan shallow keys => exact fun key n hkey hn => (h key n hkey hn).changes hc
  | reload p' =>
    by_cases he : p = q
    · right
      rw [he]
      refine hr ?_ he
      rw [hk p' rfl]
    · unfold MainOk
      rw [hc.other p he]
      exact h

theorem Guarded.changes {a : Option (Stamped C)} {q' : P} (h : Guarded disk b t q' a) (hc : disk.Changes disk' q)
    (hw : b.sources.get? q' = none → t.phase.Unkeyed q' → q' ≠ q) : Guarded disk' b t q' a := by
  refine ⟨fun s hs => (h.source s hs).changes hc, fun hn hu => ?_, fun row keys todo dependencies hp hdeps k hk =>
    (h.taken row keys todo dependencies hp hdeps k hk).changes hc⟩
  rw [hc.other q' (hw hn hu)]
  exact h.unkeyed hn hu

/-- **A change outside of the item's window.** -/
theorem ItemOk.changes (h : ItemOk lib disk kind b t) (hc : disk.Changes disk' q) (hw : ¬t.Window b q)
    (hk : ∀ p, kind = .reload p → p = t.path) (hr : kind = .reload t.path → t.path = q → t.phase ≠ .text → disk'.get? q = none) :
    ItemOk lib disk' kind b t := by
  have main : ∀ {a}, t.phase ≠ .text → MainOk disk t.path a kind → MainOk disk' t.path a kind := fun ht hm =>
    hm.changes hc (fun hkind he => hr hkind he ht) hk
  refine ⟨fun text ht => main ?_ (h.text text ht), fun text config dependencies q' f hp => ?_, h.digest, h.keys, fun hs => ?_⟩
  · intro hp
    rw [hp] at ht
    cases ht
  · obtain ⟨hn, hf, hread⟩ := h.failed text config dependencies q' f hp
    have hne : q' ≠ q := by
      rintro rfl
      refine hw ⟨hn, ?_, .inr ⟨text, config, dependencies, f, hp⟩⟩
      rw [hp]
      trivial
    refine ⟨hn, ?_, hread⟩
    rw [hc.other q' hne]
    exact hf
  · obtain ⟨reads, hd⟩ := h.deep hs
    refine ⟨reads, hd.start, hd.means, fun a ha => main ?_ (hd.main a ha), hd.covers, fun q' a ha hne => ?_, hd.read⟩
    · intro hp
      rw [hd.start hp] at ha
      cases ha
    · refine (hd.guarded q' a ha hne).changes hc fun hn hu => ?_
      rintro rfl
      rcases hd.read q' a ha hne hn with hl | hf
      · exact hw ⟨hn, hu, .inl ⟨hl, hne⟩⟩
      · exact hw ⟨hn, hu, .inr hf⟩

theorem RowOk.changes {main main' : Option (Stamped C) → Prop} {row : Row P C V} {keys : List (Option ℕ)}
    (h : RowOk lib disk p main row keys) (hc : disk.Changes disk' q) (hm : ∀ a, main a → main' a) :
    RowOk lib disk' p main' row keys := by
  refine ⟨hm _ h.text, fun hs => ?_⟩
  obtain ⟨reads, hmeans, hmain, hdeps⟩ := h.deep hs
  refine ⟨reads, hmeans, fun a ha => hm a (hmain a ha), fun q' a ha hne dependencies hdep => ?_⟩
  obtain ⟨k, hk, hg⟩ := hdeps q' a ha hne dependencies hdep
  exact ⟨k, hk, hg.changes hc⟩

/-- The same row under another condition on its main file. -/
theorem RowOk.main {main main' : Option (Stamped C) → Prop} {row : Row P C V} {keys : List (Option ℕ)}
    (h : RowOk lib disk p main row keys) (hm : ∀ a, main a → main' a) : RowOk lib disk p main' row keys := by
  refine ⟨hm _ h.text, fun hs => ?_⟩
  obtain ⟨reads, hmeans, hmain, hdeps⟩ := h.deep hs
  exact ⟨reads, hmeans, fun a ha => hm a (hmain a ha), hdeps⟩

end Changes

/-! ### Loads of files that stay as they are -/

/-- The keys of the batch are those of now. -/
structure BatchNow (disk : VersionedStore P C) (b : LoadBatch P C) : Prop where
  stats : ∀ q k, b.stats.get? q = some k → k = disk.stat q
  sources : ∀ q s, b.sources.get? q = some s → s.statKey = disk.stat q

/-- So are the keys of the row. -/
def ItemNow (disk : VersionedStore P C) (t : Item P C R V) : Prop :=
  ∀ row keys todo, t.phase = .keys row keys todo →
    keys = ((row.dependencies.getD []).take keys.length).map disk.stat

theorem BatchNow.statKey (h : BatchNow disk b) {k : Option ℕ} (hk : b.statKey? q = some k) : k = disk.stat q := by
  unfold LoadBatch.statKey? at hk
  split at hk
  · rename_i s hs
    cases hk
    exact h.sources q s hs
  · exact h.stats q k hk

theorem BatchNow.statted (h : BatchNow disk b) (q : P) : BatchNow disk (b.statted disk q) := by
  refine ⟨fun q' k hk => ?_, ?_⟩
  · unfold LoadBatch.statted at hk
    split at hk
    · exact h.stats q' k hk
    · change (b.stats.set q (disk.stat q)).get? q' = some k at hk
      rw [Dict.get?_set] at hk
      split at hk
      · rename_i hq
        cases hk
        rw [hq]
      · exact h.stats q' k hk
  · rw [statted_sources]
    exact h.sources

theorem BatchNow.source (h : BatchNow disk b) {s : Source C} (hs : s.statKey = disk.stat q) : BatchNow disk (b.source q s) := by
  refine ⟨h.stats, fun q' s' hs' => ?_⟩
  rw [source_get?] at hs'
  split at hs'
  · rename_i hq
    cases hs'
    rw [hq]
    exact hs
  · exact h.sources q' s' hs'

theorem BatchNow.statKey_statted (h : BatchNow disk b) (q : P) :
    ((b.statted disk q).statKey? q).getD none = disk.stat q := by
  obtain ⟨k, hk, -⟩ : ∃ k, (b.statted disk q).statKey? q = some k ∧ _ := Devices.statKey_statted
  rw [hk]
  exact (h.statted q).statKey hk

/-- What an access leaves, on a disk that stays as it is. -/
def ProgressNow (disk : VersionedStore P C) : Progress P C R V → Prop
  | .goes t => ItemNow disk t
  | .done row keys => ∀ dependencies, row.dependencies = some dependencies → keys = dependencies.map disk.stat
  | .raises => True

theorem build_now {text : Option (Stamped C)} {config : Option R} {sources : Option (List (P × Option (Stamped C)))}
    {dependencies : Option (List P)} : ProgressNow disk (t.build lib text config sources dependencies) := by
  unfold Item.build
  split
  · trivial
  · rintro row keys todo ⟨⟩
    rfl

theorem keys_now (hn : BatchNow disk b) (ht : ItemOk lib disk kind b t) (hi : ItemNow disk t) {row : Row P C V}
    {keys : List (Option ℕ)} {todo : List P} (hp : t.phase = .keys row keys (q :: todo)) :
    ProgressNow disk (.goes
      { t with phase := .keys row (keys ++ [((b.statted disk q).statKey? q).getD none]) todo } : Progress P C R V) := by
  obtain ⟨htodo, -⟩ := ht.keys row keys (q :: todo) hp
  have hkeys := hi row keys (q :: todo) hp
  rintro _ _ _ ⟨⟩
  rw [hn.statKey_statted q, List.length_append, List.length_singleton]
  have htake : (row.dependencies.getD []).take (keys.length + 1) = (row.dependencies.getD []).take keys.length ++ [q] := by
    rw [List.take_add, ← htodo]
    rfl
  rw [htake, List.map_append, ← hkeys]
  rfl

/-- **Every key of a load is the key of now, if nothing changes.** -/
theorem advance_now (hn : BatchNow disk b) (ht : ItemOk lib disk kind b t) (hi : ItemNow disk t) :
    BatchNow disk (t.advance lib disk cache b).1 ∧ ProgressNow disk (t.advance lib disk cache b).2.2 := by
  unfold Item.advance
  split
  · simp only
    split
    · exact ⟨hn, by rintro _ _ _ ⟨⟩⟩
    · exact ⟨hn, trivial⟩
  · refine ⟨hn.statted lib.secrets, ?_⟩
    simp only
    split <;> rintro _ _ _ ⟨⟩
  · exact ⟨hn, by rintro _ _ _ ⟨⟩⟩
  · exact ⟨hn, trivial⟩
  · refine ⟨hn, ?_⟩
    unfold Item.parsed
    split
    · rintro _ _ _ ⟨⟩
    · split <;> exact build_now
  · exact ⟨hn, build_now⟩
  · rename_i text config dependencies lines q todo hp
    split
    · exact ⟨hn, by rintro _ _ _ ⟨⟩⟩
    · exact ⟨hn, build_now⟩
    · split
      · exact ⟨hn.statted q, hi⟩
      · split
        · rename_i f hf
          refine ⟨hn.source ?_, hi⟩
          split at hf
          · exact hn.stats q _ (of_decide_eq_true (Option.filter_eq_some_iff.1 hf).2)
          · cases hf
        · unfold Item.readSource
          cases hf : disk.get? q with
          | none =>
            refine ⟨hn.source ?_, hi⟩
            rw [stat, hf]
            rfl
          | some f =>
            cases hr : lib.readable q f.value with
            | true =>
              simp only [hr, if_true]
              refine ⟨hn.source ?_, hi⟩
              rw [stat, hf]
              rfl
            | false =>
              simp only [hr, Bool.false_eq_true, if_false]
              exact ⟨hn, by rintro _ _ _ ⟨⟩⟩
  · rename_i q _ _
    refine ⟨(hn.statted q).source ?_, build_now⟩
    exact hn.statKey_statted q
  · rename_i row keys hp
    refine ⟨hn, fun dependencies hdeps => ?_⟩
    obtain ⟨htodo, -⟩ := ht.keys row keys [] hp
    have hkeys := hi row keys [] hp
    rw [hdeps, Option.getD_some] at htodo hkeys
    rw [hkeys, List.take_of_length_le (List.drop_eq_nil_iff.1 htodo.symm)]
  · rename_i q _ hp
    exact ⟨hn.statted q, keys_now hn ht hi hp⟩

/-- A load that has raised, with the keys of now: a fresh load raises. -/
theorem Raised.fresh (h : Raised lib disk kind b p) (hn : BatchNow disk b)
    (hm : ∀ a, MainOk disk p a kind → disk.get? p = a) : freshDevice lib disk.get? p = none := by
  obtain ⟨reads, hfresh, hmain, hother⟩ := h
  refine hfresh disk.get? ?_
  rintro ⟨q, a⟩ he
  by_cases hq : q = p
  · subst hq
    exact hm a (hmain a he)
  · obtain ⟨hsome, hnone⟩ := hother q a he hq
    cases hs : b.sources.get? q with
    | none => exact hnone hs
    | some s => exact (hsome s hs).eq (hn.sources q s hs).symm

/-- **A row whose keys match is what a fresh load gives.** -/
theorem RowOk.fresh {row : Row P C V} {keys : List (Option ℕ)} {main : Option (Stamped C) → Prop}
    (h : RowOk lib disk p main row keys) (hs : row.shallow = false) (hm : ∀ a, main a → disk.get? p = a)
    {dependencies : List P} (hd : row.dependencies = some dependencies) (hk : keys = dependencies.map disk.stat) :
    freshDevice lib disk.get? p = some row.device ∧ freshDependencies lib disk.get? p dependencies = dependencies := by
  obtain ⟨reads, hmeans, hmain, hother⟩ := h.deep hs
  have hanswers : Answers disk.get? reads := by
    rintro ⟨q, a⟩ he
    by_cases hq : q = p
    · subst hq
      exact hm a (hmain a he)
    · obtain ⟨k, hmem, hg⟩ := hother q a he hq dependencies hd
      refine hg.eq ?_
      rw [hk, List.zip_map_right, List.mem_map] at hmem
      obtain ⟨⟨x, y⟩, hxy, he⟩ := hmem
      cases he
      rw [List.zip_eq_zipWith, List.zipWith_self, List.mem_map] at hxy
      obtain ⟨z, -, hz⟩ := hxy
      cases hz
      rfl
  obtain ⟨-, hdevice, hdeps⟩ := hmeans disk.get? hanswers
  exact ⟨hdevice, hdeps dependencies hd⟩

end DeviceBuilder.Devices
