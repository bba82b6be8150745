import Mathlib.Data.List.Basic
import Mathlib.Data.Option.Basic

/-!
# The layout of the remote builds (`helpers/remote_build_layout.py`)

* `RemoteBuildPath`: the key of one device of one dashboard, with the paths of
  its subtree, its bundle and the build data dir it shares.
* `parseFromConfiguration`: the key read back from a job's configuration.
* `parse_configuration`: the round trip; the id comes back truncated, and names
  the same paths.
* `accepted_paths`: which paths of two uploads can coincide (`subtree_inj`, `bundle_inj`,
  `ne_data_dir`).
-/

namespace DeviceBuilder.Helpers.RemoteBuildLayout

/-- The name of a file or a directory. -/
abbrev Name := List Char

def remoteBuildsName : Name := ".remote_builds".toList
def dataDirName : Name := ".esphome".toList
def bundleSuffix : Name := ".tar.gz".toList
def venvsName : Name := "venvs".toList

def dashboardDirIdChars : ℕ := 8

/-- The roots `config_dir/.esphome/.remote_builds` and `data_dir/.remote_builds`. -/
inductive Root
  | config
  | data
  deriving DecidableEq, Repr

/-- A path of the remote builds tree, down to the entries of a dashboard's directory. -/
inductive Path
  | root (r : Root)
  | dashboard (r : Root) (name : Name)
  | entry (r : Root) (dashboard name : Name)
  deriving DecidableEq, Repr

structure RemoteBuildPath where
  dashboardId : Name
  deviceName : Name
  deriving DecidableEq, Repr

def perDashboardDataDir (dataRoot : Root) (dirId : Name) : Path := .entry dataRoot dirId dataDirName

namespace RemoteBuildPath

def dirId (key : RemoteBuildPath) : Name := key.dashboardId.take dashboardDirIdChars

def bundleName (key : RemoteBuildPath) : Name := key.deviceName ++ bundleSuffix

def subtree (key : RemoteBuildPath) : Path := .entry .config key.dirId key.deviceName

def bundle (key : RemoteBuildPath) : Path := .entry .config key.dirId key.bundleName

def dataDir (dataRoot : Root) (key : RemoteBuildPath) : Path := perDashboardDataDir dataRoot key.dirId

/-- The key that a configuration gives back. -/
def onDisk (key : RemoteBuildPath) : RemoteBuildPath := { key with dashboardId := key.dirId }

/-- `extracted.relative_to(config_dir).as_posix()` of the extracted file `yaml`. -/
def configuration (key : RemoteBuildPath) (yaml : Name) : Name :=
  ['/'].intercalate [dataDirName, remoteBuildsName, key.dirId, key.deviceName, yaml]

end RemoteBuildPath

/-- `PurePosixPath(configuration).parts`. -/
def parts (configuration : Name) : List Name :=
  let components := (configuration.splitOn '/').filter fun c => c ≠ [] ∧ c ≠ ['.']
  if configuration.head? = some '/' then ['/'] :: components else components

/-- `parse_from_configuration`. -/
def parseFromConfiguration (configuration : Name) : Option RemoteBuildPath :=
  match parts configuration with
  | a :: b :: dirId :: deviceName :: _ :: _ =>
    if a = dataDirName ∧ b = remoteBuildsName then some ⟨dirId, deviceName⟩ else none
  | _ => none

/-- `str.casefold`, as far as a comparison with an ASCII name of the layout can tell: of the other
characters only `ſ` folds to a single ASCII letter such a name has. -/
def casefold (name : Name) : Name := name.map fun c => if c = 'ſ' then 's' else c.toLower

/-- `DASHBOARD_ID_PATTERN` and `DASHBOARD_ID_MAX_CHARS`. -/
def validDashboardId (id : Name) : Bool :=
  !id.isEmpty && id.length ≤ 64 && id.all fun c => c.isAlphanum || c = '_' || c = '-'

def forbiddenFilenameChars : List Char := ['/', '\\', Char.ofNat 0]

/-- Does `filename` end in `suffix`, whatever the case? -/
def endsWithFolded (filename suffix : Name) : Bool :=
  suffix.isSuffixOf (filename.map Char.toLower)

/-- `_validate_configuration_filename`: the device's name. -/
def validateConfigurationFilename (filename : Name) : Option Name :=
  if filename.any (forbiddenFilenameChars.contains ·) then none
  else
    let stem? :=
      if endsWithFolded filename ".yaml".toList then some (filename.take (filename.length - 5))
      else if endsWithFolded filename ".yml".toList then some (filename.take (filename.length - 4))
      else none
    stem?.filter fun device =>
      device ≠ [] ∧ device ≠ ".".toList ∧ device ≠ "..".toList ∧ casefold device ≠ dataDirName

variable {key key' : RemoteBuildPath} {yaml id device filename : Name}

/-! ### The round trip -/

/-- A name that can stand between two slashes. -/
def IsComponent (name : Name) : Prop := name ≠ [] ∧ name ≠ ['.'] ∧ '/' ∉ name

theorem parts_intercalate {names : List Name} (h : ∀ n ∈ names, IsComponent n) (hn : names ≠ []) :
    parts (['/'].intercalate names) = names := by
  have hsplit : (['/'].intercalate names).splitOn '/' = names :=
    List.splitOn_intercalate '/' (fun n hm => (h n hm).2.2) hn
  have hfilter : (names.filter fun c => c ≠ [] ∧ c ≠ ['.']) = names :=
    List.filter_eq_self.mpr fun n hm => by simpa using ⟨(h n hm).1, (h n hm).2.1⟩
  have hhead : (['/'].intercalate names).head? ≠ some '/' := by
    obtain ⟨n, rest, rfl⟩ := List.exists_cons_of_ne_nil hn
    obtain ⟨hne, -, hslash⟩ := h n (List.mem_cons_self ..)
    obtain ⟨c, cs, rfl⟩ := List.exists_cons_of_ne_nil hne
    have hc : c ≠ '/' := fun hc => hslash (hc ▸ List.mem_cons_self ..)
    cases rest with
    | nil => simpa [List.intercalate] using hc
    | cons m rest => simpa [List.intercalate] using hc
  unfold parts
  rw [hsplit, hfilter, if_neg hhead]

theorem dirId_of_length {d e : Name} (h : d.length ≤ 8) : RemoteBuildPath.dirId ⟨d, e⟩ = d :=
  List.take_of_length_le h

theorem length_dirId : key.dirId.length ≤ 8 := List.length_take_le ..

theorem dirId_onDisk : key.onDisk.dirId = key.dirId := dirId_of_length length_dirId

@[simp] theorem deviceName_onDisk : key.onDisk.deviceName = key.deviceName := rfl

/-- Truncation is idempotent: the key read back has the same paths. -/
theorem subtree_onDisk : key.onDisk.subtree = key.subtree := by
  unfold RemoteBuildPath.subtree; rw [dirId_onDisk, deviceName_onDisk]

/-- **The round trip** of a key through a job's configuration. -/
theorem parse_configuration (hid : IsComponent key.dirId) (hdevice : IsComponent key.deviceName)
    (hyaml : IsComponent yaml) : parseFromConfiguration (key.configuration yaml) = some key.onDisk := by
  have hparts : parts (key.configuration yaml) =
      [dataDirName, remoteBuildsName, key.dirId, key.deviceName, yaml] := by
    apply parts_intercalate
    · intro n hn
      simp only [List.mem_cons, List.not_mem_nil, or_false] at hn
      rcases hn with rfl | rfl | rfl | rfl | rfl
      · exact ⟨by decide, by decide, by decide⟩
      · exact ⟨by decide, by decide, by decide⟩
      · exact hid
      · exact hdevice
      · exact hyaml
    · exact List.cons_ne_nil _ _
  unfold parseFromConfiguration
  rw [hparts]
  rfl

/-! ### What is validated -/

theorem isComponent_dirId (h : validDashboardId id = true) :
    IsComponent (RemoteBuildPath.dirId ⟨id, device⟩) := by
  simp only [validDashboardId, Bool.and_eq_true, Bool.not_eq_true', List.isEmpty_eq_false_iff,
    List.all_eq_true, Bool.or_eq_true, decide_eq_true_eq] at h
  obtain ⟨⟨hne, -⟩, hall⟩ := h
  have hmem : ∀ c ∈ RemoteBuildPath.dirId ⟨id, device⟩, c ∈ id := fun c hc => List.mem_of_mem_take hc
  refine ⟨?_, ?_, ?_⟩
  · simpa [RemoteBuildPath.dirId, dashboardDirIdChars] using hne
  · intro hdot
    have hc := hall '.' (hmem '.' (by rw [hdot]; exact List.mem_cons_self ..))
    revert hc; decide
  · intro hslash
    have hc := hall '/' (hmem '/' hslash)
    revert hc; decide

/-- What a validated file name and the device named after it have in common with a path's parts. -/
theorem validated (h : validateConfigurationFilename filename = some device) :
    IsComponent device ∧ IsComponent filename ∧ casefold device ≠ dataDirName := by
  unfold validateConfigurationFilename at h
  split at h
  · cases h
  case isFalse hforbidden =>
    have hslash : '/' ∉ filename := by
      intro hm
      exact hforbidden (List.any_eq_true.mpr ⟨'/', hm, by decide⟩)
    obtain ⟨hstem, hdevice⟩ := Option.filter_eq_some_iff.mp h
    simp only [decide_eq_true_eq] at hdevice
    obtain ⟨hne, hdot, -, hdata⟩ := hdevice
    obtain ⟨n, rfl⟩ : ∃ n, device = filename.take n := by
      split at hstem
      · exact ⟨_, (Option.some.inj hstem).symm⟩
      · split at hstem
        · exact ⟨_, (Option.some.inj hstem).symm⟩
        · cases hstem
    refine ⟨⟨hne, hdot, fun hm => hslash (List.mem_of_mem_take hm)⟩, ⟨?_, ?_, hslash⟩, hdata⟩
    · rintro rfl
      exact hne List.take_nil
    · -- a lone dot has no extension, so its stem cannot be a proper part of it
      rintro rfl
      cases n with
      | zero => exact hne rfl
      | succ n => exact hdot (by simp)

theorem bundleName_inj (h : key.bundleName = key'.bundleName) : key.deviceName = key'.deviceName :=
  List.append_cancel_right h

/-! ### Which paths coincide -/

/-- An upload that passed both checks. -/
structure Accepted (key : RemoteBuildPath) (filename : Name) : Prop where
  dashboard : validDashboardId key.dashboardId = true
  device : validateConfigurationFilename filename = some key.deviceName

theorem onDisk_inj :
    key.onDisk = key'.onDisk ↔ key.dirId = key'.dirId ∧ key.deviceName = key'.deviceName := by
  rw [RemoteBuildPath.onDisk, RemoteBuildPath.onDisk, RemoteBuildPath.mk.injEq]

theorem subtree_inj : key.subtree = key'.subtree ↔ key.onDisk = key'.onDisk := by
  rw [onDisk_inj]
  simp [RemoteBuildPath.subtree]

theorem bundle_inj : key.bundle = key'.bundle ↔ key.onDisk = key'.onDisk := by
  rw [onDisk_inj, RemoteBuildPath.bundle, RemoteBuildPath.bundle, Path.entry.injEq]
  constructor
  · rintro ⟨-, hid, hname⟩
    exact ⟨hid, bundleName_inj hname⟩
  · rintro ⟨hid, hname⟩
    exact ⟨rfl, hid, congrArg (· ++ bundleSuffix) hname⟩

/-- **The build data dir is neither an extract nor a bundle**, also for a filesystem that ignores
case. -/
theorem ne_data_dir (h : Accepted key filename) {name : Name}
    (hn : name = key.deviceName ∨ name = key.bundleName) : casefold name ≠ dataDirName := by
  rcases hn with rfl | rfl
  · exact (validated h.device).2.2
  · intro he
    have hlast := congrArg List.getLast? he
    rw [RemoteBuildPath.bundleName, casefold, List.map_append, List.getLast?_append] at hlast
    have hlast : some 'z' = some 'e' := hlast
    revert hlast
    decide

/-- **The layout loses no upload**: the configuration of an accepted one gives back a key with the
same paths. Two uploads share an extract, or a bundle, exactly when these keys are equal; and an
extract is a bundle of its dashboard only when its device is named like that bundle. -/
theorem accepted_paths (h : Accepted key filename) :
    (parseFromConfiguration (key.configuration filename) = some key.onDisk ∧
      key.onDisk.subtree = key.subtree ∧ key.onDisk.bundle = key.bundle ∧
        ∀ root, key.onDisk.dataDir root = key.dataDir root) ∧
      (∀ name, name = key.deviceName ∨ name = key.bundleName → casefold name ≠ dataDirName) ∧
      ∀ key' : RemoteBuildPath, (key.subtree = key'.subtree ↔ key.onDisk = key'.onDisk) ∧
        (key.bundle = key'.bundle ↔ key.onDisk = key'.onDisk) ∧
        (key.subtree = key'.bundle ↔
          key.dirId = key'.dirId ∧ key.deviceName = key'.deviceName ++ bundleSuffix) ∧
        ∀ root, key.subtree ≠ key'.dataDir root ∧ key.bundle ≠ key'.dataDir root := by
  obtain ⟨hdevice, hfilename, -⟩ := validated h.device
  have hname : ∀ name, name = key.deviceName ∨ name = key.bundleName → name ≠ dataDirName := by
    rintro name hn rfl
    exact ne_data_dir h hn (by decide)
  have hparse := parse_configuration (isComponent_dirId h.dashboard) hdevice hfilename
  refine ⟨⟨hparse, subtree_onDisk, ?_, ?_⟩,
    fun name hn => ne_data_dir h hn, fun key' => ⟨subtree_inj, bundle_inj, ?_, fun root => ⟨?_, ?_⟩⟩⟩
  · exact bundle_inj.2 (onDisk_inj.2 ⟨dirId_onDisk, rfl⟩)
  · intro root
    rw [RemoteBuildPath.dataDir, dirId_onDisk, RemoteBuildPath.dataDir]
  · simp [RemoteBuildPath.subtree, RemoteBuildPath.bundle, RemoteBuildPath.bundleName]
  · intro he
    injection he with _ _ hn
    exact hname _ (.inl rfl) hn
  · intro he
    injection he with _ _ hn
    exact hname _ (.inr rfl) hn

/-- A device named like the bundle of another one. -/
theorem accepted_paths_kitchen :
    let key : RemoteBuildPath := ⟨"dashboard-1".toList, "kitchen.tar.gz".toList⟩
    key.subtree = RemoteBuildPath.bundle ⟨"dashboard-2".toList, "kitchen".toList⟩ ∧
      parseFromConfiguration (key.configuration "kitchen.tar.gz.yaml".toList) = some key.onDisk := by
  intro key
  have h : Accepted key "kitchen.tar.gz.yaml".toList := ⟨by decide, by decide⟩
  obtain ⟨⟨hparse, -⟩, -, hshared⟩ := accepted_paths h
  obtain ⟨-, -, hbundle, -⟩ := hshared ⟨"dashboard-2".toList, "kitchen".toList⟩
  exact ⟨hbundle.2 ⟨by decide, by decide⟩, hparse⟩

end DeviceBuilder.Helpers.RemoteBuildLayout
