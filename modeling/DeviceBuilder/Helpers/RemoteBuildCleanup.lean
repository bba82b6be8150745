import Mathlib.Data.Int.Notation
import DeviceBuilder.Lib.Interleaved
import DeviceBuilder.Helpers.RemoteBuildTree

/-!
# The cleanup sweep (`helpers/remote_build_cleanup.py`)

The sweep runs on an executor thread, so each of its filesystem calls is a step
of its own that others may get in between. A call carries the function of the
source it stands in.

* `sweepRemoteBuilds`: the sweep, with `sweepDashboardDir`, `reclaimOrphanBundle`,
  `reclaimDashboardDataDir` and `pruneEmptyDir`.
* `isMacosMetadata`, `isLiveName`: the names that keep a dashboard's directory.
-/

namespace DeviceBuilder.Helpers.RemoteBuildCleanup

open RemoteBuildLayout RemoteBuildTree
open Interleaved (Prog)

/-- The functions of the module, with the arguments their calls depend on. -/
inductive Site
  | sweepRemoteBuilds
  | dashboardNames
  | holdsLiveEntries (dashboard : Name)
  | reclaimDashboardDataDir (dirId : Name)
  | sweepDashboardDir (dashboard : Name)
  | isCold (cutoff : ℤ)
  | deleteSubtreeAndSibling (key : RemoteBuildPath)
  | reclaimOrphanBundle (key : RemoteBuildPath)
  | pruneEmptyDir (r : Root) (dashboard : Name)
  deriving DecidableEq, Repr

structure Call where
  site : Site
  op : FsOp
  deriving DecidableEq, Repr

abbrev Call.Ans (c : Call) : Type := c.op.Ans

abbrev Sweep := Prog Call Call.Ans

/-- The call `op`, made in the function `site`. -/
def call (site : Site) (op : FsOp) : Sweep op.Ans := Prog.ask (⟨site, op⟩ : Call)

/-- `_safe_iterdir` -/
def safeIterdir (site : Site) (directory : Path) : Sweep (List Name) := do
  match ← call site (.iterdir directory) with
  | .ok entries => return entries
  | .error _ => return []

/-- `_is_macos_metadata` -/
def isMacosMetadata (name : Name) : Bool := name = ".DS_Store".toList || "._".toList.isPrefixOf name

/-- Is `name` anything but the data dir or macOS metadata? -/
def isLiveName (name : Name) : Bool := casefold name ≠ dataDirName && !isMacosMetadata name

/-- `_dashboard_names` -/
def dashboardNames (roots : List Root) : Sweep (List Name) := do
  let names ← roots.foldlM (fun names r => do
    if ← call .dashboardNames (.isSymlink (.root r)) then
      return names
    else if ← call .dashboardNames (.isDir (.root r)) then
      return names ∪ (← safeIterdir .dashboardNames (.root r))
    else
      return names) []
  call .dashboardNames (.order (names.filter fun n => casefold n ≠ venvsName))

/-- `_holds_live_entries` -/
def holdsLiveEntries (dashboard : Name) : Sweep Bool := do
  match ← call (.holdsLiveEntries dashboard) (.iterdir (.dashboard .config dashboard)) with
  | .ok entries => return entries.any isLiveName
  | .error .fileNotFound => return false
  | .error .other => return true

/-- `_reclaim_dashboard_data_dir` -/
def reclaimDashboardDataDir (dataRoot : Root) (dirId : Name) : Sweep ℕ := do
  let site := Site.reclaimDashboardDataDir dirId
  let target := perDashboardDataDir dataRoot dirId
  if ← call site (.isSymlink (.dashboard dataRoot dirId)) then
    return 0
  else if ← call site (.isSymlink target) then
    return 0
  else if ← call site (.isDir target) then
    if ← call site (.rmtree target) then return 1 else return 0
  else
    return 0

/-- `_is_cold` -/
def isCold (subtree : Path) (cutoff : ℤ) : Sweep Bool := do
  match ← call (.isCold cutoff) (.stat subtree) with
  | some mtime => return (mtime : ℤ) < cutoff
  | none => return false

/-- `_delete_subtree_and_sibling` -/
def deleteSubtreeAndSibling (key : RemoteBuildPath) : Sweep Bool := do
  if ← call (.deleteSubtreeAndSibling key) (.rmtree key.subtree) then
    let _ ← call (.deleteSubtreeAndSibling key) (.unlink key.bundle true)
    return true
  else
    return false

/-- `_reclaim_orphan_bundle` of the bundle `name` -/
def reclaimOrphanBundle (dashboard name : Name) (inFlightKeys : List RemoteBuildPath) (cutoff : ℤ) :
    Sweep Unit := do
  let deviceName := name.take (name.length - bundleSuffix.length)
  if deviceName = [] then
    return ()
  else
    let key : RemoteBuildPath := ⟨dashboard, deviceName⟩
    let siblingSubtree := Path.entry .config dashboard deviceName
    if ← call (.reclaimOrphanBundle key) (.exists siblingSubtree) then
      return ()
    else if ← call (.reclaimOrphanBundle key) (.isSymlink siblingSubtree) then
      return ()
    else if key ∈ inFlightKeys then
      return ()
    else if ← isCold (.entry .config dashboard name) cutoff then
      let _ ← call (.reclaimOrphanBundle key) (.unlink (.entry .config dashboard name) false)
      return ()
    else
      return ()

/-- One turn of the loop of `_sweep_dashboard_dir`. -/
def sweepEntry (dashboard : Name) (inFlightKeys : List RemoteBuildPath) (cutoff : ℤ) (deleted : ℕ)
    (name : Name) : Sweep ℕ := do
  let site := Site.sweepDashboardDir dashboard
  let entry := Path.entry .config dashboard name
  if casefold name = dataDirName then
    return deleted
  else if ← call site (.isSymlink entry) then
    return deleted
  else if ← call site (.isDir entry) then
    -- keyed by the directory's own name, which nothing has truncated
    let key : RemoteBuildPath := ⟨dashboard, name⟩
    if key ∈ inFlightKeys then
      return deleted
    else if ← isCold entry cutoff then
      if ← deleteSubtreeAndSibling key then return deleted + 1 else return deleted
    else
      return deleted
  else if ← call site (.isFile entry) then
    if bundleSuffix.isSuffixOf name then
      reclaimOrphanBundle dashboard name inFlightKeys cutoff
      return deleted
    else
      return deleted
  else
    return deleted

/-- `_sweep_dashboard_dir` -/
def sweepDashboardDir (dashboard : Name) (inFlightKeys : List RemoteBuildPath) (cutoff : ℤ) :
    Sweep ℕ := do
  let entries ← safeIterdir (.sweepDashboardDir dashboard) (.dashboard .config dashboard)
  entries.foldlM (sweepEntry dashboard inFlightKeys cutoff) 0

/-- The first loop of `_prune_empty_dir`: are the entries all macOS metadata? -/
def onlyMetadata (r : Root) (dashboard : Name) : List Name → Sweep Bool
  | [] => return true
  | name :: entries => do
    if ← call (.pruneEmptyDir r dashboard) (.isSymlink (.entry r dashboard name)) then
      return false
    else if isMacosMetadata name then
      onlyMetadata r dashboard entries
    else
      return false

/-- `_prune_empty_dir` -/
def pruneEmptyDir (r : Root) (dashboard : Name) : Sweep Unit := do
  let site := Site.pruneEmptyDir r dashboard
  let directory := Path.dashboard r dashboard
  if ← call site (.isSymlink directory) then
    return ()
  else if ← call site (.isDir directory) then
    let entries ← safeIterdir site directory
    if ← onlyMetadata r dashboard entries then
      entries.foldlM (fun _ name => do
        let _ ← call site (.unlink (.entry r dashboard name) false)
        return ()) ()
      let _ ← call site (.rmdir directory)
      return ()
    else
      return ()
  else
    return ()

/-- The test that skips a symlink, or what is there and not a directory. -/
def isForeign (directory : Path) : Sweep Bool := do
  if ← call .sweepRemoteBuilds (.isSymlink directory) then
    return true
  else if ← call .sweepRemoteBuilds (.exists directory) then
    return !(← call .sweepRemoteBuilds (.isDir directory))
  else
    return false

/-- The data dir and the empty parents of a dashboard that nothing references any more. -/
def reclaimDashboard (dataRoot : Root) (reclaimDataDirs : Bool) (deleted : ℕ) (name : Name) :
    Sweep ℕ := do
  if reclaimDataDirs then
    let reclaimed ← reclaimDashboardDataDir dataRoot name
    pruneEmptyDir dataRoot name
    pruneEmptyDir .config name
    return deleted + reclaimed
  else
    pruneEmptyDir .config name
    return deleted

/-- One turn of the loop of `sweep_remote_builds`. -/
def sweepDashboard (dataRoot : Root) (reclaimDataDirs : Bool) (inFlightKeys : List RemoteBuildPath)
    (cutoff : ℤ) (deleted : ℕ) (name : Name) : Sweep ℕ := do
  let dashboardDir := Path.dashboard .config name
  if ← isForeign dashboardDir then
    return deleted
  else
    let swept ← if ← call .sweepRemoteBuilds (.isDir dashboardDir) then
      sweepDashboardDir name inFlightKeys cutoff else pure 0
    if name ∈ inFlightKeys.map RemoteBuildPath.dirId then
      return deleted + swept
    else if ← holdsLiveEntries name then
      return deleted + swept
    else
      reclaimDashboard dataRoot reclaimDataDirs (deleted + swept) name

/-- `sweep_remote_builds`, with `data_dir` under the root `dataRoot`: the two roots coincide on a
standalone install. -/
def sweepRemoteBuilds (dataRoot : Root) (ttlSeconds : ℤ) (inFlightKeys : List RemoteBuildPath) :
    Sweep ℕ := do
  let now : ℕ ← call .sweepRemoteBuilds .time
  let cutoff : ℤ := now - ttlSeconds
  if ← call .sweepRemoteBuilds (.isSymlink (.root .config)) then
    return 0
  else
    let reclaimDataDirs := !(← call .sweepRemoteBuilds (.isSymlink (.root dataRoot)))
    let names ← dashboardNames [.config, dataRoot]
    names.foldlM (sweepDashboard dataRoot reclaimDataDirs inFlightKeys cutoff) 0

end DeviceBuilder.Helpers.RemoteBuildCleanup
