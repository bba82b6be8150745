import Mathlib.Logic.Function.Basic
import Mathlib.Data.List.Basic

/-!
# Pushed encryption keys

`controllers/devices/encryption_key.py`: Home Assistant pushes the key it provisioned for
a device name. A push settles the key in the YAMLs that match, one after the other, with
awaits between; when none accepts it, it stays in the pending-key store under the name
(`_pending_keys_store.py`). An adoption of the name (`importable.py`) writes the device's
first YAML and consumes the pending key it lands in it.

* `KeyText`: what the code reads of a YAML and makes of it.
* `Push`, `KeyWorld.advancePush`: a push, from one await to the next.
* `Adoption`, `KeyWorld.advanceAdoption`: an adoption, likewise.
* `KeyWorld.step`: these, and the edits of others.

One device name. What the validator, the resolver and the disk answer comes with the
action. `versions`, `finishes` and `consumed` record the writes of a file, the pushes in
the order they return, and what adoptions have consumed.
-/

namespace DeviceBuilder.Devices

/-- The functions of a YAML's text that the key handoff calls. -/
structure KeyText (Y K : Type) where
  /-- `api_key_settled`. -/
  settled : Y → K → Bool
  /-- The api key is given by `!secret`, `!include` or a substitution. -/
  indirected : Y → Bool
  /-- `same_text`. -/
  same : Y → Y → Bool
  /-- `rotate_api_encryption_key`; `none` when the shape is refused. -/
  rotate : Y → K → Option Y
  /-- The edit of `_splice_key`; `none` when the shape, or a missing `api:` block, is refused. -/
  upsert : Y → K → Option Y

variable {F K Y : Type} [DecidableEq F] [DecidableEq K] [DecidableEq Y]

/-- `_splice_key`. -/
def KeyText.spliceKey (text : KeyText Y K) (content : Y) (key : K) : Option Y :=
  match text.upsert content key with
  | none => none
  | some spliced => if spliced = content then none else if text.settled spliced key then some spliced else none

/-- What a push has behind it. -/
inductive PushPhase (F Y : Type)
  /-- The next YAML is to be read. -/
  | settling (rest : List F)
  /-- A YAML's text and its version, while the resolver or the validator is asked. -/
  | holding (file : F) (rest : List F) (content : Y) (version : ℕ)
  | saving (file : F) (rest : List F) (content new : Y)
  /-- The YAML is written; its commit is awaited. -/
  | committing (rest : List F)
  | returned
  | failed
  deriving DecidableEq

structure Push (F K Y : Type) where
  key : K
  /-- The YAMLs that accepted the key, with their version then. -/
  accepted : List (F × ℕ) := []
  phase : PushPhase F Y
  deriving DecidableEq

/-- `_KeyOutcome`: the YAML still to write and the pending key to consume. -/
structure KeyOutcome (K Y : Type) where
  toWrite : Option Y := none
  consume : Option K := none
  deriving DecidableEq

/-- What an adoption has behind it. -/
inductive Adoption (F K Y : Type)
  | sourcing (file : F)
  | writing (file : F) (content : Y)
  | validating (file : F) (content : Y) (version : ℕ)
  | minting (file : F) (content : Y) (version : ℕ)
  /-- The pending key is spliced in; esphome checks it. -/
  | deciding (file : F) (content : Y) (version : ℕ) (key : K) (keyed : Y)
  /-- A key pushed since is spliced in; esphome checks it. -/
  | late (file : F) (version : ℕ) (outcome : KeyOutcome K Y) (key : K) (keyed : Y)
  | landing (file : F) (new : Y) (consume : Option K)
  | consuming (file : F) (version : ℕ) (consume : Option K)
  deriving DecidableEq

/-- What an await comes back with. -/
structure KeyReply (Y : Type) where
  /-- The validator accepts; an outage is a refusal to a push. -/
  valid : Bool := true
  /-- An indirected key resolves to the pushed one; else the resolved config has the API. -/
  resolves : Bool := true
  written : Bool := true
  source : Option Y := none
  minted : Option Y := none
  deriving DecidableEq

structure KeyWorld (F K Y : Type) where
  files : F → Option Y := fun _ => none
  /-- The writes of a file so far. -/
  versions : F → ℕ := fun _ => 0
  /-- The name's entry of the pending-key store. -/
  pending : Option K := none
  pushes : List (Push F K Y) := []
  /-- `adopting`: at most one adoption of the name. -/
  adoption : Option (Adoption F K Y) := none
  finishes : List ℕ := []
  consumed : List (F × ℕ × K) := []

namespace KeyWorld

variable (text : KeyText Y K) (w : KeyWorld F K Y)

/-- A write of a file. -/
def writeFile (file : F) (content : Option Y) : KeyWorld F K Y :=
  { w with
    files := Function.update w.files file content
    versions := Function.update w.versions file (w.versions file + 1) }

def setPush (i : ℕ) (p : Push F K Y) : KeyWorld F K Y := { w with pushes := w.pushes.set i p }

/-- `set_encryption_key` after its YAMLs: the entry is popped once the key landed anywhere, else it is the key. -/
def finishPush (i : ℕ) (p : Push F K Y) : KeyWorld F K Y :=
  { w.setPush i { p with phase := .returned } with
    pending := if p.accepted ≠ [] then none else some p.key
    finishes := w.finishes ++ [i] }

/-- A push after a YAML's outcome: the next YAML, or its end. -/
def nextFile (i : ℕ) (p : Push F K Y) (rest : List F) : KeyWorld F K Y :=
  if rest = [] then w.finishPush i p else w.setPush i { p with phase := .settling rest }

/-- `set_encryption_key` up to its first await; `matched` is what `_match_devices` finds in the index. -/
def push (key : K) (matched : List F) : KeyWorld F K Y :=
  -- none while the name is being adopted
  let files := if w.adoption.isSome then [] else matched
  let p : Push F K Y := { key, phase := .settling files }
  let w₁ := { w with pushes := w.pushes ++ [p] }
  if files = [] then w₁.finishPush w.pushes.length p else w₁

/-- `_apply_to_device` once the YAML is read: the text is judged before anything is written. -/
def judge (i : ℕ) (p : Push F K Y) (file : F) (rest : List F) (content : Y) (version : ℕ) (reply : KeyReply Y) :
    KeyWorld F K Y :=
  let unchanged := w.nextFile i { p with accepted := p.accepted ++ [(file, version)] } rest
  if text.indirected content then if reply.resolves then unchanged else w.nextFile i p rest
  else if text.settled content p.key then unchanged
  else if !reply.resolves then w.nextFile i p rest
  else
    match text.rotate content p.key with
    | none => w.nextFile i p rest
    | some new =>
      if text.settled new p.key && reply.valid then w.setPush i { p with phase := .saving file rest content new }
      else w.nextFile i p rest

/-- A push taken to its next await. -/
def advancePush (i : ℕ) (reply : KeyReply Y) : KeyWorld F K Y :=
  match w.pushes[i]? with
  | none => w
  | some p =>
    match p.phase with
    | .settling [] => w
    | .settling (file :: rest) =>
      match w.files file with
      | none => w.nextFile i p rest
      | some content => w.setPush i { p with phase := .holding file rest content (w.versions file) }
    | .holding file rest content version => w.judge text i p file rest content version reply
    | .saving file rest content new =>
      -- `persist_if_unchanged`, under the file's write lock
      match w.files file with
      | none => w.nextFile i p rest
      | some current =>
        if !text.same current content then w.nextFile i p rest
        else if !reply.written then w.setPush i { p with phase := .failed }
        else
          (w.writeFile file (some new)).setPush i
            { p with
              accepted := p.accepted ++ [(file, w.versions file + 1)]
              phase := .committing rest }
    | .committing rest => w.nextFile i p rest
    | .returned | .failed => w

/-- `_name_claimed` is left: the name is free again. -/
def release : KeyWorld F K Y := { w with adoption := none }

/-- `_rolled_back_on_failure`. -/
def rollBack (file : F) : KeyWorld F K Y := (w.writeFile file none).release

/-- The end of `_write_keyed`: `pop_if`. -/
def consume (file : F) (version : ℕ) : Option K → KeyWorld F K Y
  | some key =>
    if w.pending = some key then
      { w.release with pending := none, consumed := w.consumed ++ [(file, version, key)] }
    else w.release
  | none => w.release

/-- `_write_keyed` once the outcome is settled. -/
def land (file : F) (version : ℕ) (outcome : KeyOutcome K Y) : KeyWorld F K Y :=
  match outcome.toWrite with
  | some new => { w with adoption := some (.landing file new outcome.consume) }
  | none => w.consume file version outcome.consume

/-- `_write_keyed`: a key pushed since `handled` is landed in its place, unless it is refused. -/
def writeKeyed (file : F) (content : Y) (version : ℕ) (outcome : KeyOutcome K Y) (handled : Option K) :
    KeyWorld F K Y :=
  match w.pending with
  | none => w.land file version outcome
  | some pushed =>
    if some pushed = handled then w.land file version outcome
    else if text.settled content pushed then w.land file version { consume := some pushed }
    else
      match text.spliceKey content pushed with
      | none => w.land file version outcome
      | some keyed => { w with adoption := some (.late file version outcome pushed keyed) }

/-- `_finalize_adoption_key` up to its first await. -/
def finalizeAdoptionKey (file : F) (content : Y) (version : ℕ) : KeyWorld F K Y :=
  match w.pending with
  | none => { w with adoption := some (.minting file content version) }
  | some key =>
    if text.settled content key then w.writeKeyed text file content version { consume := some key } (some key)
    else
      match text.spliceKey content key with
      | none => w.writeKeyed text file content version {} (some key)
      | some keyed => { w with adoption := some (.deciding file content version key keyed) }

/-- An adoption taken to its next await. -/
def advanceAdoption (reply : KeyReply Y) : KeyWorld F K Y :=
  match w.adoption with
  | none => w
  | some (.sourcing file) =>
    match reply.source with
    | none => w.release
    | some content => { w with adoption := some (.writing file content) }
  | some (.writing file content) =>
    if (w.files file).isSome then w.release
    else
      { w.writeFile file (some content) with adoption := some (.validating file content (w.versions file + 1)) }
  | some (.validating file content version) =>
    if reply.valid then w.finalizeAdoptionKey text file content version else w.rollBack file
  | some (.minting file content version) => w.writeKeyed text file content version { toWrite := reply.minted } none
  | some (.deciding file content version key keyed) =>
    let outcome : KeyOutcome K Y := if reply.valid then { toWrite := some keyed, consume := some key } else {}
    w.writeKeyed text file content version outcome (some key)
  | some (.late file version outcome key keyed) =>
    w.land file version (if reply.valid then { toWrite := some keyed, consume := some key } else outcome)
  | some (.landing file new consume) =>
    if reply.written then
      { w.writeFile file (some new) with adoption := some (.consuming file (w.versions file + 1) consume) }
    else w.rollBack file
  | some (.consuming file version key) => w.consume file version key

end KeyWorld

/-- What happens next. -/
inductive KeyAction (F K Y : Type)
  | push (key : K) (matched : List F)
  | advancePush (push : ℕ) (reply : KeyReply Y)
  | adopt (file : F)
  | advanceAdoption (reply : KeyReply Y)
  /-- Another writer of a YAML, which may also remove it. -/
  | edit (file : F) (content : Option Y)
  deriving DecidableEq

def KeyWorld.step (text : KeyText Y K) (w : KeyWorld F K Y) : KeyAction F K Y → KeyWorld F K Y
  | .push key matched => w.push key matched
  | .advancePush i reply => w.advancePush text i reply
  | .adopt file => if w.adoption.isSome then w else { w with adoption := some (.sourcing file) }
  | .advanceAdoption reply => w.advanceAdoption text reply
  | .edit file content => w.writeFile file content

end DeviceBuilder.Devices
