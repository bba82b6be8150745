import DeviceBuilder.Lib.Dict
import DeviceBuilder.Helpers.RemoteBuildLayout

/-!
# The remote builds tree on disk

The tree down to the entries of the dashboards' directories. What lies below an
entry is not told apart: an entry has a kind and a modification time. A symlink
leads to something else, so what it is asked about its target may be answered
either way.

* `FsOp`: the filesystem calls of the sweep, with the type of their answers.
* `answers`: the answers a call may give. Every call that can raise may fail.
* `after`: the tree a call leaves.
* `kind?_after`: a call only ever takes entries away, and only its own path.
-/

namespace DeviceBuilder.Helpers.RemoteBuildTree

open RemoteBuildLayout

inductive Kind
  | dir
  | file
  | symlink
  deriving DecidableEq, Repr

structure Node where
  kind : Kind
  mtime : ℕ
  deriving DecidableEq, Repr

abbrev Disk := Dict Path Node

/-- Is the second path the first one, or below it? -/
def contains : Path → Path → Bool
  | .root r, .root r' => r = r'
  | .root r, .dashboard r' _ => r = r'
  | .root r, .entry r' _ _ => r = r'
  | .dashboard r n, .dashboard r' n' => r = r' ∧ n = n'
  | .dashboard r n, .entry r' n' _ => r = r' ∧ n = n'
  | .entry r n e, .entry r' n' e' => r = r' ∧ n = n' ∧ e = e'
  | _, _ => false

/-- The name of the second path in the directory that is the first one. -/
def childOf : Path → Path → Option Name
  | .root r, .dashboard r' n => if r = r' then some n else none
  | .dashboard r n, .entry r' n' e => if r = r' ∧ n = n' then some e else none
  | _, _ => none

def kind? (d : Disk) (p : Path) : Option Kind := (d.get? p).map Node.kind

/-- The names in the directory `p`. -/
def names (d : Disk) (p : Path) : List Name := d.keys.filterMap (childOf p)

inductive OsError
  | fileNotFound
  | other
  deriving DecidableEq, Repr

/-- The calls of the sweep. A set is iterated in an order of its own: `order` asks for it. -/
inductive FsOp
  | time
  | order (names : List Name)
  | isSymlink (p : Path)
  | exists (p : Path)
  | isDir (p : Path)
  | isFile (p : Path)
  | iterdir (p : Path)
  | stat (p : Path)
  | rmtree (p : Path)
  | unlink (p : Path) (missingOk : Bool)
  | rmdir (p : Path)
  deriving DecidableEq, Repr

/-- A call that raised answers `false`, or no value. -/
abbrev FsOp.Ans : FsOp → Type
  | .time => ℕ
  | .order _ => List Name
  | .isSymlink _ | .exists _ | .isDir _ | .isFile _ => Bool
  | .iterdir _ => Except OsError (List Name)
  | .stat _ => Option ℕ
  | .rmtree _ | .unlink _ _ | .rmdir _ => Bool

/-- May the call be answered so? -/
def answers (clock : ℕ) (d : Disk) : (op : FsOp) → op.Ans → Bool
  | .time, t => t = clock
  | .order names, l => l.isPerm names
  | .isSymlink p, b => b = decide (kind? d p = some .symlink)
  | .exists p, b => kind? d p = some .symlink || b = (kind? d p).isSome
  | .isDir p, b => kind? d p = some .symlink || b = decide (kind? d p = some .dir)
  | .isFile p, b => kind? d p = some .symlink || b = decide (kind? d p = some .file)
  | .iterdir p, .ok l => kind? d p = some .symlink || kind? d p = some .dir && l.isPerm (names d p)
  | .iterdir p, .error .fileNotFound => kind? d p = some .symlink || kind? d p = none
  | .iterdir _, .error .other => true
  | .stat p, some t => kind? d p = some .symlink || (d.get? p).map Node.mtime = some t
  | .stat _, none => true
  | .rmtree p, ok => !ok || kind? d p = some .dir
  | .unlink p missingOk, ok => !ok || match kind? d p with
    | none => missingOk
    | some .dir => false
    | some _ => true
  | .rmdir p, ok => !ok || kind? d p = some .dir && (names d p).isEmpty

/-- The tree after the call. -/
def after (d : Disk) : (op : FsOp) → op.Ans → Disk
  | .rmtree p, true => d.keep fun q _ => !contains p q
  | .unlink p _, true => d.erase p
  | .rmdir p, true => d.erase p
  | _, _ => d

/-- The answers of a filesystem on which nothing fails. -/
def truthful (clock : ℕ) (d : Disk) : (op : FsOp) → op.Ans
  | .time => clock
  | .order names => names
  | .isSymlink p => decide (kind? d p = some .symlink)
  | .exists p => (kind? d p).isSome
  | .isDir p => decide (kind? d p = some .dir)
  | .isFile p => decide (kind? d p = some .file)
  | .iterdir p => if kind? d p = some .dir then .ok (names d p) else .error .fileNotFound
  | .stat p => (d.get? p).map Node.mtime
  | .rmtree p => decide (kind? d p = some .dir)
  | .unlink p missingOk => match kind? d p with
    | none => missingOk
    | some .dir => false
    | some _ => true
  | .rmdir p => decide (kind? d p = some .dir) && (names d p).isEmpty

variable {d : Disk} {op : FsOp} {a : op.Ans} {p q : Path} {k : Kind} {clock : ℕ}

theorem kind?_eq_some : kind? d p = some k ↔ ∃ n, d.get? p = some n ∧ n.kind = k := Option.map_eq_some_iff

theorem mem_names {r : Root} {n e : Name} :
    e ∈ names d (.dashboard r n) ↔ (kind? d (.entry r n e)).isSome := by
  unfold names kind?
  rw [List.mem_filterMap, Option.isSome_map]
  constructor
  · rintro ⟨q, hq, hc⟩
    obtain ⟨v, hv⟩ := Dict.mem_keys.mp hq
    cases q with
    | entry r' n' e' =>
      simp only [childOf, Option.ite_none_right_eq_some, Option.some.injEq] at hc
      obtain ⟨⟨rfl, rfl⟩, rfl⟩ := hc
      rw [hv]; rfl
    | _ => simp [childOf] at hc
  · intro h
    obtain ⟨v, hv⟩ := Option.isSome_iff_exists.mp h
    exact ⟨_, Dict.mem_keys.mpr ⟨v, hv⟩, by simp [childOf]⟩

theorem kind?_erase : kind? (d.erase p) q = if q = p then none else kind? d q := by
  unfold kind?
  rw [Dict.get?_erase]
  split <;> rfl

/-- **What a call takes away** is at the path it deletes, or in the directory. -/
theorem kind?_after (h : answers clock d op a = true) : kind? (after d op a) q = kind? d q ∨
    kind? (after d op a) q = none ∧ ((∃ p, op = .rmtree p ∧ contains p q = true ∧ kind? d p = some .dir) ∨
      (∃ missingOk, op = .unlink q missingOk) ∨ op = .rmdir q ∧ names d q = []) := by
  have herase : ∀ p, kind? (d.erase p) q = kind? d q ∨ kind? (d.erase p) q = none ∧ q = p := by
    intro p
    rw [kind?_erase]
    by_cases hq : q = p
    · exact .inr ⟨if_pos hq, hq⟩
    · exact .inl (if_neg hq)
  unfold after
  split
  case h_1 p =>
    have hdir : kind? d p = some .dir := by simpa [answers] using h
    unfold kind?
    rw [Dict.get?_keep]
    cases hq : contains p q
    · left; cases d.get? q <;> simp
    · right; exact ⟨by cases d.get? q <;> simp, .inl ⟨p, rfl, hq, hdir⟩⟩
  case h_2 p missingOk =>
    exact (herase p).imp_right fun ⟨hn, hq⟩ => ⟨hn, .inr (.inl ⟨missingOk, hq ▸ rfl⟩)⟩
  case h_3 p =>
    have hempty : names d p = [] := (by simpa [answers] using h : _ ∧ names d p = []).2
    exact (herase p).imp_right fun ⟨hn, hq⟩ => ⟨hn, .inr (.inr ⟨hq ▸ rfl, hq ▸ hempty⟩)⟩
  case h_4 => exact .inl rfl

end DeviceBuilder.Helpers.RemoteBuildTree
