import DeviceBuilder.Lib.Dict

/-!
# Reading a store that changes

Every write of a versioned store takes a stamp that was not there before. Somebody who
has read a value, and a key for it (a stamp, or that there was none), compares the key with
the store later.

* `Guards`: where the key still matches, the value is still there. Every change of the store
  keeps it (`Guards.changes`).
* `guards_now`, `Valid.guards`: a value is guarded by a key taken with it, or before it.
* `Reader`: a computation that reads key by key. On a store that gives the same answers it
  does the same.
-/

structure Stamped (ν : Type*) where
  stamp : ℕ
  value : ν
  deriving DecidableEq

structure VersionedStore (κ ν : Type*) [DecidableEq κ] where
  items : Dict κ (Stamped ν)
  clock : ℕ
  stamps : ∀ k f, items.get? k = some f → f.stamp < clock

namespace VersionedStore

variable {κ ν : Type*} [DecidableEq κ] {s : VersionedStore κ ν} {k k' : κ} {v : ν} {key : Option ℕ}
  {a : Option (Stamped ν)}

def get? (s : VersionedStore κ ν) (k : κ) : Option (Stamped ν) := s.items.get? k

/-- The stamp of a key, if it is there. -/
def stat (s : VersionedStore κ ν) (k : κ) : Option ℕ := (s.get? k).map Stamped.stamp

def empty : VersionedStore κ ν where
  items := ∅
  clock := 0
  stamps _ _ h := by cases h

/-- Write `v` under `k`, with a stamp of its own. -/
def write (s : VersionedStore κ ν) (k : κ) (v : ν) : VersionedStore κ ν where
  items := s.items.set k ⟨s.clock, v⟩
  clock := s.clock + 1
  stamps k' f h := by
    rw [Dict.get?_set] at h
    split at h
    · cases h
      exact Nat.lt_succ_self _
    · exact Nat.lt_succ_of_lt (s.stamps k' f h)

def delete (s : VersionedStore κ ν) (k : κ) : VersionedStore κ ν where
  items := s.items.erase k
  clock := s.clock
  stamps k' f h := s.stamps k' f (Dict.of_get?_erase h).2

theorem get?_write : (s.write k v).get? k' = if k' = k then some ⟨s.clock, v⟩ else s.get? k' := Dict.get?_set

theorem get?_delete : (s.delete k).get? k' = if k' = k then none else s.get? k' := Dict.get?_erase

@[simp] theorem clock_write : (s.write k v).clock = s.clock + 1 := rfl

@[simp] theorem clock_delete : (s.delete k).clock = s.clock := rfl

theorem stat_lt {n : ℕ} (h : s.stat k = some n) : n < s.clock := by
  obtain ⟨f, hf, rfl⟩ := Option.map_eq_some_iff.1 h
  exact s.stamps k f hf

theorem stat_eq_none : s.stat k = none ↔ s.get? k = none := Option.map_eq_none_iff

/-! ### Guarded values -/

/-- Key `key` guards answer `a` of `k`: as long as the key matches, the answer is right. -/
structure Guards (s : VersionedStore κ ν) (k : κ) (key : Option ℕ) (a : Option (Stamped ν)) : Prop where
  old : ∀ n, key = some n → n < s.clock
  same : ∀ n f, key = some n → s.get? k = some f → f.stamp = n → a = some f
  absent : key = none → a = none

/-- A key that was taken of the store; what was absent then is absent. -/
structure Valid (s : VersionedStore κ ν) (k : κ) (key : Option ℕ) : Prop where
  old : ∀ n, key = some n → n < s.clock
  absent : key = none → s.get? k = none

theorem Guards.eq (h : s.Guards k key a) (hk : s.stat k = key) : s.get? k = a := by
  cases hf : s.get? k with
  | none =>
    have hn : key = none := by
      rw [← hk]
      exact stat_eq_none.2 hf
    exact (h.absent hn).symm
  | some f =>
    have hn : key = some f.stamp := by
      rw [← hk, stat, hf]
      rfl
    exact (h.same f.stamp f hn hf rfl).symm

theorem valid_now (s : VersionedStore κ ν) (k : κ) : s.Valid k (s.stat k) :=
  ⟨fun _ hn => stat_lt hn, stat_eq_none.1⟩

/-- An answer of now is guarded by any key that was taken before. -/
theorem Valid.guards (h : s.Valid k key) : s.Guards k key (s.get? k) :=
  ⟨h.old, fun _ _ _ hf _ => hf, h.absent⟩

theorem guards_now (s : VersionedStore κ ν) (k : κ) : s.Guards k (s.stat k) (s.get? k) := (valid_now s k).guards

/-! ### One change -/

/-- Only the value of `k` changes: it goes, or has a new stamp. -/
structure Changes (s s' : VersionedStore κ ν) (k : κ) : Prop where
  clock : s.clock ≤ s'.clock
  other : ∀ k', k' ≠ k → s'.get? k' = s.get? k'
  here : ∀ f, s'.get? k = some f → s.clock ≤ f.stamp

theorem changes_write (s : VersionedStore κ ν) (k : κ) (v : ν) : s.Changes (s.write k v) k := by
  refine ⟨Nat.le_succ _, fun k' hk => ?_, fun f hf => ?_⟩
  · rw [get?_write, if_neg hk]
  · rw [get?_write, if_pos rfl] at hf
    cases hf
    exact Nat.le_refl _

theorem changes_delete (s : VersionedStore κ ν) (k : κ) : s.Changes (s.delete k) k := by
  refine ⟨Nat.le_refl _, fun k' hk => ?_, fun f hf => ?_⟩
  · rw [get?_delete, if_neg hk]
  · rw [get?_delete, if_pos rfl] at hf
    cases hf

/-- **A change keeps every guard**: a new stamp is not the key's. -/
theorem Guards.changes {s' : VersionedStore κ ν} (h : s.Guards k key a) (hc : s.Changes s' k') : s'.Guards k key a := by
  refine ⟨fun n hn => Nat.lt_of_lt_of_le (h.old n hn) hc.clock, fun n f hn hf hs => ?_, h.absent⟩
  by_cases hk : k = k'
  · subst hk
    have := hc.here f hf
    have := h.old n hn
    omega
  · rw [hc.other k hk] at hf
    exact h.same n f hn hf hs

/-- What was absent is not written. -/
theorem Valid.changes {s' : VersionedStore κ ν} (h : s.Valid k key) (hc : s.Changes s' k')
    (hk : key = none → k = k' → s'.get? k' = none) : s'.Valid k key := by
  refine ⟨fun n hn => Nat.lt_of_lt_of_le (h.old n hn) hc.clock, fun hn => ?_⟩
  by_cases he : k = k'
  · rw [he]
    exact hk hn he
  · rw [hc.other k he]
    exact h.absent hn

end VersionedStore

/-! ### Computations that read -/

/-- A computation that reads keys, one after another, and goes by the answers. -/
inductive Reader (κ α ρ : Type)
  | done (result : ρ)
  | read (key : κ) (rest : α → Reader κ α ρ)

namespace Reader

variable {κ α ρ : Type}

/-- The result on a store that stays as it is. -/
def run (store : κ → α) : Reader κ α ρ → ρ
  | .done r => r
  | .read k rest => run store (rest (store k))

/-- The keys it reads there. -/
def reads (store : κ → α) : Reader κ α ρ → List κ
  | .done _ => []
  | .read k rest => k :: reads store (rest (store k))

end Reader

/-- A store gives these answers. -/
def Answers {κ α : Type*} (store : κ → α) (answers : List (κ × α)) : Prop := ∀ e ∈ answers, store e.1 = e.2

theorem answers_append {κ α : Type*} {store : κ → α} {answers : List (κ × α)} {k : κ} {a : α} :
    Answers store (answers ++ [(k, a)]) ↔ Answers store answers ∧ store k = a := by
  constructor
  · intro h
    exact ⟨fun e he => h e (List.mem_append_left _ he), h (k, a) (List.mem_append_right _ (List.mem_singleton_self _))⟩
  · rintro ⟨h, hk⟩ e he
    rcases List.mem_append.1 he with he | he
    · exact h e he
    · rw [List.mem_singleton.1 he]
      exact hk
