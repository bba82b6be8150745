import DeviceBuilder.Properties.ScalarLens
import Mathlib.Order.Basic

/-!
# The walk to a leaf

The walker of `read_yaml_scalar` over a part of the lines: the frames it leaves open
(`walk`), the rest of its way (`findLeaf_append`), and what lines inserted under a block do
to the way through the lines behind them (`findLeaf_apart`).
-/

namespace DeviceBuilder

open Lines

variable {word : Char → Bool} {p : List Text} {k : Text} {stack : Frames}

/-! ### Lines -/

theorem lineShape_congr {l l' : Text} (h : content l = content l') :
    lineShape word l = lineShape word l' := by
  unfold lineShape
  rw [h]

/-- The indent of a line for the walker. -/
def LineShape.depth? : LineShape → Option ℕ
  | .gap => none
  | .item n | .other n | .entry n _ => some n

theorem lineShape_depth {l : Text} {n : ℕ} (h : (lineShape word l).depth? = some n) :
    n = (leadingWs (content l)).length := by
  have hparts := congrArg List.length
    (List.takeWhile_append_dropWhile (p := (· == ' ')) (l := content l))
  rw [List.length_append] at hparts
  unfold lineShape at h
  unfold leadingWs
  have hn : n = (content l).length - (lstripBlanks (content l)).length := by
    dsimp only at h
    split at h
    · cases h
    · split at h
      · cases h
        rfl
      · split at h
        · cases h
          rfl
        · cases h
          rfl
  unfold lstripBlanks at hn
  omega

/-! ### The walk over some of the lines -/

/-- The frames after a line. -/
def Frames.visit (word : Char → Bool) (stack : Frames) (line : Text) : Frames :=
  match lineShape word line with
  | .gap => stack
  | .item n => (n, listFrame) :: stack.enclosing n
  | .other n => stack.enclosing n
  | .entry n m => (n, m.key) :: stack.enclosing n

/-- The frames after some lines. -/
def walk (word : Char → Bool) (stack : Frames) (lines : List Text) : Frames :=
  lines.foldl (Frames.visit word) stack

/-- A line is the leaf of the path. -/
def IsLeaf (word : Char → Bool) (p : List Text) (k : Text) (stack : Frames) (line : Text) : Prop :=
  ∃ n m, lineShape word line = .entry n m ∧ m.key = k ∧ (stack.enclosing n).keys = p

theorem findLeaf_cons_of_not {line : Text} {lines : List Text} (h : ¬ IsLeaf word p k stack line) :
    findLeaf word p k stack (line :: lines) =
      (findLeaf word p k (stack.visit word line) lines).map fun r => (r.1 + 1, r.2) := by
  rw [findLeaf, Frames.visit]
  cases hs : lineShape word line with
  | gap => rfl
  | item n => rfl
  | other n => rfl
  | entry n m =>
    dsimp only
    rw [if_neg fun hm => h ⟨n, m, hs, hm.1, hm.2⟩]

theorem findLeaf_cons_of_leaf {line : Text} {lines : List Text} {n : ℕ} {m : KeyMatch}
    (hs : lineShape word line = .entry n m) (hk : m.key = k) (hp : (stack.enclosing n).keys = p) :
    findLeaf word p k stack (line :: lines) = some (0, m) := by
  rw [findLeaf, hs]
  dsimp only
  rw [if_pos ⟨hk, hp⟩]

theorem not_isLeaf_of_none {line : Text} {lines : List Text}
    (h : findLeaf word p k stack (line :: lines) = none) : ¬ IsLeaf word p k stack line := by
  rintro ⟨n, m, hs, hk, hp⟩
  rw [findLeaf_cons_of_leaf hs hk hp] at h
  cases h

/-- **The walk goes on** after lines that hold no leaf. -/
theorem findLeaf_append {front back : List Text} (h : findLeaf word p k stack front = none) :
    findLeaf word p k stack (front ++ back) =
      (findLeaf word p k (walk word stack front) back).map
        fun r => (r.1 + front.length, r.2) := by
  induction front generalizing stack with
  | nil =>
    simp [walk]
  | cons line front ih =>
    have hn := not_isLeaf_of_none h
    rw [findLeaf_cons_of_not hn, Option.map_eq_none_iff] at h
    rw [List.cons_append, findLeaf_cons_of_not hn, ih h, Option.map_map]
    rfl

theorem findLeaf_append_none {front back : List Text} :
    findLeaf word p k stack (front ++ back) = none ↔
      findLeaf word p k stack front = none ∧
        findLeaf word p k (walk word stack front) back = none := by
  induction front generalizing stack with
  | nil => simp [walk, findLeaf]
  | cons line front ih =>
    by_cases hl : IsLeaf word p k stack line
    · obtain ⟨n, m, hs, hk, hp⟩ := hl
      rw [List.cons_append, findLeaf_cons_of_leaf hs hk hp, findLeaf_cons_of_leaf hs hk hp]
      simp
    · rw [List.cons_append, findLeaf_cons_of_not hl, findLeaf_cons_of_not hl,
        Option.map_eq_none_iff, Option.map_eq_none_iff]
      exact ih

/-- Only the shapes of the lines count. -/
theorem findLeaf_shapes {lines lines' : List Text}
    (h : lines.map (lineShape word) = lines'.map (lineShape word)) :
    findLeaf word p k stack lines = findLeaf word p k stack lines' := by
  induction lines generalizing stack lines' with
  | nil =>
    cases lines' with
    | nil => rfl
    | cons _ _ => cases h
  | cons line lines ih =>
    cases lines' with
    | nil => cases h
    | cons line' lines' =>
      obtain ⟨hline, hlines⟩ := List.cons.inj h
      rw [findLeaf, findLeaf, hline]
      cases hs : lineShape word line' with
      | gap => dsimp only; rw [ih hlines]
      | item n => dsimp only; rw [ih hlines]
      | other n => dsimp only; rw [ih hlines]
      | entry n m => dsimp only; rw [ih hlines]

/-! ### Frames -/

theorem Frames.enclosing_cons {n j : ℕ} {key : Text} (h : n ≤ j) :
    Frames.enclosing ((j, key) :: stack) n = stack.enclosing n :=
  List.dropWhile_cons_of_pos (by simpa using h)

theorem Frames.lt_of_enclosing {f : ℕ × Text} {rest : Frames} {n : ℕ}
    (h : stack.enclosing n = f :: rest) : f.1 < n := by
  have hhead := List.head?_dropWhile_not (fun g : ℕ × Text => decide (n ≤ g.1)) stack
  unfold Frames.enclosing at h
  rw [h] at hhead
  simpa using hhead

/-- Closing deeper frames first changes nothing. -/
theorem Frames.enclosing_enclosing {n j : ℕ} (h : j ≤ n) :
    (stack.enclosing n).enclosing j = stack.enclosing j := by
  induction stack with
  | nil => rfl
  | cons f stack ih =>
    by_cases hf : n ≤ f.1
    · have h1 : Frames.enclosing (f :: stack) n = Frames.enclosing stack n :=
        List.dropWhile_cons_of_pos (by simpa using hf)
      have h2 : Frames.enclosing (f :: stack) j = Frames.enclosing stack j :=
        List.dropWhile_cons_of_pos (by simpa using h.trans hf)
      rw [h1, h2, ih]
    · have h1 : Frames.enclosing (f :: stack) n = f :: stack :=
        List.dropWhile_cons_of_neg (by simpa using hf)
      rw [h1]

/-- A frame that is not as deep as the line stays the outermost one. -/
theorem Frames.enclosing_outer {f : ℕ × Text} {n : ℕ} (hf : f.1 < n) :
    Frames.enclosing (stack ++ [f]) n = stack.enclosing n ++ [f] := by
  unfold Frames.enclosing
  rw [List.dropWhile_append]
  split
  · next hnil =>
    rw [List.isEmpty_iff.1 hnil, List.nil_append]
    exact List.dropWhile_cons_of_neg (by simpa using hf)
  · rfl

/-! ### After an insertion -/

/-- The walk over the new lines and the one over the old lines are at the same place, or the
first is still under the written block. -/
def WalksApart (block : Text) (stack stack' : Frames) : Prop :=
  stack = stack' ∨ ∃ n f inner, f ≤ n ∧ stack' = inner ++ [(f, block)] ∧
    stack.enclosing n = stack'.enclosing n

/-- **An insertion hides or leads nothing to another block.** -/
theorem findLeaf_apart {block q : Text} (hq : q ≠ block) {lines : List Text} {stack' : Frames}
    (hapart : WalksApart block stack stack') (h : findLeaf word [q] k stack lines = none) :
    findLeaf word [q] k stack' lines = none := by
  induction lines generalizing stack stack' with
  | nil => rfl
  | cons line lines ih =>
    rcases hapart with rfl | ⟨n, f, inner, hf, rfl, hsync⟩
    · exact h
    have hnot := not_isLeaf_of_none h
    -- at the depth of the insertion or above, the two walks meet again
    have hmeet : ∀ j, j ≤ n → stack.enclosing j = Frames.enclosing (inner ++ [(f, block)]) j := by
      intro j hj
      rw [← Frames.enclosing_enclosing hj, hsync, Frames.enclosing_enclosing hj]
    have hkeep : ∀ j, n < j → Frames.enclosing (inner ++ [(f, block)]) j =
        Frames.enclosing inner j ++ [(f, block)] := fun j hj =>
      Frames.enclosing_outer (hf.trans_lt hj)
    have hnot' : ¬ IsLeaf word [q] k (inner ++ [(f, block)]) line := by
      rintro ⟨j, m, hs, hk, hp⟩
      by_cases hj : j ≤ n
      · exact hnot ⟨j, m, hs, hk, (hmeet j hj).symm ▸ hp⟩
      · rw [hkeep j (Nat.lt_of_not_le hj)] at hp
        simp only [Frames.keys, List.map_append, List.reverse_append, List.map_cons,
          List.map_nil, List.reverse_cons, List.reverse_nil, List.nil_append,
          List.singleton_append, List.cons.injEq] at hp
        exact hq hp.1.symm
    rw [findLeaf_cons_of_not hnot, Option.map_eq_none_iff] at h
    rw [findLeaf_cons_of_not hnot', Option.map_eq_none_iff]
    refine ih ?_ h
    -- a frame pushed at `j` is popped at `n` when it is deeper
    have hpush : ∀ j key, WalksApart block ((j, key) :: stack.enclosing j)
        ((j, key) :: Frames.enclosing (inner ++ [(f, block)]) j) := by
      intro j key
      by_cases hj : j ≤ n
      · exact Or.inl (by rw [hmeet j hj])
      · have hlt := Nat.lt_of_not_le hj
        refine Or.inr ⟨n, f, (j, key) :: Frames.enclosing inner j, hf, ?_, ?_⟩
        · rw [hkeep j hlt]
          rfl
        · rw [Frames.enclosing_cons hlt.le, Frames.enclosing_cons hlt.le,
            Frames.enclosing_enclosing hlt.le, Frames.enclosing_enclosing hlt.le, hsync]
    unfold Frames.visit
    cases hs : lineShape word line with
    | gap => exact Or.inr ⟨n, f, inner, hf, rfl, hsync⟩
    | item j => exact hpush j listFrame
    | entry j m => exact hpush j m.key
    | other j =>
      by_cases hj : j ≤ n
      · exact Or.inl (hmeet j hj)
      · have hlt := Nat.lt_of_not_le hj
        refine Or.inr ⟨n, f, Frames.enclosing inner j, hf, hkeep j hlt, ?_⟩
        dsimp only
        rw [Frames.enclosing_enclosing hlt.le, Frames.enclosing_enclosing hlt.le, hsync]

end DeviceBuilder
