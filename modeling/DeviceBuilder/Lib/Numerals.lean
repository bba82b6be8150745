import Mathlib.Data.List.Basic
import Mathlib.Data.Nat.Notation

/-!
# Numerals

Natural numbers written in decimal, and read back where the digits may be those of
any script.

* `Decimals`: the digits with their values. Those of ASCII are `'0'` to `'9'`.
* `str`, `int`: writing and reading; `int_str` is the round trip.
-/

namespace Numerals

/-- The decimal digits of Unicode, with their values. -/
structure Decimals where
  value : Char → Option ℕ
  ascii : ∀ c : Char, c.toNat < 128 →
    value c = if c.isDigit then some (c.toNat - '0'.toNat) else none

/-- The digits of ASCII and no others. -/
def asciiDecimals : Decimals where
  value c := if c.isDigit then some (c.toNat - '0'.toNat) else none
  ascii _ _ := rfl

variable (u : Decimals)

/-- `str.isdecimal` of one character. -/
def isDecimal (c : Char) : Bool := (u.value c).isSome

/-- `str(n)`. -/
def str (n : ℕ) : List Char := Nat.toDigits 10 n

/-- `int(text)`, where every character of the text is a decimal digit. -/
def int (text : List Char) : ℕ := text.foldl (fun n c => 10 * n + (u.value c).getD 0) 0

theorem value_of_isDigit {c : Char} (h : c.isDigit) : u.value c = some (c.toNat - '0'.toNat) := by
  have hlt : c.toNat < 128 := by
    simp only [Char.isDigit, Bool.and_eq_true, decide_eq_true_eq, UInt32.le_iff_toNat_le] at h
    exact Nat.lt_of_le_of_lt h.2 (by decide)
  rw [u.ascii c hlt, if_pos h]

theorem isDecimal_of_isDigit {c : Char} (h : c.isDigit) : isDecimal u c = true := by
  rw [isDecimal, value_of_isDigit u h, Option.isSome_some]

theorem not_isDecimal_of_ascii {c : Char} (hc : c.toNat < 128) (h : c.isDigit = false) :
    isDecimal u c = false := by
  rw [isDecimal, u.ascii c hc, h]
  rfl

theorem isDecimal_of_mem_str {n : ℕ} {c : Char} (h : c ∈ str n) : isDecimal u c = true :=
  isDecimal_of_isDigit u (Nat.isDigit_of_mem_toDigits (by decide) (by decide) h)

theorem str_ne_nil (n : ℕ) : str n ≠ [] :=
  List.ne_nil_of_length_pos Nat.length_toDigits_pos

theorem int_of_isDigit {text : List Char} (h : ∀ c ∈ text, c.isDigit) :
    int u text = Nat.ofDigitChars 10 text 0 := by
  unfold int
  rw [Nat.ofDigitChars_eq_foldl]
  refine List.foldl_ext _ _ _ fun n c hc => ?_
  rw [value_of_isDigit u (h c hc), Option.getD_some]

@[simp] theorem int_str (n : ℕ) : int u (str n) = n := by
  have hdigits : ∀ c ∈ str n, c.isDigit := fun c hc =>
    Nat.isDigit_of_mem_toDigits (by decide) (by decide) hc
  rw [int_of_isDigit u hdigits, str, Nat.ofDigitChars_ten_toDigits]

end Numerals
