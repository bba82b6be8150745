import DeviceBuilder.Lib.Lines

/-!
# Patterns

Regular expressions without captures, as functions on what is left of the text:
a pattern is given the pattern of the rest, and matches when some way of
matching lets the rest match.
-/

namespace Lines

/-- What is left of a text matches. -/
abbrev Pattern := Text → Bool

/-- `$` of a line. -/
def eol : Pattern := fun s => s == [] || s == ['\n']

/-- A literal. -/
def lit (w : Text) (k : Pattern) : Pattern := fun s => w.isPrefixOf s && k (s.drop w.length)

/-- `[q]*`. -/
def star (q : Char → Bool) (k : Pattern) : Pattern
  | [] => k []
  | c :: cs => k (c :: cs) || (q c && star q k cs)

/-- `[q]+`. -/
def plus (q : Char → Bool) (k : Pattern) : Pattern
  | [] => false
  | c :: cs => q c && star q k cs

/-- `(?:r)?`. -/
def opt (r : Pattern → Pattern) (k : Pattern) : Pattern := fun s => r k s || k s

/-- `.` -/
def dot (c : Char) : Bool := c != '\n'

/-- `\S`. -/
def nonSpace (c : Char) : Bool := !isSpace c

theorem lit_iff {w : Text} {k : Pattern} {s : Text} :
    lit w k s = true ↔ ∃ t, s = w ++ t ∧ k t = true := by
  unfold lit
  rw [Bool.and_eq_true_iff, List.isPrefixOf_iff_prefix]
  constructor
  · rintro ⟨⟨t, rfl⟩, hk⟩
    exact ⟨t, rfl, by simpa using hk⟩
  · rintro ⟨t, rfl, hk⟩
    exact ⟨⟨t, rfl⟩, by simpa using hk⟩

end Lines
