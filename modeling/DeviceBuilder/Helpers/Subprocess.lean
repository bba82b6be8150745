import Mathlib.Data.List.Basic
import Mathlib.Data.Nat.Notation

/-!
# The lines of a subprocess

`iter_lines_with_progress` of `helpers/subprocess.py`: what is read from a stream is
cut after each LF, CR or CRLF, and a CR at the end of what was read waits for the
next read.

* `chunkEnd`: where the first chunk of the buffer ends; `chunkEnd_plain` and its
  neighbours give it byte by byte. `drain` is the inner loop.
* `iterLinesWithProgress`: the chunks of a stream, from its reads.
-/

namespace DeviceBuilder

abbrev Bytes := List UInt8

def lf : UInt8 := 10

def cr : UInt8 := 13

/-- Where the first chunk of the buffer ends; `none` if that takes more bytes. -/
def chunkEnd (buf : Bytes) : Option ℕ :=
  match buf.findIdx? (· == cr), buf.findIdx? (· == lf) with
  | none, none => none
  | none, some nl => some (nl + 1)
  | some c, nl? =>
    if nl?.all (c < ·) then
      -- a `\r` at the end of the buffer might open a `\r\n`
      if c + 1 = buf.length then none
      else some (if buf[c + 1]? = some lf then c + 2 else c + 1)
    else nl?.map (· + 1)

@[simp] theorem chunkEnd_nil : chunkEnd [] = none := rfl

theorem chunkEnd_lf (rest : Bytes) : chunkEnd (lf :: rest) = some 1 := by
  have hcr : (lf :: rest).findIdx? (· == cr) = (rest.findIdx? (· == cr)).map (· + 1) := by
    rw [List.findIdx?_cons]
    rfl
  have hlf : (lf :: rest).findIdx? (· == lf) = some 0 := by
    rw [List.findIdx?_cons]
    rfl
  unfold chunkEnd
  rw [hcr, hlf]
  cases rest.findIdx? (· == cr) <;> rfl

theorem chunkEnd_cr (x : UInt8) (rest : Bytes) :
    chunkEnd (cr :: x :: rest) = some (if x = lf then 2 else 1) := by
  have hcr : (cr :: x :: rest).findIdx? (· == cr) = some 0 := by
    rw [List.findIdx?_cons]
    rfl
  have hlf : (cr :: x :: rest).findIdx? (· == lf) =
      ((x :: rest).findIdx? (· == lf)).map (· + 1) := by
    rw [List.findIdx?_cons]
    rfl
  have hall : (((x :: rest).findIdx? (· == lf)).map (· + 1)).all (decide <| 0 < ·) = true := by
    cases (x :: rest).findIdx? (· == lf) <;> simp
  have hlen : 0 + 1 ≠ (cr :: x :: rest).length := by
    rw [List.length_cons, List.length_cons]
    omega
  unfold chunkEnd
  rw [hcr, hlf]
  dsimp only
  rw [if_pos hall, if_neg hlen]
  simp

@[simp] theorem chunkEnd_cr_last : chunkEnd [cr] = none := rfl

theorem chunkEnd_plain {b : UInt8} (hc : b ≠ cr) (hn : b ≠ lf) (rest : Bytes) :
    chunkEnd (b :: rest) = (chunkEnd rest).map (· + 1) := by
  have hcr : (b :: rest).findIdx? (· == cr) = (rest.findIdx? (· == cr)).map (· + 1) := by
    rw [List.findIdx?_cons, beq_eq_false_iff_ne.2 hc]
    rfl
  have hlf : (b :: rest).findIdx? (· == lf) = (rest.findIdx? (· == lf)).map (· + 1) := by
    rw [List.findIdx?_cons, beq_eq_false_iff_ne.2 hn]
    rfl
  unfold chunkEnd
  rw [hcr, hlf]
  cases rest.findIdx? (· == cr) with
  | none => cases rest.findIdx? (· == lf) <;> rfl
  | some c =>
    have hall : ((rest.findIdx? (· == lf)).map (· + 1)).all (decide <| c + 1 < ·) =
        (rest.findIdx? (· == lf)).all (decide <| c < ·) := by
      cases rest.findIdx? (· == lf) <;> simp
    dsimp only [Option.map_some]
    rw [hall]
    split
    · have hlen : (c + 1 + 1 = (b :: rest).length) = (c + 1 = rest.length) := by
        rw [List.length_cons, Nat.add_right_cancel_iff]
      simp only [hlen, List.getElem?_cons_succ]
      split
      · rfl
      · split <;> rfl
    · rw [Option.map_map]

theorem chunkEnd_pos {buf : Bytes} {e : ℕ} (h : chunkEnd buf = some e) :
    0 < e ∧ e ≤ buf.length := by
  induction buf generalizing e with
  | nil => cases h
  | cons b rest ih =>
    by_cases hn : b = lf
    · subst hn
      rw [chunkEnd_lf] at h
      cases h
      exact ⟨Nat.one_pos, Nat.succ_le_succ (Nat.zero_le _)⟩
    by_cases hc : b = cr
    · subst hc
      cases rest with
      | nil => cases h
      | cons x rest =>
        rw [chunkEnd_cr, Option.some.injEq] at h
        rw [List.length_cons, List.length_cons]
        split at h <;> omega
    · rw [chunkEnd_plain hc hn, Option.map_eq_some_iff] at h
      obtain ⟨e', h', rfl⟩ := h
      have := (ih h').2
      exact ⟨Nat.succ_pos _, Nat.succ_le_succ this⟩

/-- The inner loop: the chunks that the buffer yields, and what stays in it. -/
def drain (buf : Bytes) : List Bytes × Bytes :=
  match _h : chunkEnd buf with
  | none => ([], buf)
  | some e => (buf.take e :: (drain (buf.drop e)).1, (drain (buf.drop e)).2)
termination_by buf.length
decreasing_by
  all_goals
    have hpos := chunkEnd_pos _h
    rw [List.length_drop]
    omega

/-- The outer loop, one read after another; an empty one is the end of the stream. -/
def readChunks (buf : Bytes) : List Bytes → List Bytes
  | [] => if buf = [] then [] else [buf]
  | data :: reads =>
    if data = [] then (if buf = [] then [] else [buf])
    else (drain (buf ++ data)).1 ++ readChunks (drain (buf ++ data)).2 reads

/-- `iter_lines_with_progress`; `decode` is `bytes.decode("utf-8", errors="replace")`. -/
def iterLinesWithProgress {τ : Type*} (decode : Bytes → τ) (reads : List Bytes) : List τ :=
  (readChunks [] reads).map decode

end DeviceBuilder
