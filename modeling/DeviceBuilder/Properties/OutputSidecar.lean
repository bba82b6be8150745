import DeviceBuilder.Properties.JobOutput
import DeviceBuilder.Properties.LineChunks

/-!
# Job output on disk

What `read_job_output` gives back of the buffer that was written, for any sources of
output.

* `OutputLine`: a line with its one terminator; `Resplit`: lines as `_LINE_RE` cuts them.
* `resplit_lineRe`, `lineRe_flatten`: its matches have that shape, and lines of that
  shape are matched again.
* `Clean`: a call that keeps the shape; `resplit_of_clean` is the run.
* `sidecar_round_trip`: the result. `sidecar_loses_crlf`: a CRLF is read back as two
  lines.
-/

namespace DeviceBuilder

open Lines (Text)
open Numerals (Decimals asciiDecimals)

variable {u : Decimals} {jobType : JobType} {job lines : List Text} {line text : Text}

/-- Text without a terminator. -/
def Unbroken (text : Text) : Prop := ∀ c ∈ text, isTerminator c = false

/-- A line with its one terminator. -/
def OutputLine (line : Text) : Prop :=
  ∃ body c, line = body ++ [c] ∧ Unbroken body ∧ isTerminator c = true

/-- A last line: it may lack the terminator, but not be empty. -/
def LastLine (line : Text) : Prop := OutputLine line ∨ line ≠ [] ∧ Unbroken line

/-- Lines as `_LINE_RE` cuts them. -/
def Resplit : List Text → Prop
  | [] => True
  | [line] => LastLine line
  | line :: next :: lines => OutputLine line ∧ Resplit (next :: lines)

theorem Resplit.cons (h : OutputLine line) (hlines : Resplit lines) : Resplit (line :: lines) := by
  cases lines with
  | nil => exact .inl h
  | cons next lines => exact ⟨h, hlines⟩

theorem Resplit.tail (h : Resplit (line :: lines)) : Resplit lines := by
  cases lines with
  | nil => exact True.intro
  | cons next lines => exact h.2

theorem Resplit.drop (h : Resplit lines) (n : ℕ) : Resplit (lines.drop n) := by
  induction n generalizing lines with
  | zero => exact h
  | succ n ih =>
    cases lines with
    | nil => exact True.intro
    | cons line lines => exact ih h.tail

/-! ### The regex -/

theorem Unbroken.append {c : Char} (h : Unbroken line) (hc : isTerminator c = false) :
    Unbroken (line ++ [c]) := by
  intro d hd
  rw [List.mem_append, List.mem_singleton] at hd
  obtain hd | rfl := hd
  · exact h d hd
  · exact hc

theorem resplit_lineRe (h : Unbroken line) : Resplit (lineRe line text) := by
  induction text generalizing line with
  | nil =>
    unfold lineRe
    split
    · exact True.intro
    · next hne => exact Or.inr ⟨hne, h⟩
  | cons c text ih =>
    unfold lineRe
    split
    · next hc =>
      have hnil : Unbroken [] := fun d hd => absurd hd List.not_mem_nil
      exact (ih hnil).cons ⟨line, c, rfl, h, hc⟩
    · next hc => exact ih (h.append (Bool.eq_false_iff.2 hc))

/-- Text without a terminator only makes the next match longer. -/
theorem lineRe_unbroken {body : Text} (h : Unbroken body) :
    lineRe line (body ++ text) = lineRe (line ++ body) text := by
  induction body generalizing line with
  | nil => rw [List.nil_append, List.append_nil]
  | cons c body ih =>
    have hc : isTerminator c = false := h c List.mem_cons_self
    have hbody : Unbroken body := fun d hd => h d (List.mem_cons_of_mem _ hd)
    rw [List.cons_append, lineRe, hc, if_neg Bool.false_ne_true, ih hbody, List.append_assoc]
    rfl

theorem lineRe_outputLine (h : OutputLine line) : lineRe [] (line ++ text) = line :: lineRe [] text := by
  obtain ⟨body, c, rfl, hbody, hc⟩ := h
  rw [List.append_assoc, lineRe_unbroken hbody, List.nil_append, List.singleton_append, lineRe,
    if_pos hc]

theorem lineRe_flatten (h : Resplit lines) : lineRe [] lines.flatten = lines := by
  induction lines with
  | nil => rfl
  | cons line lines ih =>
    cases lines with
    | nil =>
      obtain hended | ⟨hne, hline⟩ := (h : LastLine line)
      · rw [List.flatten_cons, lineRe_outputLine hended]
        rfl
      · rw [List.flatten_cons, lineRe_unbroken hline, List.nil_append, List.flatten_nil, lineRe,
          if_neg hne]
    | cons next lines =>
      have hnext := ih h.2
      rw [List.flatten_cons, lineRe_outputLine h.1, hnext]

theorem read_write_iff (output : List Text) :
    readJobOutput (writeJobSidecar output) = output ↔ Resplit output := by
  unfold writeJobSidecar
  by_cases hnil : output = []
  · subst hnil
    exact ⟨fun _ => True.intro, fun _ => rfl⟩
  rw [if_neg hnil]
  constructor
  · intro h
    have hshape : Resplit (lineRe [] output.flatten) :=
      resplit_lineRe fun d hd => absurd hd List.not_mem_nil
    exact h ▸ hshape
  · intro h
    exact lineRe_flatten h

/-! ### Runs that keep the shape -/

/-- No line is left open at the end of the buffer. -/
def Closed (job : List Text) : Prop := ∀ line ∈ job.getLast?, isLineTerminated line = true

/-- A call whose line starts anew and has at most the one terminator. -/
def Clean (job : List Text) : OutputCall → Prop
  | .ingest line => Closed job ∧ LastLine line
  | .notice text => Closed job ∧ Unbroken text
  | .trim _ => True

theorem isLineTerminated_iff : isLineTerminated line ↔ ∃ c ∈ line.getLast?, isTerminator c := by
  unfold isLineTerminated isTerminator
  cases line.getLast? with
  | none => simp
  | some c => simp

/-- Behind a closed buffer all lines have their terminator. -/
theorem Resplit.concat (h : Resplit job) (hclosed : Closed job) (hline : LastLine line) :
    Resplit (job ++ [line]) := by
  induction job with
  | nil => exact hline
  | cons first job ih =>
    cases job with
    | nil =>
      refine Resplit.cons ?_ hline
      obtain hended | ⟨-, hopen⟩ := (h : LastLine first)
      · exact hended
      · obtain ⟨c, hc, hterm⟩ := isLineTerminated_iff.1 (hclosed first rfl)
        rw [hopen c (List.mem_of_getLast? hc)] at hterm
        cases hterm
    | cons next job =>
      have hrest : Closed (next :: job) := fun l hl => hclosed l hl
      exact Resplit.cons h.1 (ih h.2 hrest)

theorem Resplit.init (h : Resplit (job ++ [text])) (hline : LastLine line) :
    Resplit (job ++ [line]) := by
  induction job with
  | nil => exact hline
  | cons first job ih =>
    cases job with
    | nil => exact Resplit.cons h.1 hline
    | cons next job => exact Resplit.cons h.1 (ih h.2)

theorem Resplit.buffer (h : Resplit job) (hclosed : Closed job) (hline : LastLine line) :
    Resplit (bufferLine job line) := by
  unfold bufferLine
  split
  · next hover =>
    obtain rfl | ⟨front, last, rfl⟩ := List.eq_nil_or_concat job
    · exact hline
    · rw [List.concat_eq_append] at h ⊢
      rw [List.dropLast_concat]
      exact h.init hline
  · exact h.concat hclosed hline

theorem outputLine_trimNotice (n : ℕ) : OutputLine (trimNotice n) := by
  have hends : " earlier line(s) elided]\n".toList =
      " earlier line(s) elided]".toList ++ ['\n'] := by
    decide +kernel
  refine ⟨outputTrimNoticePrefix ++ ' ' :: Numerals.str n ++ " earlier line(s) elided]".toList,
    '\n', ?_, ?_, rfl⟩
  · rw [trimNotice, hends, ← List.append_assoc]
  · intro c hc
    have hfixed : ∀ c ∈ outputTrimNoticePrefix ++ ' ' :: " earlier line(s) elided]".toList,
        isTerminator c = false :=
      Lines.forall_of_all (by decide +kernel)
    have hdigit : ∀ c : Char, c.isDigit → isTerminator c = false := by
      intro c hc
      by_contra hterm
      rw [Bool.not_eq_false, isTerminator, Bool.or_eq_true, beq_iff_eq, beq_iff_eq] at hterm
      obtain rfl | rfl := hterm <;> cases hc
    simp only [List.mem_append, List.mem_cons] at hc hfixed
    obtain (hc | rfl | hc) | hc := hc
    · exact hfixed c (.inl hc)
    · rfl
    · exact hdigit c (Nat.isDigit_of_mem_toDigits (by decide) (by decide) hc)
    · exact hfixed c (.inr (.inr hc))

theorem Resplit.trim (h : Resplit job) (keep : ℕ) : Resplit (trimJobOutput u keep job) := by
  have hrest : Resplit (recoverElided u job).2 := by
    cases job with
    | nil => exact h
    | cons first job =>
      rw [recoverElided]
      split
      · exact h.tail
      · exact h
  unfold trimJobOutput
  dsimp only
  split
  · exact h
  · refine Resplit.cons (outputLine_trimNotice _) ?_
    unfold lastLines
    split
    · exact hrest
    · exact hrest.drop _

theorem Resplit.ingest (h : Resplit job) (hclosed : Closed job) (hline : LastLine line) :
    Resplit (ingestOutputLine u jobType job line) := by
  have hbuffer := h.buffer hclosed hline
  unfold ingestOutputLine
  dsimp only
  split
  · exact hbuffer.trim _
  · exact hbuffer

/-- A notice behind a closed buffer is one line. -/
theorem lastLine_notice (hclosed : Closed job) (htext : Unbroken text) :
    LastLine (noticeLine job text) := by
  have hopen : job.getLast?.any (! isLineTerminated ·) = false := by
    cases hlast : job.getLast? with
    | none => rfl
    | some last => rw [Option.any_some, hclosed last hlast, Bool.not_true]
  have hstars : Unbroken "*** ".toList ∧ Unbroken " ***".toList :=
    ⟨Lines.forall_of_all (by decide +kernel), Lines.forall_of_all (by decide +kernel)⟩
  refine .inl ⟨"*** ".toList ++ text ++ " ***".toList, '\n', ?_, ?_, rfl⟩
  · have hends : " ***\n".toList = " ***".toList ++ ['\n'] := by decide +kernel
    rw [noticeLine, hopen, if_neg Bool.false_ne_true, List.nil_append, hends, ← List.append_assoc]
  · intro c hc
    simp only [List.mem_append] at hc
    obtain (hc | hc) | hc := hc
    · exact hstars.1 c hc
    · exact htext c hc
    · exact hstars.2 c hc

theorem Resplit.step {call : OutputCall} (h : Resplit job) (hclean : Clean job call) :
    Resplit (outputStep u jobType job call) := by
  cases call with
  | ingest line => exact h.ingest hclean.1 hclean.2
  | notice text => exact h.ingest hclean.1 (lastLine_notice hclean.1 hclean.2)
  | trim keep => exact h.trim keep

/-- Every call is clean where it is made. -/
def CleanRun (u : Decimals) (jobType : JobType) (job : List Text) : List OutputCall → Prop
  | [] => True
  | call :: calls => Clean job call ∧ CleanRun u jobType (outputStep u jobType job call) calls

theorem resplit_of_clean {calls : List OutputCall} (h : Resplit job)
    (hclean : CleanRun u jobType job calls) : Resplit (calls.foldl (outputStep u jobType) job) := by
  induction calls generalizing job with
  | nil => exact h
  | cons call calls ih => exact ih (h.step hclean.1) hclean.2

/-- **Write and read** give the buffer back exactly if `_LINE_RE` cuts it the same way, as it
does after every run of clean calls. -/
theorem sidecar_round_trip (u : Decimals) (jobType : JobType) (decode : Bytes → Text)
    (sources : List OutputSource) :
    (readJobOutput (writeJobSidecar (ingested u jobType decode sources)) =
        ingested u jobType decode sources ↔ Resplit (ingested u jobType decode sources)) ∧
      (CleanRun u jobType [] (sources.flatMap (OutputSource.calls decode)) →
        readJobOutput (writeJobSidecar (ingested u jobType decode sources)) =
          ingested u jobType decode sources) := by
  refine ⟨read_write_iff _, fun hclean => ?_⟩
  have hnew : Resplit [] := True.intro
  rw [read_write_iff]
  exact resplit_of_clean hnew hclean

theorem sidecar_round_trip_notice :
    let sources : List OutputSource := [.call (.ingest ['a', '\r']), .call (.ingest ['b', '\n']),
      .call (.notice ['c'])]
    readJobOutput (writeJobSidecar (ingested asciiDecimals .compile (fun _ => []) sources)) =
      ingested asciiDecimals .compile (fun _ => []) sources := by
  refine (sidecar_round_trip asciiDecimals .compile (fun _ => []) _).2 ?_
  have ha : LastLine ['a', '\r'] := .inl ⟨['a'], '\r', rfl, Lines.forall_of_all rfl, rfl⟩
  have hb : LastLine ['b', '\n'] := .inl ⟨['b'], '\n', rfl, Lines.forall_of_all rfl, rfl⟩
  refine ⟨⟨?_, ha⟩, ⟨?_, hb⟩, ⟨?_, Lines.forall_of_all rfl⟩, True.intro⟩
  · exact fun line hline => by cases hline
  · exact fun line hline => by cases hline; rfl
  · exact fun line hline => by cases hline; rfl

/-- One character for each byte of ASCII. -/
def asciiText (bytes : Bytes) : Text := bytes.map fun b => Char.ofNat b.toNat

theorem chunks_crlf : iterLinesWithProgress asciiText [[97, cr, lf]] = [['a', '\r', '\n']] := by
  have hend : chunkEnd [97, cr, lf] = some 3 := rfl
  have hdrain : drain [97, cr, lf] = ([[97, cr, lf]], []) := by
    have hrest : drain ([97, cr, lf].drop 3) = ([], []) := drain_none rfl
    rw [drain_some hend, hrest]
    rfl
  have hread : readChunks [] [[97, cr, lf]] = [[97, cr, lf]] := by
    rw [readChunks, if_neg (by decide), List.nil_append, hdrain]
    rfl
  rw [iterLinesWithProgress, hread]
  decide

/-- A CRLF of the stream is one line in the buffer and two when it is read back. -/
theorem sidecar_loses_crlf :
    ingested asciiDecimals .compile asciiText [.stream [[97, cr, lf]]] = [['a', '\r', '\n']] ∧
      readJobOutput (writeJobSidecar
        (ingested asciiDecimals .compile asciiText [.stream [[97, cr, lf]]])) =
          [['a', '\r'], ['\n']] := by
  have hbuffer : ingested asciiDecimals .compile asciiText [.stream [[97, cr, lf]]] =
      [['a', '\r', '\n']] := by
    rw [ingested, List.flatMap_singleton, OutputSource.calls, chunks_crlf]
    decide +kernel
  rw [hbuffer]
  exact ⟨rfl, by decide +kernel⟩

end DeviceBuilder
