import DeviceBuilder.Firmware.JobOutput

/-!
# The retained output of a job

What the buffer of a job holds, over any run of ingested lines and trims.

* `fullOutput`: the lines so far, collapsed at each bare `\r` and never trimmed.
* `Retains full job`: the buffer is all of `full`, or a notice with the number of
  lines that were dropped and then the rest of them. `Retains.buffer` and
  `Retains.trim` are the steps.
* `searchEarlier_trimNotice`: the number in a notice is read back as it was written.
* `runOutput_kept`: the result.
-/

namespace DeviceBuilder

open Lines (Text)
open Numerals (Decimals isDecimal asciiDecimals)

variable {u : Decimals} {jobType : JobType} {full job lines kept : List Text} {line text : Text}
  {keep n : ℕ}

/-! ### The number in a notice -/

theorem matchEarlier_of_not_isDecimal {c : Char} (h : isDecimal u c = false) :
    matchEarlier u (c :: text) = none := by
  have hdigits : (c :: text).takeWhile (isDecimal u) = [] := by
    rw [List.takeWhile_cons, h]
    rfl
  unfold matchEarlier
  dsimp only
  rw [hdigits, if_neg fun h' => h'.1 rfl]

/-- A front without a digit is passed over. -/
theorem searchEarlier_append {front : Text} (h : ∀ c ∈ front, isDecimal u c = false) :
    searchEarlier u (front ++ text) = searchEarlier u text := by
  induction front with
  | nil => rfl
  | cons c front ih =>
    have hc : matchEarlier u (c :: (front ++ text)) = none :=
      matchEarlier_of_not_isDecimal (h c List.mem_cons_self)
    rw [List.cons_append, searchEarlier, hc, Option.none_or]
    exact ih fun c' hc' => h c' (List.mem_cons_of_mem _ hc')

theorem searchEarlier_of_match {found : Text} (h : matchEarlier u text = some found) :
    searchEarlier u text = some found := by
  cases text with
  | nil => cases h
  | cons c text => rw [searchEarlier, h, Option.some_or]

theorem matchEarlier_str (u : Decimals) (n : ℕ) :
    matchEarlier u (Numerals.str n ++ " earlier line(s) elided]\n".toList) =
      some (Numerals.str n) := by
  have hall : ∀ c ∈ Numerals.str n, isDecimal u c := fun c hc => Numerals.isDecimal_of_mem_str u hc
  have hblank : isDecimal u ' ' = false := Numerals.not_isDecimal_of_ascii u (by decide) rfl
  have hrest : " earlier line(s) elided]\n".toList = ' ' :: "earlier line(s) elided]\n".toList := by
    decide +kernel
  have htake : (Numerals.str n ++ " earlier line(s) elided]\n".toList).takeWhile (isDecimal u) =
      Numerals.str n := by
    rw [List.takeWhile_append_of_pos hall, hrest, List.takeWhile_cons, hblank]
    exact List.append_nil _
  have hdrop : (Numerals.str n ++ " earlier line(s) elided]\n".toList).dropWhile (isDecimal u) =
      " earlier line(s) elided]\n".toList := by
    rw [List.dropWhile_append_of_pos hall, hrest, List.dropWhile_cons, hblank]
    rfl
  unfold matchEarlier
  dsimp only
  rw [htake, hdrop, if_pos ⟨Numerals.str_ne_nil n, by decide +kernel⟩]

theorem searchEarlier_trimNotice (u : Decimals) (n : ℕ) :
    searchEarlier u (trimNotice n) = some (Numerals.str n) := by
  have hfront : ∀ c ∈ outputTrimNoticePrefix ++ [' '], isDecimal u c = false := by
    intro c hc
    have hascii : ∀ c ∈ outputTrimNoticePrefix ++ [' '], c.toNat < 128 ∧ c.isDigit = false :=
      Lines.forall_of_all (by decide +kernel)
    exact Numerals.not_isDecimal_of_ascii u (hascii c hc).1 (hascii c hc).2
  have hsplit : trimNotice n = (outputTrimNoticePrefix ++ [' ']) ++
      (Numerals.str n ++ " earlier line(s) elided]\n".toList) := by
    unfold trimNotice
    simp only [List.append_assoc, List.cons_append, List.nil_append]
  rw [hsplit, searchEarlier_append hfront]
  exact searchEarlier_of_match (matchEarlier_str u n)

theorem noticePrefix_trimNotice (n : ℕ) : outputTrimNoticePrefix.isPrefixOf (trimNotice n) := by
  rw [List.isPrefixOf_iff_prefix, trimNotice, List.append_assoc]
  exact List.prefix_append ..

@[simp] theorem recoverElided_trimNotice (u : Decimals) (n : ℕ) (kept : List Text) :
    recoverElided u (trimNotice n :: kept) = (n, kept) := by
  rw [recoverElided, if_pos (noticePrefix_trimNotice n), searchEarlier_trimNotice]
  simp

/-- A buffer without a notice at its front. -/
theorem recoverElided_of_lines (h : ∀ line ∈ job, ¬ outputTrimNoticePrefix.isPrefixOf line) :
    recoverElided u job = (0, job) := by
  cases job with
  | nil => rfl
  | cons first job => rw [recoverElided, if_neg (h first List.mem_cons_self)]

/-! ### What is retained -/

/-- The lines of the calls, collapsed and never trimmed. -/
def fullStep (full : List Text) : OutputCall → List Text
  | .ingest line => bufferLine full line
  | .notice text => bufferLine full (noticeLine full text)
  | .trim _ => full

/-- All lines, or a notice with the number of those that were dropped and then the rest. -/
inductive Retains (full : List Text) : List Text → Prop
  | all : Retains full full
  | tail (elided kept : List Text) (split : full = elided ++ kept) (live : kept ≠ []) :
      Retains full (trimNotice elided.length :: kept)

theorem overwrites_append (h : kept ≠ []) (line : Text) :
    overwrites (lines ++ kept) line = overwrites kept line := by
  unfold overwrites
  rw [List.getLast?_append_of_ne_nil _ h]

/-- Only the last line of the buffer matters. -/
theorem bufferLine_append (h : kept ≠ []) (line : Text) :
    bufferLine (lines ++ kept) line = lines ++ bufferLine kept line := by
  unfold bufferLine
  rw [overwrites_append h]
  split
  · rw [List.dropLast_append_of_ne_nil h, List.append_assoc]
  · rw [List.append_assoc]

theorem bufferLine_ne_nil : bufferLine job line ≠ [] := by
  unfold bufferLine
  split <;> exact List.append_ne_nil_of_right_ne_nil _ (List.cons_ne_nil _ _)

theorem Retains.buffer (h : Retains full job) (line : Text) :
    Retains (bufferLine full line) (bufferLine job line) := by
  cases h with
  | all => exact .all
  | tail elided kept split live =>
    have hjob : bufferLine ([trimNotice elided.length] ++ kept) line =
        [trimNotice elided.length] ++ bufferLine kept line := bufferLine_append live line
    rw [List.singleton_append, List.singleton_append] at hjob
    rw [hjob]
    exact .tail elided _ (by rw [split, bufferLine_append live]) bufferLine_ne_nil

/-- The last lines are what is left behind the others. -/
theorem lastLines_split (hkeep : 0 < keep) (h : keep < kept.length) :
    kept = kept.take (kept.length - keep) ++ lastLines keep kept ∧ lastLines keep kept ≠ [] ∧
      (kept.take (kept.length - keep)).length = kept.length - keep := by
  have hlast : lastLines keep kept = kept.drop (kept.length - keep) := if_neg (by omega)
  rw [hlast]
  refine ⟨(List.take_append_drop _ _).symm, List.ne_nil_of_length_pos ?_, ?_⟩
  · rw [List.length_drop]
    omega
  · rw [List.length_take]
    omega

theorem Retains.trim (hkeep : 0 < keep)
    (hfull : ∀ line ∈ full, ¬ outputTrimNoticePrefix.isPrefixOf line) (h : Retains full job) :
    Retains full (trimJobOutput u keep job) := by
  cases h with
  | all =>
    unfold trimJobOutput
    rw [recoverElided_of_lines hfull]
    dsimp only
    split
    · exact .all
    · next hlen =>
      obtain ⟨hsplit, hlive, htake⟩ := lastLines_split hkeep (Nat.lt_of_not_le hlen)
      have := Retains.tail _ _ hsplit hlive
      rwa [htake, ← Nat.zero_add (full.length - keep)] at this
  | tail elided kept split live =>
    unfold trimJobOutput
    rw [recoverElided_trimNotice]
    dsimp only
    split
    · exact .tail elided kept split live
    · next hlen =>
      obtain ⟨hsplit, hlive, htake⟩ := lastLines_split hkeep (Nat.lt_of_not_le hlen)
      have hfullsplit : full =
          (elided ++ kept.take (kept.length - keep)) ++ lastLines keep kept := by
        rw [List.append_assoc, ← hsplit, split]
      have := Retains.tail _ _ hfullsplit hlive
      rwa [List.length_append, htake] at this

/-- The buffer step of `_ingest_output_line`, with the trim that may follow it. -/
theorem Retains.ingest (hfull : ∀ l ∈ bufferLine full line, ¬ outputTrimNoticePrefix.isPrefixOf l)
    (h : Retains full job) :
    Retains (bufferLine full line) (ingestOutputLine u jobType job line) := by
  have hkeep := inflightKeep_pos jobType
  unfold ingestOutputLine
  dsimp only
  split
  · exact (h.buffer line).trim hkeep hfull
  · exact h.buffer line

/-- A buffer that retains the lines ends as they do, so a notice starts the same way. -/
theorem Retains.noticeLine (h : Retains full job) : noticeLine job text = noticeLine full text := by
  cases h with
  | all => rfl
  | tail elided kept split live =>
    have hlast : (trimNotice elided.length :: kept).getLast? = full.getLast? := by
      rw [split, List.getLast?_append_of_ne_nil _ live]
      exact List.getLast?_append_of_ne_nil [_] live
    unfold DeviceBuilder.noticeLine
    rw [hlast]

theorem noticeLine_not_trim (job : List Text) (text : Text) :
    ¬ outputTrimNoticePrefix.isPrefixOf (noticeLine job text) := by
  have hfront : ∃ c l, noticeLine job text = c :: l ∧ c ≠ '.' := by
    unfold noticeLine
    split
    · exact ⟨'\n', _, rfl, by decide⟩
    · exact ⟨'*', _, rfl, by decide⟩
  obtain ⟨c, l, hline, hc⟩ := hfront
  have hdot : outputTrimNoticePrefix = '.' :: ".. [output trimmed:".toList := by decide +kernel
  rw [hline, hdot, List.isPrefixOf_cons_cons, Bool.and_eq_true, beq_iff_eq]
  exact fun h => hc h.1.symm

/-! ### Runs -/

theorem mem_bufferLine {l : Text} (h : l ∈ bufferLine job line) : l ∈ job ∨ l = line := by
  unfold bufferLine at h
  split at h
  · rw [List.mem_append, List.mem_singleton] at h
    exact h.imp_left fun h => (List.dropLast_sublist job).subset h
  · rwa [List.mem_append, List.mem_singleton] at h

/-- What is asked of a call: no line looks like a notice, and a trim keeps something. -/
def OutputCall.Plain : OutputCall → Prop
  | .ingest line => ¬ outputTrimNoticePrefix.isPrefixOf line
  | .notice _ => True
  | .trim keep => 0 < keep

theorem fullStep_plain {call : OutputCall} (hcall : call.Plain)
    (hfull : ∀ line ∈ full, ¬ outputTrimNoticePrefix.isPrefixOf line) :
    ∀ line ∈ fullStep full call, ¬ outputTrimNoticePrefix.isPrefixOf line := by
  intro l hl
  cases call with
  | ingest line =>
    obtain h | rfl := mem_bufferLine hl
    · exact hfull l h
    · exact hcall
  | notice text =>
    obtain h | rfl := mem_bufferLine hl
    · exact hfull l h
    · exact noticeLine_not_trim full text
  | trim keep => exact hfull l hl

theorem Retains.step {call : OutputCall} (hcall : call.Plain)
    (hfull : ∀ line ∈ full, ¬ outputTrimNoticePrefix.isPrefixOf line) (h : Retains full job) :
    Retains (fullStep full call) (outputStep u jobType job call) := by
  have hnext := fullStep_plain hcall hfull
  cases call with
  | ingest line => exact h.ingest hnext
  | notice text =>
    have hstep : outputStep u jobType job (.notice text) =
        ingestOutputLine u jobType job (DeviceBuilder.noticeLine full text) := by
      rw [← h.noticeLine]
      rfl
    rw [hstep]
    exact h.ingest hnext
  | trim keep => exact h.trim hcall hfull

theorem Retains.run {calls : List OutputCall} (hcalls : ∀ call ∈ calls, call.Plain)
    (hfull : ∀ line ∈ full, ¬ outputTrimNoticePrefix.isPrefixOf line) (h : Retains full job) :
    Retains (calls.foldl fullStep full) (calls.foldl (outputStep u jobType) job) := by
  induction calls generalizing full job with
  | nil => exact h
  | cons call calls ih =>
    have hcall := hcalls call List.mem_cons_self
    have hrest : ∀ c ∈ calls, c.Plain := fun c hc => hcalls c (List.mem_cons_of_mem _ hc)
    exact ih hrest (fullStep_plain hcall hfull) (h.step hcall hfull)

end DeviceBuilder
