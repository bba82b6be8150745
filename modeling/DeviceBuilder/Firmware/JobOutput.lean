import DeviceBuilder.Lib.Lines
import DeviceBuilder.Lib.Numerals
import DeviceBuilder.Models.Firmware
import DeviceBuilder.Helpers.Subprocess

/-!
# The output of a job

How `job.output` grows (`_ingest_output_line`, `_ingest_notice_line`), how it is cut
(`_trim_job_output`), and the sidecar that holds it once the job is terminal
(`_write_job_sidecar`, `read_job_output`).

* `ingestOutputLine`, `ingestNoticeLine`, `trimJobOutput`: the three writers of the
  buffer; `runOutput` is a run of them.
* `lineRe`: `_LINE_RE.findall`.
* `OutputSource`: what a job ingests, the chunks of a subprocess among it.
-/

namespace DeviceBuilder

open Lines (Text)
open Numerals (Decimals isDecimal)

/-! ### Constants -/

/-- `_MAX_OUTPUT_LINES_RETAINED`. -/
def maxOutputLinesRetained : ℕ := 2000

/-- `_INFLIGHT_TRIM_KEEP`. -/
def inflightTrimKeep : ℕ := maxOutputLinesRetained

/-- `_INFLIGHT_HYSTERESIS`. -/
def inflightHysteresis : ℕ := 2

/-- `_INFLIGHT_KEEP_BY_TYPE.get(job.job_type, _INFLIGHT_TRIM_KEEP)`. -/
def inflightKeep : JobType → ℕ
  | .analyzeMemory => 20000
  | _ => inflightTrimKeep

theorem inflightKeep_pos (jobType : JobType) : 0 < inflightKeep jobType := by
  cases jobType <;> simp [inflightKeep, inflightTrimKeep, maxOutputLinesRetained]

/-- `_OUTPUT_TRIM_NOTICE_PREFIX`. -/
def outputTrimNoticePrefix : Text := "... [output trimmed:".toList

/-! ### The buffer -/

/-- The notice for that many lines that were dropped. -/
def trimNotice (elided : ℕ) : Text :=
  outputTrimNoticePrefix ++ ' ' :: Numerals.str elided ++ " earlier line(s) elided]\n".toList

/-- The digits at the front of a text, where ` earlier` follows them. -/
def matchEarlier (u : Decimals) (text : Text) : Option Text :=
  let digits := text.takeWhile (isDecimal u)
  if digits ≠ [] ∧ " earlier".toList.isPrefixOf (text.dropWhile (isDecimal u)) then some digits
  else none

/-- `re.search(r"(\d+) earlier", text)`, its first group. -/
def searchEarlier (u : Decimals) : Text → Option Text
  | [] => none
  | c :: text => (matchEarlier u (c :: text)).or (searchEarlier u text)

/-- The count of a notice at the front, and the lines that stand behind it. -/
def recoverElided (u : Decimals) : List Text → ℕ × List Text
  | [] => (0, [])
  | first :: output =>
    if outputTrimNoticePrefix.isPrefixOf first then
      (((searchEarlier u first).map (Numerals.int u)).getD 0, output)
    else (0, first :: output)

/-- `output[-keep:]`. -/
def lastLines (keep : ℕ) (output : List Text) : List Text :=
  if keep = 0 then output else output.drop (output.length - keep)

/-- `_trim_job_output`. -/
def trimJobOutput (u : Decimals) (keep : ℕ) (job : List Text) : List Text :=
  let (extraElided, output) := recoverElided u job
  if output.length ≤ keep then job
  else trimNotice (extraElided + (output.length - keep)) :: lastLines keep output

/-- Whether the line takes the place of the last one, which ended in a bare `\r`. -/
def overwrites (job : List Text) (line : Text) : Bool :=
  job.getLast?.any (·.getLast? == some '\r') && line != ['\n']

/-- Step 1 of `_ingest_output_line`. -/
def bufferLine (job : List Text) (line : Text) : List Text :=
  if overwrites job line then job.dropLast ++ [line] else job ++ [line]

/-- `_ingest_output_line`, what it does to `job.output`. -/
def ingestOutputLine (u : Decimals) (jobType : JobType) (job : List Text) (line : Text) :
    List Text :=
  let job := bufferLine job line
  if job.length > inflightKeep jobType * inflightHysteresis then
    trimJobOutput u (inflightKeep jobType) job
  else job

/-- `line.endswith(("\n", "\r"))`. -/
def isLineTerminated (line : Text) : Bool :=
  line.getLast? == some '\n' || line.getLast? == some '\r'

/-- The line of `_ingest_notice_line`, which starts anew behind an unterminated one. -/
def noticeLine (job : List Text) (text : Text) : Text :=
  (if job.getLast?.any (! isLineTerminated ·) then ['\n'] else []) ++
    "*** ".toList ++ text ++ " ***\n".toList

/-- `_ingest_notice_line`. -/
def ingestNoticeLine (u : Decimals) (jobType : JobType) (job : List Text) (text : Text) :
    List Text :=
  ingestOutputLine u jobType job (noticeLine job text)

/-- The calls that write the buffer. -/
inductive OutputCall
  | ingest (line : Text)
  | notice (text : Text)
  | trim (keep : ℕ)

def outputStep (u : Decimals) (jobType : JobType) (job : List Text) : OutputCall → List Text
  | .ingest line => ingestOutputLine u jobType job line
  | .notice text => ingestNoticeLine u jobType job text
  | .trim keep => trimJobOutput u keep job

/-- The buffer of a job after the calls. -/
def runOutput (u : Decimals) (jobType : JobType) (calls : List OutputCall) : List Text :=
  calls.foldl (outputStep u jobType) []

/-! ### The sidecar -/

/-- A terminator of the ingest split. -/
def isTerminator (c : Char) : Bool := c == '\n' || c == '\r'

/-- The matches of `_LINE_RE` in the text, `line` being what the next one has so far. -/
def lineRe (line : Text) : Text → List Text
  | [] => if line = [] then [] else [line]
  | c :: text =>
    if isTerminator c then (line ++ [c]) :: lineRe [] text else lineRe (line ++ [c]) text

/-- What the flush of a terminal job leaves on disk: an empty buffer writes nothing. -/
def writeJobSidecar (output : List Text) : Option Text :=
  if output = [] then none else some output.flatten

/-- `read_job_output`; `none` stands for a sidecar that does not exist. -/
def readJobOutput : Option Text → List Text
  | none => []
  | some text => lineRe [] text

/-- What a job ingests: the reads of one subprocess, or a single call. -/
inductive OutputSource
  | stream (reads : List Bytes)
  | call (c : OutputCall)

/-- The calls that a source makes; `decode` is `bytes.decode("utf-8", errors="replace")`. -/
def OutputSource.calls (decode : Bytes → Text) : OutputSource → List OutputCall
  | .stream reads => (iterLinesWithProgress decode reads).map .ingest
  | .call c => [c]

/-- The buffer of a job after its sources. -/
def ingested (u : Decimals) (jobType : JobType) (decode : Bytes → Text)
    (sources : List OutputSource) : List Text :=
  runOutput u jobType (sources.flatMap (OutputSource.calls decode))

end DeviceBuilder
