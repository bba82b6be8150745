import DeviceBuilder.RemoteBuild.PeerLinkSessions

/-!
# Submitting a job

`submit_job/controller.py`: a header opens an upload for the session's dashboard
id, chunks feed its assembler, the last chunk acknowledges it and hands the
bundle to a post-ack task. Each handler ends in a send or returns to the receive
loop; `i` is the session's task.
-/

namespace DeviceBuilder

/-- `DATA_DIR_NAME`. -/
def dataDirName : String := ".esphome"

/-- `_validate_configuration_filename`. -/
def validateConfigurationFilename (lib : Library) (filename : String) : Option String :=
  let cs := filename.toList
  let ends (suffix : String) : Bool :=
    suffix.toList.isSuffixOf (lib.lower filename).toList
  let stem (n : ℕ) : Option String :=
    let deviceName := String.ofList (cs.take (cs.length - n))
    if deviceName ∈ ["", ".", ".."] ∨ lib.casefold deviceName = dataDirName then none
    else some deviceName
  if filename = "" then none
  else if cs.any fun c => c = '/' ∨ c.toNat = 92 ∨ c.toNat = 0 then none
  else if ends ".yaml" then stem 5
  else if ends ".yml" then stem 4
  else none

/-- `TARGET_TO_JOB_TYPE`. -/
def targetToJobType : String → Option JobType
  | "compile" => some .compile
  | "clean" => some .clean
  | "analyze_memory" => some .analyzeMemory
  | _ => none

/-- The reason text of an assembler error. -/
def BundleAssemblerErrorCode.value : BundleAssemblerErrorCode → String
  | .outOfOrder => "out_of_order"
  | .postCompletion => "post_completion"
  | .oversized => "oversized"
  | .undersized => "undersized"
  | .hashMismatch => "hash_mismatch"
  | .chunkCountMismatch => "chunk_count_mismatch"
  | .emptyBundle => "empty_bundle"

/-- `_RECOVERABLE_ASSEMBLER_ERRORS`. -/
def BundleAssemblerErrorCode.isRecoverable : BundleAssemblerErrorCode → Bool
  | .oversized | .undersized | .hashMismatch | .emptyBundle => true
  | _ => false

namespace ReceiverWorld

variable (lib : Library) (w : ReceiverWorld) (i : ℕ) (n : SessionId) (d : DashboardId)

/-- `_reject`, up to the send. -/
def reject (jobId reason : String) (dropInflight terminateSession : Bool) : ReceiverWorld :=
  let w : ReceiverWorld := if dropInflight then { w with inflight := w.inflight.erase d } else w
  (w.sendAppFrame n (.rejected n jobId reason)).setTask i
    (.session n (.send (if terminateSession then .terminate else .loop)))

/-- `_reject_assembler`. -/
def rejectAssembler (jobId : String) (code : BundleAssemblerErrorCode) : ReceiverWorld :=
  w.reject i n d jobId code.value true (!code.isRecoverable)

/-- `handle_submit_job`, up to the executor hop that resolves the extract dir. -/
def handleSubmitJob (safeJobId : String) : Option SubmitJobFrame → ReceiverWorld
  | none => w.reject i n d safeJobId "invalid_header" false true
  | some frame =>
    match validateConfigurationFilename lib frame.configurationFilename with
    | none => w.reject i n d frame.jobId "invalid_header" false false
    | some deviceStem => w.setTask i (.session n (.resolve frame deviceStem))

/-- The rest of `handle_submit_job`; `escapes` is the hop's `PathEscapeError`. -/
def registerUpload (frame : SubmitJobFrame) (deviceStem : String) (escapes : Bool) : ReceiverWorld :=
  let rej (reason : String) := w.reject i n d frame.jobId reason false false
  if escapes then rej "invalid_header"
  else if (w.inflight.get? d).isSome ∨ (w.extractIndex.get? (d, frame.jobId)).isSome then
    rej "duplicate_submit"
  else if frame.target = "upload" then rej "upload_unsupported"
  else if targetToJobType frame.target = none then rej "invalid_header"
  else
    match BundleAssembler.create frame.totalBundleBytes frame.numChunks
      (lib.lower frame.bundleSha256) bundleMaxTotalBytes with
    | .error code => rej code.value
    | .ok assembler =>
      (ReceiverWorld.emit { w with inflight := w.inflight.set d {
        jobId := frame.jobId, configurationFilename := frame.configurationFilename
        target := frame.target, deviceStem := deviceStem, assembler := assembler
        openedBy := n } } (.work n)).setTask i (.session n .receive)

/-- `_finalise_and_queue`, up to the accepted ack. -/
def finaliseAndQueue (pending : PendingSubmit) : ReceiverWorld :=
  let w : ReceiverWorld := { w with inflight := w.inflight.erase d }
  if w.extractsStopped then w.setTask i (.session n .receive)
  else
    match (pending.assembler.finalise lib.sha256Hex).1 with
    | .error code => w.rejectAssembler i n d pending.jobId code
    | .ok _ =>
      (w.sendAppFrame n (.accepted n pending.jobId)).setTask i (.session n (.send (.spawnExtract pending)))

/-- `handle_submit_job_chunk`. -/
def handleSubmitJobChunk (safeJobId : String) : Option SubmitJobChunkFrame → ReceiverWorld
  | none => w.reject i n d safeJobId "invalid_chunk" true true
  | some frame =>
    match w.inflight.get? d with
    | none => w.reject i n d frame.jobId "no_inflight_submit" false false
    | some pending =>
      if frame.jobId ≠ pending.jobId then w.reject i n d frame.jobId "job_id_mismatch" false false
      else
        match frame.data with
        | none => w.reject i n d pending.jobId "chunk_decode_failed" true true
        | some raw =>
          let fed := pending.assembler.feed frame.chunkIndex raw frame.isLast
          let pending := { pending with assembler := fed.2 }
          let w : ReceiverWorld := { w with inflight := w.inflight.adjust d fun _ => pending }
          match fed.1 with
          | some code => w.rejectAssembler i n d pending.jobId code
          | none =>
            let w := w.emit (.work n)
            if frame.isLast then w.finaliseAndQueue lib i n d pending
            else w.setTask i (.session n .receive)

/-- `ExtractWindow.spawn`: track the post-ack task under its key, unless stopped. -/
def spawnExtract (pending : PendingSubmit) : ReceiverWorld :=
  let key : ExtractKey := (d, pending.jobId)
  if w.extractsStopped then w
  else (ReceiverWorld.emit { w with extractIndex := w.extractIndex.set key w.tasks.length }
    (.work n)).spawn (.extract key n pending .start)

end ReceiverWorld

end DeviceBuilder
