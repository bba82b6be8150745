import DeviceBuilder.Properties.Sessions

/-!
# In-flight uploads and their sessions

The table of in-flight uploads is keyed by dashboard id, and it is cleaned up when
the session in the slot unregisters. A session that supersedes another keeps the
upload of that one; a superseded session that still receives can open one, or feed
its successor's. `Sole` excludes these.

* `owned_step`: what one step of a sole uploader keeps.
* `upload_owned`: uploads, refusals and chunks, in every state such a run reaches.
* `upload_inherited`: a run in which a fresh session is refused for an upload of
  the session it superseded.
-/

namespace DeviceBuilder

open Runs

namespace ReceiverWorld

variable {cfg : PairingSettings} {w w' : ReceiverWorld} {a : ReceiverAction} {i : ℕ}
  {n m : SessionId} {d d' : DashboardId} {o : Prop}

/-- The chunk is fed to the assembler of `u`. -/
structure Feeds (w : ReceiverWorld) (d : DashboardId) (f : SubmitJobChunkFrame) (u : PendingSubmit) : Prop where
  inflight : w.inflight.get? d = some u
  jobId : f.jobId = u.jobId
  data : f.data.isSome = true

/-- Session `m` sent the header for which another one of `jobId` is a duplicate. -/
inductive Sent (w : ReceiverWorld) (d : DashboardId) (jobId : String) (m : SessionId) : Prop
  | inflight (u : PendingSubmit) (h : w.inflight.get? d = some u) (hm : u.openedBy = m)
  | extracting (k : ℕ) (u : PendingSubmit) (await : ExtractAwait)
      (h : w.extractIndex.get? (d, jobId) = some k)
      (ht : w.tasks[k]? = some (.extract (d, jobId) m u await))

/-- A header past its path check: it is recorded for the registered session only, and the bundle of
its job id is not being extracted for an earlier session. -/
structure SoleHeader (cfg : PairingSettings) (w : ReceiverWorld) (n : SessionId) (d : DashboardId)
    (f : SubmitJobFrame) : Prop where
  recorded : w.Records cfg.lib d f → w.peerLinkSessions.get? d = some n
  extracting : w.inflight.get? d = none → (w.extractIndex.get? (d, f.jobId)).isSome = true →
    ∃ m, n ≤ m ∧ w.Sent d f.jobId m

/-- No session supersedes one with an upload in flight, and uploads are sent on registered sessions. -/
def Sole (cfg : PairingSettings) (w : ReceiverWorld) : ReceiverAction → Prop
  | .resume i r => r.returns = true →
    (∀ d identity, w.tasks[i]? = some (.handshake d identity) →
      (w.peerLinkSessions.get? d).isSome = true → w.inflight.get? d = none) ∧
    ∀ n d f stem, w.tasks[i]? = some (.session n (.resolve f stem)) → w.dashboardId n = some d →
      SoleHeader cfg w n d f
  | .frame i (.submitJobChunk _ (some f)) _ => ∀ n d u, w.tasks[i]? = some (.session n .receive) →
      w.dashboardId n = some d → w.Feeds d f u → w.peerLinkSessions.get? d = some n
  | _ => True

/-- An upload in flight was opened by the session in the slot of its id. -/
def Owned (w : ReceiverWorld) : Prop :=
  ∀ d u, w.inflight.get? d = some u → w.peerLinkSessions.get? d = some u.openedBy

/-! ### One step -/

theorem Owned.handled (hw : Owned w) (h : Handled o n d w w')
    (ho : o → w.peerLinkSessions.get? d = some n) : Owned w' := by
  intro d' u' hu'
  rw [h.slots]
  rcases h.uploads d' u' hu' with ⟨u, hu, he⟩ | ⟨hp, rfl, he⟩
  · rw [← he]
    exact hw d' u hu
  · rw [he]
    exact ho hp

theorem Owned.same (hw : Owned w) (h₁ : w'.peerLinkSessions = w.peerLinkSessions)
    (h₂ : w'.inflight = w.inflight) : Owned w' := by
  intro d u hu
  rw [h₁]
  exact hw d u (h₂ ▸ hu)

/-- Only an id without an upload gets a new session in its slot. -/
theorem Owned.install (hw : Owned w) (hd : w.inflight.get? d = none) (identity : SessionIdentity) :
    Owned (w.install d identity) := by
  intro d' u hu
  have hne : d' ≠ d := by
    rintro rfl
    exact absurd (hd.symm.trans hu) nofun
  rw [install_slot, if_neg hne]
  exact hw d' u hu

/-- An upload goes with the session that holds the slot. -/
theorem Owned.unregister (hw : Owned w) (h : Unregistered n d w w') : Owned w' := by
  intro d' u hu
  rcases h.effect with ⟨-, hs, hi, -⟩ | ⟨-, hs, hi, -⟩
  · rw [hi, Dict.get?_erase] at hu
    rw [hs, Dict.get?_erase]
    split at hu
    · cases hu
    next hne =>
      rw [if_neg hne]
      exact hw d' u hu
  · rw [hs]
    exact hw d' u (hi ▸ hu)

/-- A registration at a slot without a session finds no upload. -/
theorem Owned.free {r : AwaitResult} (hw : Owned w) (hok : Sole cfg w (.resume i r)) (hr : r.returns = true)
    (identity : SessionIdentity) (ht : w.tasks[i]? = some (.handshake d identity)) : w.inflight.get? d = none := by
  cases hs : (w.peerLinkSessions.get? d).isSome with
  | true => exact (hok hr).1 d identity ht hs
  | false =>
    cases hu : w.inflight.get? d with
    | none => rfl
    | some u =>
      rw [hw d u hu] at hs
      cases hs

theorem owned_step (hok : Sole cfg w a) (hw : Owned w) : Owned (w.step cfg a) := by
  cases step_cases cfg w a with
  | idle h => exact hw.handled (h 0 "") False.elim
  | serve i n d await ht _ hd h =>
    refine hw.handled h ?_
    rintro ⟨r, f, stem, rfl, rfl, hr, hrec⟩
    exact ((hok hr).2 n d f stem ht hd).recorded hrec
  | register i r d identity ha hr ht h =>
    subst ha
    have hi : Owned (w.install d identity) := hw.install (hw.free hok hr identity ht) identity
    rw [h]
    rcases register_cases w i d identity with ha | ⟨-, -, hh⟩
    · exact hi.same ha.slots ha.inflight
    · exact hi.handled (hh False) False.elim
  | announce i r n d _ _ _ hd h =>
    have ha : Announced i n d w _ := announced hd
    rw [h]
    exact hw.same ha.slots ha.inflight
  | unregister i n d _ hd h =>
    rw [h]
    exact (hw.unregister (unregistered hd)).same rfl rfl
  | pairing a' _ h =>
    rw [h]
    exact hw.same rfl rfl
  | handshake d pub identity ha _ =>
    subst ha
    obtain ⟨h₁, -, -, h₂, -⟩ := step_handshake_fields cfg w d pub identity
    exact hw.same h₁ h₂

/-! ### Refusals -/

theorem sendAppFrame_log (w : ReceiverWorld) (n : SessionId) (e : ReceiverEvent) :
    (w.sendAppFrame n e).log = w.log ∨ (w.sendAppFrame n e).log = w.log ++ [e] := by
  unfold sendAppFrame
  split
  · exact .inl rfl
  · exact .inr rfl

theorem reject_log (w : ReceiverWorld) (i : ℕ) (n : SessionId) (d : DashboardId) (jobId reason : String)
    (drop term : Bool) :
    (w.reject i n d jobId reason drop term).log = w.log ∨
      (w.reject i n d jobId reason drop term).log = w.log ++ [.rejected n jobId reason] := by
  have h : ∀ w₁ : ReceiverWorld, w₁.log = w.log →
      (w₁.sendAppFrame n (.rejected n jobId reason)).log = w.log ∨
        (w₁.sendAppFrame n (.rejected n jobId reason)).log = w.log ++ [.rejected n jobId reason] := by
    intro w₁ h₁
    rw [← h₁]
    exact sendAppFrame_log w₁ n _
  cases drop with
  | true => exact h _ rfl
  | false => exact h _ rfl

/-- The one refusal of a handler that refuses once. -/
theorem reject_reason {jobId jobId' reason reason' : String} {drop term : Bool} {es : List ReceiverEvent}
    (h : (w.reject i n d jobId reason drop term).log = w.log ++ es) (he : .rejected n jobId' reason' ∈ es) :
    reason' = reason := by
  rcases reject_log w i n d jobId reason drop term with hl | hl
  · rw [hl, List.self_eq_append_right] at h
    rw [h] at he
    cases he
  · rw [hl] at h
    rw [← List.append_cancel_left h, List.mem_singleton] at he
    exact (ReceiverEvent.rejected.inj he).2.2

theorem assembler_not_duplicate (code : BundleAssemblerErrorCode) : "duplicate_submit" ≠ code.value := by
  cases code <;> decide

/-- A header is refused as a duplicate only for an upload of its id, or for a bundle of its job id. -/
theorem registerUpload_duplicate {lib : Library} {f : SubmitJobFrame} {stem : String} {esc : Bool}
    {es : List ReceiverEvent} (h : (w.registerUpload lib i n d f stem esc).log = w.log ++ es)
    (he : .rejected n f.jobId "duplicate_submit" ∈ es) :
    (w.inflight.get? d).isSome = true ∨ (w.extractIndex.get? (d, f.jobId)).isSome = true := by
  unfold registerUpload at h
  simp only at h
  split at h
  · exact absurd (reject_reason h he) (by decide)
  split at h
  · assumption
  split at h
  · exact absurd (reject_reason h he) (by decide)
  split at h
  · exact absurd (reject_reason h he) (by decide)
  split at h
  · exact absurd (reject_reason h he) (assembler_not_duplicate _)
  · rw [← List.append_cancel_left (show w.log ++ [.work n] = w.log ++ es from h), List.mem_singleton] at he
    cases he

/-- A header past its path check, in a step of its session. -/
theorem resolve_duplicate {r : AwaitResult} {f : SubmitJobFrame} {stem : String} {es : List ReceiverEvent}
    (h : (w.resumeSession cfg i n d (.resolve f stem) r).log = w.log ++ es)
    (he : .rejected n f.jobId "duplicate_submit" ∈ es) : r.returns = true ∧
      ((w.inflight.get? d).isSome = true ∨ (w.extractIndex.get? (d, f.jobId)).isSome = true) := by
  have hleave : (w.leaveLoop i n).log = w.log ++ es → False := by
    intro hl
    have hnil : es = [] := List.self_eq_append_right.1 hl
    rw [hnil] at he
    cases he
  cases r with
  | ok => exact ⟨rfl, registerUpload_duplicate h he⟩
  | locked => exact ⟨rfl, registerUpload_duplicate h he⟩
  | pathEscape => exact absurd (reject_reason h he) (by decide)
  | exception => exact (hleave h).elim
  | cancelled => exact (hleave h).elim

/-! ### The law -/

/-- **An upload in flight belongs to the registered session**, in a state of a run whose steps meet `ok`. -/
structure UploadLaw (cfg : PairingSettings) (ok : ReceiverWorld → ReceiverAction → Prop) (w : ReceiverWorld) :
    Prop where
  owner : ∀ d u, w.inflight.get? d = some u → w.peerLinkSessions.get? d = some u.openedBy
  header : ∀ i r n d f stem es, ok w (.resume i r) → w.tasks[i]? = some (.session n (.resolve f stem)) →
    w.dashboardId n = some d → (w.step cfg (.resume i r)).log = w.log ++ es →
    .rejected n f.jobId "duplicate_submit" ∈ es → ∃ m, n ≤ m ∧ w.Sent d f.jobId m
  chunk : ∀ i safe f localJobs n d u, ok w (.frame i (.submitJobChunk safe (some f)) localJobs) →
    w.tasks[i]? = some (.session n .receive) → w.dashboardId n = some d → w.Feeds d f u → u.openedBy = n

theorem upload_owned (h : Reachable cfg (Sole cfg) w) : UploadLaw cfg (Sole cfg) w := by
  obtain ⟨file, h⟩ := h
  have hslot := h.invariant (slotted_start file) fun _ a _ => slotted_step cfg a
  have hown : Owned w := h.invariant (I := Owned) nofun fun _ _ => owned_step
  refine ⟨hown, ?_, ?_⟩
  · intro i r n d f stem es hok ht hd hlog he
    rw [step_resume cfg ht] at hlog
    simp only [resumeTask, hd] at hlog
    obtain ⟨hr, hdup⟩ := resolve_duplicate hlog he
    cases hu : w.inflight.get? d with
    | some u =>
      -- the slot holds the latest session
      have hl := (hslot d u.openedBy).1 (hown d u hu)
      exact ⟨u.openedBy, hl.last n hd, .inflight u hu rfl⟩
    | none =>
      rw [hu] at hdup
      exact ((hok hr).2 n d f stem ht hd).extracting hu (hdup.resolve_left nofun)
  · intro i safe f localJobs n d u hok ht hd hf
    have hs := hok n d u ht hd hf
    rw [hown d u hf.inflight] at hs
    exact Option.some.inj hs

/-! ### Runs of one peer -/

def someHeader (jobId : String) : SubmitJobFrame :=
  { jobId := jobId, configurationFilename := "kitchen.yaml", target := "compile", totalBundleBytes := 1
    numChunks := 1, bundleSha256 := "00" }

/-- Session task `i` receives a header, and its path check returns. -/
def submit (i : ℕ) (jobId : String) : List ReceiverAction :=
  [.frame i (.submitJob jobId (some (someHeader jobId))) {}, .resume i .ok]

/-- A session is superseded with its upload in flight. -/
def inherits : List ReceiverAction := dial 0 ++ submit 0 "first" ++ dial 1

/-- The upload is of the superseded session. -/
theorem upload_inherited : ¬∀ (cfg : PairingSettings) (w : ReceiverWorld),
    Reachable cfg any w → UploadLaw cfg any w := by
  intro h
  have hw := h PairingState.someSettings _ ⟨someFile, Reaches.foldl inherits _⟩
  have hopener : ((inherits.foldl (step PairingState.someSettings)
      (start PairingState.someSettings someFile)).inflight.get? "kitchen").map (·.openedBy) = some 0 := by
    decide
  obtain ⟨u, hu, ho⟩ := Option.map_eq_some_iff.1 hopener
  have hs := hw.owner "kitchen" u hu
  rw [ho] at hs
  revert hs
  decide

/-- The first session closes before the second one registers; that one is sent a chunk. -/
def closesFirst : List ReceiverAction :=
  dial 0 ++ submit 0 "first" ++ [.wsClosed 0, .resume 0 .ok] ++ dial 1 ++ submit 1 "second" ++
    [.frame 1 (.submitJobChunk "second" (some
      { jobId := "second", chunkIndex := 0, data := some [0], isLast := false })) {}]

/-- A step of the registered session, or at an id without an upload. -/
def soleTest (w : ReceiverWorld) : ReceiverAction → Bool
  | .resume i _ => (w.tasks[i]?).all fun
      | .handshake d _ => (w.inflight.get? d).isNone
      | .session n (.resolve f _) => (w.dashboardId n).all fun d =>
          w.peerLinkSessions.get? d = some n && (w.extractIndex.get? (d, f.jobId)).isNone
      | _ => true
  | .frame i _ _ => (w.tasks[i]?).all fun
      | .session n _ => (w.dashboardId n).all fun d => w.peerLinkSessions.get? d = some n
      | _ => true
  | _ => true

theorem sole_of_test (cfg : PairingSettings) (w : ReceiverWorld) (a : ReceiverAction) (h : soleTest w a = true) :
    Sole cfg w a := by
  cases a with
  | resume i r =>
    intro _
    constructor
    · intro d identity ht _
      simpa [soleTest, ht] using h
    · intro n d f stem ht hd
      simp only [soleTest, ht, hd, Option.all_some, Bool.and_eq_true, decide_eq_true_eq, Option.isNone_iff_eq_none] at h
      refine ⟨fun _ => h.1, fun _ hx => ?_⟩
      rw [h.2] at hx
      cases hx
  | frame i fr lj =>
    cases fr with
    | submitJobChunk safe f =>
      cases f with
      | none => trivial
      | some f =>
        intro n d u ht hd _
        simpa [soleTest, ht, hd] using h
    | _ => trivial
  | _ => trivial

theorem upload_owned_closesFirst : UploadLaw PairingState.someSettings (Sole PairingState.someSettings)
    (closesFirst.foldl (step PairingState.someSettings) (start PairingState.someSettings someFile)) := by
  have hc : Reaches.checks (step PairingState.someSettings) soleTest closesFirst
      (start PairingState.someSettings someFile) = true := by decide
  have h := Reaches.foldl_checks (sole_of_test PairingState.someSettings) closesFirst _ hc
  exact @upload_owned PairingState.someSettings _ ⟨someFile, h⟩

end ReceiverWorld

end DeviceBuilder
