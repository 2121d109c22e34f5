import FunasrApi.Core.WorkerPool
import FunasrApi.Hotwords.ModelFormat
import FunasrApi.Offline.OnnxMerge

/-!
# The pool of ASR models

All requests to a bundle share its ASR models. Each request decodes its segments in an
executor of its own, with as many workers as there are models; a decode takes a model
out of the queue, and puts it back even when the model raises. In every interleaving
the models are conserved, the requests end, and what a request comes to is what the
segments come to one after the other.
-/

namespace FunasrApi.Offline

open FunasrApi.Core FunasrApi.Hotwords WorkerPool Text

/-- What calling a model raises. -/
inductive Raised (ε : Type*)
  /-- A `TypeError`. -/
  | typeError
  /-- Any other exception. -/
  | other (exception : ε)
deriving DecidableEq

/-- `asr_hotword_mode`. -/
inductive AsrHotwordMode
  | plain
  | seaco
deriving DecidableEq

/-- `OfflineONNXModelBundle` with what its ASR models do: `call` is a call of a model with a
slice and, when it is given, the `hotwords` argument; `extract` is what `extract_model_text` and
`extract_timestamps` make of the result. -/
structure OfflineONNXModelBundle (α κ π ε : Type*) where
  /-- The sample rate and the padding. -/
  settings : DecodeSettings
  /-- `asr_models`. -/
  asrModels : List κ
  /-- `asr_hotword_mode`. -/
  asrHotwordMode : AsrHotwordMode
  /-- `str`, of values that are not strings. -/
  str : Json → Text
  /-- `model(segment_audio)` or `model(segment_audio, hotwords=...)`. -/
  call : κ → List α → Option Json → Except (Raised ε) π
  /-- The text and the timestamps of a result. -/
  extract : π → Except (Raised ε) AsrResult
  /-- `load_offline_onnx_models` refuses a bundle without an ASR model. -/
  asrModels_ne_nil : asrModels ≠ []

/-- A segment to decode, with the recording it is cut out of. -/
structure AsrJob (α : Type*) where
  /-- The recording. -/
  audioData : List α
  /-- The hotwords of the request. -/
  hotwords : Json
  /-- The index of the segment. -/
  index : ℕ
  /-- The segment. -/
  segment : VadSegment

namespace OfflineONNXModelBundle

variable {α κ π ε : Type*} (bundle : OfflineONNXModelBundle α κ π ε)

/-- `_invoke_asr_model`. -/
def invokeAsrModel (model : κ) (segmentAudio : List α) (hotwords : Json) :
    Except (Raised ε) π :=
  match bundle.asrHotwordMode with
  | .seaco =>
    match OfflineRecognizer.formatSeacoHotwords bundle.str hotwords with
    | some line => bundle.call model segmentAudio (some (.str line))
    | none => .error .typeError
  | .plain =>
    let result := bundle.call model segmentAudio (if hotwords.truth then some hotwords else none)
    match result with
    | .error .typeError => bundle.call model segmentAudio none
    | result => result

/-- What a model makes of a slice. -/
def recognize (model : κ) (hotwords : Json) (segmentAudio : List α) :
    Except (Raised ε) AsrResult :=
  (bundle.invokeAsrModel model segmentAudio hotwords).bind bundle.extract

/-- The jobs of a request. -/
def asrJobs (audioData : List α) (hotwords : Json) (segments : List VadSegment) :
    List (AsrJob α) :=
  segments.zipIdx.map fun p => ⟨audioData, hotwords, p.2, p.1⟩

/-- The slice of a job. -/
def slice (job : AsrJob α) : List α := sliceAudioByMs bundle.settings job.audioData job.segment

/-- The `decode_segment` of `_run_asr_segments`, with the model it takes. -/
def decodeJob (model : κ) (job : AsrJob α) : Except (Raised ε) AsrSegmentDecode :=
  if bundle.slice job = [] then
    .ok (emptyAsrSegmentDecode job.index job.segment.startMs job.segment.endMs)
  else
    (bundle.recognize model job.hotwords (bundle.slice job)).map fun asrResult =>
      asrResult.decode bundle.settings job.segment job.index

/-- The workers of a request and what they do; an empty slice needs no model. -/
def poolRules : Rules (AsrJob α) κ (Except (Raised ε) AsrSegmentDecode) where
  workers := bundle.asrModels.length
  direct job :=
    if bundle.slice job = [] then
      some (.ok (emptyAsrSegmentDecode job.index job.segment.startMs job.segment.endMs))
    else none
  work model job :=
    (bundle.recognize model job.hotwords (bundle.slice job)).map fun asrResult =>
      asrResult.decode bundle.settings job.segment job.index

/-- The pool of a bundle with the requests that use it. -/
abbrev Pool (α κ ε : Type*) := WorkerPool.State (AsrJob α) κ (Except (Raised ε) AsrSegmentDecode)

/-- The states that the pool of a bundle can come to, whatever requests arrive. -/
def Reachable (s : Pool α κ ε) : Prop := WorkerPool.Reachable bundle.poolRules bundle.asrModels s

/-- The end of `_run_asr_segments`: the results are taken as the futures complete, and the first
one that raised ends the request. -/
def runAsrSegments (completed : List (Except (Raised ε) AsrSegmentDecode)) (segmentCount : ℕ) :
    Except (Raised ε) CombinedDecodes :=
  (collect completed).map (combineAsrSegmentDecodes · segmentCount)

/-- The plain `_run_asr_segments`: the segments one after the other, with these models. -/
def sequentialAsrSegments (model : ℕ → κ) (audioData : List α) (hotwords : Json)
    (segments : List VadSegment) : Except (Raised ε) CombinedDecodes :=
  runAsrSegments ((asrJobs audioData hotwords segments).map fun job =>
    bundle.decodeJob (model job.index) job) segments.length

theorem poolRules_result (model : κ) (job : AsrJob α) :
    bundle.poolRules.result model job = bundle.decodeJob model job := by
  unfold Rules.result poolRules decodeJob
  dsimp only
  split <;> rfl

theorem decodeJob_of_nil {model : κ} {job : AsrJob α} (h : bundle.slice job = []) :
    bundle.decodeJob model job =
      .ok (emptyAsrSegmentDecode job.index job.segment.startMs job.segment.endMs) := by
  rw [decodeJob, if_pos h]

theorem decodeJob_of_ne_nil {model : κ} {job : AsrJob α} (h : bundle.slice job ≠ []) :
    bundle.decodeJob model job =
      (bundle.recognize model job.hotwords (bundle.slice job)).map fun asrResult =>
        asrResult.decode bundle.settings job.segment job.index := by
  rw [decodeJob, if_neg h]

/-- A job whose model has a result is decoded as its segment is. -/
theorem decodeJob_eq_ok {model : κ} {audioData : List α} {hotwords : Json} {index : ℕ}
    {segment : VadSegment} {asr : ℕ → List α → AsrResult}
    (h : sliceAudioByMs bundle.settings audioData segment ≠ [] →
      bundle.recognize model hotwords (sliceAudioByMs bundle.settings audioData segment) =
        .ok (asr index (sliceAudioByMs bundle.settings audioData segment))) :
    bundle.decodeJob model ⟨audioData, hotwords, index, segment⟩ =
      .ok (decodeSegment bundle.settings audioData segment asr index) := by
  let job : AsrJob α := ⟨audioData, hotwords, index, segment⟩
  have hjob : bundle.slice job = sliceAudioByMs bundle.settings audioData segment := rfl
  by_cases hslice : sliceAudioByMs bundle.settings audioData segment = []
  · rw [decodeSegment_of_nil hslice]
    exact bundle.decodeJob_of_nil (hjob.trans hslice)
  · rw [decodeSegment_of_ne_nil hslice]
    refine (bundle.decodeJob_of_ne_nil (hjob ▸ hslice)).trans ?_
    exact congrArg (Except.map _) (h hslice)

section Requests

variable {bundle} {s t : Pool α κ ε} {audioData : List α} {hotwords : Json}
  {segments : List VadSegment} {call : Call (AsrJob α) κ (Except (Raised ε) AsrSegmentDecode)}

/-- The pool when a request arrives. -/
def submitted (s : Pool α κ ε) (audioData : List α) (hotwords : Json)
    (segments : List VadSegment) : Pool α κ ε :=
  { s with calls := s.calls ++ [Call.new (asrJobs audioData hotwords segments)] }

theorem map_index_asrJobs :
    (asrJobs audioData hotwords segments).map AsrJob.index = List.range segments.length := by
  rw [asrJobs, List.map_map, List.range_eq_range', ← List.zipIdx_map_snd 0 segments]
  rfl

theorem decodeJob_index {model : κ} {job : AsrJob α} {decode : AsrSegmentDecode}
    (h : bundle.decodeJob model job = .ok decode) : decode.index = job.index := by
  by_cases hslice : bundle.slice job = []
  · rw [bundle.decodeJob_of_nil hslice] at h
    cases h
    rfl
  · rw [bundle.decodeJob_of_ne_nil hslice] at h
    cases hresult : bundle.recognize model job.hotwords (bundle.slice job) with
    | error e =>
      rw [hresult] at h
      cases h
    | ok asrResult =>
      rw [hresult] at h
      cases h
      rfl

/-- The decodes of all segments have the indices of the segments. -/
theorem index_of_collect {model : ℕ → κ} {decodes : List AsrSegmentDecode}
    (h : collect ((asrJobs audioData hotwords segments).map fun job =>
      bundle.decodeJob (model job.index) job) = .ok decodes) :
    decodes.map AsrSegmentDecode.index = List.range segments.length := by
  rw [show List.range segments.length = _ from (@map_index_asrJobs _ audioData hotwords _).symm]
  replace h := collect_eq_ok_iff.mp h
  generalize asrJobs audioData hotwords segments = jobs at h ⊢
  induction jobs generalizing decodes with
  | nil =>
    rw [List.map_nil, eq_comm, List.map_eq_nil_iff] at h
    rw [h]
    rfl
  | cons job jobs ih =>
    cases decodes with
    | nil => cases h
    | cons decode decodes =>
      obtain ⟨hjob, hjobs⟩ := List.cons.inj h
      rw [List.map_cons, List.map_cons, decodeJob_index hjob, ih hjobs]

/-- Whatever else uses the pool meanwhile, the results of a request are those of its segments,
each with some model of the bundle. -/
theorem finished_perm (hs : bundle.Reachable s)
    (hrun : (machine bundle.poolRules).Reach (fun _ _ => True)
      (submitted s audioData hotwords segments) t)
    (hcall : t.calls[s.calls.length]? = some call) (hdone : call.Done) :
    ∃ model : ℕ → κ, (∀ index, model index ∈ bundle.asrModels) ∧
      (call.finished.map Prod.snd).Perm ((asrJobs audioData hotwords segments).map fun job =>
        bundle.decodeJob (model job.index) job) := by
  have hreach : bundle.Reachable t :=
    (Machine.Reach.tail (.submit (asrJobs audioData hotwords segments)) hs trivial rfl).trans hrun
  have hsound := (Inv.of_reachable hreach).sound call (List.mem_of_getElem? hcall)
  have hnew : (submitted s audioData hotwords segments).calls[s.calls.length]? =
      some (Call.new (asrJobs audioData hotwords segments)) := by simp [submitted]
  obtain ⟨after, hafter, hperm⟩ := Reach.jobs hrun hnew
  obtain rfl : call = after := Option.some.inj (hcall.symm.trans hafter)
  have hjobs : call.jobs.Perm (asrJobs audioData hotwords segments) := by
    simpa [Call.new, Call.jobs] using hperm
  have hkeys : (call.jobs.map AsrJob.index).Nodup := by
    rw [(hjobs.map AsrJob.index).nodup_iff, map_index_asrJobs]
    exact List.nodup_range
  obtain ⟨model, hmodel, hfinished⟩ :=
    hsound.exists_assignment bundle.asrModels_ne_nil hdone hkeys
  refine ⟨model, hmodel, ?_⟩
  have hfst : call.jobs = call.finished.map Prod.fst := by
    obtain ⟨hqueued, hstarted, hholding⟩ := hdone
    rw [Call.jobs, hqueued, hstarted, hholding]
    rfl
  rw [hfinished, ← hfst]
  simp only [poolRules_result]
  exact hjobs.map _

/-- A request has a result when all its futures have. -/
theorem runAsrSegments_eq_ok_iff {completed : List (Except (Raised ε) AsrSegmentDecode)}
    {segmentCount : ℕ} {combined : CombinedDecodes} :
    runAsrSegments completed segmentCount = .ok combined ↔
      ∃ decodes, collect completed = .ok decodes ∧
        combineAsrSegmentDecodes decodes segmentCount = combined := by
  rw [runAsrSegments]
  cases collect completed <;> simp [Except.map]

/-- When it raises, a future raised. -/
theorem mem_of_runAsrSegments_eq_error {completed : List (Except (Raised ε) AsrSegmentDecode)}
    {segmentCount : ℕ} {e : Raised ε} (h : runAsrSegments completed segmentCount = .error e) :
    .error e ∈ completed := by
  apply mem_of_collect_eq_error
  unfold runAsrSegments at h
  cases hcollect : collect completed with
  | ok decodes =>
    rw [hcollect] at h
    cases h
  | error e' =>
    rw [hcollect] at h
    exact congrArg Except.error (Except.error.inj h)

/-- Only a slice that is not empty can raise, and it is the model that raises. -/
theorem decodeJob_eq_error {model : κ} {job : AsrJob α} {e : Raised ε}
    (h : bundle.decodeJob model job = .error e) :
    bundle.slice job ≠ [] ∧ bundle.recognize model job.hotwords (bundle.slice job) = .error e := by
  by_cases hslice : bundle.slice job = []
  · rw [bundle.decodeJob_of_nil hslice] at h
    cases h
  · rw [bundle.decodeJob_of_ne_nil hslice] at h
    refine ⟨hslice, ?_⟩
    cases hresult : bundle.recognize model job.hotwords (bundle.slice job) with
    | error other =>
      rw [hresult] at h
      exact congrArg Except.error (Except.error.inj h)
    | ok asrResult =>
      rw [hresult] at h
      cases h

/-- A request comes to what its segments come to one after the other: it has a result exactly
when they have, the same one, and when it raises, one of its slices raised that. -/
theorem runAsrSegments_of_done (hs : bundle.Reachable s)
    (hrun : (machine bundle.poolRules).Reach (fun _ _ => True)
      (submitted s audioData hotwords segments) t)
    (hcall : t.calls[s.calls.length]? = some call) (hdone : call.Done)
    {completed : List (Except (Raised ε) AsrSegmentDecode)}
    (hcompleted : completed.Perm (call.finished.map Prod.snd)) :
    ∃ model : ℕ → κ, (∀ index, model index ∈ bundle.asrModels) ∧
      (∀ combined, runAsrSegments completed segments.length = .ok combined ↔
        bundle.sequentialAsrSegments model audioData hotwords segments = .ok combined) ∧
      ∀ e, runAsrSegments completed segments.length = .error e →
        ∃ job ∈ asrJobs audioData hotwords segments, bundle.slice job ≠ [] ∧
          bundle.recognize (model job.index) hotwords (bundle.slice job) = .error e := by
  obtain ⟨model, hmodel, hfinished⟩ := finished_perm hs hrun hcall hdone
  have hperm := hcompleted.trans hfinished
  refine ⟨model, hmodel, fun combined => ?_, fun e he => ?_⟩
  · rw [sequentialAsrSegments, runAsrSegments_eq_ok_iff, runAsrSegments_eq_ok_iff]
    have hsame : ∀ {decodes ordered : List AsrSegmentDecode}, decodes.Perm ordered →
        ordered.map AsrSegmentDecode.index = List.range segments.length →
        combineAsrSegmentDecodes decodes segments.length =
          combineAsrSegmentDecodes ordered segments.length := fun h hindex =>
      (combineAsrSegmentDecodes_of_index h hindex).trans
        (combineAsrSegmentDecodes_of_index (List.Perm.refl _) hindex).symm
    constructor
    · rintro ⟨decodes, hdecodes, hcombined⟩
      obtain ⟨ordered, hordered, horder⟩ := collect_of_perm hperm hdecodes
      exact ⟨ordered, hordered,
        (hsame horder.symm (index_of_collect hordered)).symm.trans hcombined⟩
    · rintro ⟨ordered, hordered, hcombined⟩
      obtain ⟨decodes, hdecodes, horder⟩ := collect_of_perm hperm.symm hordered
      exact ⟨decodes, hdecodes, (hsame horder (index_of_collect hordered)).trans hcombined⟩
  · have hmem := hperm.subset (mem_of_runAsrSegments_eq_error he)
    obtain ⟨job, hjob, hraised⟩ := List.mem_map.mp hmem
    obtain ⟨hslice, hraised⟩ := decodeJob_eq_error hraised
    refine ⟨job, hjob, hslice, ?_⟩
    obtain ⟨p, -, rfl⟩ := List.mem_map.mp hjob
    exact hraised

/-- However the requests interleave, no model is lost or doubled and none serves two decodes at
once, no request has more decodes at work than there are models, and none keeps a model for an
empty slice. -/
theorem models_conserved (hs : bundle.Reachable s) :
    (s.free ++ s.held).Perm bundle.asrModels ∧
      (bundle.asrModels.Nodup → (s.free ++ s.held).Nodup) ∧
      ∀ call ∈ s.calls, call.active ≤ bundle.asrModels.length ∧
        ∀ p ∈ call.holding, bundle.slice p.1 ≠ [] := by
  have hinv := Inv.of_reachable hs
  refine ⟨hinv.conserved, fun hnodup => nodup_of_reachable hnodup hs, fun call hcall => ?_⟩
  have hsound := hinv.sound call hcall
  refine ⟨hsound.within, fun p hp hslice => ?_⟩
  have hdirect := hsound.needed p hp
  simp only [poolRules, hslice, if_true] at hdirect
  cases hdirect

/-- The requests cannot keep each other from ending: only so many steps are left as long as no
request arrives, and when no step is possible every request is done and all models are back,
also those that raised. -/
theorem requests_end (hs : bundle.Reachable s) :
    (∀ (steps : List (ℕ × CallStep)) t,
        (machine bundle.poolRules).run s (steps.map fun p => .call p.1 p.2) = some t →
          steps.length ≤ s.remaining) ∧
      ((∀ position callStep, step bundle.poolRules s (.call position callStep) = none) →
        (∀ call ∈ s.calls, call.Done) ∧ s.free.Perm bundle.asrModels) := by
  have hinv := Inv.of_reachable hs
  constructor
  · intro steps t hrun
    exact (Nat.le_add_right _ _).trans (length_le_remaining hrun)
  · intro hstuck
    have hdone : ∀ call ∈ s.calls, call.Done := by
      by_contra hopen
      simp only [not_forall, exists_prop] at hopen
      obtain ⟨position, callStep, t, hstep⟩ := exists_step
        (List.length_pos_iff.mpr bundle.asrModels_ne_nil) bundle.asrModels_ne_nil hinv hopen
      rw [hstuck position callStep] at hstep
      cases hstep
    exact ⟨hdone, free_perm_of_done hinv hdone⟩

end Requests

section Steps

variable {α κ π ε : Type*} {bundle : OfflineONNXModelBundle α κ π ε} {s : Pool α κ ε}
  {actions : List (Action (AsrJob α))}

/-- The pool after some steps. -/
def poolAfter (bundle : OfflineONNXModelBundle α κ π ε) (s : Pool α κ ε)
    (actions : List (Action (AsrJob α))) : Pool α κ ε :=
  ((machine bundle.poolRules).run s actions).getD s

theorem poolAfter_reach (h : ((machine bundle.poolRules).run s actions).isSome = true) :
    (machine bundle.poolRules).Reach (fun _ _ => True) s (poolAfter bundle s actions) := by
  obtain ⟨t, ht⟩ := Option.isSome_iff_exists.mp h
  rw [poolAfter, ht]
  exact .of_run actions (fun _ _ _ => trivial) ht

end Steps

section TwoModels

theorem one_le_briefRate : (1 : ℤ) ≤ 1000 := by decide

theorem briefPadding_nonneg : (0 : ℤ) ≤ 0 := le_rfl

theorem twoModels_ne_nil : ([0, 1] : List ℕ) ≠ [] := List.cons_ne_nil _ _

/-- A sample for each millisecond, and no padding. -/
def briefSettings : DecodeSettings := ⟨1000, 0, one_le_briefRate, briefPadding_nonneg⟩

/-- A bundle with two models, the second of which raises. -/
def twoModels : OfflineONNXModelBundle ℕ ℕ AsrResult Unit where
  settings := briefSettings
  asrModels := [0, 1]
  asrHotwordMode := .plain
  str _ := []
  call model slice _ :=
    if model = 0 then .ok ⟨['字'], some [⟨[], 0, slice.length⟩]⟩ else .error (.other ())
  extract := .ok
  asrModels_ne_nil := twoModels_ne_nil

/-- A tenth of a second. -/
def briefAudio : List ℕ := List.replicate 100 0

/-- Two segments of it. -/
def briefSegments : List VadSegment :=
  [⟨10, 45, by decide, by decide⟩, ⟨45, 90, by decide, by decide⟩]

/-- A segment after its end. -/
def lateSegments : List VadSegment := [⟨200, 300, by decide, by decide⟩]

/-- Two requests that arrive one after the other; the second needs no model. -/
def busyRun : List (Action (AsrJob ℕ)) :=
  [.submit (asrJobs briefAudio .null briefSegments), .call 0 .start, .call 0 (.take 0),
    .submit (asrJobs briefAudio .null lateSegments), .call 1 .start, .call 0 .start,
    .call 0 (.take 0), .call 1 (.skip 0)]

/-- Both models are at work for the first of the two requests. -/
def busyPool : Pool ℕ ℕ Unit := poolAfter twoModels (initial [0, 1]) busyRun

theorem busyPool_reachable : twoModels.Reachable busyPool := poolAfter_reach (by decide +kernel)

theorem busyPool_conserved :
    busyPool.held = [0, 1] ∧ (busyPool.free ++ busyPool.held).Perm [0, 1] :=
  ⟨by decide +kernel, (models_conserved busyPool_reachable).1⟩

theorem busyPool_ends : busyPool.remaining = 2 ∧
    ∀ (steps : List (ℕ × CallStep)) t,
      (machine twoModels.poolRules).run busyPool (steps.map fun p => .call p.1 p.2) = some t →
        steps.length ≤ busyPool.remaining :=
  ⟨by decide +kernel, (requests_end busyPool_reachable).1⟩

/-- The second of the two decodes, which raises, ends first. -/
def finishedPool : Pool ℕ ℕ Unit :=
  poolAfter twoModels (submitted (initial [0, 1]) briefAudio .null briefSegments)
    [.call 0 .start, .call 0 .start, .call 0 (.take 0), .call 0 (.take 0), .call 0 (.finish 1),
      .call 0 (.finish 0)]

/-- The request in it. -/
def finishedCall : Call (AsrJob ℕ) ℕ (Except (Raised Unit) AsrSegmentDecode) :=
  finishedPool.calls[0]?.getD (Call.new [])

theorem finishedPool_call : finishedPool.calls[0]? = some finishedCall := by
  have hsome : finishedPool.calls[0]?.isSome = true := by decide +kernel
  obtain ⟨call, hcall⟩ := Option.isSome_iff_exists.mp hsome
  rw [finishedCall, hcall]
  rfl

/-- The request raises what the second model raised. -/
theorem finishedCall_raises :
    ∃ model : ℕ → ℕ, (∀ index, model index ∈ twoModels.asrModels) ∧
      ∃ job ∈ asrJobs briefAudio .null briefSegments, twoModels.slice job ≠ [] ∧
        twoModels.recognize (model job.index) .null (twoModels.slice job) =
          .error (.other ()) := by
  have hidle : twoModels.Reachable (initial [0, 1]) := .refl
  have hrun : (machine twoModels.poolRules).Reach (fun _ _ => True)
      (submitted (initial [0, 1]) briefAudio .null briefSegments) finishedPool :=
    poolAfter_reach (by decide +kernel)
  obtain ⟨model, hmodel, -, hraised⟩ := runAsrSegments_of_done hidle hrun finishedPool_call
    (by decide +kernel) (List.Perm.refl _)
  exact ⟨model, hmodel, hraised (.other ()) (by decide +kernel)⟩

end TwoModels

end OfflineONNXModelBundle

end FunasrApi.Offline
