import FunasrApi.Offline.ModelPool
import FunasrApi.Results.SpeakerText

/-!
# The OFFLINE ONNX recognizer

A recognition decodes the segments in the pool of models, adds punctuation, asks for
the diarization if it has to, merges the two and normalizes the result. It succeeds
only with a usable diarization, unless it was told to do without, and then its
segments spell the transcript whatever else the pool was used for.
-/

namespace FunasrApi.Offline

open FunasrApi.Core FunasrApi.Results WorkerPool Text

/-- An exception. -/
structure Failure where
  /-- The exception is an `EngineRuntimeError`. -/
  engine : Bool
  /-- Its text. -/
  text : Text
deriving DecidableEq

/-- `format_runtime_error` of an OFFLINE recognition; the name of the backend is in capitals. -/
def formatRuntimeError (backend : Text) (exc : Failure) : Text :=
  if exc.engine then exc.text
  else "OFFLINE ".toList ++ backend ++ " 推理失败: ".toList ++ exc.text

section Speaker

variable {κ : Type}

/-- `StandaloneSpeakerRunner.recognize`, for what the recognizer and the normalization of its
payload come to. -/
def runSpeakerRecognizer (diarize : Except Failure (SpeakerResult κ)) : SpeakerResult κ :=
  match diarize with
  | .ok result => result
  | .error exc => ⟨[], some exc.text⟩

/-- What `_raise_if_speaker_unusable` raises. -/
def raiseIfSpeakerUnusable (result : SpeakerResult κ) : Except Failure Unit :=
  if result.error.getD [] ≠ [] then
    .error ⟨false, "OFFLINE SPK 二次校验失败: ".toList ++ result.error.getD []⟩
  else if result.segments = [] then
    .error ⟨false, "OFFLINE SPK 二次校验失败: 未返回有效说话人分段".toList⟩
  else .ok ()

/-- `_recognize_required_speaker`. -/
def recognizeRequiredSpeaker (diarize : Except Failure (SpeakerResult κ)) :
    Except Failure (SpeakerResult κ) :=
  let result := runSpeakerRecognizer diarize
  (raiseIfSpeakerUnusable result).map fun _ => result

end Speaker

section Speaker

variable {κ : Type} {diarize : Except Failure (SpeakerResult κ)} {result speaker : SpeakerResult κ}

theorem raiseIfSpeakerUnusable_eq_ok_iff :
    raiseIfSpeakerUnusable result = .ok () ↔ result.Usable := by
  unfold raiseIfSpeakerUnusable SpeakerResult.Usable
  split_ifs with herror hsegments
  · exact iff_of_false (fun h => nomatch h) fun h => herror h.1
  · exact iff_of_false (fun h => nomatch h) fun h => h.2 hsegments
  · exact iff_of_true rfl ⟨not_not.mp herror, hsegments⟩

/-- The recognition goes on only with a usable diarization. -/
theorem recognizeRequiredSpeaker_eq_ok_iff :
    recognizeRequiredSpeaker diarize = .ok speaker ↔ diarize = .ok speaker ∧ speaker.Usable := by
  have hbind : recognizeRequiredSpeaker diarize = .ok speaker ↔
      raiseIfSpeakerUnusable (runSpeakerRecognizer diarize) = .ok () ∧
        runSpeakerRecognizer diarize = speaker := by
    dsimp only [recognizeRequiredSpeaker]
    cases raiseIfSpeakerUnusable (runSpeakerRecognizer diarize) <;> simp [Except.map]
  rw [hbind, raiseIfSpeakerUnusable_eq_ok_iff]
  cases diarize with
  | error exc =>
    refine iff_of_false (fun h => ?_) fun h => nomatch h.1
    exact h.1.2 rfl
  | ok result =>
    constructor
    · rintro ⟨husable, rfl⟩
      exact ⟨rfl, husable⟩
    · rintro ⟨h, husable⟩
      obtain rfl := Except.ok.inj h
      exact ⟨husable, rfl⟩

end Speaker

/-- A recognition of `OfflineONNXRecognizer`, with what it calls. -/
structure OfflineOnnxRecognition (κ : Type) where
  /-- `get_offline_onnx_model_bundle`. -/
  loadModel : Except Failure Unit
  /-- `model.generate`. -/
  generate : Except Failure (OnnxPayload κ)
  /-- `offline_spk_verification_enabled`. -/
  spkVerificationEnabled : Bool
  /-- The SPK recognizer with the normalization of its payload. -/
  diarize : Except Failure (SpeakerResult κ)
  /-- `normalize_speaker_id`. -/
  normalizeSpeakerId : κ → κ
  /-- `str`, of a speaker. -/
  str : κ → Text
  /-- `(str(type(value)), str(value))`. -/
  label : κ → Lex (Text × Text)
  /-- The time since `start_time` at the end. -/
  elapsed : ℚ

namespace OfflineOnnxRecognition

variable {κ : Type} [DecidableEq κ] [Zero κ] (recognition : OfflineOnnxRecognition κ)

/-- `run_inference`; the flag is `speaker_verification_skipped`. -/
def runInference : Except Failure (OnnxPayload κ × Bool) :=
  recognition.generate.bind fun payload =>
    if recognition.spkVerificationEnabled then
      (recognizeRequiredSpeaker recognition.diarize).map fun speaker =>
        (mergeOnnxSpeakerResult payload (some speaker), false)
    else .ok (mergeOnnxSpeakerResult payload none, true)

/-- `parse_result`. -/
def parseResult (payload : OnnxPayload κ) (skipped : Bool) : RecognitionResult κ :=
  let segments := extractSegmentsFromSentenceInfo recognition.normalizeSpeakerId
    payload.sentenceInfo
  let fullText :=
    if skipped then
      if payload.text ≠ [] then payload.text else segments.flatMap Segment.text
    else if segments ≠ [] then buildFullTextWithSpeaker recognition.str segments
    else payload.text
  normalizeRecognitionResult recognition.label
    (some { buildRecognitionResult "offline".toList true with
      segments := segments, fullText := fullText })
    "offline".toList (some true) none none

/-- The `try` block of `recognize`. -/
def recognizeOrRaise : Except Failure (RecognitionResult κ) :=
  recognition.loadModel.bind fun _ =>
    recognition.runInference.map fun (payload, skipped) =>
      normalizeRecognitionResult recognition.label (some (recognition.parseResult payload skipped))
        "offline".toList (some true) (some recognition.elapsed) none

/-- `recognize`, with `build_error_recognition_result`. -/
def recognize : RecognitionResult κ :=
  match recognition.recognizeOrRaise with
  | .ok result => result
  | .error exc =>
    normalizeRecognitionResult recognition.label
      (some (buildRecognitionResult "offline".toList false)) "offline".toList (some false)
      (some recognition.elapsed) (some (formatRuntimeError "ONNX".toList exc))

/-- What the recognizer hands to the merge: a usable diarization, or none when it is told to do
without. -/
def SpeakerFor (speaker : Option (SpeakerResult κ)) : Prop :=
  if recognition.spkVerificationEnabled then
    ∃ result, speaker = some result ∧ recognition.diarize = .ok result ∧ result.Usable
  else speaker = none

/-- A recognition that succeeds has merged the payload with such a diarization. -/
theorem recognizeOrRaise_eq_ok_iff {result : RecognitionResult κ} :
    recognition.recognizeOrRaise = .ok result ↔
      recognition.loadModel = .ok () ∧ ∃ payload speaker, recognition.generate = .ok payload ∧
        recognition.SpeakerFor speaker ∧
        result = normalizeRecognitionResult recognition.label
          (some (recognition.parseResult (mergeOnnxSpeakerResult payload speaker)
            (!recognition.spkVerificationEnabled)))
          "offline".toList (some true) (some recognition.elapsed) none := by
  unfold recognizeOrRaise runInference SpeakerFor
  cases recognition.loadModel with
  | error exc => exact iff_of_false (fun h => nomatch h) fun h => nomatch h.1
  | ok loaded =>
    cases recognition.generate with
    | error exc =>
      refine iff_of_false (fun h => nomatch h) ?_
      rintro ⟨-, payload, speaker, h, -⟩
      cases h
    | ok payload =>
      cases recognition.spkVerificationEnabled with
      | false =>
        constructor
        · intro h
          exact ⟨rfl, payload, none, rfl, rfl, (Except.ok.inj h).symm⟩
        · rintro ⟨-, _, _, ⟨⟩, rfl, rfl⟩
          rfl
      | true =>
        cases hspeaker : recognizeRequiredSpeaker recognition.diarize with
        | error exc =>
          refine iff_of_false (fun h => nomatch h) ?_
          rintro ⟨-, _, _, -, ⟨result, -, hdiarize⟩, -⟩
          rw [recognizeRequiredSpeaker_eq_ok_iff.mpr hdiarize] at hspeaker
          cases hspeaker
        | ok result =>
          constructor
          · intro h
            exact ⟨rfl, payload, some result, rfl,
              ⟨result, rfl, recognizeRequiredSpeaker_eq_ok_iff.mp hspeaker⟩,
              (Except.ok.inj h).symm⟩
          · rintro ⟨-, _, _, ⟨⟩, ⟨other, rfl, hother⟩, rfl⟩
            rw [recognizeRequiredSpeaker_eq_ok_iff.mpr hother] at hspeaker
            obtain rfl := Except.ok.inj hspeaker
            rfl

/-- The segments of a recognition that succeeds are the merged sentences. -/
theorem recognize_of_ok {payload : OnnxPayload κ} {speaker : Option (SpeakerResult κ)}
    (hload : recognition.loadModel = .ok ()) (hgenerate : recognition.generate = .ok payload)
    (hspeaker : recognition.SpeakerFor speaker) :
    recognition.recognize.error = none ∧
      recognition.recognize.segments = extractSegmentsFromSentenceInfo
        recognition.normalizeSpeakerId (mergeOnnxSpeakerResult payload speaker).sentenceInfo := by
  have hok := recognition.recognizeOrRaise_eq_ok_iff.mpr
    ⟨hload, payload, speaker, hgenerate, hspeaker, rfl⟩
  rw [recognize, hok]
  dsimp only
  rw [(normalizeRecognitionResult_kept ..).1, (normalizeRecognitionResult_kept ..).2, parseResult,
    (normalizeRecognitionResult_kept ..).1, (normalizeRecognitionResult_kept ..).2]
  exact ⟨rfl, rfl⟩

omit [DecidableEq κ] [Zero κ] in
theorem exists_speakerFor_iff : (∃ speaker, recognition.SpeakerFor speaker) ↔
    (recognition.spkVerificationEnabled = true →
      ∃ result, recognition.diarize = .ok result ∧ result.Usable) := by
  unfold SpeakerFor
  cases recognition.spkVerificationEnabled with
  | false => simp
  | true =>
    constructor
    · rintro ⟨_, result, -, hresult⟩ -
      exact ⟨result, hresult⟩
    · intro h
      obtain ⟨result, hresult⟩ := h rfl
      exact ⟨some result, result, rfl, hresult⟩

end OfflineOnnxRecognition

namespace OfflineONNXModelBundle

variable {α κ π ε : Type} {bundle : OfflineONNXModelBundle α κ π ε}

/-- The punctuation of `generate`, which leaves an empty text alone and keeps the text when the
model has none; `puncModel` is the model with `extract_model_text`. -/
def finalText (puncModel : Text → Except (Raised ε) Text) (rawText : Text) :
    Except (Raised ε) Text :=
  if rawText = [] then .ok []
  else (puncModel rawText).map fun punctuated => if punctuated ≠ [] then punctuated else rawText

/-- `generate`, once the futures have completed. -/
def generate {σ : Type} (puncModel : Text → Except (Raised ε) Text) (segments : List VadSegment)
    (completed : List (Except (Raised ε) AsrSegmentDecode)) :
    Except (Raised ε) (OnnxPayload σ) :=
  (runAsrSegments completed segments.length).bind fun combined =>
    (finalText puncModel combined.text).map fun text =>
      { combinedPayload segments combined with text := text }

/-- Punctuation that leaves the tokens as they are leaves them in the final text. -/
theorem finalText_eq_ok {puncModel : Text → Except (Raised ε) Text} {rawText : Text}
    (hpunc : ∃ punctuated, puncModel rawText = .ok punctuated ∧
      (punctuated ≠ [] → textUnits punctuated = textUnits rawText)) :
    ∃ text, finalText puncModel rawText = .ok text ∧ textUnits text = textUnits rawText ∧
      (rawText = [] → text = []) := by
  unfold finalText
  by_cases hraw : rawText = []
  · exact ⟨[], if_pos hraw, by rw [hraw], fun _ => rfl⟩
  · obtain ⟨punctuated, hmodel, htokens⟩ := hpunc
    rw [if_neg hraw, hmodel]
    by_cases hsome : punctuated = []
    · exact ⟨rawText, by simp [Except.map, hsome], rfl, fun h => absurd h hraw⟩
    · exact ⟨punctuated, by simp [Except.map, hsome], htokens hsome, fun h => absurd h hraw⟩

/-- The models of the bundle answer alike for the slices of these segments. -/
def AnswersAlike (bundle : OfflineONNXModelBundle α κ π ε) (audioData : List α) (hotwords : Json)
    (segments : List VadSegment) (asr : ℕ → List α → AsrResult) : Prop :=
  ∀ model ∈ bundle.asrModels, ∀ p ∈ segments.zipIdx,
    sliceAudioByMs bundle.settings audioData p.1 ≠ [] →
      bundle.recognize model hotwords (sliceAudioByMs bundle.settings audioData p.1) =
        .ok (asr p.2 (sliceAudioByMs bundle.settings audioData p.1))

variable {s t : Pool α κ ε} {audioData : List α} {hotwords : Json}
  {segments : List VadSegment} {call : Call (AsrJob α) κ (Except (Raised ε) AsrSegmentDecode)}
  {completed : List (Except (Raised ε) AsrSegmentDecode)} {asr : ℕ → List α → AsrResult}

/-- Whatever else uses the pool meanwhile, a request of models that answer alike is combined to
the decodes of its segments. -/
theorem runAsrSegments_of_answersAlike (hs : bundle.Reachable s)
    (hrun : (machine bundle.poolRules).Reach (fun _ _ => True)
      (submitted s audioData hotwords segments) t)
    (hcall : t.calls[s.calls.length]? = some call) (hdone : call.Done)
    (hcompleted : completed.Perm (call.finished.map Prod.snd))
    (halike : bundle.AnswersAlike audioData hotwords segments asr) :
    ∃ decodes, decodes.Perm (segmentDecodes bundle.settings audioData asr segments) ∧
      runAsrSegments completed segments.length =
        .ok (combineAsrSegmentDecodes decodes segments.length) := by
  obtain ⟨model, hmodel, hfinished⟩ := finished_perm hs hrun hcall hdone
  have hdecodes : (asrJobs audioData hotwords segments).map (fun job =>
      bundle.decodeJob (model job.index) job) =
        (segmentDecodes bundle.settings audioData asr segments).map .ok := by
    rw [asrJobs, segmentDecodes, List.map_map, List.map_map]
    refine List.map_congr_left fun p hp => ?_
    exact bundle.decodeJob_eq_ok (halike (model p.2) (hmodel p.2) p hp)
  have hperm := (hcompleted.trans hfinished).symm
  rw [hdecodes] at hperm
  obtain ⟨decodes, hcollect, horder⟩ := collect_of_perm hperm (collect_eq_ok_iff.mpr rfl)
  exact ⟨decodes, horder, runAsrSegments_eq_ok_iff.mpr ⟨decodes, hcollect, rfl⟩⟩

end OfflineONNXModelBundle

section Transcript

variable {α σ : Type} [DecidableEq σ] [Zero σ] {settings : DecodeSettings} {audio : List α}
  {asr : ℕ → List α → AsrResult} {segments : List VadSegment}

/-- With punctuation that leaves the tokens as they are, the sentences spell the punctuated
transcript. -/
theorem speakerSentenceInfo_punctuated {text : Text} (hrate : 1000 ≤ settings.sampleRate)
    (hapart : Apart settings segments) (hasr : LocalDecodes settings audio asr segments)
    {decodes : List AsrSegmentDecode}
    (hdecodes : decodes.Perm (segmentDecodes settings audio asr segments))
    (hunits : textUnits text =
      textUnits (combineAsrSegmentDecodes decodes segments.length).text)
    (hempty : (combineAsrSegmentDecodes decodes segments.length).text = [] → text = [])
    (speakers : List (SpeakerSegment σ)) :
    (speakerSentenceInfo ({ combinedPayload segments
      (combineAsrSegmentDecodes decodes segments.length) with text := text } : OnnxPayload σ)
        speakers).flatMap SpokenSentence.text = text := by
  have hcombined := combineAsrSegmentDecodes_of_perm hdecodes
  dsimp only at hcombined
  rw [hcombined] at hunits hempty ⊢
  dsimp only at hunits hempty
  by_cases hunit : textUnits text = []
  · have hnone := segmentDecodes_of_no_token hasr (hunits ▸ hunit)
    have hraw : (segmentDecodes settings audio asr segments).flatMap AsrSegmentDecode.text = [] :=
      List.flatMap_eq_nil_iff.mpr fun decode hdecode => (hnone decode hdecode).1
    have htext := hempty hraw
    rw [speakerSentenceInfo_eq_nil, htext]
    · rfl
    · simp [OnnxPayload.spokenText, combinedPayload, htext, hraw]
    · exact List.flatMap_eq_nil_iff.mpr fun decode hdecode => (hnone decode hdecode).2.1
    · intro segment hsegment
      obtain ⟨decode, hdecode, rfl⟩ := List.mem_map.mp hsegment
      exact (hnone decode hdecode).2.2
  · have htext : text ≠ [] := fun hnil => hunit (by rw [hnil]; rfl)
    have hspoken : ∀ payload : OnnxPayload σ, payload.text = text → payload.spokenText = text := by
      intro payload h
      rw [OnnxPayload.spokenText, h, if_pos htext]
    have hlength : (textUnits text).length ≤ ((segmentDecodes settings audio asr
        segments).flatMap AsrSegmentDecode.timestamps).length := by
      rw [hunits]
      exact length_textUnits_flatMap_le
        (forall_segmentDecodes fun p hp => decodeSegment_lengths (hasr p hp))
    have horder := segmentDecodes_inTimeOrder hrate hapart hasr
    have hspells := sortedBy_timedTokens_text horder hlength hunit
    rw [speakerSentenceInfo_text, hspoken _ rfl]
    · exact hspells
    · rwa [hspoken _ rfl]
    · rwa [hspoken _ rfl]

end Transcript

namespace OfflineOnnxRecognition

variable {α κ π ε σ : Type} [DecidableEq σ] [Zero σ] {bundle : OfflineONNXModelBundle α κ π ε}
  {s t : OfflineONNXModelBundle.Pool α κ ε} {audioData : List α} {hotwords : Json}
  {segments : List VadSegment} {call : Call (AsrJob α) κ (Except (Raised ε) AsrSegmentDecode)}
  {completed : List (Except (Raised ε) AsrSegmentDecode)} {asr : ℕ → List α → AsrResult}

section TwoRequests

open OfflineONNXModelBundle

/-- What all models say of a slice. -/
def oneToken : AsrResult := ⟨['字'], some [⟨[], 0, 10⟩]⟩

/-- A bundle with two models that answer alike. -/
def equalModels : OfflineONNXModelBundle ℕ ℕ AsrResult Unit where
  settings := briefSettings
  asrModels := [0, 1]
  asrHotwordMode := .plain
  str _ := []
  call _ _ _ := .ok oneToken
  extract := .ok
  asrModels_ne_nil := twoModels_ne_nil

/-- The pool after a request whose second decode ends first. -/
def requestPool : Pool ℕ ℕ Unit :=
  poolAfter equalModels (submitted (initial [0, 1]) briefAudio .null briefSegments)
    [.call 0 .start, .call 0 .start, .call 0 (.take 0), .call 0 (.take 0), .call 0 (.finish 1),
      .call 0 (.finish 0)]

/-- The request. -/
def requestCall : Call (AsrJob ℕ) ℕ (Except (Raised Unit) AsrSegmentDecode) :=
  requestPool.calls[0]?.getD (Call.new [])

theorem requestPool_call : requestPool.calls[0]? = some requestCall := by
  have hsome : requestPool.calls[0]?.isSome = true := by decide +kernel
  obtain ⟨call, hcall⟩ := Option.isSome_iff_exists.mp hsome
  rw [requestCall, hcall]
  rfl

/-- A punctuation model that ends every text. -/
def addStop (text : Text) : Except (Raised Unit) Text := .ok (text ++ ['。'])

/-- Its recognition, with a diarization. -/
def requestRecognition : OfflineOnnxRecognition ℕ where
  loadModel := .ok ()
  generate := (OfflineONNXModelBundle.generate addStop briefSegments
    (requestCall.finished.map Prod.snd)).mapError fun _ => ⟨false, []⟩
  spkVerificationEnabled := true
  diarize := .ok oneSpeaker
  normalizeSpeakerId := id
  str _ := ['1']
  label _ := toLex ([], [])
  elapsed := 1

theorem equalModels_local :
    LocalDecodes equalModels.settings briefAudio (fun _ _ => oneToken) briefSegments := by
  have hlength : ∀ p ∈ briefSegments.zipIdx,
      10 ≤ (sliceAudioByMs equalModels.settings briefAudio p.1).length := by decide +kernel
  have htokens : textUnits oneToken.text ≠ [] ∧ (oneToken.timestamps.getD []).length =
      (textUnits oneToken.text).length ∧ InTimeOrder (oneToken.timestamps.getD []) := by decide
  intro p hp _
  have hlong := hlength p hp
  have hrate : equalModels.settings.sampleRate = 1000 := rfl
  refine ⟨htokens.1, htokens.2.1, htokens.2.2, fun stamp hstamp => ?_⟩
  obtain rfl : stamp = ⟨[], 0, 10⟩ := by simpa [oneToken] using hstamp
  rw [hrate]
  dsimp only
  omega

end TwoRequests

end OfflineOnnxRecognition

end FunasrApi.Offline
