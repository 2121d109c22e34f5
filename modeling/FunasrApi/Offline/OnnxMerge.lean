import FunasrApi.Offline.SegmentDecodes
import FunasrApi.Offline.SentenceBuilder
import FunasrApi.Offline.Speakers

/-!
# Speakers for the transcript of the ONNX models

The transcript of a recording is put together from the decodes of its VAD
segments, aligned with their timestamps and regrouped by speaker in the order of
time. The padded slices of neighbouring segments overlap, so the order of time is
not always the order of the transcript.
-/

namespace FunasrApi.Offline

open FunasrApi.Core Text

/-- The payload of the ONNX pipeline, with the keys that merging reads and writes. -/
structure OnnxPayload (κ : Type*) where
  /-- The text with punctuation. -/
  text : Text
  /-- The text of the ASR models. -/
  rawText : Text
  /-- The VAD segments. -/
  vadSegments : List (ℤ × ℤ)
  /-- The timestamps, in the time of the recording. -/
  timestamps : List Stamp
  /-- The decoded segments. -/
  asrSegments : List AsrSegment
  /-- The sentences, written by merging. -/
  sentenceInfo : List (SpokenSentence κ)
  /-- The error of the diarization, written by merging. -/
  speakerError : Option Text
  /-- The diarization, written by merging. -/
  speakerResult : Option (SpeakerResult κ)
deriving DecidableEq

/-- The `timestamp` value of a list of normalized timestamps. -/
def stampItems (timestamps : List Stamp) : TimestampValue := .items (timestamps.map Stamp.raw)

/-- `payload.get("text") or payload.get("raw_text") or ""`. -/
def OnnxPayload.spokenText {κ : Type*} (payload : OnnxPayload κ) : Text :=
  if payload.text ≠ [] then payload.text else payload.rawText

section Merge

variable {κ : Type*} [DecidableEq κ] [Zero κ]

/-- A sentence of the first speaker. -/
def TimedSentence.spoken (sentence : TimedSentence) : SpokenSentence κ :=
  ⟨sentence.text, sentence.startMs, sentence.endMs, 0, none⟩

/-- `build_asr_sentence_info`. -/
def buildAsrSentenceInfo (payload : OnnxPayload κ) : List (SpokenSentence κ) :=
  let asrSegments := (payload.asrSegments.filter (·.text ≠ [])).map fun segment =>
    (⟨segment.text, segment.startMs, segment.endMs, 0, some (stampItems segment.timestamp)⟩ :
      SpokenSentence κ)
  if asrSegments ≠ [] then asrSegments
  else if payload.timestamps ≠ [] then
    (buildSentenceInfoFromTimestamps payload.spokenText payload.timestamps).map
      TimedSentence.spoken
  else if payload.vadSegments ≠ [] then
    (buildSentenceInfoFromVad payload.spokenText payload.vadSegments).map TimedSentence.spoken
  else if payload.spokenText ≠ [] then [⟨payload.spokenText, 0, 0, 0, none⟩]
  else []

/-- `assign_speakers_to_asr_segments`. -/
def assignSpeakersToAsrSegments (payload : OnnxPayload κ) (segments : List (SpeakerSegment κ)) :
    List (SpokenSentence κ) :=
  (payload.asrSegments.filter (·.text ≠ [])).map fun segment =>
    ⟨segment.text, segment.startMs, segment.endMs,
      speakerForTimeRangeWithBoundary (fun _ => false) segment.startMs segment.endMs segments,
      some (stampItems segment.timestamp)⟩

/-- `build_speaker_aligned_text`. -/
def buildSpeakerAlignedText (text : Text) (timestamps : List Stamp)
    (segments : List (SpeakerSegment κ)) : List (SpokenSentence κ) :=
  let timedTokens := alignTextToTimestamps false text timestamps
  if timedTokens = [] then [] else mergeTimedUnitsBySpeaker segments timedTokens

/-- The `sentence_info` of `merge_onnx_speaker_result` for a usable diarization. -/
def speakerSentenceInfo (payload : OnnxPayload κ) (segments : List (SpeakerSegment κ)) :
    List (SpokenSentence κ) :=
  let aligned :=
    if payload.timestamps ≠ [] then
      buildSpeakerAlignedText payload.spokenText payload.timestamps segments
    else []
  if aligned ≠ [] then aligned
  else
    let assigned := assignSpeakersToAsrSegments payload segments
    if assigned ≠ [] then assigned else buildAsrSentenceInfo payload

/-- `merge_onnx_speaker_result`. -/
def mergeOnnxSpeakerResult (payload : OnnxPayload κ) (speaker : Option (SpeakerResult κ)) :
    OnnxPayload κ :=
  match speaker with
  | none => { payload with sentenceInfo := buildAsrSentenceInfo payload }
  | some result =>
    if result.Usable then
      { payload with
        sentenceInfo := speakerSentenceInfo payload (speakerSegmentsFromResult result)
        speakerResult := some result }
    else
      { payload with
        sentenceInfo := buildAsrSentenceInfo payload
        speakerError :=
          if result.error.getD [] ≠ [] then result.error else payload.speakerError }

/-- The payload of combined decodes, with the segment texts for its text. -/
def combinedPayload (segments : List VadSegment) (combined : CombinedDecodes) : OnnxPayload κ where
  text := combined.text
  rawText := combined.text
  vadSegments := segments.map fun segment => (segment.startMs, segment.endMs)
  timestamps := combined.timestamps
  asrSegments := combined.asrSegments
  sentenceInfo := []
  speakerError := none
  speakerResult := none

end Merge

section Reading

variable {text : Text} {timestamps : List Stamp}

/-- In the order of time already, the tokens spell the text. -/
theorem sortedBy_timedTokens_text (h : InTimeOrder timestamps)
    (hlength : (textUnits text).length ≤ timestamps.length) (hunit : textUnits text ≠ []) :
    (sortedBy (fun p => p.2.key) (timedTokens text timestamps)).flatMap Prod.fst = text := by
  have hsorted : sortedBy (fun p : Text × Stamp => p.2.key) (timedTokens text timestamps) =
      timedTokens text timestamps := by
    apply sortedBy_eq_self
    have htake : List.Sublist ((timedTokens text timestamps).map Prod.snd) timestamps := by
      rw [timedTokens, List.zip_eq_zip_take_min, List.map_snd_zip (by simp)]
      exact List.take_sublist _ _
    have hkeys := List.Pairwise.sublist htake h
    rwa [List.pairwise_map] at hkeys
  rw [hsorted]
  exact timedTokens_text hlength hunit

variable {κ : Type*} [DecidableEq κ] [Zero κ] (segments : List (SpeakerSegment κ))

/-- The aligned text is regrouped to the tokens in the order of their timestamps. -/
theorem buildSpeakerAlignedText_text (hlength : (textUnits text).length ≤ timestamps.length)
    (hunit : textUnits text ≠ []) :
    (buildSpeakerAlignedText text timestamps segments).flatMap SpokenSentence.text =
      (sortedBy (fun p => p.2.key) (timedTokens text timestamps)).flatMap Prod.fst := by
  have haligned : alignTextToTimestamps false text timestamps =
      (timedTokens text timestamps).map fun p => timedToken false p.1 p.2 :=
    alignTextToTimestamps_eq_map hlength
  have hne : alignTextToTimestamps false text timestamps ≠ [] := by
    rw [haligned]
    exact mt List.map_eq_nil_iff.mp (timedTokens_ne_nil hlength hunit)
  have hmerged : (mergeTimedUnitsBySpeaker segments
      (alignTextToTimestamps false text timestamps)).flatMap SpokenSentence.text =
      (sortedBy TimedUnit.key
        (alignTextToTimestamps false text timestamps)).flatMap TimedUnit.text := by
    apply mergeTimedUnitsBySpeaker_text
    intro unit hunit
    rw [haligned] at hunit
    obtain ⟨p, hp, rfl⟩ := List.mem_map.mp hunit
    exact visible_of_token (List.of_mem_zip hp).1
  rw [buildSpeakerAlignedText, if_neg hne, hmerged, haligned, sortedBy_map, List.flatMap_map]
  rfl

end Reading

section Transcript

variable {α κ : Type*} [DecidableEq κ] [Zero κ] {settings : DecodeSettings} {audio : List α}
  {recognize : ℕ → List α → AsrResult} {segments : List VadSegment}
  {completed : List AsrSegmentDecode}

/-- The decodes of the segments, in a form to argue about all of them. -/
theorem forall_segmentDecodes {P : AsrSegmentDecode → Prop}
    (h : ∀ p ∈ segments.zipIdx, P (decodeSegment settings audio p.1 recognize p.2)) :
    ∀ decode ∈ segmentDecodes settings audio recognize segments, P decode := by
  intro decode hdecode
  obtain ⟨p, hp, rfl⟩ := List.mem_map.mp hdecode
  exact h p hp

/-- A part of a text without units has none. -/
theorem textUnits_eq_nil_of_flatMap {decodes : List AsrSegmentDecode}
    (h : textUnits (decodes.flatMap AsrSegmentDecode.text) = []) :
    ∀ decode ∈ decodes, textUnits decode.text = [] := by
  intro decode hdecode
  rw [textUnits_eq_nil_iff] at h ⊢
  exact fun c hc => h c (List.mem_flatMap.mpr ⟨decode, hdecode, hc⟩)

/-- Without a token, every segment has an empty slice and nothing is said at all. -/
theorem segmentDecodes_of_no_token (hasr : LocalDecodes settings audio recognize segments)
    (hunit : textUnits ((segmentDecodes settings audio recognize segments).flatMap
      AsrSegmentDecode.text) = []) :
    ∀ decode ∈ segmentDecodes settings audio recognize segments,
      decode.text = [] ∧ decode.timestamps = [] ∧ decode.payload.text = [] := by
  have hnone := textUnits_eq_nil_of_flatMap hunit
  apply forall_segmentDecodes
  intro p hp
  rw [decodeSegment_of_no_token (hasr p hp) (hnone _ (List.mem_map.mpr ⟨p, hp, rfl⟩))]
  exact ⟨rfl, rfl, rfl⟩

/-- A payload with tokens is regrouped to the tokens in the order of their timestamps. -/
theorem speakerSentenceInfo_text {payload : OnnxPayload κ}
    (hlength : (textUnits payload.spokenText).length ≤ payload.timestamps.length)
    (hunit : textUnits payload.spokenText ≠ []) (speakers : List (SpeakerSegment κ)) :
    (speakerSentenceInfo payload speakers).flatMap SpokenSentence.text =
      (sortedBy (fun p => p.2.key)
        (timedTokens payload.spokenText payload.timestamps)).flatMap Prod.fst := by
  have htimestamps : payload.timestamps ≠ [] := by
    intro hnil
    rw [hnil] at hlength
    exact hunit (List.eq_nil_of_length_eq_zero (Nat.le_zero.mp hlength))
  have hread := buildSpeakerAlignedText_text speakers hlength hunit
  have hne : buildSpeakerAlignedText payload.spokenText payload.timestamps speakers ≠ [] := by
    intro hnil
    rw [hnil, List.flatMap_nil] at hread
    obtain ⟨p, hp⟩ := List.exists_mem_of_ne_nil _ (timedTokens_ne_nil hlength hunit)
    have hblank := List.flatMap_eq_nil_iff.mp hread.symm p ((mem_sortedBy _).mpr hp)
    exact (visible_of_token (List.of_mem_zip hp).1).ne_nil hblank
  rw [speakerSentenceInfo, if_pos htimestamps, if_pos hne, hread]

/-- A payload without text and timestamps has no sentences. -/
theorem speakerSentenceInfo_eq_nil {payload : OnnxPayload κ} (htext : payload.spokenText = [])
    (htimestamps : payload.timestamps = [])
    (hsegments : ∀ segment ∈ payload.asrSegments, segment.text = [])
    (speakers : List (SpeakerSegment κ)) : speakerSentenceInfo payload speakers = [] := by
  have hfilter : payload.asrSegments.filter (·.text ≠ []) = [] := by
    rw [List.filter_eq_nil_iff]
    intro segment hsegment
    simpa using hsegments segment hsegment
  have hassigned : assignSpeakersToAsrSegments payload speakers = [] := by
    rw [assignSpeakersToAsrSegments, hfilter]
    rfl
  have hasr : buildAsrSentenceInfo payload = [] := by
    rw [buildAsrSentenceInfo, hfilter]
    simp [htimestamps, htext]
  simp [speakerSentenceInfo, htimestamps, hassigned, hasr]

/-- A usable diarization leaves either nothing of a transcript without tokens, or the tokens in
the order of their timestamps. -/
theorem mergeOnnxSpeakerResult_text_cases {speaker : SpeakerResult κ}
    (hasr : LocalDecodes settings audio recognize segments)
    (hcompleted : completed.Perm (segmentDecodes settings audio recognize segments))
    (husable : speaker.Usable) :
    let combined := combineAsrSegmentDecodes completed segments.length
    let merged := (mergeOnnxSpeakerResult (combinedPayload segments combined)
      (some speaker)).sentenceInfo.flatMap SpokenSentence.text
    (combined.text = [] ∧ combined.timestamps = [] ∧ merged = []) ∨
      (textUnits combined.text ≠ [] ∧
        (textUnits combined.text).length ≤ combined.timestamps.length ∧
        merged = (sortedBy (fun p => p.2.key)
          (timedTokens combined.text combined.timestamps)).flatMap Prod.fst) := by
  intro combined merged
  have hcombined : combined = _ := combineAsrSegmentDecodes_of_perm hcompleted
  have hmerged : merged = (speakerSentenceInfo (combinedPayload segments combined)
      (speakerSegmentsFromResult speaker)).flatMap SpokenSentence.text := by
    change (mergeOnnxSpeakerResult _ _).sentenceInfo.flatMap SpokenSentence.text = _
    rw [mergeOnnxSpeakerResult, if_pos husable]
  have hspoken : (combinedPayload segments combined : OnnxPayload κ).spokenText =
      combined.text := by
    unfold OnnxPayload.spokenText
    split <;> rfl
  by_cases hunit : textUnits combined.text = []
  · left
    have hempty := segmentDecodes_of_no_token hasr (by rw [hcombined] at hunit; exact hunit)
    have htext : combined.text = [] := by
      rw [hcombined]
      exact List.flatMap_eq_nil_iff.mpr fun decode hdecode => (hempty decode hdecode).1
    have htimestamps : combined.timestamps = [] := by
      rw [hcombined]
      exact List.flatMap_eq_nil_iff.mpr fun decode hdecode => (hempty decode hdecode).2.1
    have hsegments : ∀ segment ∈ combined.asrSegments, segment.text = [] := by
      rw [hcombined]
      intro segment hsegment
      obtain ⟨decode, hdecode, rfl⟩ := List.mem_map.mp hsegment
      exact (hempty decode hdecode).2.2
    refine ⟨htext, htimestamps, ?_⟩
    rw [hmerged, speakerSentenceInfo_eq_nil (hspoken.trans htext) htimestamps hsegments]
    rfl
  · right
    have hlength : (textUnits combined.text).length ≤ combined.timestamps.length := by
      rw [hcombined]
      exact length_textUnits_flatMap_le
        (forall_segmentDecodes fun p hp => decodeSegment_lengths (hasr p hp))
    refine ⟨hunit, hlength, ?_⟩
    rw [hmerged, speakerSentenceInfo_text (by rw [hspoken]; exact hlength) (by rwa [hspoken]),
      hspoken]
    rfl

/-- Timestamps in the order of time keep the reading order. -/
theorem mergeOnnxSpeakerResult_text_of_inTimeOrder {speaker : SpeakerResult κ}
    (hasr : LocalDecodes settings audio recognize segments)
    (hcompleted : completed.Perm (segmentDecodes settings audio recognize segments))
    (husable : speaker.Usable) :
    let combined := combineAsrSegmentDecodes completed segments.length
    InTimeOrder combined.timestamps →
      (mergeOnnxSpeakerResult (combinedPayload segments combined)
        (some speaker)).sentenceInfo.flatMap SpokenSentence.text = combined.text := by
  intro combined horder
  rcases mergeOnnxSpeakerResult_text_cases hasr hcompleted husable with
    ⟨htext, -, hmerged⟩ | ⟨hunit, hlength, hmerged⟩
  · exact hmerged.trans htext.symm
  · exact hmerged.trans (sortedBy_timedTokens_text horder hlength hunit)

/-- Two models that give the same times to every slice, whatever text they give to it. -/
def SameTimes (recognize other : ℕ → List α → AsrResult) : Prop :=
  ∀ index slice, (recognize index slice).timestamps = (other index slice).timestamps

/-- Such models give the same times to the transcript. -/
theorem SameTimes.keys_eq {other : ℕ → List α → AsrResult} (h : SameTimes recognize other)
    (settings : DecodeSettings) (audio : List α) (segments : List VadSegment) :
    ((segmentDecodes settings audio other segments).flatMap AsrSegmentDecode.timestamps).map
        Stamp.key =
      ((segmentDecodes settings audio recognize segments).flatMap
        AsrSegmentDecode.timestamps).map Stamp.key := by
  simp only [segmentDecodes, List.flatMap_map, List.map_flatMap]
  refine List.flatMap_congr fun p _ => ?_
  by_cases hslice : sliceAudioByMs settings audio p.1 = []
  · rw [decodeSegment_of_nil hslice, decodeSegment_of_nil hslice]
  · have htimes : (decodeSegment settings audio p.1 other p.2).timestamps.map Stamp.times =
        (decodeSegment settings audio p.1 recognize p.2).timestamps.map Stamp.times := by
      rw [decodeSegment_times other p.2 hslice, decodeSegment_times recognize p.2 hslice,
        h p.2 (sliceAudioByMs settings audio p.1)]
    have hkeys := congrArg (List.map toLex) htimes
    rwa [List.map_map, List.map_map] at hkeys

/-- One of two characters tells the times up to a bound from those after it. -/
def boundMark (bound time : Lex (ℤ × ℤ)) : Char := if time ≤ bound then '甲' else '乙'

/-- A model with the times of another one, that writes the mark of its time in the recording for
each token. -/
def markTimes (settings : DecodeSettings) (segments : List VadSegment)
    (recognize : ℕ → List α → AsrResult) (bound : Lex (ℤ × ℤ)) (index : ℕ) (slice : List α) :
    AsrResult where
  text :=
    let startMs := (segments[index]?).elim 0 (paddedStartMs settings)
    ((recognize index slice).timestamps.getD []).map fun stamp =>
      boundMark bound (stamp.shift startMs).key
  timestamps := (recognize index slice).timestamps

section Marks

variable {bound : Lex (ℤ × ℤ)}

/-- A text of marks has no separators and no words. -/
theorem boundMark_single {ι : Type*} (time : ι → Lex (ℤ × ℤ)) (xs : List ι) :
    ∀ c ∈ xs.map fun x => boundMark bound (time x),
      isTextSeparator c = false ∧ isAsciiWordChar c = false := by
  intro c hc
  obtain ⟨x, -, rfl⟩ := List.mem_map.mp hc
  unfold boundMark
  split <;> decide

/-- There is a mark for each timestamp, so such a model keeps to the slices as the other one. -/
theorem markTimes_local (bound : Lex (ℤ × ℤ))
    (hasr : LocalDecodes settings audio recognize segments) :
    LocalDecodes settings audio (markTimes settings segments recognize bound) segments := by
  intro p hp hslice
  obtain ⟨htoken, hcount, horder, hinside⟩ := hasr p hp hslice
  have hlength : (textUnits (markTimes settings segments recognize bound p.2
      (sliceAudioByMs settings audio p.1)).text).length =
      ((recognize p.2 (sliceAudioByMs settings audio p.1)).timestamps.getD []).length := by
    rw [markTimes, textUnits_of_single (boundMark_single _ _), List.length_map, List.length_map]
  refine ⟨?_, hlength.symm, horder, hinside⟩
  rw [← List.length_pos_iff, hlength, hcount]
  exact List.length_pos_iff.mpr htoken

/-- The decode of a segment then reads as the marks of its timestamps. -/
theorem decodeSegment_markTimes {p : VadSegment × ℕ} (hp : p ∈ segments.zipIdx) :
    (decodeSegment settings audio p.1 (markTimes settings segments recognize bound) p.2).text =
      (decodeSegment settings audio p.1 recognize p.2).timestamps.map fun stamp =>
        boundMark bound stamp.key := by
  by_cases hslice : sliceAudioByMs settings audio p.1 = []
  · rw [decodeSegment_of_nil hslice, decodeSegment_of_nil hslice]
    rfl
  · have htimes := decodeSegment_times recognize p.2 hslice
    have hmarks := congrArg (List.map fun times => boundMark bound (toLex times)) htimes
    rw [List.map_map, List.map_map] at hmarks
    have hsegment : segments[p.2]? = some p.1 := List.mem_zipIdx_iff_getElem?.mp hp
    rw [decodeSegment_of_ne_nil hslice]
    refine Eq.trans ?_ hmarks.symm
    simp only [AsrResult.decode, asrSegmentDecode, markTimes, hsegment, Option.elim_some]
    rfl

/-- The transcript then reads as the marks of its times. -/
theorem segmentDecodes_markTimes :
    (segmentDecodes settings audio (markTimes settings segments recognize bound)
        segments).flatMap AsrSegmentDecode.text =
      (((segmentDecodes settings audio recognize segments).flatMap
        AsrSegmentDecode.timestamps).map Stamp.key).map (boundMark bound) := by
  simp only [segmentDecodes, List.flatMap_map, List.map_flatMap]
  refine List.flatMap_congr fun p hp => ?_
  rw [decodeSegment_markTimes hp, List.map_map]
  rfl

/-- Regrouped in the order of time, such a transcript reads as the marks of the sorted times. -/
theorem sortedBy_timedTokens_marks {stamps : List Stamp} :
    (sortedBy (fun p => p.2.key) (timedTokens ((stamps.map Stamp.key).map (boundMark bound))
      stamps)).flatMap Prod.fst = (sortedBy id (stamps.map Stamp.key)).map (boundMark bound) := by
  have htimed : timedTokens ((stamps.map Stamp.key).map (boundMark bound)) stamps =
      stamps.map fun stamp => ([boundMark bound stamp.key], stamp) := by
    have htokens : textTokens (stamps.map fun stamp => boundMark bound stamp.key) =
        stamps.map fun stamp => [boundMark bound stamp.key] := by
      rw [textTokens_of_single (boundMark_single Stamp.key stamps), List.map_map]
      rfl
    rw [List.map_map, timedTokens]
    refine (congrArg (fun tokens => tokens.zip stamps) htokens).trans ?_
    conv_lhs => rw [← List.map_id stamps, List.map_map]
    exact List.zip_map'
  rw [htimed, sortedBy_map, sortedBy_map, List.flatMap_map, List.map_map,
    List.map_eq_flatMap]
  rfl

end Marks

/-- The combined transcript of decodes with one timestamp per token, merged with a usable
diarization, keeps its reading order when its timestamps do not run backwards, as those of segments
whose padding does not overlap. When they do run backwards, another text at the same times does not
keep its order. -/
theorem mergeOnnxSpeakerResult_text_iff {speaker : SpeakerResult κ}
    (hasr : LocalDecodes settings audio recognize segments)
    (hcompleted : completed.Perm (segmentDecodes settings audio recognize segments))
    (husable : speaker.Usable) :
    let times := (combineAsrSegmentDecodes completed segments.length).timestamps
    (InTimeOrder times ↔ ∀ recognize', SameTimes recognize recognize' →
      LocalDecodes settings audio recognize' segments →
      ∀ completed', completed'.Perm (segmentDecodes settings audio recognize' segments) →
        let combined := combineAsrSegmentDecodes completed' segments.length
        (mergeOnnxSpeakerResult (combinedPayload segments combined)
          (some speaker)).sentenceInfo.flatMap SpokenSentence.text = combined.text) ∧
      (1000 ≤ settings.sampleRate → Apart settings segments → InTimeOrder times) := by
  intro times
  have htimes : times = _ := congrArg CombinedDecodes.timestamps
    (combineAsrSegmentDecodes_of_perm hcompleted)
  refine ⟨⟨?_, ?_⟩, ?_⟩
  · intro horder recognize' hsame hasr' completed' hcompleted'
    refine mergeOnnxSpeakerResult_text_of_inTimeOrder hasr' hcompleted' husable ?_
    rw [combineAsrSegmentDecodes_of_perm hcompleted']
    rw [htimes] at horder
    refine List.pairwise_map.mp ?_
    rw [hsame.keys_eq settings audio segments]
    exact List.pairwise_map.mpr horder
  · intro hkeeps
    refine List.pairwise_map.mp (pairwise_of_marks (show '甲' ≠ '乙' by decide) ?_)
    intro bound
    -- the model that marks the times up to the bound
    have hsame : SameTimes recognize (markTimes settings segments recognize bound) :=
      fun _ _ => rfl
    have hasr' := markTimes_local bound hasr
    have hkept := hkeeps _ hsame hasr' _ (List.Perm.refl _)
    have hcases := mergeOnnxSpeakerResult_text_cases hasr' (List.Perm.refl _) husable
    have hkeys := hsame.keys_eq settings audio segments
    dsimp only at hkept hcases
    rw [hkept, combineAsrSegmentDecodes_of_perm (List.Perm.refl _)] at hcases
    dsimp only at hcases
    rw [segmentDecodes_markTimes, ← hkeys] at hcases
    rw [htimes]
    dsimp only
    rw [← hkeys]
    rcases hcases with ⟨-, hnil, -⟩ | ⟨-, -, hsorted⟩
    · rw [hnil]
      rfl
    · rw [sortedBy_timedTokens_marks] at hsorted
      exact hsorted.symm
  · intro hrate hapart
    rw [htimes]
    exact segmentDecodes_inTimeOrder hrate hapart hasr

end Transcript

section Recording

/-- The settings of the service. -/
def serviceSettings : DecodeSettings := ⟨16000, 300, by decide, by decide⟩

/-- Two seconds of audio. -/
def twoSeconds : List ℕ := List.replicate 32000 0

/-- Two segments with a gap of 100 ms. -/
def neighbours : List VadSegment :=
  [⟨20, 1000, by decide, by decide⟩, ⟨1100, 2000, by decide, by decide⟩]

/-- A diarization with one speaker. -/
def oneSpeaker : SpeakerResult ℕ := ⟨[⟨1, 0, 2000⟩], none⟩

/-- The padding of the two segments overlaps. -/
theorem length_neighbours_slices : ∀ p ∈ neighbours.zipIdx,
    (sliceAudioByMs serviceSettings twoSeconds p.1).length = if p.2 = 0 then 20800 else 19200 := by
  have hduration : ∀ segment, paddedEndMs serviceSettings twoSeconds segment =
      min 2000 (segment.endMs + 300) := by
    intro segment
    rw [paddedEndMs, twoSeconds, List.length_replicate]
    norm_num [truncate, serviceSettings]
  intro p hp
  rw [length_sliceAudioByMs, hduration, twoSeconds, List.length_replicate]
  revert p
  decide +kernel

/-- What a model that says this of the two slices is decoded to. -/
theorem segmentDecodes_neighbours (results : ℕ → AsrResult) :
    segmentDecodes serviceSettings twoSeconds (fun index _ => results index) neighbours =
      neighbours.zipIdx.map fun p => (results p.2).decode serviceSettings p.1 p.2 := by
  refine List.map_congr_left fun p hp => decodeSegment_of_ne_nil ?_
  have hlength := length_neighbours_slices p hp
  rw [← List.length_pos_iff, hlength]
  split <;> decide

/-- Such a model keeps to the slices if what it says of them does. -/
theorem localDecodes_neighbours {results : ℕ → AsrResult}
    (hfirst : LocalTimestamps serviceSettings 20800 (results 0))
    (hsecond : LocalTimestamps serviceSettings 19200 (results 1)) :
    LocalDecodes serviceSettings twoSeconds (fun index _ => results index) neighbours := by
  intro p hp _
  rw [length_neighbours_slices p hp]
  have hindex : p.2 < 2 := List.snd_lt_of_mem_zipIdx hp
  obtain hzero | hone : p.2 = 0 ∨ p.2 = 1 := by omega
  · rw [hzero, if_pos rfl]
    exact hfirst
  · rw [hone, if_neg Nat.one_ne_zero]
    exact hsecond

/-- One token in each slice, inside the segment. -/
def innerTokens (index : ℕ) : AsrResult :=
  if index = 0 then ⟨['甲', '，'], some [⟨[], 0, 500⟩]⟩ else ⟨['乙', '。'], some [⟨[], 400, 800⟩]⟩

theorem innerTokens_local :
    LocalDecodes serviceSettings twoSeconds (fun index _ => innerTokens index) neighbours :=
  localDecodes_neighbours ⟨by decide, by decide, by decide, by decide⟩
    ⟨by decide, by decide, by decide, by decide⟩

/-- The combination of the two decodes, which come back in the other order. -/
def neighboursCombined (results : ℕ → AsrResult) : CombinedDecodes :=
  combineAsrSegmentDecodes (segmentDecodes serviceSettings twoSeconds
    (fun index _ => results index) neighbours).reverse neighbours.length

theorem innerTokens_inOrder :
    (mergeOnnxSpeakerResult (combinedPayload neighbours (neighboursCombined innerTokens))
        (some oneSpeaker)).sentenceInfo.flatMap SpokenSentence.text =
      (neighboursCombined innerTokens).text := by
  have hiff := (mergeOnnxSpeakerResult_text_iff innerTokens_local (List.reverse_perm _)
    (show oneSpeaker.Usable by decide)).1
  refine hiff.mp ?_ _ (fun _ _ => rfl) innerTokens_local _ (List.reverse_perm _)
  rw [segmentDecodes_neighbours]
  decide +kernel

/-- One token in each slice: in the padding after the first segment, and in the padding before
the second. -/
def paddingTokens (index : ℕ) : AsrResult :=
  if index = 0 then ⟨['甲'], some [⟨[], 1200, 1300⟩]⟩ else ⟨['乙'], some [⟨[], 0, 100⟩]⟩

theorem paddingTokens_local :
    LocalDecodes serviceSettings twoSeconds (fun index _ => paddingTokens index) neighbours :=
  localDecodes_neighbours ⟨by decide, by decide, by decide, by decide⟩
    ⟨by decide, by decide, by decide, by decide⟩

/-- Such tokens change places, and the text is not the transcript any more. -/
theorem paddingTokens_reversed :
    (neighbours.Pairwise (fun a b => a.key ≤ b.key) ∧
      LocalDecodes serviceSettings twoSeconds (fun index _ => paddingTokens index) neighbours ∧
      oneSpeaker.Usable) ∧
    (neighboursCombined paddingTokens).text = ['甲', '乙'] ∧
    (mergeOnnxSpeakerResult (combinedPayload neighbours (neighboursCombined paddingTokens))
      (some oneSpeaker)).sentenceInfo.flatMap SpokenSentence.text = ['乙', '甲'] ∧
    (mergeOnnxSpeakerResult (combinedPayload neighbours (neighboursCombined paddingTokens))
      (some oneSpeaker)).sentenceInfo.flatMap SpokenSentence.text ≠
        (neighboursCombined paddingTokens).text := by
  refine ⟨⟨by decide, paddingTokens_local, by decide⟩, ?_⟩
  rw [neighboursCombined, segmentDecodes_neighbours]
  decide +kernel

end Recording

end FunasrApi.Offline
