import FunasrApi.Offline.Timestamps

/-!
# Decoding the VAD segments of a recording

Each segment is cut out of the audio with some padding and decoded on its own; its
timestamps are shifted to the time of the recording. The decodes come back in any
order and are put together in the order of the segments.
-/

namespace FunasrApi.Offline

open FunasrApi.Core Text

/-- A segment as `extract_vad_segments` keeps it. -/
structure VadSegment where
  /-- The time at which the segment begins. -/
  startMs : ℤ
  /-- The time at which it ends. -/
  endMs : ℤ
  start_nonneg : 0 ≤ startMs
  start_lt_end : startMs < endMs
deriving DecidableEq

/-- The key by which `extract_vad_segments` sorts. -/
def VadSegment.key (segment : VadSegment) : Lex (ℤ × ℤ) := toLex (segment.startMs, segment.endMs)

/-- The settings of `OfflineONNXModelBundle` that cut the audio. -/
structure DecodeSettings where
  /-- `sample_rate`. -/
  sampleRate : ℤ
  /-- `vad_padding_ms`. -/
  vadPaddingMs : ℤ
  one_le_sampleRate : 1 ≤ sampleRate
  padding_nonneg : 0 ≤ vadPaddingMs

theorem DecodeSettings.sampleRate_pos (settings : DecodeSettings) : 0 < settings.sampleRate :=
  settings.one_le_sampleRate

/-- What the ASR model makes of a slice: `extract_model_text` and `extract_timestamps`. -/
structure AsrResult where
  /-- The text. -/
  text : Text
  /-- The normalized timestamps, when there are some. -/
  timestamps : Option (List Stamp)
deriving DecidableEq

/-- An entry of `asr_segments`. -/
structure AsrSegment where
  /-- The text of the segment. -/
  text : Text
  /-- The beginning of the VAD segment. -/
  startMs : ℤ
  /-- The end of the VAD segment. -/
  endMs : ℤ
  /-- The timestamps, in the time of the recording. -/
  timestamp : List Stamp
deriving DecidableEq

/-- `ASRSegmentDecode`. -/
structure AsrSegmentDecode where
  /-- The index of the segment. -/
  index : ℕ
  /-- The text of the segment. -/
  text : Text
  /-- The timestamps, in the time of the recording. -/
  timestamps : List Stamp
  /-- The entry of `asr_segments`. -/
  payload : AsrSegment
deriving DecidableEq

/-- `empty_asr_segment_decode`. -/
def emptyAsrSegmentDecode (index : ℕ) (startMs endMs : ℤ) : AsrSegmentDecode :=
  ⟨index, [], [], ⟨[], startMs, endMs, []⟩⟩

/-- `asr_segment_decode`. -/
def asrSegmentDecode (index : ℕ) (text : Text) (startMs endMs : ℤ) (timestamps : List Stamp) :
    AsrSegmentDecode :=
  ⟨index, text, timestamps, ⟨text, startMs, endMs, timestamps⟩⟩

/-- What the decodes are combined to. -/
structure CombinedDecodes where
  /-- The texts, one after the other. -/
  text : Text
  /-- The timestamps, one after the other. -/
  timestamps : List Stamp
  /-- The entries of `asr_segments`. -/
  asrSegments : List AsrSegment
deriving DecidableEq

/-- `combine_asr_segment_decodes`. -/
def combineAsrSegmentDecodes (decodes : List AsrSegmentDecode) (segmentCount : ℕ) :
    CombinedDecodes where
  text := (placeAll AsrSegmentDecode.index AsrSegmentDecode.text
    (List.replicate segmentCount []) decodes).flatten
  timestamps := (placeAll AsrSegmentDecode.index AsrSegmentDecode.timestamps
    (List.replicate segmentCount []) decodes).flatten
  asrSegments := (placeAll AsrSegmentDecode.index (fun decode => some decode.payload)
    (List.replicate segmentCount none) decodes).filterMap id

/-- Decodes with an index each are combined in the order of their indices. -/
theorem combineAsrSegmentDecodes_of_index {completed decodes : List AsrSegmentDecode}
    {segmentCount : ℕ} (h : completed.Perm decodes)
    (hindex : decodes.map AsrSegmentDecode.index = List.range segmentCount) :
    combineAsrSegmentDecodes completed segmentCount =
      ⟨decodes.flatMap AsrSegmentDecode.text, decodes.flatMap AsrSegmentDecode.timestamps,
        decodes.map AsrSegmentDecode.payload⟩ := by
  have hplace : ∀ {β : Type _} (value : AsrSegmentDecode → β) (default : β),
      placeAll AsrSegmentDecode.index value (List.replicate segmentCount default) completed =
        decodes.map value := fun value default =>
    placeAll_of_perm _ value h (by rw [hindex, List.length_replicate])
  rw [combineAsrSegmentDecodes, hplace, hplace, hplace, List.filterMap_map]
  simp [List.flatMap_def]

section Completion

/-- Decodes of any segments, in any order of completion, are combined in the order of the
segments. -/
theorem combineAsrSegmentDecodes_anyOrder {α : Type*} (vadSegments : List α) (text : ℕ → Text)
    (timestamps : ℕ → List Stamp) (payload : ℕ → AsrSegment) {completion : List ℕ}
    (h : completion.Perm (List.range vadSegments.length)) :
    combineAsrSegmentDecodes
        (completion.map fun index => ⟨index, text index, timestamps index, payload index⟩)
        vadSegments.length =
      ⟨(List.range vadSegments.length).flatMap text,
        (List.range vadSegments.length).flatMap timestamps,
        (List.range vadSegments.length).map payload⟩ := by
  rw [combineAsrSegmentDecodes_of_index (h.map _) (by simp [Function.comp_def]),
    List.flatMap_map, List.flatMap_map, List.map_map]
  rfl

/-- The second of two segments is decoded first. -/
theorem combineAsrSegmentDecodes_secondFirst :
    combineAsrSegmentDecodes [⟨1, ['好'], [], ⟨['好'], 50, 100, []⟩⟩,
        ⟨0, ['你'], [], ⟨['你'], 0, 50, []⟩⟩] 2 =
      ⟨['你', '好'], [], [⟨['你'], 0, 50, []⟩, ⟨['好'], 50, 100, []⟩]⟩ := by
  let text (index : ℕ) : Text := if index = 0 then ['你'] else ['好']
  let payload (index : ℕ) : AsrSegment :=
    if index = 0 then ⟨['你'], 0, 50, []⟩ else ⟨['好'], 50, 100, []⟩
  exact combineAsrSegmentDecodes_anyOrder [(0, 50), (50, 100)] text (fun _ => []) payload
    (List.Perm.swap 0 1 [])

end Completion

/-- Joined texts have no more units than timestamps. -/
theorem length_textUnits_flatMap_le {decodes : List AsrSegmentDecode}
    (h : ∀ decode ∈ decodes, decode.timestamps.length = (textUnits decode.text).length) :
    (textUnits (decodes.flatMap AsrSegmentDecode.text)).length ≤
      (decodes.flatMap AsrSegmentDecode.timestamps).length := by
  induction decodes with
  | nil => exact le_rfl
  | cons decode rest ih =>
    rw [List.flatMap_cons, List.flatMap_cons, List.length_append]
    have hhead := h decode (List.mem_cons_self ..)
    have hrest := ih fun other hother => h other (List.mem_cons_of_mem _ hother)
    have happend := length_textUnits_append_le decode.text
      (rest.flatMap AsrSegmentDecode.text)
    omega

section Slice

variable {α : Type*} (settings : DecodeSettings) (audio : List α) (segment : VadSegment)

/-- The `padded_start_ms` of `slice_audio_by_ms`. -/
def paddedStartMs : ℤ := max 0 (segment.startMs - settings.vadPaddingMs)

/-- The `padded_end_ms` of `slice_audio_by_ms`. -/
def paddedEndMs : ℤ :=
  let durationMs := truncate ((audio.length * 1000 : ℚ) / settings.sampleRate)
  min durationMs (segment.endMs + settings.vadPaddingMs)

/-- The sample at a time in milliseconds. -/
def sampleAt (ms : ℤ) : ℤ := truncate ((ms * settings.sampleRate : ℚ) / 1000)

/-- The samples that `slice_audio_by_ms` cuts out; neither bound is negative. -/
def sliceAudioByMs : List α :=
  let startSample := sampleAt settings (paddedStartMs settings segment)
  let endSample := sampleAt settings (paddedEndMs settings audio segment)
  (audio.drop startSample.toNat).take (endSample.toNat - startSample.toNat)

/-- The decode of a segment from the result for its slice. -/
def AsrResult.decode (asrResult : AsrResult) (index : ℕ) : AsrSegmentDecode :=
  let shifted := offsetTimestamps (asrResult.timestamps.getD []) (paddedStartMs settings segment)
  asrSegmentDecode index asrResult.text segment.startMs segment.endMs
    (fillTimestampTokens asrResult.text shifted)

variable (recognize : ℕ → List α → AsrResult)

/-- The `decode_segment` of `_run_asr_segments`. The result of the model may depend on the
segment's turn, as the models of the pool may differ. -/
def decodeSegment (index : ℕ) : AsrSegmentDecode :=
  let segmentAudio := sliceAudioByMs settings audio segment
  if segmentAudio = [] then emptyAsrSegmentDecode index segment.startMs segment.endMs
  else
    (recognize index segmentAudio).decode settings segment index

/-- The decodes of all segments, in the order of the segments. -/
def segmentDecodes (segments : List VadSegment) : List AsrSegmentDecode :=
  segments.zipIdx.map fun p => decodeSegment settings audio p.1 recognize p.2

variable {settings audio segment recognize}

theorem length_sliceAudioByMs :
    (sliceAudioByMs settings audio segment).length =
      min ((sampleAt settings (paddedEndMs settings audio segment)).toNat -
        (sampleAt settings (paddedStartMs settings segment)).toNat)
        (audio.length - (sampleAt settings (paddedStartMs settings segment)).toNat) := by
  rw [sliceAudioByMs, List.length_take, List.length_drop]

theorem segmentDecodes_index (segments : List VadSegment) :
    (segmentDecodes settings audio recognize segments).map AsrSegmentDecode.index =
      List.range segments.length := by
  have hindex : ∀ p : VadSegment × ℕ,
      (decodeSegment settings audio p.1 recognize p.2).index = p.2 := by
    intro p
    unfold decodeSegment
    dsimp only
    split <;> rfl
  rw [segmentDecodes, List.map_map, List.range_eq_range', ← List.zipIdx_map_snd 0 segments]
  exact List.map_congr_left fun p _ => hindex p

/-- In whatever order the decodes come back, they are combined in the order of the segments. -/
theorem combineAsrSegmentDecodes_of_perm {segments : List VadSegment}
    {completed : List AsrSegmentDecode}
    (h : completed.Perm (segmentDecodes settings audio recognize segments)) :
    let decodes := segmentDecodes settings audio recognize segments
    combineAsrSegmentDecodes completed segments.length =
      ⟨decodes.flatMap AsrSegmentDecode.text, decodes.flatMap AsrSegmentDecode.timestamps,
        decodes.map AsrSegmentDecode.payload⟩ :=
  combineAsrSegmentDecodes_of_index h (segmentDecodes_index segments)

end Slice

/-- What the model says of a slice of so many samples, in the slice's own time: at least one
token, one timestamp for each, in their order and inside the slice. -/
structure LocalTimestamps (settings : DecodeSettings) (samples : ℕ) (result : AsrResult) :
    Prop where
  has_token : textUnits result.text ≠ []
  one_per_token : (result.timestamps.getD []).length = (textUnits result.text).length
  nondecreasing : InTimeOrder (result.timestamps.getD [])
  inside : ∀ stamp ∈ result.timestamps.getD [],
    (0 ≤ stamp.startMs ∧ stamp.startMs * settings.sampleRate ≤ samples * 1000) ∧
      0 ≤ stamp.endMs ∧ stamp.endMs * settings.sampleRate ≤ samples * 1000

/-- Every segment with audio is decoded to local timestamps. -/
def LocalDecodes (settings : DecodeSettings) {α : Type*} (audio : List α)
    (recognize : ℕ → List α → AsrResult) (segments : List VadSegment) : Prop :=
  ∀ p ∈ segments.zipIdx, sliceAudioByMs settings audio p.1 ≠ [] →
    LocalTimestamps settings (sliceAudioByMs settings audio p.1).length
      (recognize p.2 (sliceAudioByMs settings audio p.1))

section LocalDecodes

variable {α : Type*} {settings : DecodeSettings} {audio : List α} {segment : VadSegment}
  {recognize : ℕ → List α → AsrResult} {index : ℕ}

theorem paddedStartMs_nonneg (settings : DecodeSettings) (segment : VadSegment) :
    0 ≤ paddedStartMs settings segment :=
  le_max_left 0 _

/-- The sample at a time is the last one that begins by then. -/
theorem sampleAt_spec (settings : DecodeSettings) {ms : ℤ} (h : 0 ≤ ms) :
    0 ≤ sampleAt settings ms ∧ sampleAt settings ms * 1000 ≤ ms * settings.sampleRate ∧
      ms * settings.sampleRate < sampleAt settings ms * 1000 + 1000 := by
  have hrate := settings.sampleRate_pos
  have hnonneg : (0 : ℚ) ≤ (ms * settings.sampleRate : ℚ) / 1000 := by
    have hprod : (0 : ℚ) ≤ ms * settings.sampleRate := by exact_mod_cast mul_nonneg h hrate.le
    linarith
  obtain ⟨hle, hlt⟩ := truncate_of_nonneg hnonneg
  rw [← sampleAt, le_div_iff₀ (by norm_num)] at hle
  rw [← sampleAt, div_lt_iff₀ (by norm_num), add_mul, one_mul] at hlt
  refine ⟨le_truncate_of_le (by exact_mod_cast hnonneg), by exact_mod_cast hle, ?_⟩
  exact_mod_cast hlt

/-- A time inside a slice is not after the end of the slice. -/
theorem add_paddedStartMs_le (hrate : 1000 ≤ settings.sampleRate) {ms : ℤ}
    (hslice : sliceAudioByMs settings audio segment ≠ [])
    (h : ms * settings.sampleRate ≤ (sliceAudioByMs settings audio segment).length * 1000) :
    ms + paddedStartMs settings segment ≤ paddedEndMs settings audio segment := by
  obtain ⟨hstart0, -, hstart⟩ := sampleAt_spec settings
    (paddedStartMs_nonneg settings segment)
  have hlength := List.length_pos_iff.mpr hslice
  rw [length_sliceAudioByMs] at hlength h
  have hend0 : 0 ≤ paddedEndMs settings audio segment := by
    by_contra hneg
    have hle : sampleAt settings (paddedEndMs settings audio segment) ≤ sampleAt settings 0 := by
      apply truncate_mono
      have hprod : ((paddedEndMs settings audio segment : ℤ) : ℚ) * settings.sampleRate ≤ 0 := by
        exact_mod_cast mul_nonpos_of_nonpos_of_nonneg (not_le.mp hneg).le
          settings.sampleRate_pos.le
      push_cast
      linarith
    have hzero : sampleAt settings 0 = 0 := by simp [sampleAt, truncate]
    omega
  obtain ⟨-, hend, -⟩ := sampleAt_spec settings hend0
  have hsamples : ms * settings.sampleRate ≤
      (sampleAt settings (paddedEndMs settings audio segment) -
        sampleAt settings (paddedStartMs settings segment)) * 1000 := by omega
  have hlt : (ms + paddedStartMs settings segment) * settings.sampleRate <
      (paddedEndMs settings audio segment + 1) * settings.sampleRate := by
    rw [add_mul, add_mul]
    linarith
  have hms := lt_of_mul_lt_mul_right hlt settings.sampleRate_pos.le
  omega

theorem decodeSegment_of_nil (h : sliceAudioByMs settings audio segment = []) :
    decodeSegment settings audio segment recognize index =
      emptyAsrSegmentDecode index segment.startMs segment.endMs := by
  rw [decodeSegment]
  exact if_pos h

theorem decodeSegment_of_ne_nil (h : sliceAudioByMs settings audio segment ≠ []) :
    decodeSegment settings audio segment recognize index =
      (recognize index (sliceAudioByMs settings audio segment)).decode settings segment index := by
  rw [decodeSegment]
  exact if_neg h

/-- The times of a decode are the local ones, shifted by the beginning of the slice. -/
theorem decodeSegment_times (recognize : ℕ → List α → AsrResult) (index : ℕ)
    (h : sliceAudioByMs settings audio segment ≠ []) :
    (decodeSegment settings audio segment recognize index).timestamps.map Stamp.times =
      ((recognize index (sliceAudioByMs settings audio segment)).timestamps.getD []).map
        fun stamp => (stamp.shift (paddedStartMs settings segment)).times := by
  rw [decodeSegment_of_ne_nil h, AsrResult.decode, asrSegmentDecode]
  dsimp only
  rw [fillTimestampTokens_times,
    offsetTimestamps_eq_map _ (paddedStartMs_nonneg settings segment), List.map_map]
  rfl

/-- A decode has a timestamp for each token. -/
theorem decodeSegment_lengths (h : sliceAudioByMs settings audio segment ≠ [] →
    LocalTimestamps settings (sliceAudioByMs settings audio segment).length
      (recognize index (sliceAudioByMs settings audio segment))) :
    (decodeSegment settings audio segment recognize index).timestamps.length =
      (textUnits (decodeSegment settings audio segment recognize index).text).length := by
  by_cases hslice : sliceAudioByMs settings audio segment = []
  · rw [decodeSegment_of_nil hslice]
    rfl
  · have hlength := congrArg List.length
      (decodeSegment_times recognize index hslice)
    rw [List.length_map, List.length_map] at hlength
    rw [hlength, decodeSegment_of_ne_nil hslice]
    exact (h hslice).one_per_token

/-- A decode without tokens is the one of an empty slice. -/
theorem decodeSegment_of_no_token (h : sliceAudioByMs settings audio segment ≠ [] →
    LocalTimestamps settings (sliceAudioByMs settings audio segment).length
      (recognize index (sliceAudioByMs settings audio segment)))
    (hnone : textUnits (decodeSegment settings audio segment recognize index).text = []) :
    decodeSegment settings audio segment recognize index =
      emptyAsrSegmentDecode index segment.startMs segment.endMs := by
  apply decodeSegment_of_nil
  by_contra hslice
  rw [decodeSegment_of_ne_nil hslice] at hnone
  exact (h hslice).has_token hnone

/-- The timestamps of a decode are in order and between the ends of its slice. -/
theorem decodeSegment_inTimeOrder (hrate : 1000 ≤ settings.sampleRate)
    (h : sliceAudioByMs settings audio segment ≠ [] →
      LocalTimestamps settings (sliceAudioByMs settings audio segment).length
        (recognize index (sliceAudioByMs settings audio segment))) :
    InTimeOrder (decodeSegment settings audio segment recognize index).timestamps ∧
      ∀ stamp ∈ (decodeSegment settings audio segment recognize index).timestamps,
        (paddedStartMs settings segment ≤ stamp.startMs ∧
          stamp.startMs ≤ paddedEndMs settings audio segment) ∧
        paddedStartMs settings segment ≤ stamp.endMs ∧
          stamp.endMs ≤ paddedEndMs settings audio segment := by
  by_cases hslice : sliceAudioByMs settings audio segment = []
  · rw [decodeSegment_of_nil hslice]
    exact ⟨List.Pairwise.nil, fun _ hstamp => absurd hstamp List.not_mem_nil⟩
  · have htimes := decodeSegment_times recognize index hslice
    obtain ⟨-, -, hlocal, hinside⟩ := h hslice
    constructor
    · have hshifted : (((recognize index (sliceAudioByMs settings audio segment)).timestamps.getD
          []).map fun stamp => (stamp.shift (paddedStartMs settings segment)).times).Pairwise
            fun a b => toLex a ≤ toLex b := by
        refine List.pairwise_map.mpr (hlocal.imp fun {a b} hab => ?_)
        rw [Stamp.key, Stamp.key, Prod.Lex.toLex_le_toLex] at hab
        rw [Prod.Lex.toLex_le_toLex]
        dsimp only [Stamp.times, Stamp.shift] at hab ⊢
        omega
      rw [← htimes] at hshifted
      exact List.pairwise_map.mp hshifted
    · intro stamp hstamp
      have hmem := List.mem_map_of_mem (f := Stamp.times) hstamp
      rw [htimes] at hmem
      obtain ⟨origin, horigin, heq⟩ := List.mem_map.mp hmem
      obtain ⟨hstart, hend⟩ := Prod.mk.inj heq
      obtain ⟨⟨hstart0, hstart1⟩, hend0, hend1⟩ := hinside origin horigin
      have hlateStart := add_paddedStartMs_le hrate hslice hstart1
      have hlateEnd := add_paddedStartMs_le hrate hslice hend1
      dsimp only [Stamp.shift] at hstart hend
      omega

/-- The segments with their padding do not overlap. -/
def Apart (settings : DecodeSettings) (segments : List VadSegment) : Prop :=
  segments.Pairwise fun a b => a.endMs + settings.vadPaddingMs ≤ b.startMs - settings.vadPaddingMs

/-- Segments that are far enough apart are decoded to timestamps in the order of time. -/
theorem segmentDecodes_inTimeOrder {segments : List VadSegment}
    (hrate : 1000 ≤ settings.sampleRate) (hapart : Apart settings segments)
    (hasr : LocalDecodes settings audio recognize segments) :
    InTimeOrder ((segmentDecodes settings audio recognize segments).flatMap
      AsrSegmentDecode.timestamps) := by
  have hpairs : segments.zipIdx.Pairwise fun p q =>
      p.1.endMs + settings.vadPaddingMs ≤ q.1.startMs - settings.vadPaddingMs := by
    rw [Apart, ← List.zipIdx_map_fst 0 segments] at hapart
    exact List.pairwise_map.mp hapart
  rw [segmentDecodes, List.flatMap_map, InTimeOrder, List.pairwise_flatMap]
  refine ⟨fun p hp => (decodeSegment_inTimeOrder hrate (hasr p hp)).1, ?_⟩
  refine hpairs.imp_of_mem fun {p q} hp hq hgap x hx y hy => ?_
  have hxin := (decodeSegment_inTimeOrder hrate (hasr p hp)).2 x hx
  have hyin := (decodeSegment_inTimeOrder hrate (hasr q hq)).2 y hy
  have hbefore : paddedEndMs settings audio p.1 ≤ p.1.endMs + settings.vadPaddingMs :=
    min_le_right _ _
  have hafter : q.1.startMs - settings.vadPaddingMs ≤ paddedStartMs settings q.1 :=
    le_max_right _ _
  rw [Stamp.key, Stamp.key, Prod.Lex.toLex_le_toLex]
  dsimp only [Stamp.times]
  omega

end LocalDecodes

end FunasrApi.Offline
