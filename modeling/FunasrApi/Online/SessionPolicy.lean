import FunasrApi.Core.Coalescing
import FunasrApi.Core.Numeric

/-!
# Settings and pure policy of a realtime session

The settings are those that `__init__` computes from its arguments, with their
clamps as fields. The policy functions decide when a pending final segment is
flushed, and from which sample on the audio must be kept.
-/

namespace FunasrApi.Online

open FunasrApi.Core

/-- A positive stretch of speech on the clock of the session, in milliseconds. -/
abbrev Segment := Span ℤ

/-- What `__init__` of the session computes from its arguments. -/
structure SessionSettings where
  sampleRate : ℤ
  firstDecodeSamples : ℤ
  chunkSamples : ℤ
  vadChunkSamples : ℤ
  vadPrePaddingMs : ℤ
  vadPostPaddingMs : ℤ
  vadMergeGapMs : ℤ
  vadMinFinalMs : ℤ
  vadMaxFinalMs : ℤ
  sampleRate_pos : 0 < sampleRate
  firstDecodeSamples_nonneg : 0 ≤ firstDecodeSamples
  chunkSamples_nonneg : 0 ≤ chunkSamples
  vadChunkSamples_pos : 1 ≤ vadChunkSamples
  vadMergeGapMs_nonneg : 0 ≤ vadMergeGapMs
  one_le_vadMinFinalMs : 1 ≤ vadMinFinalMs
  vadMinFinalMs_le_vadMaxFinalMs : vadMinFinalMs ≤ vadMaxFinalMs

/-- `int(ms * sample_rate / 1000)`. -/
def msToSample (sampleRate ms : ℤ) : ℤ := (ms * sampleRate).tdiv 1000

/-- `int(samples * 1000 / sample_rate)`. -/
def sampleToMs (sampleRate samples : ℤ) : ℤ := (samples * 1000).tdiv sampleRate

/-- Samples are not negative when the milliseconds are not. -/
theorem msToSample_nonneg {sampleRate ms : ℤ} (hsr : 0 < sampleRate) (h : 0 ≤ ms) :
    0 ≤ msToSample sampleRate ms :=
  Int.tdiv_nonneg (Int.mul_nonneg h hsr.le) (by norm_num)

/-- `__init__`, with the clamps it applies to its arguments. -/
def SessionSettings.init (sampleRate firstDecodeMs chunkMs vadPrePaddingMs vadPostPaddingMs
    vadMergeGapMs vadMinFinalMs vadMaxFinalMs : ℤ) (hsr : 0 < sampleRate)
    (hfirst : 0 ≤ firstDecodeMs) (hchunk : 0 ≤ chunkMs) : SessionSettings where
  sampleRate := sampleRate
  firstDecodeSamples := msToSample sampleRate firstDecodeMs
  chunkSamples := msToSample sampleRate chunkMs
  vadChunkSamples := max (msToSample sampleRate 100) 1
  vadPrePaddingMs := vadPrePaddingMs
  vadPostPaddingMs := vadPostPaddingMs
  vadMergeGapMs := max 0 vadMergeGapMs
  vadMinFinalMs := max 1 vadMinFinalMs
  vadMaxFinalMs := max (max 1 vadMinFinalMs) vadMaxFinalMs
  sampleRate_pos := hsr
  firstDecodeSamples_nonneg := msToSample_nonneg hsr hfirst
  chunkSamples_nonneg := msToSample_nonneg hsr hchunk
  vadChunkSamples_pos := le_max_right _ _
  vadMergeGapMs_nonneg := le_max_left _ _
  one_le_vadMinFinalMs := le_max_left _ _
  vadMinFinalMs_le_vadMaxFinalMs := le_max_left _ _

/-- `effective_segment_merge_gap_ms`. -/
def effectiveSegmentMergeGapMs (vadMergeGapMs vadPostPaddingMs : ℤ) : ℤ :=
  vadMergeGapMs + vadPostPaddingMs

/-- `required_tail_gap_ms`: a short segment waits until the shortest final length has passed. -/
def requiredTailGapMs (durationMs vadMinFinalMs segmentMergeGapMs : ℤ) : ℤ :=
  if vadMinFinalMs ≤ durationMs then segmentMergeGapMs
  else max segmentMergeGapMs (vadMinFinalMs - durationMs)

/-- `should_flush_pending_segment`. -/
def shouldFlushPendingSegment (segment : Segment) (force : Bool)
    (currentDurationMs vadMaxFinalMs vadMinFinalMs segmentMergeGapMs : ℤ)
    (activeSpeechStart : Option ℚ) : Bool :=
  if force then true
  else
    let durationMs := max 0 (segment.stop - segment.start)
    if vadMaxFinalMs ≤ durationMs then true
    else
      let tailGapMs := max 0 (currentDurationMs - segment.stop)
      let requiredGapMs := requiredTailGapMs durationMs vadMinFinalMs segmentMergeGapMs
      let speechFollows := match activeSpeechStart with
        | some active => decide (truncate active - segment.stop ≤ segmentMergeGapMs)
        | none => false
      if speechFollows then false
      else if tailGapMs < requiredGapMs then false
      else decide (0 < durationMs)

/-- The first sample that the final decode of a pending segment can ask for. -/
def pendingStartSample (vadPrePaddingMs sampleRate : ℤ) (segment : Segment) : ℤ :=
  max 0 (msToSample sampleRate segment.start - msToSample sampleRate vadPrePaddingMs)

/-- `audio_trim_keep_from_sample`. -/
def audioTrimKeepFromSample (lastStreamSamples vadFedSamples : ℤ)
    (pendingFinalSegments : List Segment) (vadPrePaddingMs sampleRate : ℤ)
    (activeSpeechStart : Option ℚ) : ℤ :=
  let keepFromSample := min lastStreamSamples vadFedSamples
  let keepFromSample :=
    (pendingFinalSegments.map (pendingStartSample vadPrePaddingMs sampleRate)).foldl min
      keepFromSample
  let keepFromSample := match activeSpeechStart with
    | some active => min keepFromSample
        (max 0 (msToSample sampleRate (truncate active - vadPrePaddingMs)))
    | none => keepFromSample
  max 0 keepFromSample

/-- Folding a minimum never goes above where it began. -/
theorem foldl_min_le (l : List ℤ) (n : ℤ) : l.foldl min n ≤ n := by
  induction l generalizing n with
  | nil => exact le_rfl
  | cons m l ih => exact (ih (min n m)).trans (min_le_left _ _)

/-- The audio is kept from the streaming and the VAD position at the latest. -/
theorem audioTrimKeepFromSample_le (lastStreamSamples vadFedSamples : ℤ)
    (pendingFinalSegments : List Segment) (vadPrePaddingMs sampleRate : ℤ)
    (activeSpeechStart : Option ℚ) :
    audioTrimKeepFromSample lastStreamSamples vadFedSamples pendingFinalSegments
      vadPrePaddingMs sampleRate activeSpeechStart ≤
        max 0 (min lastStreamSamples vadFedSamples) := by
  have hfold := foldl_min_le
    (pendingFinalSegments.map (pendingStartSample vadPrePaddingMs sampleRate))
    (min lastStreamSamples vadFedSamples)
  unfold audioTrimKeepFromSample
  cases activeSpeechStart with
  | none => exact max_le_max le_rfl hfold
  | some active => exact max_le_max le_rfl ((min_le_left _ _).trans hfold)

section Clock

variable {sampleRate : ℤ}

/-- Later milliseconds are later samples. -/
theorem msToSample_mono (hsr : 0 < sampleRate) {a b : ℤ} (h : a ≤ b) :
    msToSample sampleRate a ≤ msToSample sampleRate b :=
  Int.tdiv_le_tdiv (by norm_num) (Int.mul_le_mul_of_nonneg_right h hsr.le)

/-- Later samples are later milliseconds. -/
theorem sampleToMs_mono (hsr : 0 < sampleRate) {a b : ℤ} (h : a ≤ b) :
    sampleToMs sampleRate a ≤ sampleToMs sampleRate b :=
  Int.tdiv_le_tdiv hsr (by omega)

/-- An instant within so many samples is, in whole milliseconds, within their duration. -/
theorem truncate_le_sampleToMs (hsr : 0 < sampleRate) {t : ℚ} {samples : ℤ} (h0 : 0 ≤ t)
    (h : t * sampleRate ≤ samples * 1000) : truncate t ≤ sampleToMs sampleRate samples := by
  have hpos : (0 : ℚ) < sampleRate := by exact_mod_cast hsr
  have hfloor : (⌊t⌋ : ℚ) * sampleRate ≤ samples * 1000 :=
    (mul_le_mul_of_nonneg_right (Int.floor_le t) hpos.le).trans h
  have hle : ⌊t⌋ * sampleRate ≤ samples * 1000 := by exact_mod_cast hfloor
  have hnonneg : 0 ≤ samples * 1000 :=
    (Int.mul_nonneg (Int.floor_nonneg.mpr h0) hsr.le).trans hle
  rw [truncate, if_pos h0, sampleToMs, Int.tdiv_eq_ediv_of_nonneg hnonneg]
  exact Int.le_ediv_of_mul_le hsr hle

end Clock

end FunasrApi.Online
