import FunasrApi.Online.Session
import Mathlib.Data.Finset.Max

/-!
# Trimming and the final decodes to come

The audio is trimmed to the earliest sample that is still needed. The policy
subtracts the samples of the padding from those of a pending start; the decode
subtracts the padding first and takes the sample of the difference. The two
differ by one sample when the padding has the larger fraction of a sample.
-/

namespace FunasrApi.Online

open FunasrApi.Core

/-- The `start_sample` of `_decode_final_segment`. -/
def finalStartSample (vadPrePaddingMs sampleRate startMs : ℤ) : ℤ :=
  msToSample sampleRate (max 0 (startMs - vadPrePaddingMs))

/-- The kept audio begins no later than the final decodes of the pending segments, and of a
segment that begins with the open speech. -/
def KeepsFinalDecodes (lastStreamSamples vadFedSamples : ℤ)
    (pendingFinalSegments : List Segment) (vadPrePaddingMs sampleRate : ℤ)
    (activeSpeechStart : Option ℚ) : Prop :=
  let keepFromSample := audioTrimKeepFromSample lastStreamSamples vadFedSamples
    pendingFinalSegments vadPrePaddingMs sampleRate activeSpeechStart
  (∀ segment ∈ pendingFinalSegments,
    keepFromSample ≤ finalStartSample vadPrePaddingMs sampleRate segment.start) ∧
  ∀ active ∈ activeSpeechStart,
    keepFromSample ≤ finalStartSample vadPrePaddingMs sampleRate (truncate active)

/-- The start is after the padding and has the smaller fraction of a sample. -/
def RoundsLate (vadPrePaddingMs sampleRate startMs : ℤ) : Prop :=
  vadPrePaddingMs < startMs ∧
    startMs * sampleRate % 1000 < vadPrePaddingMs * sampleRate % 1000

instance (vadPrePaddingMs sampleRate startMs : ℤ) :
    Decidable (RoundsLate vadPrePaddingMs sampleRate startMs) :=
  inferInstanceAs (Decidable (_ ∧ _))

/-- A position of the stream or the VAD is not after the padded start, or the padded start of
the open speech is not in a later sample. -/
def HeldBack (lastStreamSamples vadFedSamples vadPrePaddingMs sampleRate : ℤ)
    (activeSpeechStart : Option ℚ) (startMs : ℤ) : Prop :=
  min lastStreamSamples vadFedSamples * 1000 ≤ (startMs - vadPrePaddingMs) * sampleRate ∨
    ∃ active ∈ activeSpeechStart, (truncate active - vadPrePaddingMs) * sampleRate / 1000 ≤
      (startMs - vadPrePaddingMs) * sampleRate / 1000

section Samples

variable {vadPrePaddingMs sampleRate : ℤ}

/-- A time that is negative is cut to the first sample. -/
theorem max_msToSample (hrate : 0 < sampleRate) (ms : ℤ) :
    max 0 (msToSample sampleRate ms) = max 0 (ms * sampleRate / 1000) := by
  rcases le_total 0 ms with hms | hms
  · rw [msToSample, Int.tdiv_eq_ediv_of_nonneg (Int.mul_nonneg hms hrate.le)]
  · have hprod : ms * sampleRate ≤ 0 := mul_nonpos_of_nonpos_of_nonneg hms hrate.le
    have hcut : msToSample sampleRate ms ≤ 0 := by
      simpa [msToSample] using msToSample_mono hrate hms
    omega

theorem finalStartSample_eq (hrate : 0 < sampleRate) (startMs : ℤ) :
    finalStartSample vadPrePaddingMs sampleRate startMs =
      max 0 ((startMs - vadPrePaddingMs) * sampleRate / 1000) := by
  have hnonneg : 0 ≤ max 0 (startMs - vadPrePaddingMs) := le_max_left _ _
  rw [finalStartSample, ← max_eq_right (msToSample_nonneg hrate hnonneg), max_msToSample hrate]
  rcases le_total 0 (startMs - vadPrePaddingMs) with hms | hms
  · rw [max_eq_right hms]
  · have hprod : (startMs - vadPrePaddingMs) * sampleRate ≤ 0 :=
      mul_nonpos_of_nonpos_of_nonneg hms hrate.le
    rw [max_eq_left hms, zero_mul]
    omega

theorem finalStartSample_nonneg (hrate : 0 < sampleRate) (startMs : ℤ) :
    0 ≤ finalStartSample vadPrePaddingMs sampleRate startMs :=
  msToSample_nonneg hrate (le_max_left _ _)

/-- Later segments are decoded from later samples. -/
theorem finalStartSample_mono (vadPrePaddingMs : ℤ) (hrate : 0 < sampleRate)
    {startMs startMs' : ℤ} (h : startMs ≤ startMs') :
    finalStartSample vadPrePaddingMs sampleRate startMs ≤
      finalStartSample vadPrePaddingMs sampleRate startMs' :=
  msToSample_mono hrate (by omega)

theorem pendingStartSample_mono (vadPrePaddingMs : ℤ) (hrate : 0 < sampleRate)
    {segment other : Segment} (h : segment.start ≤ other.start) :
    pendingStartSample vadPrePaddingMs sampleRate segment ≤
      pendingStartSample vadPrePaddingMs sampleRate other := by
  have hmono := msToSample_mono hrate h
  unfold pendingStartSample
  omega

/-- The policy is one sample late exactly when the fractions are the wrong way round. -/
theorem pendingStartSample_eq (hrate : 0 < sampleRate) (hpadding : 0 ≤ vadPrePaddingMs)
    {segment : Segment} (hstart : 0 ≤ segment.start) :
    pendingStartSample vadPrePaddingMs sampleRate segment =
      finalStartSample vadPrePaddingMs sampleRate segment.start +
        if RoundsLate vadPrePaddingMs sampleRate segment.start then 1 else 0 := by
  have hstartCut : msToSample sampleRate segment.start = segment.start * sampleRate / 1000 :=
    Int.tdiv_eq_ediv_of_nonneg (Int.mul_nonneg hstart hrate.le)
  have hpaddingCut : msToSample sampleRate vadPrePaddingMs =
      vadPrePaddingMs * sampleRate / 1000 :=
    Int.tdiv_eq_ediv_of_nonneg (Int.mul_nonneg hpadding hrate.le)
  rw [pendingStartSample, finalStartSample_eq hrate, hstartCut, hpaddingCut, sub_mul]
  by_cases hle : segment.start ≤ vadPrePaddingMs
  · have hprod : segment.start * sampleRate ≤ vadPrePaddingMs * sampleRate :=
      Int.mul_le_mul_of_nonneg_right hle hrate.le
    rw [if_neg fun hlate => absurd hlate.1 (not_lt.mpr hle)]
    omega
  · have hprod : vadPrePaddingMs * sampleRate ≤ segment.start * sampleRate :=
      Int.mul_le_mul_of_nonneg_right (not_le.mp hle).le hrate.le
    split
    · next hlate =>
      have hfraction := hlate.2
      omega
    · next hexact =>
      have hfraction : vadPrePaddingMs * sampleRate % 1000 ≤
          segment.start * sampleRate % 1000 :=
        not_lt.mp fun hlt => hexact ⟨not_le.mp hle, hlt⟩
      omega

end Samples

section Keep

variable {lastStreamSamples vadFedSamples vadPrePaddingMs sampleRate : ℤ}
  {pendingFinalSegments : List Segment} {activeSpeechStart : Option ℚ}

theorem foldl_min_le_iff (l : List ℤ) (m n : ℤ) :
    l.foldl min m ≤ n ↔ m ≤ n ∨ ∃ x ∈ l, x ≤ n := by
  induction l generalizing m with
  | nil => simp
  | cons x l ih => simp [ih, or_assoc]

/-- A nonempty queue has a segment that starts first. -/
theorem exists_earliest {segment : Segment} (h : segment ∈ pendingFinalSegments) :
    ∃ earliest ∈ pendingFinalSegments,
      ∀ other ∈ pendingFinalSegments, earliest.start ≤ other.start := by
  obtain ⟨earliest, hmem, hle⟩ := Finset.exists_min_image pendingFinalSegments.toFinset
    Span.start ⟨segment, List.mem_toFinset.mpr h⟩
  exact ⟨earliest, List.mem_toFinset.mp hmem, fun other hother =>
    hle other (List.mem_toFinset.mpr hother)⟩

/-- What holds the trimming back, in samples. -/
theorem heldBack_iff (hrate : 0 < sampleRate) {startMs : ℤ} (h : vadPrePaddingMs < startMs) :
    HeldBack lastStreamSamples vadFedSamples vadPrePaddingMs sampleRate activeSpeechStart
        startMs ↔
      min lastStreamSamples vadFedSamples ≤
          finalStartSample vadPrePaddingMs sampleRate startMs ∨
        ∃ active ∈ activeSpeechStart,
          finalStartSample vadPrePaddingMs sampleRate (truncate active) ≤
            finalStartSample vadPrePaddingMs sampleRate startMs := by
  have hnonneg : 0 ≤ (startMs - vadPrePaddingMs) * sampleRate :=
    Int.mul_nonneg (by omega) hrate.le
  have hcut : max 0 ((startMs - vadPrePaddingMs) * sampleRate / 1000) =
      (startMs - vadPrePaddingMs) * sampleRate / 1000 :=
    max_eq_right (Int.ediv_nonneg hnonneg (by norm_num))
  have hsample : 0 ≤ (startMs - vadPrePaddingMs) * sampleRate / 1000 :=
    Int.ediv_nonneg hnonneg (by norm_num)
  unfold HeldBack
  simp only [finalStartSample_eq hrate, hcut, max_le_iff, hsample, true_and]
  rw [Int.le_ediv_iff_mul_le (by norm_num)]

/-- The audio is kept from the earliest of the positions and the starts. -/
theorem audioTrimKeepFromSample_le_iff (hrate : 0 < sampleRate) {n : ℤ} (hn : 0 ≤ n) :
    audioTrimKeepFromSample lastStreamSamples vadFedSamples pendingFinalSegments
        vadPrePaddingMs sampleRate activeSpeechStart ≤ n ↔
      min lastStreamSamples vadFedSamples ≤ n ∨
        (∃ segment ∈ pendingFinalSegments,
          pendingStartSample vadPrePaddingMs sampleRate segment ≤ n) ∨
        ∃ active ∈ activeSpeechStart,
          finalStartSample vadPrePaddingMs sampleRate (truncate active) ≤ n := by
  have hpending := foldl_min_le_iff
    (pendingFinalSegments.map (pendingStartSample vadPrePaddingMs sampleRate))
    (min lastStreamSamples vadFedSamples) n
  simp only [List.mem_map, exists_exists_and_eq_and] at hpending
  unfold audioTrimKeepFromSample
  cases activeSpeechStart with
  | none => simp [hn, hpending]
  | some active =>
    simp only [max_le_iff, hn, true_and, max_msToSample hrate, ← finalStartSample_eq hrate,
      Option.mem_def, Option.some.injEq, exists_eq_left']
    rw [min_le_iff, hpending, or_assoc]

/-- Trimming keeps what the final decodes ask for, exactly when the earliest pending start is not
rounded late, or something else holds the trimming back to it. -/
theorem audioTrimKeepFromSample_keeps_iff (hrate : 1 ≤ sampleRate)
    (hpadding : 0 ≤ vadPrePaddingMs)
    (hstart : ∀ segment ∈ pendingFinalSegments, 0 ≤ segment.start) :
    KeepsFinalDecodes lastStreamSamples vadFedSamples pendingFinalSegments vadPrePaddingMs
        sampleRate activeSpeechStart ↔
      ∀ segment ∈ pendingFinalSegments,
        (∀ other ∈ pendingFinalSegments, segment.start ≤ other.start) →
        RoundsLate vadPrePaddingMs sampleRate segment.start →
        HeldBack lastStreamSamples vadFedSamples vadPrePaddingMs sampleRate activeSpeechStart
          segment.start := by
  have hpos : 0 < sampleRate := hrate
  constructor
  · rintro ⟨hkeep, -⟩ segment hsegment hearliest hlate
    have hle := hkeep segment hsegment
    rw [audioTrimKeepFromSample_le_iff hpos (finalStartSample_nonneg hpos _)] at hle
    have hown := pendingStartSample_eq hpos hpadding (hstart segment hsegment)
    rw [if_pos hlate] at hown
    rcases hle with hposition | ⟨other, hother, hle⟩ | ⟨active, hactive, hle⟩
    · exact (heldBack_iff hpos hlate.1).mpr (.inl hposition)
    · have hmono := pendingStartSample_mono vadPrePaddingMs hpos
        (hearliest other hother)
      omega
    · exact (heldBack_iff hpos hlate.1).mpr (.inr ⟨active, hactive, hle⟩)
  · intro hheld
    refine ⟨fun segment hsegment => ?_, fun active hactive => ?_⟩
    · -- The earliest pending segment decides for all of them.
      obtain ⟨earliest, hmem, hearliest⟩ := exists_earliest hsegment
      have hmono := finalStartSample_mono vadPrePaddingMs hpos
        (hearliest segment hsegment)
      refine le_trans ?_ hmono
      rw [audioTrimKeepFromSample_le_iff hpos (finalStartSample_nonneg hpos _)]
      have hown := pendingStartSample_eq hpos hpadding (hstart earliest hmem)
      by_cases hlate : RoundsLate vadPrePaddingMs sampleRate earliest.start
      · rcases (heldBack_iff hpos hlate.1).mp (hheld earliest hmem hearliest hlate) with
          hposition | hactive
        · exact .inl hposition
        · exact .inr (.inr hactive)
      · rw [if_neg hlate, add_zero] at hown
        exact .inr (.inl ⟨earliest, hmem, hown.le⟩)
    · rw [audioTrimKeepFromSample_le_iff hpos (finalStartSample_nonneg hpos _)]
      exact .inr (.inr ⟨active, hactive, le_rfl⟩)

/-- A queue at 16 kHz, with open speech after it. -/
theorem keepsFinalDecodes_at_16kHz :
    KeepsFinalDecodes 64000 80000 [⟨3000, 5000, by decide⟩] 350 16000 (some 5500) :=
  (audioTrimKeepFromSample_keeps_iff (by decide) (by decide) (by decide)).mpr
    fun segment hsegment _ hlate => by
      obtain rfl := List.mem_singleton.mp hsegment
      exact absurd hlate (by decide)

/-- At 11025 Hz the padding of 350 ms ends in half a sample, and one sample is cut off. -/
theorem audioTrim_one_sample_late :
    audioTrimKeepFromSample 22050 22050 [⟨1000, 2000, by decide⟩] 350 11025 none = 7167 ∧
      finalStartSample 350 11025 1000 = 7166 ∧
      ¬ KeepsFinalDecodes 22050 22050 [⟨1000, 2000, by decide⟩] 350 11025 none := by
  refine ⟨by decide, by decide, fun h => ?_⟩
  exact absurd (h.1 _ (List.mem_singleton_self _)) (by decide)

end Keep

namespace Session

variable {settings : SessionSettings} {models : Recognizers} {s : Session}

/-- The record of a final decode, from the audio of the segment and the duration so far. -/
def recordOf (settings : SessionSettings) (models : Recognizers) (call : ℕ)
    (durationMs startMs endMs : ℤ) (segmentAudio : List Sample) : FinalRecord :=
  let paddedStartMs := max 0 (startMs - settings.vadPrePaddingMs)
  let paddedEndMs := min durationMs (endMs + settings.vadPostPaddingMs)
  let nothing := emptyFinalResult startMs endMs paddedStartMs paddedEndMs
  if (segmentAudio.length : ℤ) < settings.sampleRate / 10 then nothing
  else if models.hasEffectiveSpeechAudio segmentAudio = false then nothing
  else
    match models.finalDecode call segmentAudio with
    | none => nothing
    | some answer =>
      if answer.finalText ≠ [] ∧ models.hasAcceptableFinalText answer.finalText = false then
        nothing
      else
        buildFinalResult answer.finalText answer.rawText answer.timestamps startMs endMs
          paddedStartMs paddedEndMs

/-- A final decode reads the audio from its start sample on, and the duration. -/
theorem decodeFinalSegment_fst (s : Session) (startMs endMs : ℤ) :
    (s.decodeFinalSegment settings models startMs endMs).1 =
      recordOf settings models s.calls (s.currentDurationMs settings) startMs endMs
        (s.audio.slice (finalStartSample settings.vadPrePaddingMs settings.sampleRate startMs)
          (min (msToSample settings.sampleRate
            (min (s.currentDurationMs settings) (endMs + settings.vadPostPaddingMs)))
            s.audio.totalSamples)) := by
  unfold decodeFinalSegment recordOf finalStartSample
  dsimp only
  split
  · rfl
  · split
    · rfl
    · generalize models.finalDecode s.calls _ = answer
      cases answer with
      | none => rfl
      | some answer =>
        dsimp only
        split <;> rfl

end Session

end FunasrApi.Online
