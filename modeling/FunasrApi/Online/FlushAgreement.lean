import FunasrApi.Online.SegmentQueue

/-!
# Flushing and merging of a pending segment

A pending segment that is flushed can not be extended any more. The flush test
and the merge rule are two threshold tests on the same gap; they exclude each
other except at the boundary, where the gap of the tail is the merge gap.
-/

namespace FunasrApi.Online

open FunasrApi.Core

/-- The VAD can still report a segment with this start: no earlier than the open speech, and
without open speech no earlier than the end of the audio. -/
def Reportable (currentDurationMs : ℤ) (activeSpeechStart : Option ℚ) (start : ℚ) : Prop :=
  match activeSpeechStart with
  | none => currentDurationMs ≤ start
  | some active => active ≤ start

/-- If the segment is flushed, no segment that the VAD can still report would have been merged
into it. -/
def FlushAgreesWithMerge (segment : Segment) (currentDurationMs vadMaxFinalMs vadMinFinalMs
    segmentMergeGapMs : ℤ) (activeSpeechStart : Option ℚ) : Prop :=
  shouldFlushPendingSegment segment false currentDurationMs vadMaxFinalMs vadMinFinalMs
      segmentMergeGapMs activeSpeechStart = true →
    ∀ (start stop : ℚ) (later : Segment),
      Reportable currentDurationMs activeSpeechStart start →
      normalizeVadSegment [start, stop] = some later →
      segmentMergeGapMs < later.start - segment.stop ∧
      ∀ earlier, enqueuePendingFinalSegment segmentMergeGapMs (earlier ++ [segment]) later =
        earlier ++ [segment, later]

/-- Without open speech, the tail is exactly as long as the merge gap, and long enough for the
shortest final segment. The second case needs a merge gap that is not positive, and a segment
that ends after the audio. -/
def AtMergeGap (segment : Segment) (currentDurationMs vadMinFinalMs segmentMergeGapMs : ℤ)
    (activeSpeechStart : Option ℚ) : Prop :=
  activeSpeechStart = none ∧
    ((segment.stop ≤ currentDurationMs ∧ currentDurationMs - segment.stop = segmentMergeGapMs ∧
        vadMinFinalMs ≤ segment.stop - segment.start + segmentMergeGapMs) ∨
      (currentDurationMs < segment.stop ∧ currentDurationMs - segment.stop ≤ segmentMergeGapMs ∧
        segmentMergeGapMs ≤ 0 ∧ vadMinFinalMs ≤ segment.stop - segment.start))

variable {segment later : Segment} {currentDurationMs vadMaxFinalMs vadMinFinalMs
  segmentMergeGapMs : ℤ} {activeSpeechStart : Option ℚ}

/-- What the flush test asks of a segment that is not too long to wait. -/
theorem shouldFlush_iff (hshort : segment.stop - segment.start < vadMaxFinalMs) :
    shouldFlushPendingSegment segment false currentDurationMs vadMaxFinalMs vadMinFinalMs
        segmentMergeGapMs activeSpeechStart = true ↔
      (∀ active ∈ activeSpeechStart, segmentMergeGapMs < truncate active - segment.stop) ∧
        requiredTailGapMs (segment.stop - segment.start) vadMinFinalMs segmentMergeGapMs ≤
          max 0 (currentDurationMs - segment.stop) := by
  have hlen := segment.start_lt_stop
  have hduration : max 0 (segment.stop - segment.start) = segment.stop - segment.start := by omega
  have hpos : 0 < segment.stop - segment.start := by omega
  unfold shouldFlushPendingSegment
  rw [if_neg Bool.false_ne_true]
  dsimp only
  rw [hduration, if_neg (by omega), decide_eq_true hpos]
  generalize requiredTailGapMs (segment.stop - segment.start) vadMinFinalMs segmentMergeGapMs =
    required
  generalize max 0 (currentDurationMs - segment.stop) = tail
  cases activeSpeechStart with
  | none => simp
  | some active =>
    have hgap : (truncate active - segment.stop ≤ segmentMergeGapMs) ↔
        ¬ segmentMergeGapMs < truncate active - segment.stop := not_lt.symm
    by_cases hfollows : segmentMergeGapMs < truncate active - segment.stop
    · simp [hgap, hfollows]
    · simp [hgap, hfollows]

/-- The required gap is at least the merge gap. -/
theorem le_requiredTailGapMs (durationMs vadMinFinalMs segmentMergeGapMs : ℤ) :
    segmentMergeGapMs ≤ requiredTailGapMs durationMs vadMinFinalMs segmentMergeGapMs := by
  unfold requiredTailGapMs
  split
  · exact le_rfl
  · exact le_max_left _ _

/-- A segment beyond the merge gap is not merged. -/
theorem enqueuePendingFinalSegment_apart (h : segmentMergeGapMs < later.start - segment.stop)
    (earlier : List Segment) :
    enqueuePendingFinalSegment segmentMergeGapMs (earlier ++ [segment]) later =
      earlier ++ [segment, later] := by
  unfold enqueuePendingFinalSegment
  rw [List.getLast?_concat]
  dsimp only
  rw [if_neg (by omega), List.append_assoc]
  rfl

/-- A segment in whole milliseconds is taken as it is. -/
theorem normalizeVadSegment_intCast {start stop : ℤ} (h : start < stop) :
    normalizeVadSegment [(start : ℚ), (stop : ℚ)] = some ⟨start, stop, h⟩ := by
  simp [normalizeVadSegment, h]

/-- Flushing agrees with merging exactly when the tail is not at the merge gap: there the flush
test lets a segment go that the merge rule would still extend. -/
theorem flushAgreesWithMerge_iff (segment : Segment) (currentDurationMs vadMaxFinalMs vadMinFinalMs
    segmentMergeGapMs : ℤ) (activeSpeechStart : Option ℚ)
    (hshort : segment.stop - segment.start < vadMaxFinalMs) :
    FlushAgreesWithMerge segment currentDurationMs vadMaxFinalMs vadMinFinalMs segmentMergeGapMs
        activeSpeechStart ↔
      ¬ AtMergeGap segment currentDurationMs vadMinFinalMs segmentMergeGapMs
        activeSpeechStart := by
  have hrequired : requiredTailGapMs (segment.stop - segment.start) vadMinFinalMs
      segmentMergeGapMs = if vadMinFinalMs ≤ segment.stop - segment.start then segmentMergeGapMs
        else max segmentMergeGapMs (vadMinFinalMs - (segment.stop - segment.start)) := rfl
  have hle := le_requiredTailGapMs (segment.stop - segment.start) vadMinFinalMs segmentMergeGapMs
  constructor
  · rintro hagrees ⟨rfl, hgap⟩
    -- a segment that begins at the end of the audio is merged
    have hflush : shouldFlushPendingSegment segment false currentDurationMs vadMaxFinalMs
        vadMinFinalMs segmentMergeGapMs none = true := by
      rw [shouldFlush_iff hshort, hrequired]
      refine ⟨fun _ hn => absurd hn (Option.not_mem_none _), ?_⟩
      split <;> omega
    have hlt : currentDurationMs < currentDurationMs + 1 := by omega
    obtain ⟨hapart, -⟩ := hagrees hflush _ _ _ le_rfl (normalizeVadSegment_intCast hlt)
    dsimp only at hapart
    omega
  · intro hnot hflush start stop later hreport hnorm
    obtain ⟨hactive, htail⟩ := (shouldFlush_iff hshort).mp hflush
    obtain ⟨p, hp, hstart, -⟩ := normalizeVadSegment_eq_some hnorm
    obtain rfl : (start, stop) = p := Option.some.inj hp
    dsimp only at hstart
    have hapart : segmentMergeGapMs < later.start - segment.stop := by
      cases activeSpeechStart with
      | some active =>
        have hgap := hactive active rfl
        have hmono : truncate active ≤ truncate start := truncate_mono hreport
        rw [hstart]
        omega
      | none =>
        have hmono : currentDurationMs ≤ truncate start := le_truncate_of_le hreport
        have hfar : segmentMergeGapMs < currentDurationMs - segment.stop := by
          by_contra hnear
          refine hnot ⟨rfl, ?_⟩
          rw [hrequired] at htail hle
          split at htail <;> omega
        rw [hstart]
        omega
    exact ⟨hapart, enqueuePendingFinalSegment_apart hapart⟩

/-- Three seconds of speech and three seconds of silence, with the default settings. -/
theorem flushAgreesWithMerge_afterSilence :
    shouldFlushPendingSegment ⟨0, 3000, by decide⟩ false 6000 12000 2500 2000 none = true ∧
    FlushAgreesWithMerge ⟨0, 3000, by decide⟩ 6000 12000 2500 2000 none :=
  ⟨by decide +kernel,
    (flushAgreesWithMerge_iff ⟨0, 3000, by decide⟩ 6000 12000 2500 2000 none (by decide)).mpr
      (by simp [AtMergeGap])⟩

/-- With two seconds of silence, the default merge gap, the segment is flushed, and speech that
begins right then would have been merged into it. -/
theorem flush_disagrees_at_mergeGap :
    ¬ ∀ (segment : Segment) (currentDurationMs vadMaxFinalMs vadMinFinalMs segmentMergeGapMs : ℤ)
      (activeSpeechStart : Option ℚ), segment.stop - segment.start < vadMaxFinalMs →
        FlushAgreesWithMerge segment currentDurationMs vadMaxFinalMs vadMinFinalMs
          segmentMergeGapMs activeSpeechStart := by
  intro h
  have hagrees := h ⟨0, 3000, by decide⟩ 5000 12000 2500 2000 none (by decide)
  obtain ⟨hapart, -⟩ := hagrees (by decide +kernel) 5000 5600 ⟨5000, 5600, by decide⟩
    (by norm_num [Reportable]) (by decide +kernel)
  exact absurd hapart (by decide)

end FunasrApi.Online
