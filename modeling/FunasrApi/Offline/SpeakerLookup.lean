import FunasrApi.Offline.Speakers
import Mathlib.Tactic.Linarith

/-!
# Whom a time range belongs to

A speaker that is found for a range of times has a segment in the range if anybody has;
it is one of the largest unless the range is short and somebody else begins inside; and
without a segment in the range it is the nearest.
-/

namespace FunasrApi.Offline

open FunasrApi.Core

section Search

variable {κ : Type*} {startMs endMs : ℚ} {segments : List (SpeakerSegment κ)}

/-- What the loop remembers is a segment with the largest overlap, or that none was large enough. -/
def BestOf (startMs endMs : ℚ) (segments : List (SpeakerSegment κ))
    (best : Option (SpeakerSegment κ) × ℚ) : Prop :=
  (∀ other ∈ segments, overlap startMs endMs other ≤ best.2) ∧
    ∀ segment ∈ best.1, segment ∈ segments ∧ best.2 = overlap startMs endMs segment

theorem BestOf.better {best : Option (SpeakerSegment κ) × ℚ}
    (h : BestOf startMs endMs segments best) (segment : SpeakerSegment κ) :
    BestOf startMs endMs (segments ++ [segment]) (betterSegment startMs endMs best segment) := by
  unfold betterSegment
  split
  · next hlarger =>
    constructor
    · intro other hother
      rcases List.mem_append.mp hother with hother | hother
      · exact (h.1 other hother).trans hlarger.le
      · rw [List.mem_singleton.mp hother]
    · intro found hfound
      obtain rfl := Option.some.inj hfound
      exact ⟨List.mem_append_right _ (List.mem_singleton_self _), rfl⟩
  · next hsmaller =>
    constructor
    · intro other hother
      rcases List.mem_append.mp hother with hother | hother
      · exact h.1 other hother
      · rw [List.mem_singleton.mp hother]
        exact not_lt.mp hsmaller
    · intro found hfound
      obtain ⟨hmem, heq⟩ := h.2 found hfound
      exact ⟨List.mem_append_left _ hmem, heq⟩

/-- The loop ends with a segment of the largest overlap, or all overlaps are at most `-1`. -/
theorem bestOf_foldl (startMs endMs : ℚ) (segments : List (SpeakerSegment κ)) :
    BestOf startMs endMs segments (segments.foldl (betterSegment startMs endMs) (none, -1)) := by
  induction segments using List.reverseRecOn with
  | nil => exact ⟨fun _ hother => absurd hother List.not_mem_nil, nofun⟩
  | append_singleton segments segment ih =>
    rw [List.foldl_append]
    exact ih.better segment

/-- As long as no segment is remembered the value is the one the loop has started with. -/
theorem foldl_betterSegment_none (startMs endMs : ℚ) (segments : List (SpeakerSegment κ)) :
    (segments.foldl (betterSegment startMs endMs) (none, -1)).1 = none →
      (segments.foldl (betterSegment startMs endMs) (none, -1)).2 = -1 := by
  induction segments using List.reverseRecOn with
  | nil => exact fun _ => rfl
  | append_singleton segments segment ih =>
    rw [List.foldl_append]
    unfold betterSegment at ih ⊢
    dsimp only [List.foldl_cons, List.foldl_nil]
    split
    · exact nofun
    · exact ih

/-- A segment shares some time with the range. -/
def Overlaps (startMs endMs : ℚ) (segment : SpeakerSegment κ) : Prop :=
  0 < overlap startMs endMs segment

/-- One of the segments of the speaker is among the best ones. -/
def Owns (segments : List (SpeakerSegment κ)) (speaker : κ) (best : SpeakerSegment κ → Prop) :
    Prop :=
  ∃ segment ∈ segments, segment.speaker = speaker ∧ best segment

/-- Where somebody speaks in the range, the speaker of a largest overlap is found. -/
theorem speakerForTimeRange_largest [Zero κ]
    (h : ∃ segment ∈ segments, Overlaps startMs endMs segment) :
    Owns segments (speakerForTimeRange startMs endMs segments) fun segment =>
      Overlaps startMs endMs segment ∧
        ∀ other ∈ segments, overlap startMs endMs other ≤ overlap startMs endMs segment := by
  obtain ⟨speaking, hspeaking, hpositive⟩ := h
  have hbest := bestOf_foldl startMs endMs segments
  unfold speakerForTimeRange
  dsimp only
  generalize hloop : segments.foldl (betterSegment startMs endMs) (none, -1) = best at hbest ⊢
  obtain ⟨found, value⟩ := best
  have hvalue : 0 < value := hpositive.trans_le (hbest.1 speaking hspeaking)
  cases found with
  | none =>
    have hstart : value = -1 := by
      have hlast := foldl_betterSegment_none startMs endMs segments
      rw [hloop] at hlast
      exact hlast rfl
    rw [hstart] at hvalue
    exact absurd hvalue (by norm_num)
  | some segment =>
    obtain ⟨hmem, heq⟩ := hbest.2 segment rfl
    dsimp only at heq ⊢
    rw [if_pos hvalue]
    refine ⟨segment, hmem, rfl, ?_, fun other hother => ?_⟩
    · exact hvalue.trans_eq heq
    · exact (hbest.1 other hother).trans_eq heq

/-- Where nobody does, the speaker of a nearest segment is found. -/
theorem speakerForTimeRange_nearest [Zero κ] (hne : segments ≠ [])
    (h : ∀ segment ∈ segments, ¬ Overlaps startMs endMs segment) :
    Owns segments (speakerForTimeRange startMs endMs segments) fun segment =>
      ∀ other ∈ segments,
        midpointDistance startMs endMs segment ≤ midpointDistance startMs endMs other := by
  have hbest := bestOf_foldl startMs endMs segments
  obtain ⟨nearest, hnearest⟩ : ∃ nearest,
      segments.argmin (midpointDistance startMs endMs) = some nearest := by
    rw [← Option.isSome_iff_exists, Option.isSome_iff_ne_none, Ne, List.argmin_eq_none]
    exact hne
  have hspeaker : speakerForTimeRange startMs endMs segments = nearest.speaker := by
    unfold speakerForTimeRange
    rw [hnearest]
    dsimp only
    generalize segments.foldl (betterSegment startMs endMs) (none, -1) = best at hbest ⊢
    obtain ⟨found, value⟩ := best
    cases found with
    | none => rfl
    | some segment =>
      obtain ⟨hmem, heq⟩ := hbest.2 segment rfl
      dsimp only at heq ⊢
      rw [heq]
      exact if_neg (h segment hmem)
  rw [hspeaker]
  exact ⟨nearest, List.argmin_mem hnearest, rfl, fun other hother =>
    List.le_of_mem_argmin hother hnearest⟩

/-- A change of speaker begins inside the range. -/
def ChangeInside [DecidableEq κ] (startMs endMs : ℚ) (segments : List (SpeakerSegment κ)) : Prop :=
  ∃ change ∈ speakerChanges segments, startMs < change.2.start ∧ change.2.start < endMs

theorem mem_of_mem_speakerChanges [DecidableEq κ] {change : SpeakerSegment κ × SpeakerSegment κ}
    (h : change ∈ speakerChanges segments) : change.2 ∈ segments :=
  (mem_sortedBy _).mp (List.mem_of_mem_tail (List.of_mem_zip (List.mem_of_mem_filter h)).2)

/-- Only a short range with a change inside has the speaker after it. -/
theorem speakerForShortBoundaryToken_some [DecidableEq κ] {speaker : κ}
    (h : speakerForShortBoundaryToken startMs endMs segments = some speaker) :
    truncate endMs - truncate startMs ≤ 250 ∧ ChangeInside startMs endMs segments ∧
      Owns segments speaker fun segment => startMs < segment.start ∧ segment.start < endMs := by
  unfold speakerForShortBoundaryToken at h
  dsimp only at h
  split at h
  · cases h
  · next hshort =>
    obtain ⟨change, hfind, rfl⟩ := Option.map_eq_some_iff.mp h
    have hmem := List.mem_of_find?_eq_some hfind
    have htimes := List.find?_some hfind
    simp only [decide_eq_true_eq] at htimes
    -- whole milliseconds that are in order come from times that are
    have hinside : startMs < change.2.start ∧ change.2.start < endMs := by
      refine ⟨lt_of_not_ge fun hle => ?_, lt_of_not_ge fun hle => ?_⟩
      · exact absurd htimes.1 (truncate_mono hle).not_gt
      · exact absurd htimes.2 (truncate_mono hle).not_gt
    exact ⟨not_lt.mp (not_or.mp hshort).2, ⟨change, hmem, hinside⟩, change.2,
      mem_of_mem_speakerChanges hmem, rfl, hinside⟩

/-- The speaker found for a range is one of the diarization: in the range if anybody is, one of
the largest overlap if the range is long or nobody else begins inside, and a nearest one
otherwise. -/
structure Consistent [DecidableEq κ] (startMs endMs : ℚ) (segments : List (SpeakerSegment κ))
    (long : Prop) (speaker : κ) : Prop where
  overlapping : (∃ segment ∈ segments, Overlaps startMs endMs segment) →
    Owns segments speaker (Overlaps startMs endMs)
  largest : (∃ segment ∈ segments, Overlaps startMs endMs segment) →
    (long ∨ ¬ ChangeInside startMs endMs segments) →
    Owns segments speaker fun segment => ∀ other ∈ segments,
      overlap startMs endMs other ≤ overlap startMs endMs segment
  nearest : (∀ segment ∈ segments, ¬ Overlaps startMs endMs segment) →
    Owns segments speaker fun segment => ∀ other ∈ segments,
      midpointDistance startMs endMs segment ≤ midpointDistance startMs endMs other

/-- The lookup by overlap and distance is consistent whatever the length. -/
theorem speakerForTimeRange_consistent [DecidableEq κ] [Zero κ] (hne : segments ≠ [])
    (long : Prop) :
    Consistent startMs endMs segments long (speakerForTimeRange startMs endMs segments) := by
  refine ⟨fun hspeaking => ?_, fun hspeaking _ => ?_, speakerForTimeRange_nearest hne⟩
  · obtain ⟨segment, hmem, heq, hoverlaps, -⟩ := speakerForTimeRange_largest hspeaking
    exact ⟨segment, hmem, heq, hoverlaps⟩
  · obtain ⟨segment, hmem, heq, -, hlargest⟩ := speakerForTimeRange_largest hspeaking
    exact ⟨segment, hmem, heq, hlargest⟩

/-- With at least one segment, and lengths in whole milliseconds, the lookup is consistent with
the diarization. -/
theorem speakerForTimeRangeWithBoundary_consistent [DecidableEq κ] [Zero κ] (isNone : κ → Bool)
    (segments : List (SpeakerSegment κ)) (hne : segments ≠ [])
    (hsegments : ∀ segment ∈ segments, segment.start < segment.stop) (startMs endMs : ℚ) :
    Consistent startMs endMs segments (250 < truncate endMs - truncate startMs)
      (speakerForTimeRangeWithBoundary isNone startMs endMs segments) := by
  unfold speakerForTimeRangeWithBoundary
  cases hboundary : speakerForShortBoundaryToken startMs endMs segments with
  | none => exact speakerForTimeRange_consistent hne _
  | some speaker =>
    dsimp only
    split
    · exact speakerForTimeRange_consistent hne _
    · obtain ⟨hshort, hchange, segment, hmem, heq, hstart, hstop⟩ :=
        speakerForShortBoundaryToken_some hboundary
      have hoverlaps : Overlaps startMs endMs segment := by
        have hsegment := hsegments segment hmem
        unfold Overlaps overlap
        rw [max_eq_right hstart.le, sub_pos, lt_min_iff]
        exact ⟨hstop, hsegment⟩
      refine ⟨fun _ => ⟨segment, hmem, heq, hoverlaps⟩, fun _ hlong => ?_, fun hnobody => ?_⟩
      · exact absurd hlong (not_or.mpr ⟨not_lt.mpr hshort, not_not_intro hchange⟩)
      · exact absurd hoverlaps (hnobody segment hmem)

/-- A short word over a change of speaker is given to the speaker after the change, who speaks in
it, too. -/
theorem changeWord_consistent :
    let segments : List (SpeakerSegment ℤ) := [⟨1, 0, 1000⟩, ⟨2, 1000, 2000⟩]
    speakerForTimeRangeWithBoundary (fun _ => false) 850 1050 segments = 2 ∧
      Consistent 850 1050 segments (250 < truncate 1050 - truncate 850)
        (speakerForTimeRangeWithBoundary (fun _ => false) 850 1050 segments) := by
  intro segments
  refine ⟨by decide +kernel, ?_⟩
  exact speakerForTimeRangeWithBoundary_consistent _ segments (by decide) (by decide +kernel) _ _

/-- Without segments the speaker is `0`, whom no segment has; and a word a fraction longer than a
quarter of a second still counts as short, so that it gets the speaker after the change in it
although the one before has more of it. -/
theorem lookup_inconsistent :
    ¬ Consistent (κ := ℤ) 0 300 [] (250 < (300 : ℚ) - 0)
        (speakerForTimeRangeWithBoundary (fun _ => false) 0 300 []) ∧
      ¬ Consistent (κ := ℤ) 0 (501 / 2) [⟨1, 0, 240⟩, ⟨2, 240, 300⟩] (250 < (501 / 2 : ℚ) - 0)
        (speakerForTimeRangeWithBoundary (fun _ => false) 0 (501 / 2)
          [⟨1, 0, 240⟩, ⟨2, 240, 300⟩]) := by
  constructor
  · intro h
    obtain ⟨segment, hmem, -⟩ := h.nearest fun segment hmem => absurd hmem List.not_mem_nil
    exact absurd hmem List.not_mem_nil
  · intro h
    obtain ⟨segment, hmem, hspeaker, hlargest⟩ :=
      h.largest ⟨⟨1, 0, 240⟩, by decide, by unfold Overlaps; decide +kernel⟩
        (Or.inl (by norm_num))
    have hsecond : segment.speaker = 2 := by
      rw [hspeaker]
      decide +kernel
    have hsmaller : ∀ segment ∈ [(⟨1, 0, 240⟩ : SpeakerSegment ℤ), ⟨2, 240, 300⟩],
        segment.speaker = 2 → overlap 0 (501 / 2) segment < overlap 0 (501 / 2)
          (⟨1, 0, 240⟩ : SpeakerSegment ℤ) := by
      decide +kernel
    have hfirst := hlargest ⟨1, 0, 240⟩ (by decide)
    exact absurd (hsmaller segment hmem hsecond) hfirst.not_gt

end Search

end FunasrApi.Offline
