import FunasrApi.Core.Keyed
import FunasrApi.Core.ListLoops
import FunasrApi.Offline.Timestamps
import Mathlib.Data.Char
import Mathlib.Data.List.Dedup
import Mathlib.Data.List.Lex
import Mathlib.Data.Prod.Lex
import Mathlib.Order.Bounds.Basic

/-!
# Recognition results

What all engines return, and its normalization: the speakers, their time ranges and the
text are filled in from the segments where they are missing. A result that is filled in
from its segments describes them, and filling in again changes nothing.
-/

namespace FunasrApi.Results

open FunasrApi.Core FunasrApi.Offline

/-- `Segment`, with the fields that are read here. -/
structure Segment (κ : Type*) where
  /-- The text. -/
  text : Text
  /-- The time at which the segment begins. -/
  start : ℚ
  /-- The time at which it ends. -/
  stop : ℚ
  /-- The speaker. -/
  speaker : κ
  /-- The timestamps of its tokens, when there are some. -/
  timestamp : Option TimestampValue
deriving DecidableEq

/-- An entry of `speakers`. -/
structure SpeakerRange (κ : Type*) where
  /-- The speaker. -/
  speakerId : κ
  /-- The beginning of the first segment. -/
  start : ℚ
  /-- The end of the last one. -/
  stop : ℚ
deriving DecidableEq

/-- `RecognitionResult`, without the metadata. -/
structure RecognitionResult (κ : Type*) where
  /-- The mode. -/
  mode : Text
  /-- The segments. -/
  segments : List (Segment κ)
  /-- The time ranges of the speakers. -/
  speakers : List (SpeakerRange κ)
  /-- The number of speakers. -/
  speakerCount : ℕ
  /-- The speakers. -/
  speakerIds : List κ
  /-- The whole text. -/
  fullText : Text
  /-- The time it took, in seconds. -/
  processingTime : ℚ
  /-- The result is the last one. -/
  isFinal : Bool
  /-- The error, when there is one. -/
  error : Option Text
deriving DecidableEq

/-- `build_recognition_result`. -/
def buildRecognitionResult {κ : Type*} (mode : Text) (isFinal : Bool) : RecognitionResult κ where
  mode := mode
  segments := []
  speakers := []
  speakerCount := 0
  speakerIds := []
  fullText := []
  processingTime := 0
  isFinal := isFinal
  error := none

section Normalization

variable {κ : Type*} [DecidableEq κ]
  /- `(str(type(value)), str(value))` -/
  (label : κ → Lex (Text × Text))

/-- `_speaker_ids_from_segments`. -/
def speakerIdsFromSegments (segments : List (Segment κ)) : List κ :=
  sortedBy label (segments.map Segment.speaker).dedup

/-- One round of the loop of `_speaker_ranges_from_segments`. -/
def addRange (ranges : List (SpeakerRange κ)) (segment : Segment κ) : List (SpeakerRange κ) :=
  let known :=
    if segment.speaker ∈ ranges.map SpeakerRange.speakerId then ranges
    else ranges ++ [⟨segment.speaker, segment.start, segment.stop⟩]
  Keyed.change SpeakerRange.speakerId segment.speaker (fun current =>
    { current with
      start := min current.start segment.start
      stop := max current.stop segment.stop }) known

/-- `_speaker_ranges_from_segments`. -/
def speakerRangesFromSegments (segments : List (Segment κ)) : List (SpeakerRange κ) :=
  let ranges := segments.foldl addRange []
  (speakerIdsFromSegments label segments).filterMap fun speakerId =>
    Keyed.lookup SpeakerRange.speakerId speakerId ranges

/-- What `normalize_recognition_result` fills in for a result with segments. -/
def fillFromSegments (result : RecognitionResult κ) : RecognitionResult κ :=
  if result.segments ≠ [] then
    { result with
      speakerIds :=
        if result.speakerIds = [] then speakerIdsFromSegments label result.segments
        else result.speakerIds
      speakers :=
        if result.speakers = [] then speakerRangesFromSegments label result.segments
        else result.speakers
      fullText :=
        if result.fullText = [] then result.segments.flatMap Segment.text
        else result.fullText }
  else result

/-- The `speaker_count` of `normalize_recognition_result`. -/
def countSpeakers (result : RecognitionResult κ) : RecognitionResult κ :=
  if result.speakerCount = 0 then
    if result.speakerIds ≠ [] then { result with speakerCount := result.speakerIds.length }
    else if result.speakers ≠ [] then { result with speakerCount := result.speakers.length }
    else result
  else result

/-- `normalize_recognition_result`; `elapsed` is the time since `start_time`. -/
def normalizeRecognitionResult (result : Option (RecognitionResult κ)) (mode : Text)
    (isFinal : Option Bool) (elapsed : Option ℚ) (error : Option Text) : RecognitionResult κ :=
  let result := result.getD (buildRecognitionResult mode false)
  let result := countSpeakers (fillFromSegments label { result with mode := mode })
  { result with
    isFinal := isFinal.getD result.isFinal
    error := error.or result.error
    processingTime := elapsed.getD result.processingTime }

/-- The times that a reading of the segments of a speaker gives. -/
def timesOf (time : Segment κ → ℚ) (segments : List (Segment κ)) (speakerId : κ) : Set ℚ :=
  {t | ∃ segment ∈ segments, segment.speaker = speakerId ∧ time segment = t}

/-- Every speaker of the segments has one range, from its first beginning to its last end. -/
structure Covers (segments : List (Segment κ)) (ranges : List (SpeakerRange κ)) : Prop where
  mem_ids : ∀ speakerId, speakerId ∈ ranges.map SpeakerRange.speakerId ↔
    speakerId ∈ segments.map Segment.speaker
  nodup : (ranges.map SpeakerRange.speakerId).Nodup
  first_start : ∀ range ∈ ranges,
    IsLeast (timesOf Segment.start segments range.speakerId) range.start
  last_stop : ∀ range ∈ ranges,
    IsGreatest (timesOf Segment.stop segments range.speakerId) range.stop

/-- The speakers of a result are those of its segments, in the order of their labels, and each
has one range. -/
structure Describes (result : RecognitionResult κ) : Prop where
  covers : Covers result.segments result.speakers
  ids : result.speakers.map SpeakerRange.speakerId = result.speakerIds
  sorted : result.speakerIds.Pairwise fun a b => label a ≤ label b
  count : result.speakerCount = result.speakerIds.length

section Ranges

variable {label} {segments : List (Segment κ)} {ranges : List (SpeakerRange κ)}
  {segment : Segment κ} {speakerId : κ} {time : Segment κ → ℚ}

omit [DecidableEq κ] in
theorem timesOf_concat_of_eq (h : segment.speaker = speakerId) :
    timesOf time (segments ++ [segment]) speakerId =
      insert (time segment) (timesOf time segments speakerId) := by
  ext t
  simp only [timesOf, List.mem_append, List.mem_singleton, Set.mem_ofPred_eq, Set.mem_insert_iff]
  constructor
  · rintro ⟨other, hother | rfl, hspeaker, rfl⟩
    · exact .inr ⟨other, hother, hspeaker, rfl⟩
    · exact .inl rfl
  · rintro (rfl | ⟨other, hother, hspeaker, rfl⟩)
    · exact ⟨segment, .inr rfl, h, rfl⟩
    · exact ⟨other, .inl hother, hspeaker, rfl⟩

omit [DecidableEq κ] in
theorem timesOf_concat_of_ne (h : segment.speaker ≠ speakerId) :
    timesOf time (segments ++ [segment]) speakerId = timesOf time segments speakerId := by
  ext t
  simp only [timesOf, List.mem_append, List.mem_singleton, Set.mem_ofPred_eq]
  constructor
  · rintro ⟨other, hother | rfl, hspeaker, rfl⟩
    · exact ⟨other, hother, hspeaker, rfl⟩
    · exact absurd hspeaker h
  · rintro ⟨other, hother, hspeaker, rfl⟩
    exact ⟨other, .inl hother, hspeaker, rfl⟩

omit [DecidableEq κ] in
theorem timesOf_eq_empty (h : speakerId ∉ segments.map Segment.speaker) :
    timesOf time segments speakerId = ∅ := by
  ext t
  simp only [timesOf, Set.mem_ofPred_eq, Set.mem_empty_iff_false, iff_false]
  rintro ⟨other, hother, rfl, -⟩
  exact h (List.mem_map_of_mem hother)

/-- The ids after a round: that of the segment is there. -/
theorem map_speakerId_addRange : (addRange ranges segment).map SpeakerRange.speakerId =
    if segment.speaker ∈ ranges.map SpeakerRange.speakerId then
      ranges.map SpeakerRange.speakerId
    else ranges.map SpeakerRange.speakerId ++ [segment.speaker] := by
  have hkeep : ∀ l : List (SpeakerRange κ), (Keyed.change SpeakerRange.speakerId segment.speaker
      (fun current => { current with
        start := min current.start segment.start
        stop := max current.stop segment.stop }) l).map SpeakerRange.speakerId =
      l.map SpeakerRange.speakerId := by
    intro l
    rw [Keyed.change, List.map_map]
    refine List.map_congr_left fun range _ => ?_
    rw [Function.comp_apply]
    split <;> rfl
  rw [addRange, hkeep]
  split
  · rfl
  · rw [List.map_append]
    rfl

/-- The range of the speaker after a round, when it had one. -/
theorem exists_of_mem_addRange {range : SpeakerRange κ} (h : range ∈ addRange ranges segment) :
    (range ∈ ranges ∧ range.speakerId ≠ segment.speaker) ∨
      (range.speakerId = segment.speaker ∧
        ((∃ old ∈ ranges, old.speakerId = segment.speaker ∧
            range.start = min segment.start old.start ∧ range.stop = max segment.stop old.stop) ∨
          (segment.speaker ∉ ranges.map SpeakerRange.speakerId ∧
            range.start = segment.start ∧ range.stop = segment.stop))) := by
  obtain ⟨old, hold, rfl⟩ := List.mem_map.mp h
  by_cases hid : old.speakerId = segment.speaker
  · refine .inr ⟨by rw [if_pos hid]; exact hid, ?_⟩
    rw [if_pos hid]
    split at hold
    · exact .inl ⟨old, hold, hid, min_comm .., max_comm ..⟩
    · next hnew =>
      rcases List.mem_append.mp hold with hold | hold
      · exact .inl ⟨old, hold, hid, min_comm .., max_comm ..⟩
      · obtain rfl := List.mem_singleton.mp hold
        exact .inr ⟨hnew, min_self _, max_self _⟩
  · rw [if_neg hid]
    refine .inl ⟨?_, hid⟩
    split at hold
    · exact hold
    · rcases List.mem_append.mp hold with hold | hold
      · exact hold
      · obtain rfl := List.mem_singleton.mp hold
        exact absurd rfl hid

/-- A round keeps the ranges exact. -/
theorem Covers.addRange (h : Covers segments ranges) (segment : Segment κ) :
    Covers (segments ++ [segment]) (addRange ranges segment) := by
  have hnone : segment.speaker ∉ ranges.map SpeakerRange.speakerId →
      ∀ time, timesOf time segments segment.speaker = ∅ := fun hnew time =>
    timesOf_eq_empty (mt (h.mem_ids _).mpr hnew)
  constructor
  · intro speakerId
    rw [map_speakerId_addRange, List.map_append, List.mem_append, ← h.mem_ids]
    split
    · next hknown =>
      constructor
      · exact .inl
      · rintro (hold | hnew)
        · exact hold
        · rw [List.mem_singleton.mp hnew]
          exact hknown
    · rw [List.mem_append]
      rfl
  · rw [map_speakerId_addRange]
    split
    · exact h.nodup
    · next hnew => exact List.nodup_append_comm.mp (List.nodup_cons.mpr ⟨hnew, h.nodup⟩)
  · intro range hrange
    rcases exists_of_mem_addRange hrange with
      ⟨hold, hother⟩ | ⟨hid, ⟨old, hold, hsame, hstart, -⟩ | ⟨hnew, hstart, -⟩⟩
    · rw [timesOf_concat_of_ne hother.symm]
      exact h.first_start range hold
    · rw [hid, timesOf_concat_of_eq rfl, hstart]
      have hleast := h.first_start old hold
      rw [hsame] at hleast
      exact hleast.insert segment.start
    · rw [hid, timesOf_concat_of_eq rfl, hstart, hnone hnew]
      simp
  · intro range hrange
    rcases exists_of_mem_addRange hrange with
      ⟨hold, hother⟩ | ⟨hid, ⟨old, hold, hsame, -, hstop⟩ | ⟨hnew, -, hstop⟩⟩
    · rw [timesOf_concat_of_ne hother.symm]
      exact h.last_stop range hold
    · rw [hid, timesOf_concat_of_eq rfl, hstop]
      have hgreatest := h.last_stop old hold
      rw [hsame] at hgreatest
      exact hgreatest.insert segment.stop
    · rw [hid, timesOf_concat_of_eq rfl, hstop, hnone hnew]
      simp

/-- The loop finds the range of every speaker. -/
theorem covers_foldl (segments : List (Segment κ)) :
    Covers segments (segments.foldl Results.addRange []) := by
  suffices h : ∀ (rest done : List (Segment κ)) (ranges : List (SpeakerRange κ)),
      Covers done ranges → Covers (done ++ rest) (rest.foldl Results.addRange ranges) from
    h segments [] [] ⟨by simp, by simp, by simp, by simp⟩
  intro rest
  induction rest with
  | nil =>
    intro done ranges h
    rwa [List.append_nil]
  | cons segment rest ih =>
    intro done ranges h
    have hrest := ih (done ++ [segment]) _ (h.addRange segment)
    rwa [List.append_assoc, List.singleton_append] at hrest

/-- The ranges of the speakers, put in another order. -/
theorem Covers.reorder (h : Covers segments ranges) {ids : List κ} (hnodup : ids.Nodup)
    (hids : ∀ speakerId, speakerId ∈ ids ↔ speakerId ∈ segments.map Segment.speaker) :
    let reordered := ids.filterMap fun speakerId =>
      Keyed.lookup SpeakerRange.speakerId speakerId ranges
    Covers segments reordered ∧ reordered.map SpeakerRange.speakerId = ids := by
  intro reordered
  have hfound : ∀ speakerId ∈ ids, ∃ range,
      Keyed.lookup SpeakerRange.speakerId speakerId ranges = some range := by
    intro speakerId hid
    refine Option.ne_none_iff_exists'.mp fun hnone => ?_
    exact Keyed.lookup_eq_none_iff.mp hnone ((h.mem_ids _).mpr ((hids _).mp hid))
  have hmem : ∀ range ∈ reordered, range ∈ ranges := by
    intro range hrange
    obtain ⟨speakerId, -, hlookup⟩ := List.mem_filterMap.mp hrange
    exact (Keyed.lookup_some hlookup).1
  have hmap : reordered.map SpeakerRange.speakerId = ids := by
    clear hnodup hids hmem
    induction ids with
    | nil => rfl
    | cons speakerId ids ih =>
      obtain ⟨range, hrange⟩ := hfound speakerId (List.mem_cons_self ..)
      have hrest := ih fun other hother => hfound other (List.mem_cons_of_mem _ hother)
      dsimp only [reordered] at hrest ⊢
      rw [List.filterMap_cons, hrange]
      dsimp only
      rw [List.map_cons, (Keyed.lookup_some hrange).2, hrest]
  refine ⟨⟨fun speakerId => ?_, ?_, fun range hrange => h.first_start range (hmem range hrange),
    fun range hrange => h.last_stop range (hmem range hrange)⟩, hmap⟩
  · rw [hmap]
    exact hids speakerId
  · rwa [hmap]

theorem mem_speakerIdsFromSegments :
    speakerId ∈ speakerIdsFromSegments label segments ↔
      speakerId ∈ segments.map Segment.speaker := by
  rw [speakerIdsFromSegments, mem_sortedBy, List.mem_dedup]

theorem speakerIdsFromSegments_nodup : (speakerIdsFromSegments label segments).Nodup :=
  (sortedBy_perm label _).nodup_iff.mpr (List.nodup_dedup _)

theorem covers_speakerRangesFromSegments (label : κ → Lex (Text × Text))
    (segments : List (Segment κ)) :
    Covers segments (speakerRangesFromSegments label segments) ∧
      (speakerRangesFromSegments label segments).map SpeakerRange.speakerId =
        speakerIdsFromSegments label segments :=
  (covers_foldl segments).reorder speakerIdsFromSegments_nodup fun _ =>
    mem_speakerIdsFromSegments

end Ranges

section Results

variable {label} (mode : Text) (isFinal : Option Bool) (elapsed : Option ℚ) (error : Option Text)

/-- What is missing has been filled in. -/
structure Filled (result : RecognitionResult κ) : Prop where
  ids : result.segments ≠ [] → result.speakerIds ≠ []
  ranges : result.segments ≠ [] → result.speakers ≠ []
  text : result.fullText = [] → result.segments.flatMap Segment.text = []
  count : result.speakerCount = 0 → result.speakerIds = [] ∧ result.speakers = []

theorem speakerIdsFromSegments_ne_nil {segments : List (Segment κ)} (h : segments ≠ []) :
    speakerIdsFromSegments label segments ≠ [] := by
  obtain ⟨segment, hsegment⟩ := List.exists_mem_of_ne_nil segments h
  exact List.ne_nil_of_mem (mem_speakerIdsFromSegments.mpr (List.mem_map_of_mem hsegment))

theorem speakerRangesFromSegments_ne_nil {segments : List (Segment κ)} (h : segments ≠ []) :
    speakerRangesFromSegments label segments ≠ [] := by
  intro hnone
  have hids := (covers_speakerRangesFromSegments label segments).2
  rw [hnone] at hids
  exact speakerIdsFromSegments_ne_nil h hids.symm

omit [DecidableEq κ] in
/-- Counting changes nothing but the count. -/
theorem countSpeakers_eq (result : RecognitionResult κ) :
    countSpeakers result = { result with speakerCount := (countSpeakers result).speakerCount } := by
  unfold countSpeakers
  split_ifs <;> rfl

omit [DecidableEq κ] in
theorem countSpeakers_eq_zero {result : RecognitionResult κ}
    (h : (countSpeakers result).speakerCount = 0) :
    result.speakerIds = [] ∧ result.speakers = [] := by
  unfold countSpeakers at h
  split_ifs at h with hzero hids hranges
  · exact absurd (List.length_eq_zero_iff.mp h) hids
  · exact absurd (List.length_eq_zero_iff.mp h) hranges
  · exact ⟨not_not.mp hids, not_not.mp hranges⟩
  · exact absurd h hzero

/-- A result has been filled in after the two steps. -/
theorem filled_countSpeakers (result : RecognitionResult κ) :
    Filled (countSpeakers (fillFromSegments label result)) := by
  have hcount := @countSpeakers_eq_zero _ (fillFromSegments label result)
  rw [countSpeakers_eq]
  by_cases hsegments : result.segments = []
  · have hfill : fillFromSegments label result = result := if_neg (not_not.mpr hsegments)
    rw [hfill] at hcount ⊢
    exact ⟨fun h => absurd hsegments h, fun h => absurd hsegments h,
      fun _ => by simp [hsegments], hcount⟩
  · have hfill : fillFromSegments label result = _ := if_pos hsegments
    rw [hfill] at hcount ⊢
    refine ⟨fun _ => ?_, fun _ => ?_, fun htext => ?_, hcount⟩
    · dsimp only
      split
      · exact speakerIdsFromSegments_ne_nil hsegments
      · assumption
    · dsimp only
      split
      · exact speakerRangesFromSegments_ne_nil hsegments
      · assumption
    · dsimp only at htext ⊢
      split at htext
      · exact htext
      · contradiction

/-- The two steps change nothing of a result that has been filled in. -/
theorem Filled.eq {result : RecognitionResult κ} (h : Filled result) :
    countSpeakers (fillFromSegments label result) = result := by
  have hfill : fillFromSegments label result = result := by
    unfold fillFromSegments
    split
    · next hsegments =>
      rw [if_neg (h.ids hsegments), if_neg (h.ranges hsegments)]
      split
      · next htext => rw [h.text htext, ← htext]
      · rfl
    · rfl
  rw [hfill, countSpeakers]
  split
  · next hzero =>
    obtain ⟨hids, hranges⟩ := h.count hzero
    rw [if_neg (not_not.mpr hids), if_neg (not_not.mpr hranges)]
  · rfl

/-- Filling in changes neither the segments nor the error. -/
theorem fillFromSegments_kept (label : κ → Lex (Text × Text)) (result : RecognitionResult κ) :
    (fillFromSegments label result).segments = result.segments ∧
      (fillFromSegments label result).error = result.error := by
  unfold fillFromSegments
  split <;> exact ⟨rfl, rfl⟩

/-- Normalization keeps the segments, and an error unless it is told one. -/
theorem normalizeRecognitionResult_kept (label : κ → Lex (Text × Text))
    (result : RecognitionResult κ) :
    let normalized := normalizeRecognitionResult label (some result) mode isFinal elapsed error
    normalized.segments = result.segments ∧ normalized.error = error.or result.error := by
  intro normalized
  have hfill := fillFromSegments_kept label { result with mode := mode }
  have hcount := countSpeakers_eq (fillFromSegments label { result with mode := mode })
  refine ⟨(congrArg RecognitionResult.segments hcount).trans hfill.1, ?_⟩
  exact congrArg error.or ((congrArg RecognitionResult.error hcount).trans hfill.2)

/-- A new result with segments is normalized to one that describes them. -/
theorem normalizeRecognitionResult_describes (final : Bool) (segments : List (Segment κ))
    (fullText : Text) :
    Describes label (normalizeRecognitionResult label
      (some { buildRecognitionResult mode final with segments := segments, fullText := fullText })
      mode isFinal elapsed error) := by
  obtain ⟨hcovers, hids⟩ := covers_speakerRangesFromSegments label segments
  by_cases hsegments : segments = []
  · subst hsegments
    simp only [normalizeRecognitionResult, buildRecognitionResult, fillFromSegments,
      countSpeakers, Option.getD_some, ne_eq, not_true_eq_false, if_false, if_true]
    exact ⟨⟨by simp, by simp, by simp, by simp⟩, rfl, List.Pairwise.nil, rfl⟩
  · have hsorted := sortedBy_pairwise label (segments.map Segment.speaker).dedup
    have hnone : speakerIdsFromSegments label segments ≠ [] :=
      speakerIdsFromSegments_ne_nil hsegments
    simp only [normalizeRecognitionResult, buildRecognitionResult, fillFromSegments,
      countSpeakers, Option.getD_some, ne_eq, hsegments, not_false_eq_true, if_true, hnone]
    exact ⟨hcovers, hids, hsorted, rfl⟩

/-- Normalizing again changes only what it is told to change. -/
theorem normalizeRecognitionResult_idem (result : Option (RecognitionResult κ)) (mode' : Text)
    (isFinal' : Option Bool) (elapsed' : Option ℚ) (error' : Option Text) :
    let once := normalizeRecognitionResult label result mode isFinal elapsed error
    normalizeRecognitionResult label (some once) mode' isFinal' elapsed' error' =
      { once with
        mode := mode'
        isFinal := isFinal'.getD once.isFinal
        processingTime := elapsed'.getD once.processingTime
        error := error'.or once.error } := by
  intro once
  have hfilled : Filled { once with mode := mode' } :=
    let h := filled_countSpeakers
      { result.getD (buildRecognitionResult mode false) with mode := mode }
    ⟨h.ids, h.ranges, h.text, h.count⟩
  rw [normalizeRecognitionResult, Option.getD_some, hfilled.eq]

/-- Normalizing again keeps the description. -/
theorem Describes.normalizeRecognitionResult {result : Option (RecognitionResult κ)} {mode' : Text}
    {isFinal' : Option Bool} {elapsed' : Option ℚ} {error' : Option Text}
    (h : Describes label
      (Results.normalizeRecognitionResult label result mode' isFinal' elapsed' error')) :
    Describes label (Results.normalizeRecognitionResult label
      (some (Results.normalizeRecognitionResult label result mode' isFinal' elapsed' error'))
      mode isFinal elapsed error) := by
  rw [normalizeRecognitionResult_idem]
  exact ⟨h.covers, h.ids, h.sorted, h.count⟩

end Results

end Normalization

end FunasrApi.Results
