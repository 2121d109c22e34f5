import FunasrApi.Offline.Timestamps
import Mathlib.Data.List.MinMax

/-!
# Speakers of timed units

The speaker of a time range by overlap, by distance and by the correction for
short tokens at a change of speaker, and the regrouping of timed units by speaker.
Speaker ids are of any type with a zero, the id when there are no segments.
-/

namespace FunasrApi.Offline

open FunasrApi.Core Text

/-- A segment of the diarization. -/
structure SpeakerSegment (κ : Type*) where
  /-- The id of the speaker. -/
  speaker : κ
  /-- The beginning, in milliseconds. -/
  start : ℚ
  /-- The end, in milliseconds. -/
  stop : ℚ
deriving DecidableEq

/-- The result of the diarization; `segments` and `error` are what merging reads. -/
structure SpeakerResult (κ : Type*) where
  /-- The segments. -/
  segments : List (SpeakerSegment κ)
  /-- The error text, empty or missing when there is none. -/
  error : Option Text
deriving DecidableEq

/-- The opposite of `speaker.error or not speaker.segments`. -/
def SpeakerResult.Usable {κ : Type*} (speaker : SpeakerResult κ) : Prop :=
  speaker.error.getD [] = [] ∧ speaker.segments ≠ []

instance {κ : Type*} [DecidableEq κ] (speaker : SpeakerResult κ) : Decidable speaker.Usable :=
  inferInstanceAs (Decidable (_ ∧ _))

section Lookup

variable {κ : Type*}

/-- The key by which speaker segments are sorted. -/
def SpeakerSegment.key (segment : SpeakerSegment κ) : Lex (ℚ × ℚ) :=
  toLex (segment.start, segment.stop)

/-- `speaker_segments_from_result`. -/
def speakerSegmentsFromResult (speaker : SpeakerResult κ) : List (SpeakerSegment κ) :=
  sortedBy SpeakerSegment.key speaker.segments

variable (isNone : κ → Bool) (startMs endMs : ℚ)

/-- The time that a segment and the range have in common, or minus their distance. -/
def overlap (segment : SpeakerSegment κ) : ℚ :=
  min endMs segment.stop - max startMs segment.start

/-- The distance of a segment's nearer end from the middle of the range. -/
def midpointDistance (segment : SpeakerSegment κ) : ℚ :=
  let midpoint := (startMs + endMs) / 2
  min |midpoint - segment.start| |midpoint - segment.stop|

/-- One round of the loop of `speaker_for_time_range`. -/
def betterSegment (best : Option (SpeakerSegment κ) × ℚ) (segment : SpeakerSegment κ) :
    Option (SpeakerSegment κ) × ℚ :=
  if overlap startMs endMs segment > best.2 then (some segment, overlap startMs endMs segment)
  else best

/-- `speaker_for_time_range`. -/
def speakerForTimeRange [Zero κ] (segments : List (SpeakerSegment κ)) : κ :=
  let nearest := match segments.argmin (midpointDistance startMs endMs) with
    | some segment => segment.speaker
    | none => 0
  match segments.foldl (betterSegment startMs endMs) (none, -1) with
  | (some segment, best) => if best > 0 then segment.speaker else nearest
  | (none, _) => nearest

/-- The changes of speaker, as the segments come one after the other: the segment before and the
one after. -/
def speakerChanges [DecidableEq κ] (segments : List (SpeakerSegment κ)) :
    List (SpeakerSegment κ × SpeakerSegment κ) :=
  let ordered := sortedBy SpeakerSegment.key segments
  (ordered.zip ordered.tail).filter fun pair => pair.1.speaker ≠ pair.2.speaker

/-- `speaker_for_short_boundary_token`. -/
def speakerForShortBoundaryToken [DecidableEq κ] (segments : List (SpeakerSegment κ)) : Option κ :=
  let duration := truncate endMs - truncate startMs
  if duration ≤ 0 ∨ duration > 250 then none
  else
    let change := (speakerChanges segments).find? fun pair =>
      truncate startMs < truncate pair.2.start ∧ truncate pair.2.start < truncate endMs
    change.map fun pair => pair.2.speaker

/-- `speaker_for_time_range_with_boundary`; `isNone` are the ids that are `None`. -/
def speakerForTimeRangeWithBoundary [DecidableEq κ] [Zero κ] (segments : List (SpeakerSegment κ)) :
    κ :=
  match speakerForShortBoundaryToken startMs endMs segments with
  | some speaker =>
    if isNone speaker then speakerForTimeRange startMs endMs segments else speaker
  | none => speakerForTimeRange startMs endMs segments

end Lookup

/-- An entry of `sentence_info` with its speaker. -/
structure SpokenSentence (κ : Type*) where
  /-- The text of the sentence. -/
  text : Text
  /-- The time at which it begins. -/
  startMs : ℤ
  /-- The time at which it ends. -/
  endMs : ℤ
  /-- Its speaker. -/
  spk : κ
  /-- Its timestamps; the key may be absent. -/
  timestamp : Option TimestampValue
deriving DecidableEq

/-- `existing or incoming`: an empty list and an empty string are false. -/
def TimestampValue.orElse : TimestampValue → TimestampValue → TimestampValue
  | .items [], incoming => incoming
  | .json [] _, incoming => incoming
  | .null, incoming => incoming
  | existing, _ => existing

/-- `merge_timestamps`. -/
def mergeTimestamps : TimestampValue → TimestampValue → TimestampValue
  | .items existing, .items incoming => .items (existing ++ incoming)
  | existing, incoming => existing.orElse incoming

section Merge

variable {κ : Type*} [DecidableEq κ] [Zero κ] (segments : List (SpeakerSegment κ))

/-- The speaker of a timed unit. -/
def TimedUnit.speaker (unit : TimedUnit) : κ :=
  speakerForTimeRangeWithBoundary (fun _ => false) unit.startMs unit.endMs segments

/-- The `unit_payload` of `merge_timed_units_by_speaker`. -/
def TimedUnit.payload (unit : TimedUnit) : SpokenSentence κ :=
  ⟨unit.text, unit.startMs, unit.endMs, unit.speaker segments, unit.timestamp⟩

/-- What a unit of the same speaker adds to the current sentence. -/
def SpokenSentence.extend (current : SpokenSentence κ) (unit : TimedUnit) : SpokenSentence κ :=
  { current with
    text := current.text ++ unit.text
    endMs := unit.endMs
    timestamp :=
      if current.timestamp.isSome || unit.timestamp.isSome then
        some (mergeTimestamps (current.timestamp.getD .null) (unit.timestamp.getD .null))
      else none }

/-- `merge_timed_units_by_speaker`. -/
def mergeTimedUnitsBySpeaker (units : List TimedUnit) : List (SpokenSentence κ) :=
  mergeRuns (fun current unit => current.spk = unit.speaker segments)
    (TimedUnit.payload segments) SpokenSentence.extend (fun current => strip current.text ≠ [])
    (sortedBy TimedUnit.key units)

variable {segments}

/-- Regrouping visible units reads their texts in the order of their times. -/
theorem mergeTimedUnitsBySpeaker_text {units : List TimedUnit}
    (h : ∀ unit ∈ units, Visible unit.text) :
    (mergeTimedUnitsBySpeaker segments units).flatMap SpokenSentence.text =
      (sortedBy TimedUnit.key units).flatMap TimedUnit.text := by
  refine mergeRuns_flatMap (fun b => Visible b.text) ?_ ?_ ?_
  · intro unit hunit
    exact ⟨h unit ((mem_sortedBy _).mp hunit), rfl⟩
  · intro unit _ b hb
    exact ⟨hb.append_right unit.text, rfl⟩
  · intro b hb
    exact .inl (decide_eq_true hb.strip_ne_nil)

/-- The items of a `timestamp` key that holds a list. -/
def timestampItems : Option TimestampValue → List RawTimestamp
  | some (.items items) => items
  | _ => []

/-- Regrouping such units with lists of timestamps reads the lists in the order of their times. -/
theorem mergeTimedUnitsBySpeaker_timestamp {units : List TimedUnit}
    (h : ∀ unit ∈ units, Visible unit.text)
    (hitems : ∀ unit ∈ units, ∃ items, unit.timestamp = some (.items items)) :
    (mergeTimedUnitsBySpeaker segments units).flatMap (fun s => timestampItems s.timestamp) =
      (sortedBy TimedUnit.key units).flatMap fun unit => timestampItems unit.timestamp := by
  refine mergeRuns_flatMap (fun b => Visible b.text ∧
    ∃ items, b.timestamp = some (.items items)) ?_ ?_ ?_
  · intro unit hunit
    have hmem := (mem_sortedBy _).mp hunit
    exact ⟨⟨h unit hmem, hitems unit hmem⟩, rfl⟩
  · rintro unit hunit b ⟨hb, existing, hexisting⟩
    obtain ⟨incoming, hincoming⟩ := hitems unit ((mem_sortedBy _).mp hunit)
    have hboth : (b.extend unit).timestamp = some (.items (existing ++ incoming)) := by
      simp [SpokenSentence.extend, hexisting, hincoming, mergeTimestamps]
    refine ⟨⟨hb.append_right unit.text, _, hboth⟩, ?_⟩
    rw [hboth, hexisting, hincoming]
    rfl
  · intro b hb
    exact .inl (decide_eq_true hb.1.strip_ne_nil)

end Merge

end FunasrApi.Offline
