import FunasrApi.Offline.AlignConservation
import FunasrApi.Offline.SegmentDecodes

/-!
# Segments without timestamps in the alignment

The decodes of the segments are joined to one text and one list of timestamps,
which are paired again by position. A segment keeps its timestamps exactly when as
many units as timestamps come before it, or when nothing can take them away.
-/

namespace FunasrApi.Offline

open FunasrApi.Core Text

/-- How many units are over before the middle of a text: those up to its end, without the middle's
own. A word that goes on into the middle is not over. -/
def unitsBefore (before middle : Text) : ℕ :=
  (textUnits (before ++ middle)).length - (textUnits middle).length

/-- Unit number `i` of a text has a part in its middle: it is one of the units up to the end of the
middle, and one of the last units, as many as there are from the beginning of the middle on. -/
def UnitIn (before middle after : Text) (i : ℕ) : Prop :=
  i < (textUnits (before ++ middle)).length ∧
    (textUnits (before ++ (middle ++ after))).length ≤ i + (textUnits (middle ++ after)).length

instance (before middle after : Text) (i : ℕ) : Decidable (UnitIn before middle after i) :=
  inferInstanceAs (Decidable (_ ∧ _))

/-- Every token of a unit that comes from a segment with timestamps carries the times of one of
them, which the alignment has taken from the segment's part of the combined timestamps. -/
def KeepsSegments (decodes : List AsrSegmentDecode) (tokens : List TimedUnit) : Prop :=
  ∀ front decode back, decodes = front ++ decode :: back → decode.timestamps ≠ [] →
    ∀ i token, tokens[i]? = some token →
      UnitIn (front.flatMap AsrSegmentDecode.text) decode.text
        (back.flatMap AsrSegmentDecode.text) i →
      ∃ j stamp, decode.timestamps[j]? = some stamp ∧ token.times = stamp.times ∧
        i = (front.flatMap AsrSegmentDecode.timestamps).length + j

/-- As many units as timestamps come before the segment, or more units and either no timestamps
after it or no timestamps left for it. -/
def InStep (decodes front : List AsrSegmentDecode) (decode : AsrSegmentDecode) : Prop :=
  let units := unitsBefore (front.flatMap AsrSegmentDecode.text) decode.text
  let stamps := (front.flatMap AsrSegmentDecode.timestamps).length
  let total := (decodes.flatMap AsrSegmentDecode.timestamps).length
  units = stamps ∨
    stamps < units ∧ (total = stamps + decode.timestamps.length ∨ total ≤ units)

/-- The units of the middle are in a row. -/
theorem unitIn_iff {middle : Text} (h : textUnits middle ≠ []) (before after : Text) (i : ℕ) :
    UnitIn before middle after i ↔
      unitsBefore before middle ≤ i ∧
        i < unitsBefore before middle + (textUnits middle).length := by
  have hglue := length_textUnits_glue h before after
  have hright := length_textUnits_le_append middle after
  have hleft := length_textUnits_le_append_left before middle
  unfold UnitIn unitsBefore
  omega

section Segments

variable {decodes front back : List AsrSegmentDecode} {decode : AsrSegmentDecode}

/-- The text and the timestamps of a list of decodes, around one of them. -/
theorem flatMap_around {β : Type*} (f : AsrSegmentDecode → List β)
    (h : decodes = front ++ decode :: back) :
    decodes.flatMap f = front.flatMap f ++ (f decode ++ back.flatMap f) := by
  rw [h, List.flatMap_append, List.flatMap_cons]

/-- The timestamps of a segment are a stretch of the combined ones. -/
theorem combined_getElem? (h : decodes = front ++ decode :: back) {j : ℕ}
    (hj : j < decode.timestamps.length) :
    (decodes.flatMap AsrSegmentDecode.timestamps)[
      (front.flatMap AsrSegmentDecode.timestamps).length + j]? = decode.timestamps[j]? := by
  rw [flatMap_around _ h, List.getElem?_append_right (Nat.le_add_right _ _),
    Nat.add_sub_cancel_left, List.getElem?_append_left hj]

/-- The aligned tokens, by their places. -/
theorem aligned_getElem? {text : Text} {timestamps : List Stamp} (hunit : textUnits text ≠ [])
    (hne : timestamps ≠ []) (i : ℕ) :
    ((alignTextToTimestamps false text timestamps)[i]?).map TimedUnit.times =
      if i < (textUnits text).length then timestamps[i]?.map Stamp.times else none := by
  obtain ⟨hlength, htimes, -⟩ := alignTextToTimestamps_conserves hunit hne false
  have hget := congrArg (fun l : List (ℤ × ℤ) => l[i]?) htimes
  simp only [List.getElem?_map, List.getElem?_take] at hget
  rw [hget]
  split
  · next hlt => rw [if_pos (by omega)]
  · next hge =>
    split
    · rw [List.getElem?_eq_none (by omega), Option.map_none]
    · rfl

/-- The token of a unit that has a part in a segment takes the combined timestamp at its place. -/
theorem aligned_of_unitIn (hdecodes : decodes = front ++ decode :: back)
    (htimed : decode.timestamps ≠ []) {i : ℕ}
    (hin : UnitIn (front.flatMap AsrSegmentDecode.text) decode.text
      (back.flatMap AsrSegmentDecode.text) i) :
    ((alignTextToTimestamps false (decodes.flatMap AsrSegmentDecode.text)
        (decodes.flatMap AsrSegmentDecode.timestamps))[i]?).map TimedUnit.times =
      (decodes.flatMap AsrSegmentDecode.timestamps)[i]?.map Stamp.times := by
  have htext := flatMap_around AsrSegmentDecode.text hdecodes
  have hstamps := flatMap_around AsrSegmentDecode.timestamps hdecodes
  have hmore := length_textUnits_le_append (front.flatMap AsrSegmentDecode.text ++ decode.text)
    (back.flatMap AsrSegmentDecode.text)
  rw [List.append_assoc, ← htext] at hmore
  have hi : i < (textUnits (decodes.flatMap AsrSegmentDecode.text)).length :=
    hin.1.trans_le hmore
  have hall : textUnits (decodes.flatMap AsrSegmentDecode.text) ≠ [] :=
    List.ne_nil_of_length_pos (Nat.zero_lt_of_lt hi)
  have hsome : decodes.flatMap AsrSegmentDecode.timestamps ≠ [] := by
    rw [hstamps]
    exact List.append_ne_nil_of_right_ne_nil _ (List.append_ne_nil_of_left_ne_nil htimed _)
  rw [aligned_getElem? hall hsome, if_pos hi]

/-- A segment keeps its timestamps exactly when it is in step. -/
theorem keeps_segment_iff (hdecodes : decodes = front ++ decode :: back)
    (htimed : decode.timestamps ≠ [])
    (hcount : decode.timestamps.length = (textUnits decode.text).length) :
    (∀ i token, (alignTextToTimestamps false (decodes.flatMap AsrSegmentDecode.text)
          (decodes.flatMap AsrSegmentDecode.timestamps))[i]? = some token →
        UnitIn (front.flatMap AsrSegmentDecode.text) decode.text
          (back.flatMap AsrSegmentDecode.text) i →
        ∃ j stamp, decode.timestamps[j]? = some stamp ∧ token.times = stamp.times ∧
          i = (front.flatMap AsrSegmentDecode.timestamps).length + j) ↔
      InStep decodes front decode := by
  have hpos := List.length_pos_iff.mpr htimed
  have hunit : textUnits decode.text ≠ [] := List.length_pos_iff.mp (by omega)
  have hin := unitIn_iff hunit (front.flatMap AsrSegmentDecode.text)
    (back.flatMap AsrSegmentDecode.text)
  have hstamps := congrArg List.length (flatMap_around AsrSegmentDecode.timestamps hdecodes)
  rw [List.length_append, List.length_append] at hstamps
  unfold InStep
  set units := unitsBefore (front.flatMap AsrSegmentDecode.text) decode.text
  set stamps := (front.flatMap AsrSegmentDecode.timestamps).length
  set total := (decodes.flatMap AsrSegmentDecode.timestamps).length
  dsimp only
  constructor
  · intro hkeep
    -- a token in the segment's row has a place in the segment's stretch
    have hplace : ∀ i < total, units ≤ i → i < units + decode.timestamps.length →
        stamps ≤ i ∧ i < stamps + decode.timestamps.length := by
      intro i hi hfrom hto
      have hrow := (hin i).mpr ⟨hfrom, by omega⟩
      have htimes := aligned_of_unitIn hdecodes htimed hrow
      rw [List.getElem?_eq_getElem hi] at htimes
      obtain ⟨token, htoken, -⟩ := Option.map_eq_some_iff.mp htimes
      obtain ⟨j, stamp, hj, -, rfl⟩ := hkeep i token htoken hrow
      have hlt := (List.getElem?_eq_some_iff.mp hj).1
      omega
    by_cases hfree : total ≤ units
    · omega
    · have hfirst := hplace units (by omega) le_rfl (by omega)
      have hlast := hplace (min (units + decode.timestamps.length - 1) (total - 1)) (by omega)
        (by omega) (by omega)
      omega
  · intro hstep i token htoken hrow
    obtain ⟨hfrom, hto⟩ := (hin i).mp hrow
    have htimes := aligned_of_unitIn hdecodes htimed hrow
    rw [htoken] at htimes
    have hi : i < total := by
      by_contra hge
      rw [List.getElem?_eq_none (not_lt.mp hge)] at htimes
      cases htimes
    obtain ⟨j, rfl⟩ : ∃ j, i = stamps + j := ⟨i - stamps, by omega⟩
    have hj : j < decode.timestamps.length := by omega
    rw [combined_getElem? hdecodes hj, List.getElem?_eq_getElem hj] at htimes
    exact ⟨j, _, List.getElem?_eq_getElem hj, Option.some.inj htimes, rfl⟩

/-- Segments that all have a timestamp for each unit, and no word that goes on from one to the
next, are in step. -/
theorem inStep_of_counts (hdecodes : decodes = front ++ decode :: back)
    (hcount : ∀ decode ∈ decodes, decode.timestamps.length = (textUnits decode.text).length)
    (htotal : (textUnits (decodes.flatMap AsrSegmentDecode.text)).length =
      (decodes.flatMap AsrSegmentDecode.timestamps).length) :
    InStep decodes front decode := by
  have hstamps := congrArg List.length (flatMap_around AsrSegmentDecode.timestamps hdecodes)
  rw [flatMap_around _ hdecodes, ← List.append_assoc] at htotal
  rw [List.length_append, List.length_append] at hstamps
  have hown := hcount decode (by rw [hdecodes]; simp)
  have hfront := length_textUnits_flatMap_le fun other (hother : other ∈ front) =>
    hcount other (by rw [hdecodes]; simp [hother])
  have hback := length_textUnits_flatMap_le fun other (hother : other ∈ back) =>
    hcount other (by rw [hdecodes]; simp [hother])
  have hjoin := length_textUnits_append_le (front.flatMap AsrSegmentDecode.text) decode.text
  have hjoin' := length_textUnits_append_le
    (front.flatMap AsrSegmentDecode.text ++ decode.text) (back.flatMap AsrSegmentDecode.text)
  refine .inl ?_
  unfold unitsBefore
  omega

/-- The decode of a segment in a list of examples. -/
def sampleDecode (index : ℕ) (text : Text) (times : List (ℤ × ℤ)) : AsrSegmentDecode :=
  asrSegmentDecode index text (1000 * index) (1000 * index + 900)
    (times.map fun t => ⟨[], t.1, t.2⟩)

end Segments

end FunasrApi.Offline
