import FunasrApi.Offline.Speakers
import Mathlib.Algebra.Order.BigOperators.Group.List

/-!
# Speakers for the sentences of the PT model

Each sentence is aligned with its timestamps, which are first shifted when they are
taken for relative ones, and the timed units of all sentences are regrouped by
speaker. For sentences with absolute timestamps inside them, nothing is lost or
changed exactly when no timestamps are taken for relative ones.
-/

namespace FunasrApi.Offline

open FunasrApi.Core Text

/-- A sentence of `sentence_info`, with the keys that merging reads and writes. -/
structure SentenceInfo (κ : Type*) where
  /-- The text, empty when missing. -/
  text : Text
  /-- The time at which the sentence begins, when there is one. -/
  start : Option ℚ
  /-- The time at which the sentence ends, when there is one. -/
  stop : Option ℚ
  /-- The value of the `timestamp` key. -/
  timestamp : Option TimestampValue
  /-- The speaker. -/
  spk : Option κ
deriving DecidableEq

namespace SentenceInfo

variable {κ : Type*}

/-- `int(sentence.get("start", 0) or 0)`. -/
def startMs (sentence : SentenceInfo κ) : ℤ := truncate (sentence.start.getD 0)

/-- `int(sentence.get("end", 0) or 0)`. -/
def endMs (sentence : SentenceInfo κ) : ℤ := truncate (sentence.stop.getD 0)

/-- The aligned tokens of a sentence with usable timestamps. -/
def alignedTokens (sentence : SentenceInfo κ) : List TimedUnit :=
  match normalizeTimestamps (sentence.timestamp.getD .null) with
  | some timestamps =>
    alignTextToTimestamps true sentence.text
      (maybeOffsetTimestamps timestamps sentence.startMs sentence.endMs)
  | none => []

/-- One round of `build_timed_units`: the aligned tokens, or else the sentence as one unit. -/
def timedUnits (sentence : SentenceInfo κ) : List TimedUnit :=
  if sentence.alignedTokens ≠ [] then sentence.alignedTokens
  else if sentence.text ≠ [] then
    [⟨sentence.text, sentence.startMs, sentence.endMs,
      some (sentence.timestamp.getD .null)⟩]
  else []

end SentenceInfo

/-- A merged sentence as an entry of the output. -/
def SpokenSentence.info {κ : Type*} (sentence : SpokenSentence κ) : SentenceInfo κ :=
  ⟨sentence.text, some sentence.startMs, some sentence.endMs, sentence.timestamp,
    some sentence.spk⟩

section Merge

variable {κ : Type*} [DecidableEq κ] [Zero κ]

/-- `build_timed_units`. -/
def buildTimedUnits (sentenceInfo : List (SentenceInfo κ)) : List TimedUnit :=
  sentenceInfo.flatMap SentenceInfo.timedUnits

/-- `assign_speaker_to_sentences`. -/
def assignSpeakerToSentences (sentenceInfo : List (SentenceInfo κ))
    (segments : List (SpeakerSegment κ)) : List (SentenceInfo κ) :=
  sentenceInfo.map fun sentence =>
    { sentence with
      spk := some (speakerForTimeRangeWithBoundary (fun _ => false) sentence.startMs
        sentence.endMs segments) }

/-- `merge_pt_sentence_info_with_speaker`. -/
def mergePtSentenceInfoWithSpeaker (sentenceInfo : List (SentenceInfo κ))
    (speakerResult : Option (SpeakerResult κ)) : List (SentenceInfo κ) :=
  match speakerResult with
  | none => sentenceInfo
  | some speaker =>
    if speaker.Usable then
      let segments := speakerSegmentsFromResult speaker
      let tokenUnits := buildTimedUnits sentenceInfo
      if tokenUnits ≠ [] then
        (mergeTimedUnitsBySpeaker segments tokenUnits).map SpokenSentence.info
      else assignSpeakerToSentences sentenceInfo segments
    else sentenceInfo

end Merge

/-- A sentence with one absolute timestamp per unit, inside it, the last one ending with it. -/
structure StampedSentence (κ : Type*) where
  /-- The text. -/
  text : Text
  /-- The time at which the sentence begins. -/
  startMs : ℤ
  /-- The time at which the sentence ends. -/
  endMs : ℤ
  /-- The timestamps of its units. -/
  stamps : List Stamp
  /-- The speaker that the model may have named. -/
  spk : Option κ
  start_nonneg : 0 ≤ startMs
  start_lt_end : startMs < endMs
  one_per_unit : stamps.length = (textUnits text).length
  stamps_ne_nil : stamps ≠ []
  nondecreasing : InTimeOrder stamps
  inside : ∀ stamp ∈ stamps, (startMs ≤ stamp.startMs ∧ stamp.startMs ≤ endMs) ∧
    startMs ≤ stamp.endMs ∧ stamp.endMs ≤ endMs
  last_ends : (stamps.getLast stamps_ne_nil).endMs = endMs

namespace StampedSentence

variable {κ : Type*}

/-- The sentence as an entry of `sentence_info`. -/
def info (s : StampedSentence κ) : SentenceInfo κ :=
  ⟨s.text, some s.startMs, some s.endMs, some (.items (s.stamps.map Stamp.raw)), s.spk⟩

/-- One sentence ends before the other begins. -/
def Before (a b : StampedSentence κ) : Prop := a.endMs ≤ b.startMs

instance : DecidableRel (Before (κ := κ)) := fun a b =>
  inferInstanceAs (Decidable (a.endMs ≤ b.startMs))

instance : Trans (Before (κ := κ)) Before Before where
  trans {_ b _} hab hbc := hab.trans (b.start_lt_end.le.trans hbc)

/-- The timestamps are taken for absolute ones. -/
def KeepsTimes (s : StampedSentence κ) : Prop := s.startMs = 0 ∨ 50 < s.startMs

/-- The timestamps after `maybe_offset_timestamps`. -/
def placed (s : StampedSentence κ) : List Stamp :=
  maybeOffsetTimestamps s.stamps s.startMs s.endMs

/-- The latest end is the end of the sentence. -/
theorem lastEnd_eq (s : StampedSentence κ) {first : Stamp} {rest : List Stamp}
    (h : s.stamps = first :: rest) : lastEnd first rest = s.endMs := by
  apply le_antisymm
  · refine lastEnd_le fun stamp hstamp => ?_
    rw [← h] at hstamp
    exact (s.inside stamp hstamp).2.2
  · have hlast := le_lastEnd first rest (s.stamps.getLast s.stamps_ne_nil)
      (by rw [← h]; exact List.getLast_mem s.stamps_ne_nil)
    rwa [s.last_ends] at hlast

/-- Timestamps stay when the sentence begins at zero or later than the tolerance. -/
theorem placed_eq_self (s : StampedSentence κ) (h : s.KeepsTimes) : s.placed = s.stamps := by
  obtain ⟨first, rest, hstamps⟩ := List.exists_cons_of_ne_nil s.stamps_ne_nil
  have hstart := s.start_nonneg
  have hend := s.start_lt_end
  rw [placed, hstamps, maybeOffsetTimestamps]
  split
  · rfl
  · dsimp only
    rw [s.lastEnd_eq hstamps, if_neg]
    rintro ⟨-, hlate⟩
    rcases h with hzero | hlarge
    · omega
    · omega

/-- All others are shifted. -/
theorem placed_eq_shift (s : StampedSentence κ) (h : ¬ s.KeepsTimes) :
    s.placed = s.stamps.map (·.shift s.startMs) := by
  obtain ⟨first, rest, hstamps⟩ := List.exists_cons_of_ne_nil s.stamps_ne_nil
  have hstart := s.start_nonneg
  have hend := s.start_lt_end
  unfold KeepsTimes at h
  rw [placed, hstamps, maybeOffsetTimestamps, if_neg (by omega)]
  dsimp only
  rw [s.lastEnd_eq hstamps, if_pos (by omega)]

theorem length_placed (s : StampedSentence κ) : s.placed.length = s.stamps.length := by
  by_cases h : s.KeepsTimes
  · rw [s.placed_eq_self h]
  · rw [s.placed_eq_shift h, List.length_map]

/-- The tokens of the sentence with their placed timestamps. -/
def tokens (s : StampedSentence κ) : List (Text × Stamp) := timedTokens s.text s.placed

theorem length_units (s : StampedSentence κ) : (textUnits s.text).length = s.placed.length := by
  rw [length_placed, s.one_per_unit]

theorem units_ne_nil (s : StampedSentence κ) : textUnits s.text ≠ [] := by
  rw [← List.length_pos_iff, ← s.one_per_unit]
  exact List.length_pos_iff.mpr s.stamps_ne_nil

theorem tokens_text (s : StampedSentence κ) : s.tokens.flatMap Prod.fst = s.text :=
  timedTokens_text s.length_units.le s.units_ne_nil

theorem tokens_stamp (s : StampedSentence κ) : s.tokens.map Prod.snd = s.placed :=
  List.map_snd_zip (by rw [length_textTokens, s.length_units])

theorem tokens_ne_nil (s : StampedSentence κ) : s.tokens ≠ [] :=
  timedTokens_ne_nil s.length_units.le s.units_ne_nil

/-- The entry becomes the tokens of the sentence. -/
theorem timedUnits_info (s : StampedSentence κ) :
    s.info.timedUnits = s.tokens.map fun p => timedToken true p.1 p.2 := by
  have hstart : s.info.startMs = s.startMs := truncate_intCast s.startMs
  have hend : s.info.endMs = s.endMs := truncate_intCast s.endMs
  have haligned : s.info.alignedTokens = s.tokens.map fun p => timedToken true p.1 p.2 := by
    rw [SentenceInfo.alignedTokens, hstart, hend, info]
    dsimp only [Option.getD_some]
    rw [normalizeTimestamps_raw s.stamps_ne_nil]
    exact alignTextToTimestamps_eq_map s.length_units.le
  rw [SentenceInfo.timedUnits, haligned]
  exact if_pos (mt List.map_eq_nil_iff.mp s.tokens_ne_nil)

end StampedSentence

section Preservation

variable {κ : Type*} {sentences : List (StampedSentence κ)}

/-- The timed units of sentences with absolute timestamps. -/
def stampedUnits (sentences : List (StampedSentence κ)) : List TimedUnit :=
  (sentences.flatMap StampedSentence.tokens).map fun p => timedToken true p.1 p.2

theorem buildTimedUnits_info :
    buildTimedUnits (sentences.map StampedSentence.info) = stampedUnits sentences := by
  rw [buildTimedUnits, List.flatMap_map, stampedUnits, List.map_flatMap]
  exact List.flatMap_congr fun s _ => s.timedUnits_info

theorem stampedUnits_text :
    (stampedUnits sentences).flatMap TimedUnit.text = sentences.flatMap StampedSentence.text := by
  rw [stampedUnits, List.flatMap_map, List.flatMap_assoc]
  exact List.flatMap_congr fun s _ => s.tokens_text

theorem map_snd_tokens :
    (sentences.flatMap StampedSentence.tokens).map Prod.snd =
      sentences.flatMap StampedSentence.placed := by
  rw [List.map_flatMap]
  exact List.flatMap_congr fun s _ => s.tokens_stamp

/-- The timestamp details of the units, in their order, are the placed timestamps. -/
theorem stampedUnits_timestamp :
    (stampedUnits sentences).flatMap (fun unit => timestampItems unit.timestamp) =
      (sentences.flatMap StampedSentence.placed).map Stamp.raw := by
  rw [← map_snd_tokens, stampedUnits, List.flatMap_map, List.map_map, List.map_eq_flatMap]
  rfl

theorem visible_of_stampedUnits {unit : TimedUnit} (h : unit ∈ stampedUnits sentences) :
    Visible unit.text := by
  obtain ⟨p, hp, rfl⟩ := List.mem_map.mp h
  obtain ⟨s, -, hs⟩ := List.mem_flatMap.mp hp
  exact visible_of_token (List.of_mem_zip hs).1

theorem exists_items_of_stampedUnits {unit : TimedUnit} (h : unit ∈ stampedUnits sentences) :
    ∃ items, unit.timestamp = some (.items items) := by
  obtain ⟨p, -, rfl⟩ := List.mem_map.mp h
  exact ⟨[p.2.raw], rfl⟩

/-- Timestamps of sentences in time order are in time order. -/
theorem stamps_nondecreasing (hchain : sentences.IsChain StampedSentence.Before) :
    InTimeOrder (sentences.flatMap StampedSentence.stamps) := by
  rw [InTimeOrder, List.pairwise_flatMap]
  refine ⟨fun s _ => s.nondecreasing, (List.isChain_iff_pairwise.mp hchain).imp ?_⟩
  intro a b hbefore x hx y hy
  have hxin := a.inside x hx
  have hyin := b.inside y hy
  unfold StampedSentence.Before at hbefore
  rw [Stamp.key, Stamp.key, Prod.Lex.toLex_le_toLex]
  dsimp only [Stamp.times]
  omega

/-- With absolute times kept, the units are in time order already. -/
theorem sortedBy_stampedUnits (hchain : sentences.IsChain StampedSentence.Before)
    (hkeeps : ∀ s ∈ sentences, s.KeepsTimes) :
    sortedBy TimedUnit.key (stampedUnits sentences) = stampedUnits sentences := by
  apply sortedBy_eq_self
  have hplaced : sentences.flatMap StampedSentence.placed =
      sentences.flatMap StampedSentence.stamps :=
    List.flatMap_congr fun s hs => s.placed_eq_self (hkeeps s hs)
  have hkeys := stamps_nondecreasing hchain
  rw [← hplaced, ← map_snd_tokens, InTimeOrder, List.pairwise_map] at hkeys
  exact List.pairwise_map.mpr hkeys

/-- A shifted sentence adds to the sum of the times. -/
theorem sum_start_placed (s : StampedSentence κ) :
    (s.stamps.map Stamp.startMs).sum ≤ (s.placed.map Stamp.startMs).sum ∧
      (¬ s.KeepsTimes → (s.stamps.map Stamp.startMs).sum < (s.placed.map Stamp.startMs).sum) := by
  by_cases h : s.KeepsTimes
  · rw [s.placed_eq_self h]
    exact ⟨le_rfl, fun hshift => absurd h hshift⟩
  · have hpos : 0 < s.startMs := by
      have hstart := s.start_nonneg
      unfold StampedSentence.KeepsTimes at h
      omega
    have hlt : (s.stamps.map Stamp.startMs).sum < (s.placed.map Stamp.startMs).sum := by
      rw [s.placed_eq_shift h, List.map_map]
      refine List.sum_lt_sum_of_ne_nil s.stamps_ne_nil _ _ fun stamp _ => ?_
      exact lt_add_of_pos_right stamp.startMs hpos
    exact ⟨hlt.le, fun _ => hlt⟩

/-- Placed timestamps with the times of the original ones belong to unshifted sentences. -/
theorem keepsTimes_of_sum_eq
    (hsum : ((sentences.flatMap StampedSentence.placed).map Stamp.startMs).sum =
      ((sentences.flatMap StampedSentence.stamps).map Stamp.startMs).sum) :
    ∀ s ∈ sentences, s.KeepsTimes := by
  have hle : ∀ rest : List (StampedSentence κ),
      ((rest.flatMap StampedSentence.stamps).map Stamp.startMs).sum ≤
        ((rest.flatMap StampedSentence.placed).map Stamp.startMs).sum := by
    intro rest
    induction rest with
    | nil => exact le_rfl
    | cons s rest ih =>
      simp only [List.flatMap_cons, List.map_append, List.sum_append]
      exact add_le_add (sum_start_placed s).1 ih
  induction sentences with
  | nil => exact fun _ h => absurd h List.not_mem_nil
  | cons s rest ih =>
    simp only [List.flatMap_cons, List.map_append, List.sum_append] at hsum
    have hhead := sum_start_placed s
    have hrest := hle rest
    intro t ht
    rcases List.mem_cons.mp ht with rfl | htail
    · by_contra hshift
      have hlt := hhead.2 hshift
      omega
    · exact ih (by omega) t htail

theorem info_timestamp (sentences : List (StampedSentence κ)) :
    (sentences.map StampedSentence.info).flatMap (fun s => timestampItems s.timestamp) =
      (sentences.flatMap StampedSentence.stamps).map Stamp.raw := by
  rw [List.flatMap_map, List.map_flatMap]
  rfl

/-- Equal lists of raw timestamps have equal sums of times. -/
theorem sum_start_of_perm_raw {xs ys : List Stamp}
    (h : (xs.map Stamp.raw).Perm (ys.map Stamp.raw)) :
    (xs.map Stamp.startMs).sum = (ys.map Stamp.startMs).sum := by
  have hinj : Function.Injective Stamp.raw := fun a b hab => by
    have hnormal := congrArg normalizeItem hab
    rw [normalizeItem_raw, normalizeItem_raw] at hnormal
    exact Option.some.inj hnormal
  exact (((List.map_perm_map_iff hinj).mp h).map Stamp.startMs).sum_eq

variable [DecidableEq κ] [Zero κ] {speaker : SpeakerResult κ}

/-- The output texts are those of the units in the order of their times. -/
theorem mergePt_text (husable : speaker.Usable) :
    (mergePtSentenceInfoWithSpeaker (sentences.map StampedSentence.info)
      (some speaker)).flatMap SentenceInfo.text =
      (sortedBy TimedUnit.key (stampedUnits sentences)).flatMap TimedUnit.text := by
  rw [mergePtSentenceInfoWithSpeaker]
  dsimp only
  rw [if_pos husable, buildTimedUnits_info]
  split
  · rw [List.flatMap_map]
    exact mergeTimedUnitsBySpeaker_text fun _ => visible_of_stampedUnits
  · next hnil =>
    rw [not_not] at hnil
    have htext : (stampedUnits sentences).flatMap TimedUnit.text =
        sentences.flatMap StampedSentence.text := stampedUnits_text
    rw [hnil] at htext ⊢
    rw [assignSpeakerToSentences, List.flatMap_map, List.flatMap_map]
    exact htext.symm

/-- The output timestamps are the placed ones in the order of their times. -/
theorem mergePt_timestamp (husable : speaker.Usable) (hne : stampedUnits sentences ≠ []) :
    (mergePtSentenceInfoWithSpeaker (sentences.map StampedSentence.info)
      (some speaker)).flatMap (fun s => timestampItems s.timestamp) =
      (sortedBy TimedUnit.key (stampedUnits sentences)).flatMap
        fun unit => timestampItems unit.timestamp := by
  rw [mergePtSentenceInfoWithSpeaker]
  dsimp only
  rw [if_pos husable, buildTimedUnits_info, if_pos hne, List.flatMap_map]
  exact mergeTimedUnitsBySpeaker_timestamp (fun _ => visible_of_stampedUnits)
    fun _ => exists_items_of_stampedUnits

end Preservation

section Transcript

variable {κ : Type*} [DecidableEq κ] [Zero κ]

/-- Merging loses and changes nothing: the texts and the timestamps stay as they were. -/
def Preserves (before after : List (SentenceInfo κ)) : Prop :=
  after.flatMap SentenceInfo.text = before.flatMap SentenceInfo.text ∧
    after.flatMap (fun s => timestampItems s.timestamp) =
      before.flatMap fun s => timestampItems s.timestamp

instance (before after : List (SentenceInfo κ)) : Decidable (Preserves before after) :=
  inferInstanceAs (Decidable (_ ∧ _))

/-- For sentences in time order with absolute timestamps inside them, merging with a usable
diarization loses and changes nothing if and only if no sentence begins after time zero and
within the tolerance of the relative-or-absolute guess. -/
theorem mergePtSentenceInfoWithSpeaker_preserves_iff {sentences : List (StampedSentence κ)}
    {speaker : SpeakerResult κ} (hchain : sentences.IsChain StampedSentence.Before)
    (husable : speaker.Usable) :
    Preserves (sentences.map StampedSentence.info)
        (mergePtSentenceInfoWithSpeaker (sentences.map StampedSentence.info) (some speaker)) ↔
      ∀ s ∈ sentences, s.startMs = 0 ∨ 50 < s.startMs := by
  by_cases hnil : stampedUnits sentences = []
  · -- Every sentence has a unit, so there is no sentence at all.
    have hempty : sentences = [] := by
      cases sentences with
      | nil => rfl
      | cons s rest =>
        rw [stampedUnits, List.map_eq_nil_iff, List.flatMap_cons, List.append_eq_nil_iff] at hnil
        exact absurd hnil.1 s.tokens_ne_nil
    subst hempty
    have hout :
        mergePtSentenceInfoWithSpeaker ([] : List (SentenceInfo κ)) (some speaker) = [] := by
      rw [mergePtSentenceInfoWithSpeaker]
      dsimp only
      rw [if_pos husable]
      rfl
    rw [List.map_nil, hout]
    simp [Preserves]
  · rw [Preserves, mergePt_text husable, mergePt_timestamp husable hnil, info_timestamp]
    constructor
    · rintro ⟨-, htimes⟩
      apply keepsTimes_of_sum_eq
      apply sum_start_of_perm_raw
      rw [← stampedUnits_timestamp, ← htimes]
      exact ((sortedBy_perm TimedUnit.key (stampedUnits sentences)).flatMap_right _).symm
    · intro hkeeps
      rw [sortedBy_stampedUnits hchain hkeeps, stampedUnits_text, stampedUnits_timestamp,
        List.flatMap_map]
      refine ⟨rfl, ?_⟩
      rw [List.flatMap_congr fun s hs => s.placed_eq_self (hkeeps s hs)]

/-- A sentence is split where the speaker changes. -/
example :
    (mergePtSentenceInfoWithSpeaker
      [⟨['你', '好', '世', '界'], some 0, some 1600,
        some (.items [.triple ['你'] 0 400, .triple ['好'] 400 800, .triple ['世'] 800 1200,
          .triple ['界'] 1200 1600]), none⟩]
      (some ⟨[⟨1, 0, 800⟩, ⟨2, 800, 1600⟩], none⟩ : Option (SpeakerResult ℕ))).map
        (fun sentence => (sentence.text, sentence.spk)) =
      [(['你', '好'], some 1), (['世', '界'], some 2)] := by
  decide +kernel

/-- Two sentences that follow each other from time zero on. -/
def promptSentences : List (StampedSentence ℕ) :=
  [⟨['甲', '乙'], 0, 100, [⟨['甲'], 0, 50⟩, ⟨['乙'], 50, 100⟩], none, by decide, by decide,
    by decide, by decide, by decide, by decide, by decide⟩,
   ⟨['丙', '。'], 100, 200, [⟨['丙'], 100, 200⟩], none, by decide, by decide,
    by decide, by decide, by decide, by decide, by decide⟩]

/-- A diarization with a change of speaker. -/
def twoSpeakers : SpeakerResult ℕ := ⟨[⟨1, 0, 80⟩, ⟨2, 80, 200⟩], none⟩

theorem promptSentences_preserved :
    Preserves (promptSentences.map StampedSentence.info)
      (mergePtSentenceInfoWithSpeaker (promptSentences.map StampedSentence.info)
        (some twoSpeakers)) :=
  (mergePtSentenceInfoWithSpeaker_preserves_iff (by decide) (by decide)).mpr (by decide)

/-- The first of these sentences begins at 50 ms. -/
def earlySentences : List (StampedSentence ℕ) :=
  [⟨['甲', '乙'], 50, 100, [⟨['甲'], 50, 75⟩, ⟨['乙'], 75, 100⟩], none, by decide, by decide,
    by decide, by decide, by decide, by decide, by decide⟩,
   ⟨['丙', '丁'], 100, 200, [⟨['丙'], 100, 110⟩, ⟨['丁'], 110, 200⟩], none, by decide, by decide,
    by decide, by decide, by decide, by decide, by decide⟩]

/-- Its times are taken for relative ones, and its characters mix with those of the next. -/
theorem earlySentences_interleaved :
    (earlySentences.IsChain StampedSentence.Before ∧ twoSpeakers.Usable) ∧
    ¬ Preserves (earlySentences.map StampedSentence.info)
      (mergePtSentenceInfoWithSpeaker (earlySentences.map StampedSentence.info)
        (some twoSpeakers)) ∧
    (mergePtSentenceInfoWithSpeaker (earlySentences.map StampedSentence.info)
      (some twoSpeakers)).flatMap SentenceInfo.text = ['丙', '甲', '丁', '乙'] := by
  decide +kernel

end Transcript

end FunasrApi.Offline
