import FunasrApi.Core.Numeric
import FunasrApi.Online.LockedSentences
import FunasrApi.Online.ModelPayload

/-!
# Timestamps in the time of the session

The timestamps that a model returns are those of the padded audio, or already of
the session; the largest one decides for all. Each entry is moved, cut to the
sentence and repaired when it ends before it begins. All of that keeps the order of
the items.
-/

namespace FunasrApi.Online

open FunasrApi.Core Text

/-- `to_int_ms`. -/
def toIntMs (value : ℚ) : ℤ := roundHalfEven value

/-- Two values, if they are numbers. -/
def pairNumbers : List Payload → Option (ℚ × ℚ)
  | [.number first, .number second] => some (first, second)
  | _ => none

/-- The last two of three or more values, if they are numbers. -/
def lastNumbers (values : List Payload) : Option (ℚ × ℚ) :=
  match values.reverse with
  | .number last :: .number previous :: _ :: _ => some (previous, last)
  | _ => none

section Extract

variable (str : Payload → Text)

/-- The body of the first loop of `extract_global_timestamps`, for the token at the item's index. -/
def normalizedItem (token : Text) (item : Payload) : Option TimedToken :=
  match item.sequence? with
  | none => none
  | some values =>
    match pairNumbers values with
    | some (first, second) => some ⟨token, toIntMs first, toIntMs second⟩
    | none =>
      (lastNumbers values).map fun (previous, last) =>
        let itemToken := compactTokenText ((values.headD .null).shown str)
        ⟨if itemToken ≠ [] then itemToken else token, toIntMs previous, toIntMs last⟩

/-- `max_observed`. -/
def maxObserved (normalized : List TimedToken) : ℤ :=
  normalized.foldl (fun observed token => max observed (max token.startMs token.endMs)) 0

/-- The body of the second loop. -/
def globalToken (startMs endMs offsetMs : ℤ) (token : TimedToken) : TimedToken :=
  let tokenStart := max startMs (min (token.startMs + offsetMs) endMs)
  let tokenEnd := max startMs (min (token.endMs + offsetMs) endMs)
  ⟨token.text, tokenStart, if tokenEnd < tokenStart then tokenStart else tokenEnd⟩

/-- The items of the timestamp payload, none when there is no payload; `none` when the loop over
them raises. -/
def timestampItems (rawPayload : Payload) : Option (List Payload) :=
  let timestampPayload := extractTimestampPayload rawPayload
  if timestampPayload.truth then timestampPayload.iterated else some []

/-- The two loops of `extract_global_timestamps` over the items. -/
def globalTimestamps (rawText : Text) (startMs endMs paddedStartMs paddedEndMs : ℤ)
    (items : List Payload) : List TimedToken :=
  let rawTokens := textTokens rawText
  let localDurationMs := max 0 (paddedEndMs - paddedStartMs)
  let normalized := items.zipIdx.filterMap fun (item, index) =>
    normalizedItem str (rawTokens.getD index []) item
  if normalized = [] then []
  else
    let offsetMs := if maxObserved normalized ≤ localDurationMs + 1000 then paddedStartMs else 0
    normalized.map (globalToken startMs endMs offsetMs)

/-- `extract_global_timestamps`; `none` when it raises. -/
def extractGlobalTimestamps (rawPayload : Payload) (rawText : Text)
    (startMs endMs paddedStartMs paddedEndMs : ℤ) : Option (List TimedToken) :=
  (timestampItems rawPayload).map
    (globalTimestamps str rawText startMs endMs paddedStartMs paddedEndMs)

end Extract

/-- The times of a well-formed item: a list or a tuple of two numbers, or of three or more values
that end with two. -/
def itemTimes (item : Payload) : Option (ℚ × ℚ) :=
  item.sequence?.bind fun values => (pairNumbers values).or (lastNumbers values)

/-- Times in whole milliseconds. -/
def roundTimes (times : ℚ × ℚ) : ℤ × ℤ := (toIntMs times.1, toIntMs times.2)

/-- The times of a token. -/
def TimedToken.times (token : TimedToken) : ℤ × ℤ := (token.startMs, token.endMs)

/-- Times that are moved, cut to the sentence, and do not end before they begin. -/
def sentenceTimes (startMs endMs offsetMs : ℤ) (times : ℤ × ℤ) : ℤ × ℤ :=
  let begins := max startMs (min (times.1 + offsetMs) endMs)
  (begins, max begins (max startMs (min (times.2 + offsetMs) endMs)))

/-- The tokens are the well-formed items in their order, in the time of the sentence, and in the
order of time when the items are. -/
structure PlacesItems (startMs endMs paddedStartMs : ℤ) (items : List Payload)
    (tokens : List TimedToken) : Prop where
  entries : ∃ offsetMs, (offsetMs = 0 ∨ offsetMs = paddedStartMs) ∧
    tokens.map TimedToken.times = (items.filterMap itemTimes).map fun times =>
      sentenceTimes startMs endMs offsetMs (roundTimes times)
  within : ∀ token ∈ tokens,
    startMs ≤ token.startMs ∧ token.startMs ≤ token.endMs ∧ token.endMs ≤ endMs
  starts : ((items.filterMap itemTimes).map Prod.fst).Pairwise (· ≤ ·) →
    (tokens.map TimedToken.startMs).Pairwise (· ≤ ·)
  ends : (((items.filterMap itemTimes).map Prod.fst).Pairwise (· ≤ ·) ∨
      ∀ times ∈ items.filterMap itemTimes, times.1 ≤ times.2) →
    ((items.filterMap itemTimes).map Prod.snd).Pairwise (· ≤ ·) →
    (tokens.map TimedToken.endMs).Pairwise (· ≤ ·)

/-- A normalized item has the times of the item. -/
theorem normalizedItem_times (str : Payload → Text) (token : Text) (item : Payload) :
    (normalizedItem str token item).map TimedToken.times = (itemTimes item).map roundTimes := by
  unfold normalizedItem itemTimes
  cases item.sequence? with
  | none => rfl
  | some values =>
    dsimp only [Option.bind_some]
    cases pairNumbers values with
    | some times => rfl
    | none =>
      rw [Option.none_or]
      cases lastNumbers values <;> rfl

/-- The first loop keeps the well-formed items, in their order. -/
theorem normalized_times (str : Payload → Text) (token : ℕ → Text) (items : List Payload) :
    (items.zipIdx.filterMap fun (item, index) =>
        normalizedItem str (token index) item).map TimedToken.times =
      (items.filterMap itemTimes).map roundTimes := by
  rw [List.map_filterMap, List.map_filterMap]
  conv_rhs => rw [← List.zipIdx_map_fst 0 items, List.filterMap_map]
  congr 1
  funext entry
  exact normalizedItem_times str (token entry.2) entry.1

/-- The second loop puts each token into the sentence. -/
theorem globalToken_times (startMs endMs offsetMs : ℤ) (token : TimedToken) :
    (globalToken startMs endMs offsetMs token).times =
      sentenceTimes startMs endMs offsetMs token.times := by
  unfold globalToken sentenceTimes TimedToken.times
  dsimp only
  congr 1
  split <;> omega

theorem sentenceTimes_within {startMs endMs : ℤ} (h : startMs ≤ endMs) (offsetMs : ℤ)
    (times : ℤ × ℤ) :
    startMs ≤ (sentenceTimes startMs endMs offsetMs times).1 ∧
      (sentenceTimes startMs endMs offsetMs times).1 ≤
        (sentenceTimes startMs endMs offsetMs times).2 ∧
      (sentenceTimes startMs endMs offsetMs times).2 ≤ endMs := by
  unfold sentenceTimes
  dsimp only
  omega

/-- Moving a time and cutting it to the sentence keep the order. -/
theorem cut_mono {earlier later : ℤ} (startMs endMs offsetMs : ℤ) (h : earlier ≤ later) :
    max startMs (min (earlier + offsetMs) endMs) ≤ max startMs (min (later + offsetMs) endMs) :=
  max_le_max le_rfl (min_le_min (Int.add_le_add_right h offsetMs) le_rfl)

/-- The starts stay in order. -/
theorem sentenceTimes_fst_mono (startMs endMs offsetMs : ℤ) {earlier later : ℚ × ℚ}
    (h : earlier.1 ≤ later.1) :
    (sentenceTimes startMs endMs offsetMs (roundTimes earlier)).1 ≤
      (sentenceTimes startMs endMs offsetMs (roundTimes later)).1 :=
  cut_mono startMs endMs offsetMs (roundHalfEven_mono h)

/-- The repaired ends stay in order, too, where the starts are in order or the earlier item does
not end before it begins. -/
theorem sentenceTimes_snd_mono (startMs endMs offsetMs : ℤ) {earlier later : ℚ × ℚ}
    (hstart : earlier.1 ≤ later.1 ∨ earlier.1 ≤ earlier.2) (hend : earlier.2 ≤ later.2) :
    (sentenceTimes startMs endMs offsetMs (roundTimes earlier)).2 ≤
      (sentenceTimes startMs endMs offsetMs (roundTimes later)).2 := by
  have hends := (cut_mono startMs endMs offsetMs (roundHalfEven_mono hend)).trans
    (le_max_right (sentenceTimes startMs endMs offsetMs (roundTimes later)).1 _)
  refine max_le ?_ hends
  -- an end that was repaired is the start, which is before the later start or the own end
  rcases hstart with hstart | hstart
  · exact (sentenceTimes_fst_mono startMs endMs offsetMs hstart).trans (le_max_left _ _)
  · exact (cut_mono startMs endMs offsetMs (roundHalfEven_mono hstart)).trans hends

/-- The times of the tokens are those of the well-formed items, in the time of the sentence. -/
theorem globalTimestamps_times (str : Payload → Text) (rawText : Text)
    (startMs endMs paddedStartMs paddedEndMs : ℤ) (items : List Payload) :
    ∃ offsetMs, (offsetMs = 0 ∨ offsetMs = paddedStartMs) ∧
      (globalTimestamps str rawText startMs endMs paddedStartMs paddedEndMs items).map
          TimedToken.times =
        (items.filterMap itemTimes).map fun times =>
          sentenceTimes startMs endMs offsetMs (roundTimes times) := by
  have hnormalized := normalized_times str (fun index => (textTokens rawText).getD index []) items
  unfold globalTimestamps
  dsimp only
  set normalized := items.zipIdx.filterMap fun entry =>
    normalizedItem str ((textTokens rawText).getD entry.2 []) entry.1
  set offsetMs :=
    if maxObserved normalized ≤ max 0 (paddedEndMs - paddedStartMs) + 1000 then paddedStartMs else 0
    with hoffset
  have hplaced : (normalized.map (globalToken startMs endMs offsetMs)).map TimedToken.times =
      (items.filterMap itemTimes).map fun times =>
        sentenceTimes startMs endMs offsetMs (roundTimes times) := by
    calc (normalized.map (globalToken startMs endMs offsetMs)).map TimedToken.times
        = (normalized.map TimedToken.times).map (sentenceTimes startMs endMs offsetMs) := by
          rw [List.map_map, List.map_map]
          exact List.map_congr_left fun token _ => globalToken_times startMs endMs offsetMs token
      _ = ((items.filterMap itemTimes).map roundTimes).map
            (sentenceTimes startMs endMs offsetMs) := by rw [hnormalized]
      _ = _ := List.map_map
  refine ⟨offsetMs, by rw [hoffset]; split <;> simp, ?_⟩
  split
  · next hnil =>
    rw [← hplaced, hnil]
    rfl
  · exact hplaced

/-- The second loop keeps the texts of the tokens. -/
theorem globalTimestamps_text (str : Payload → Text) (rawText : Text)
    (startMs endMs paddedStartMs paddedEndMs : ℤ) (items : List Payload) :
    (globalTimestamps str rawText startMs endMs paddedStartMs paddedEndMs items).map
        TimedToken.text =
      (items.zipIdx.filterMap fun (item, index) =>
        normalizedItem str ((textTokens rawText).getD index []) item).map TimedToken.text := by
  unfold globalTimestamps
  dsimp only
  split
  · next hnil => rw [hnil]
  · rw [List.map_map]
    rfl

/-- Every timestamp payload of the model is placed in the sentence: one token for each well-formed
item, in the same order, between the times of the sentence, and in the order of time when the
items are. -/
theorem extractGlobalTimestamps_placesItems (str : Payload → Text) (rawPayload : Payload)
    (rawText : Text) {startMs endMs : ℤ} (h : startMs ≤ endMs) (paddedStartMs paddedEndMs : ℤ)
    {items : List Payload} (hitems : timestampItems rawPayload = some items) :
    ∃ tokens, extractGlobalTimestamps str rawPayload rawText startMs endMs paddedStartMs
        paddedEndMs = some tokens ∧
      PlacesItems startMs endMs paddedStartMs items tokens := by
  obtain ⟨offsetMs, hoffset, htimes⟩ := globalTimestamps_times str rawText startMs endMs
    paddedStartMs paddedEndMs items
  set tokens := globalTimestamps str rawText startMs endMs paddedStartMs paddedEndMs items
  have hstarts : tokens.map TimedToken.startMs = (items.filterMap itemTimes).map fun times =>
      (sentenceTimes startMs endMs offsetMs (roundTimes times)).1 := by
    have := congrArg (List.map Prod.fst) htimes
    rwa [List.map_map, List.map_map] at this
  have hends : tokens.map TimedToken.endMs = (items.filterMap itemTimes).map fun times =>
      (sentenceTimes startMs endMs offsetMs (roundTimes times)).2 := by
    have := congrArg (List.map Prod.snd) htimes
    rwa [List.map_map, List.map_map] at this
  have hsome : extractGlobalTimestamps str rawPayload rawText startMs endMs paddedStartMs
      paddedEndMs = some tokens := by
    rw [extractGlobalTimestamps, hitems, Option.map_some]
  refine ⟨tokens, hsome, ⟨offsetMs, hoffset, htimes⟩, ?_, ?_, ?_⟩
  · intro token htoken
    have hmem : token.times ∈ tokens.map TimedToken.times := List.mem_map_of_mem htoken
    rw [htimes] at hmem
    obtain ⟨times, -, heq⟩ := List.mem_map.mp hmem
    obtain ⟨hlow, hmid, hhigh⟩ := sentenceTimes_within h offsetMs (roundTimes times)
    rw [heq] at hlow hmid hhigh
    exact ⟨hlow, hmid, hhigh⟩
  · intro hinput
    rw [List.pairwise_map] at hinput
    rw [hstarts, List.pairwise_map]
    exact hinput.imp fun hle => sentenceTimes_fst_mono startMs endMs offsetMs hle
  · intro hinput hinput'
    rw [List.pairwise_map] at hinput hinput'
    rw [hends, List.pairwise_map]
    have hordered : (items.filterMap itemTimes).Pairwise fun a b => a.1 ≤ b.1 ∨ a.1 ≤ a.2 := by
      rcases hinput with hstart | hsound
      · exact hstart.imp .inl
      · exact List.pairwise_of_forall_mem_list fun a ha _ _ => .inr (hsound a ha)
    exact (hordered.and hinput').imp fun hle =>
      sentenceTimes_snd_mono startMs endMs offsetMs hle.1 hle.2

/-- A response with a pair, a triple that ends before it begins, and items that are neither. -/
def mixedResponse : Payload :=
  .list [.dict [("text".toList, .text "你好".toList), ("timestamp".toList, .list
    [.list [.number 300, .number 420], .text "x".toList, .tuple [.text "好".toList, .number 430,
      .number 425], .list [.number 440], .list [.number 560, .number 900]])]]

/-- The three items that are well-formed are placed. -/
theorem mixedResponse_placesItems :
    ∃ tokens, extractGlobalTimestamps (fun _ => []) mixedResponse "你好".toList 1000 1300 700 1500 =
        some tokens ∧
      PlacesItems 1000 1300 700
        [.list [.number 300, .number 420], .text "x".toList, .tuple [.text "好".toList, .number 430,
          .number 425], .list [.number 440], .list [.number 560, .number 900]] tokens :=
  extractGlobalTimestamps_placesItems (fun _ => []) mixedResponse "你好".toList (by decide) 700 1500
    rfl

example : extractGlobalTimestamps (fun _ => []) mixedResponse "你好".toList 1000 1300 700 1500 =
    some [⟨"你".toList, 1000, 1120⟩, ⟨"好".toList, 1130, 1130⟩, ⟨[], 1260, 1300⟩] := by
  decide +kernel

end FunasrApi.Online
