import FunasrApi.Core.PythonText
import FunasrApi.Offline.Speakers
import FunasrApi.Results.Recognition

/-!
# The text with its speakers

Neighbouring segments of one speaker make a turn, and each turn is a line that begins
with the label of the speaker. The lines can be read back, and no text is lost.
-/

namespace FunasrApi.Results

open FunasrApi.Core FunasrApi.Offline Text

section Turns

variable {κ : Type*} [DecidableEq κ]

/-- `extract_segments_from_sentence_info`, for sentences with all their keys. -/
def extractSegmentsFromSentenceInfo (speakerNormalizer : κ → κ)
    (sentenceInfo : List (SpokenSentence κ)) : List (Segment κ) :=
  sentenceInfo.map fun sentence =>
    ⟨sentence.text, sentence.startMs, sentence.endMs, speakerNormalizer sentence.spk,
      sentence.timestamp⟩

/-- A speaker and what has been said until the speaker changes: `current_speaker` and
`current_text`. -/
structure Turn (κ : Type*) where
  /-- The speaker. -/
  speaker : κ
  /-- The text. -/
  text : Text
deriving DecidableEq

/-- The turns that `build_full_text_with_speaker` goes through. -/
def turns (segments : List (Segment κ)) : List (Turn κ) :=
  mergeRuns (fun current segment => current.speaker = segment.speaker)
    (fun segment => ⟨segment.speaker, segment.text⟩)
    (fun current segment => { current with text := current.text ++ segment.text })
    (fun _ => true) segments

/-- What stands before the label of a speaker. -/
def labelOpening : Text := "[说话人 ".toList

/-- The line of a turn; `str` is that of a speaker. -/
def Turn.line (str : κ → Text) (turn : Turn κ) : Text :=
  labelOpening ++ str turn.speaker ++ "] ".toList ++ turn.text

/-- `build_full_text_with_speaker`. -/
def buildFullTextWithSpeaker (str : κ → Text) (segments : List (Segment κ)) : Text :=
  join '\n' ((turns segments).map (Turn.line str))

/-- Reads the label of the speaker and the text off a line. -/
def readLine (line : Text) : Option (Text × Text) :=
  if labelOpening <+: line then
    let labelled := line.drop labelOpening.length
    some (labelled.takeWhile (· ≠ ']'), (labelled.dropWhile (· ≠ ']')).drop 2)
  else none

/-- Reads a text with its speakers. -/
def readFullText (text : Text) : Option (List (Text × Text)) :=
  if text = [] then some [] else (split '\n' text).mapM readLine

variable {segments : List (Segment κ)}

/-- The turns say what the segments say. -/
theorem turns_text (segments : List (Segment κ)) :
    (turns segments).flatMap Turn.text = segments.flatMap Segment.text :=
  mergeRuns_flatMap (fun _ => True) (fun _ _ => ⟨trivial, rfl⟩)
    (fun _ _ _ _ => ⟨trivial, rfl⟩) fun _ _ => .inl rfl

/-- The speaker changes between two turns. -/
theorem turns_isChain (segments : List (Segment κ)) :
    (turns segments).IsChain fun a b => a.speaker ≠ b.speaker := by
  unfold turns
  refine mergeRuns_isChain ?_ ?_ segments
  · intro current segment h
    exact of_decide_eq_false h
  · intro before current segment h
    exact h

/-- Whoever has a turn has a segment. -/
theorem speaker_of_turn (segments : List (Segment κ)) :
    ∀ turn ∈ turns segments, ∃ segment ∈ segments, segment.speaker = turn.speaker := by
  unfold turns
  refine forall_mem_mergeRuns ?_ ?_
  · intro segment hsegment
    exact ⟨segment, hsegment, rfl⟩
  · intro segment _ current hcurrent
    exact hcurrent

omit [DecidableEq κ] in
/-- The label and the text are read off the line of a turn. -/
theorem readLine_line {str : κ → Text} {turn : Turn κ} (h : ']' ∉ str turn.speaker) :
    readLine (turn.line str) = some (str turn.speaker, turn.text) := by
  have hlabel : ∀ c ∈ str turn.speaker, decide (c ≠ ']') = true := fun c hc =>
    decide_eq_true fun heq => h (heq ▸ hc)
  have hline : turn.line str =
      labelOpening ++ (str turn.speaker ++ ']' :: ' ' :: turn.text) := by
    simp [Turn.line]
  rw [readLine, hline, if_pos (List.prefix_append ..), List.drop_left]
  dsimp only
  rw [List.takeWhile_append_of_pos hlabel, List.dropWhile_append_of_pos hlabel]
  simp

/-- The lines can be read back, nothing that was said is lost, and each line is another speaker's
than the line before. -/
theorem buildFullTextWithSpeaker_read (str : κ → Text) (segments : List (Segment κ))
    (htext : ∀ segment ∈ segments, '\n' ∉ segment.text)
    (hlabel : ∀ segment ∈ segments, '\n' ∉ str segment.speaker ∧ ']' ∉ str segment.speaker) :
    readFullText (buildFullTextWithSpeaker str segments) =
        some ((turns segments).map fun turn => (str turn.speaker, turn.text)) ∧
      (turns segments).flatMap Turn.text = segments.flatMap Segment.text ∧
      (turns segments).IsChain fun a b => a.speaker ≠ b.speaker := by
  refine ⟨?_, turns_text segments, turns_isChain segments⟩
  have hturn : ∀ turn ∈ turns segments, '\n' ∉ turn.text ∧ '\n' ∉ str turn.speaker ∧
      ']' ∉ str turn.speaker := by
    intro turn hmem
    obtain ⟨segment, hsegment, hspeaker⟩ := speaker_of_turn segments turn hmem
    refine ⟨fun hnewline => ?_, hspeaker ▸ hlabel segment hsegment⟩
    have hall : '\n' ∈ (turns segments).flatMap Turn.text :=
      List.mem_flatMap.mpr ⟨turn, hmem, hnewline⟩
    rw [turns_text, List.mem_flatMap] at hall
    obtain ⟨other, hother, hsaid⟩ := hall
    exact htext other hother hsaid
  have hread : ((turns segments).map (Turn.line str)).mapM readLine =
      some ((turns segments).map fun turn => (str turn.speaker, turn.text)) := by
    generalize turns segments = list at hturn ⊢
    induction list with
    | nil => rfl
    | cons turn rest ih =>
      have hrest := ih fun other hother => hturn other (List.mem_cons_of_mem _ hother)
      rw [List.map_cons, List.mapM_cons, hrest,
        readLine_line (hturn turn (List.mem_cons_self ..)).2.2]
      rfl
  have hlines : ∀ line ∈ (turns segments).map (Turn.line str), '\n' ∉ line := by
    intro line hline
    obtain ⟨turn, hmem, rfl⟩ := List.mem_map.mp hline
    obtain ⟨hsaid, hname, -⟩ := hturn turn hmem
    have hopening : '\n' ∉ labelOpening ∧ '\n' ∉ "] ".toList := by decide
    simp only [Turn.line, List.mem_append, not_or]
    exact ⟨⟨⟨hopening.1, hname⟩, hopening.2⟩, hsaid⟩
  unfold readFullText buildFullTextWithSpeaker
  cases hcases : turns segments with
  | nil => rfl
  | cons turn rest =>
    have hne : (turns segments).map (Turn.line str) ≠ [] := by simp [hcases]
    have hjoin : join '\n' ((turns segments).map (Turn.line str)) ≠ [] := by
      intro hnil
      have hsplit := split_join hlines hne
      rw [hnil, hcases] at hsplit
      cases hsplit
    rw [← hcases, if_neg hjoin, split_join hlines hne, hread]

/-- Two speakers in three segments. -/
theorem buildFullTextWithSpeaker_readBack :
    readFullText (buildFullTextWithSpeaker (fun speaker : ℕ => if speaker = 0 then ['0'] else ['1'])
      [⟨['你'], 0, 1, 0, none⟩, ⟨['好'], 1, 2, 0, none⟩, ⟨['嗯'], 2, 3, 1, none⟩]) =
        some [(['0'], ['你', '好']), (['1'], ['嗯'])] :=
  (buildFullTextWithSpeaker_read _ _ (by decide) (by decide)).1

end Turns

end FunasrApi.Results
