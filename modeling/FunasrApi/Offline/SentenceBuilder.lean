import FunasrApi.Offline.Timestamps

/-!
# Sentences without speakers

The two builders that cut a text into sentences when there is no diarization: by
the timestamps of its characters, and by the VAD segments.
-/

namespace FunasrApi.Offline

open FunasrApi.Core Text

/-- A sentence with its time. -/
structure TimedSentence where
  /-- The text. -/
  text : Text
  /-- The time at which the sentence begins. -/
  startMs : ℤ
  /-- The time at which it ends. -/
  endMs : ℤ
deriving DecidableEq

/-- The separators of `re.split(r"([。！？])", text)`. -/
def isSentenceEnd (c : Char) : Bool := ['。', '！', '？'].contains c

/-- `_STRIP_CHARS`. -/
def stripChars : Text :=
  ['。', '！', '？', '，', '、', '：', '；', '"', '\'', '（', '）', '【', '】', '《', '》', ' ',
    '\t', '\r', '\n']

/-- The sentences with their ends, after some characters of the first one. A rest without an
end counts when it is not blank. -/
def completeSentencesFrom (current : Text) : Text → List Text
  | [] => if strip current ≠ [] then [current] else []
  | c :: rest =>
    if isSentenceEnd c then (current ++ [c]) :: completeSentencesFrom [] rest
    else completeSentencesFrom (current ++ [c]) rest

/-- The `complete_sentences` of `build_sentence_info_from_timestamps`. -/
def completeSentences (text : Text) : List Text := completeSentencesFrom [] text

/-- The loop of `build_sentence_info_from_timestamps` from a word index on. -/
def sentencesFromTimestamps (timestamps : List Stamp) : ℕ → List Text → List TimedSentence
  | _, [] => []
  | wordIndex, sentence :: rest =>
    match timestamps[wordIndex]? with
    | none => sentencesFromTimestamps timestamps wordIndex rest
    | some first =>
      if strip sentence = [] then sentencesFromTimestamps timestamps wordIndex rest
      else
        let sentenceChars := sentence.filter fun c => !stripChars.contains c
        let endIndex := min (wordIndex + sentenceChars.length) (timestamps.length - 1)
        ⟨strip sentence, first.startMs, (timestamps.getD endIndex first).endMs⟩ ::
          sentencesFromTimestamps timestamps (endIndex + 1) rest

/-- `build_sentence_info_from_timestamps`. -/
def buildSentenceInfoFromTimestamps (text : Text) (timestamps : List Stamp) :
    List TimedSentence :=
  sentencesFromTimestamps timestamps 0 (completeSentences text)

/-- `build_sentence_info_from_vad`: one sentence for each segment, as far as they go. -/
def buildSentenceInfoFromVad (text : Text) (vadSegments : List (ℤ × ℤ)) : List TimedSentence :=
  let stripped := ((Text.split '。' text).map strip).filter (· ≠ [])
  let sentences := stripped.map (· ++ ['。'])
  let sentences := if sentences = [] ∧ text ≠ [] then [text] else sentences
  vadSegments.zipWith (fun segment sentence => ⟨sentence, segment.1, segment.2⟩) sentences

@[simp] theorem buildSentenceInfoFromVad_nil (vadSegments : List (ℤ × ℤ)) :
    buildSentenceInfoFromVad [] vadSegments = [] :=
  List.zipWith_nil_right

end FunasrApi.Offline
