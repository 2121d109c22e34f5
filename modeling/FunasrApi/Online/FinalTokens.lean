import FunasrApi.Offline.TextUnits
import FunasrApi.Online.GlobalTimestamps
import FunasrApi.Online.SessionSafety
import FunasrApi.Online.TrimSafety

/-!
# The tokens of a final sentence

The final model returns its tokens with spaces between them and a pair of times for
each. The text is compacted before the tokens are read off it again, one character
each, so they are the tokens of the model exactly when those are single characters.
-/

namespace FunasrApi.Online

open FunasrApi.Core Text
open Offline (isAsciiWordChar toNat_lt_of_word)
open Session (slowSettings scriptedModels)

/-- The characters of the CJK blocks: radicals, kana, ideographs, Hangul and their marks, without
the ideographic space. -/
def isCjk (c : Char) : Bool :=
  let n := c.toNat
  (0x1100 ≤ n && n ≤ 0x11FF) || (0x2E80 ≤ n && n ≤ 0x9FFF && n != 0x3000) ||
    (0xAC00 ≤ n && n ≤ 0xD7FF) || (0xF900 ≤ n && n ≤ 0xFAFF) || (0xFF66 ≤ n && n ≤ 0xFFDC) ||
    (0x1B000 ≤ n && n ≤ 0x1B16F) || (0x20000 ≤ n && n ≤ 0x3FFFF)

/-- A token of the model: a single CJK character or an ASCII word. -/
def IsToken (token : Text) : Prop :=
  token ≠ [] ∧
    ((token.length = 1 ∧ ∀ c ∈ token, isCjk c = true) ∨ ∀ c ∈ token, isAsciiWordChar c = true)

-- the characters of the token are gone through, not the characters that there are
instance (token : Text) : Decidable (IsToken token) :=
  have (p : Char → Bool) : Decidable (∀ c ∈ token, p c = true) := List.decidableBAll _ token
  inferInstanceAs (Decidable (_ ∧ _))

/-- The response of a model with the tokens, joined by spaces, and a pair of times for each. -/
def tokenResponse (tokens : List Text) (times : List (ℚ × ℚ)) : Payload :=
  .list [.dict [("text".toList, .text (join ' ' tokens)),
    ("timestamp".toList, .list (times.map fun p => .list [.number p.1, .number p.2]))]]

section Answer

variable (str : Payload → Text) (puncModel : Option (Text → Option Payload))

/-- `_apply_punctuation`; the model answers `none` when it raises. -/
def applyPunctuation (text : Text) : Text :=
  match puncModel with
  | none => text
  | some generate =>
    if strip text = [] then text
    else
      match generate text with
      | none => text
      | some result =>
        if extractOnlineText str result ≠ [] then extractOnlineText str result else text

/-- The `raw_text` of a response. -/
def rawTextOf (result : Payload) : Text := compactTokenText (extractOnlineText str result)

/-- What `_decode_final_segment` makes of the response of the final model; `none` when it raises. -/
def finalAnswer (result : Payload) (startMs endMs paddedStartMs paddedEndMs : ℤ) :
    Option FinalAnswer :=
  let rawText := rawTextOf str result
  (extractGlobalTimestamps str result rawText startMs endMs paddedStartMs paddedEndMs).map
    fun timestamps => ⟨rawText, applyPunctuation str puncModel rawText, timestamps⟩

end Answer

section Characters

variable {chars : List Char}

theorem plain_of_isCjk {c : Char} (h : isCjk c = true) : Plain c := by
  refine ⟨?_, ?_, ?_⟩
  · simp only [isCjk, isSpace, Bool.or_eq_true, Bool.and_eq_true, decide_eq_true_eq,
      Bool.or_eq_false_iff, Bool.and_eq_false_iff, decide_eq_false_iff_not, beq_eq_false_iff_ne,
      bne_iff_ne, ne_eq] at h ⊢
    omega
  · rintro rfl
    cases h
  · intro hmem
    have hnot : strayMarks.all (fun d => !isCjk d) = true := by decide
    have hc := List.all_eq_true.mp hnot c hmem
    rw [h] at hc
    cases hc

theorem plain_of_isAsciiWordChar {c : Char} (h : isAsciiWordChar c = true) : Plain c := by
  have hascii : ∀ n < 128, isAsciiWordChar (Char.ofNat n) = true →
      isSpace (Char.ofNat n) = false ∧ Char.ofNat n ≠ '<' ∧ Char.ofNat n ∉ strayMarks := by decide
  have hc := hascii c.toNat (toNat_lt_of_word h)
  rw [Char.ofNat_toNat] at hc
  exact hc h

/-- Tokens of one character each are plain characters. -/
theorem exists_chars_of_tokens {tokens : List Text} (htokens : ∀ t ∈ tokens, IsToken t)
    (hsingle : ∀ t ∈ tokens, t.length = 1) :
    ∃ chars : List Char, tokens = chars.map ([·]) ∧ ∀ c ∈ chars, Plain c := by
  induction tokens with
  | nil => exact ⟨[], rfl, fun _ hc => absurd hc List.not_mem_nil⟩
  | cons token rest ih =>
    obtain ⟨chars, rfl, hchars⟩ := ih (fun t ht => htokens t (List.mem_cons_of_mem _ ht))
      fun t ht => hsingle t (List.mem_cons_of_mem _ ht)
    obtain ⟨c, rfl⟩ := List.length_eq_one_iff.mp (hsingle token List.mem_cons_self)
    refine ⟨c :: chars, rfl, fun d hd => ?_⟩
    rcases List.mem_cons.mp hd with rfl | hd
    · rcases (htokens [d] List.mem_cons_self).2 with ⟨-, hcjk⟩ | hword
      · exact plain_of_isCjk (hcjk d List.mem_cons_self)
      · exact plain_of_isAsciiWordChar (hword d List.mem_cons_self)
    · exact hchars d hd

theorem filter_intersperse (h : ∀ c ∈ chars, isSpace c = false) :
    (chars.intersperse ' ').filter (· ≠ ' ') = chars := by
  induction chars with
  | nil => rfl
  | cons c rest ih =>
    have hc : c ≠ ' ' := by
      rintro rfl
      exact absurd (h ' ' List.mem_cons_self) (by decide)
    cases rest with
    | nil => exact List.filter_cons_of_pos (decide_eq_true hc)
    | cons d rest =>
      rw [List.intersperse_cons_cons, List.filter_cons_of_pos (by simpa using hc),
        List.filter_cons_of_neg (by simp), ih fun e he => h e (List.mem_cons_of_mem c he)]

/-- Compacting takes the spaces out of plain characters, and the tokens are the characters. -/
theorem textTokens_eq_map (h : ∀ c ∈ chars, isSpace c = false) :
    textTokens chars = chars.map ([·]) := by
  have hspaces : chars.filter (· ≠ ' ') = chars := by
    refine List.filter_eq_self.mpr fun c hc => decide_eq_true ?_
    rintro rfl
    exact absurd (h ' ' hc) (by decide)
  have hvisible : chars.filter (fun c => strip [c] ≠ []) = chars := by
    refine List.filter_eq_self.mpr fun c hc => decide_eq_true ?_
    rw [Ne, strip_eq_nil_iff]
    simp [h c hc]
  rw [textTokens, hspaces, hvisible]

/-- A token that is read off a text is a single character. -/
theorem length_getD_textTokens {text : Text} {i : ℕ} (hne : (textTokens text).getD i [] ≠ []) :
    ((textTokens text).getD i []).length = 1 := by
  rw [List.getD_eq_getElem?_getD] at hne ⊢
  cases hget : (textTokens text)[i]? with
  | none =>
    rw [hget] at hne
    exact absurd rfl hne
  | some token =>
    obtain ⟨c, -, rfl⟩ := List.mem_map.mp (List.mem_of_getElem? hget)
    rfl

theorem map_getD_range {α : Type*} (xs : List α) (default : α) :
    (List.range xs.length).map (fun i => xs.getD i default) = xs := by
  apply List.ext_getElem
  · simp
  · intro i _ hi
    simp [hi]

/-- The text of a response of plain characters is the characters with spaces between them. -/
theorem extractOnlineText_tokenResponse (str : Payload → Text) (h : ∀ c ∈ chars, Plain c)
    (times : List (ℚ × ℚ)) :
    extractOnlineText str (tokenResponse (chars.map ([·])) times) = chars.intersperse ' ' := by
  have hclean := cleanOnlineAsrText_intersperse h
  have hdict : extractOnlineText str (.dict [("text".toList, .text (join ' ' (chars.map ([·])))),
      ("timestamp".toList, .list (times.map fun p => .list [.number p.1, .number p.2]))]) =
      chars.intersperse ' ' := by
    rw [extractOnlineText, textsOfEntries, extractOnlineText, join_map_singleton, hclean]
    rw [textsOfEntries, textsOfEntries]
    generalize extractOnlineText str (.list _) = other
    have hfound (spaced : Text) : textKeys.map (fun key => (List.lookup key
        [("text".toList, spaced), ("timestamp".toList, other)]).getD []) =
        [spaced, [], [], []] := rfl
    rw [hfound]
    by_cases hnil : chars.intersperse ' ' = []
    · rw [hnil]
      rfl
    · rw [List.find?_cons_of_pos (by simpa using hnil), Option.getD_some]
  rw [tokenResponse, extractOnlineText, textsOfItems, hdict, textsOfItems]
  by_cases hnil : chars.intersperse ' ' = []
  · rw [hnil]
    rfl
  · rw [List.filter_cons_of_pos (by simpa using hnil), List.filter_nil, List.flatten_singleton,
      hclean]

end Characters

section Tokens

variable (str : Payload → Text)

theorem timestampItems_tokenResponse (tokens : List Text) (times : List (ℚ × ℚ)) :
    timestampItems (tokenResponse tokens times) =
      some (times.map fun p => .list [.number p.1, .number p.2]) := by
  cases times <;> rfl

/-- The token of a pair of times is the one at its index. -/
theorem globalTimestamps_text_of_pairs (rawText : Text)
    (startMs endMs paddedStartMs paddedEndMs : ℤ) (times : List (ℚ × ℚ)) :
    (globalTimestamps str rawText startMs endMs paddedStartMs paddedEndMs
        (times.map fun p => .list [.number p.1, .number p.2])).map TimedToken.text =
      (List.range times.length).map fun i => (textTokens rawText).getD i [] := by
  rw [globalTimestamps_text, List.zipIdx_map, List.filterMap_map]
  have hpairs : ((fun (entry : Payload × ℕ) => normalizedItem str
      ((textTokens rawText).getD entry.2 []) entry.1) ∘
        Prod.map (fun p : ℚ × ℚ => Payload.list [.number p.1, .number p.2]) id) =
      some ∘ fun p : (ℚ × ℚ) × ℕ =>
        (⟨(textTokens rawText).getD p.2 [], toIntMs p.1.1, toIntMs p.1.2⟩ : TimedToken) := rfl
  rw [hpairs, List.filterMap_eq_map, List.map_map, List.range_eq_range',
    ← List.zipIdx_map_snd 0 times, List.map_map]
  rfl

end Tokens

/-- The audio that `_decode_final_segment` gives to the model. -/
def Session.segmentAudio (settings : SessionSettings) (s : Session) (startMs endMs : ℤ) :
    List Sample :=
  s.audio.slice (finalStartSample settings.vadPrePaddingMs settings.sampleRate startMs)
    (min (msToSample settings.sampleRate
      (min (s.currentDurationMs settings) (endMs + settings.vadPostPaddingMs)))
      s.audio.totalSamples)

section Decode

variable (settings : SessionSettings) (models : Recognizers) (str : Payload → Text)
  (puncModel : Option (Text → Option Payload))

/-- The final model is asked about a segment and returns a response whose text is not rejected. -/
structure Returns (s : Session) (startMs endMs : ℤ) (result : Payload) : Prop where
  long : settings.sampleRate / 10 ≤ ((s.segmentAudio settings startMs endMs).length : ℤ)
  effective : models.hasEffectiveSpeechAudio (s.segmentAudio settings startMs endMs) = true
  answered : models.finalDecode s.calls (s.segmentAudio settings startMs endMs) =
    finalAnswer str puncModel result startMs endMs (max 0 (startMs - settings.vadPrePaddingMs))
      (min (s.currentDurationMs settings) (endMs + settings.vadPostPaddingMs))
  accepted : applyPunctuation str puncModel (rawTextOf str result) ≠ [] →
    models.hasAcceptableFinalText (applyPunctuation str puncModel (rawTextOf str result)) = true

variable {settings models str puncModel} {s : Session} {startMs endMs : ℤ}

/-- Then the record has the timestamps that are extracted from the response. -/
theorem Returns.record_eq {result : Payload} {items : List Payload}
    (h : Returns settings models str puncModel s startMs endMs result)
    (hitems : timestampItems result = some items) :
    let paddedStartMs := max 0 (startMs - settings.vadPrePaddingMs)
    let paddedEndMs := min (s.currentDurationMs settings) (endMs + settings.vadPostPaddingMs)
    (s.decodeFinalSegment settings models startMs endMs).1 =
      buildFinalResult (applyPunctuation str puncModel (rawTextOf str result))
        (rawTextOf str result)
        (globalTimestamps str (rawTextOf str result) startMs endMs paddedStartMs paddedEndMs items)
        startMs endMs paddedStartMs paddedEndMs := by
  dsimp only
  have hlong := h.long
  have heffective := h.effective
  have hanswered := h.answered
  unfold Session.segmentAudio at hlong heffective hanswered
  rw [Session.decodeFinalSegment_fst, Session.recordOf, if_neg (by omega),
    if_neg (by simp [heffective]), hanswered, finalAnswer, extractGlobalTimestamps, hitems]
  dsimp only [Option.map_some]
  rw [if_neg]
  rintro ⟨hne, hrejected⟩
  rw [h.accepted hne] at hrejected
  cases hrejected

/-- The tokens of a final sentence are those of the model exactly when each is a single
character. -/
theorem decodeFinalSegment_tokens_iff {tokens : List Text} {times : List (ℚ × ℚ)}
    (htokens : ∀ token ∈ tokens, IsToken token) (hlength : times.length = tokens.length)
    (hreturns : Returns settings models str puncModel s startMs endMs
      (tokenResponse tokens times)) :
    ((s.decodeFinalSegment settings models startMs endMs).1.timestamp.map TimedToken.text = tokens ∧
      (s.decodeFinalSegment settings models startMs endMs).1.tokens.map TimedToken.text = tokens) ↔
      ∀ token ∈ tokens, token.length = 1 := by
  have hrecord := hreturns.record_eq (timestampItems_tokenResponse tokens times)
  dsimp only at hrecord
  rw [hrecord]
  dsimp only [buildFinalResult]
  rw [and_self, globalTimestamps_text_of_pairs, hlength]
  constructor
  · intro heq token htoken
    have hne := (htokens token htoken).1
    rw [← heq] at htoken
    obtain ⟨i, -, rfl⟩ := List.mem_map.mp htoken
    exact length_getD_textTokens hne
  · intro hsingle
    obtain ⟨chars, rfl, hplain⟩ := exists_chars_of_tokens htokens hsingle
    have hspace : ∀ c ∈ chars, isSpace c = false := fun c hc => (hplain c hc).1
    rw [rawTextOf, extractOnlineText_tokenResponse str hplain, compactTokenText,
      filter_intersperse hspace, strip_eq_self hspace, textTokens_eq_map hspace,
      map_getD_range]

end Decode

/-- Two seconds of audio at ten samples per second. -/
def twoSecondSession : Session := (Session.fresh 0).appendAudioChunk (List.replicate 20 1)

/-- The scripted models, with a final model that returns the same response for everything that is
decoded as the first 900 ms. -/
def respondingModels (result : Payload) : Recognizers :=
  { scriptedModels with
    finalDecode := fun _ _ => finalAnswer (fun _ => []) none result 0 900 0 1000 }

theorem respondingModels_returns (result : Payload) :
    Returns slowSettings (respondingModels result) (fun _ => []) none twoSecondSession 0 900
      result :=
  ⟨by decide, rfl, rfl, fun _ => rfl⟩

/-- A text of Chinese characters and a letter. -/
theorem singleCharacters_tokens :
    ((twoSecondSession.decodeFinalSegment slowSettings
          (respondingModels (tokenResponse ["你".toList, "a".toList, "好".toList]
            [(0, 120), (120, 260), (260, 900)])) 0 900).1.timestamp.map TimedToken.text =
        ["你".toList, "a".toList, "好".toList] ∧
      (twoSecondSession.decodeFinalSegment slowSettings
          (respondingModels (tokenResponse ["你".toList, "a".toList, "好".toList]
            [(0, 120), (120, 260), (260, 900)])) 0 900).1.tokens.map TimedToken.text =
        ["你".toList, "a".toList, "好".toList]) :=
  (decodeFinalSegment_tokens_iff (by decide) rfl (respondingModels_returns _)).mpr (by decide)

/-- Of two tokens, the second gets the second letter of the first. -/
theorem asciiWord_tokens :
    (∀ token ∈ ["hello".toList, "世".toList], IsToken token) ∧
    (twoSecondSession.decodeFinalSegment slowSettings
        (respondingModels (tokenResponse ["hello".toList, "世".toList] [(0, 500), (500, 900)]))
        0 900).1.timestamp = [⟨"h".toList, 0, 500⟩, ⟨"e".toList, 500, 900⟩] ∧
    ¬ ((twoSecondSession.decodeFinalSegment slowSettings
          (respondingModels (tokenResponse ["hello".toList, "世".toList] [(0, 500), (500, 900)]))
          0 900).1.timestamp.map TimedToken.text = ["hello".toList, "世".toList] ∧
      (twoSecondSession.decodeFinalSegment slowSettings
          (respondingModels (tokenResponse ["hello".toList, "世".toList] [(0, 500), (500, 900)]))
          0 900).1.tokens.map TimedToken.text = ["hello".toList, "世".toList]) := by
  decide +kernel

end FunasrApi.Online
