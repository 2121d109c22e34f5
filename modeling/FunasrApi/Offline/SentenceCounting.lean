import FunasrApi.Offline.SentenceBuilder

/-!
# Sentences by counted characters

The builder counts the characters of each sentence to find its timestamps. Its end
index is one past the last character, and the next sentence begins one later still,
so that with every sentence the times are read one item further on.
-/

namespace FunasrApi.Offline

open FunasrApi.Core Text

/-- The `sentence_chars`, those that have a timestamp. -/
def sentenceChars (sentence : Text) : Text := sentence.filter fun c => !stripChars.contains c

/-- How many such characters there are before a sentence. -/
def charsBefore (sentences : List Text) (k : ℕ) : ℕ :=
  ((sentences.take k).flatMap sentenceChars).length

/-- One entry for each sentence, from the start of its first character to the end of its last
one. -/
structure KeepsSentences (sentences : List Text) (timestamps : List Stamp)
    (info : List TimedSentence) : Prop where
  texts : info.map TimedSentence.text = sentences.map strip
  starts : ∀ k < sentences.length, info[k]?.map TimedSentence.startMs =
    timestamps[charsBefore sentences k]?.map Stamp.startMs
  ends : ∀ k < sentences.length, info[k]?.map TimedSentence.endMs =
    timestamps[charsBefore sentences (k + 1) - 1]?.map Stamp.endMs

/-- Reading as many items late as there are sentences before stays among the timestamps, and
reads the same times. -/
def LateReadsAgree (sentences : List Text) (timestamps : List Stamp) : Prop :=
  ∀ k < sentences.length,
    charsBefore sentences k + k < timestamps.length ∧
    timestamps[charsBefore sentences k + k]?.map Stamp.startMs =
      timestamps[charsBefore sentences k]?.map Stamp.startMs ∧
    timestamps[min (charsBefore sentences (k + 1) + k) (timestamps.length - 1)]?.map Stamp.endMs =
      timestamps[charsBefore sentences (k + 1) - 1]?.map Stamp.endMs

variable {timestamps : List Stamp} {sentences : List Text}

@[simp] theorem charsBefore_zero (sentences : List Text) : charsBefore sentences 0 = 0 := rfl

theorem charsBefore_cons_succ (sentence : Text) (sentences : List Text) (k : ℕ) :
    charsBefore (sentence :: sentences) (k + 1) =
      (sentenceChars sentence).length + charsBefore sentences k := by
  simp [charsBefore]

theorem charsBefore_succ {k : ℕ} (hk : k < sentences.length) :
    charsBefore sentences (k + 1) =
      charsBefore sentences k + (sentenceChars sentences[k]).length := by
  rw [charsBefore, List.take_succ_eq_append_getElem hk, List.flatMap_append, List.length_append]
  simp [charsBefore]

theorem charsBefore_mono (sentences : List Text) : Monotone (charsBefore sentences) := by
  refine monotone_nat_of_le_succ fun k => ?_
  by_cases hk : k < sentences.length
  · rw [charsBefore_succ hk]
    exact Nat.le_add_right _ _
  · rw [charsBefore, charsBefore, List.take_of_length_le (by omega),
      List.take_of_length_le (by omega)]

theorem isSpace_of_isSentenceEnd {c : Char} (h : isSentenceEnd c = true) : isSpace c = false := by
  have hmem : c ∈ ['。', '！', '？'] := List.contains_iff_mem.mp h
  simp only [List.mem_cons, List.not_mem_nil, or_false] at hmem
  rcases hmem with rfl | rfl | rfl <;> decide

/-- No sentence is blank: it ends with a mark, or it is a rest that is not blank. -/
theorem strip_ne_nil_of_mem_completeSentencesFrom {current text : Text} :
    ∀ sentence ∈ completeSentencesFrom current text, strip sentence ≠ [] := by
  induction text generalizing current with
  | nil =>
    intro sentence hmem
    rw [completeSentencesFrom] at hmem
    split at hmem
    · next hvisible =>
      rw [List.mem_singleton.mp hmem]
      exact hvisible
    · cases hmem
  | cons c rest ih =>
    intro sentence hmem
    rw [completeSentencesFrom] at hmem
    split at hmem
    · next hend =>
      rcases List.mem_cons.mp hmem with rfl | hrest
      · intro hnil
        have hspace := strip_eq_nil_iff.mp hnil c (by simp)
        rw [isSpace_of_isSentenceEnd hend] at hspace
        cases hspace
      · exact ih sentence hrest
    · exact ih sentence hmem

/-- The entry of a sentence that begins at an index. -/
def sentenceAt (timestamps : List Stamp) (wordIndex : ℕ) (sentence : Text) :
    Option TimedSentence :=
  timestamps[wordIndex]?.map fun first =>
    ⟨strip sentence, first.startMs,
      (timestamps.getD (min (wordIndex + (sentenceChars sentence).length)
        (timestamps.length - 1)) first).endMs⟩

theorem sentenceAt_of_length_le {wordIndex : ℕ} (h : timestamps.length ≤ wordIndex)
    (sentence : Text) : sentenceAt timestamps wordIndex sentence = none := by
  rw [sentenceAt, List.getElem?_eq_none h, Option.map_none]

theorem sentenceAt_of_lt {wordIndex : ℕ} (h : wordIndex < timestamps.length) (sentence : Text) :
    (sentenceAt timestamps wordIndex sentence).map TimedSentence.text = some (strip sentence) ∧
      (sentenceAt timestamps wordIndex sentence).map TimedSentence.startMs =
        timestamps[wordIndex]?.map Stamp.startMs ∧
      (sentenceAt timestamps wordIndex sentence).map TimedSentence.endMs =
        timestamps[min (wordIndex + (sentenceChars sentence).length)
          (timestamps.length - 1)]?.map Stamp.endMs := by
  have hlast : min (wordIndex + (sentenceChars sentence).length) (timestamps.length - 1) <
      timestamps.length := by omega
  rw [sentenceAt, List.getElem?_eq_getElem h, Option.map_some, List.getD_eq_getElem?_getD,
    List.getElem?_eq_getElem hlast]
  exact ⟨rfl, rfl, rfl⟩

/-- Past the last timestamp all sentences are dropped. -/
theorem sentencesFromTimestamps_of_length_le {wordIndex : ℕ}
    (h : timestamps.length ≤ wordIndex) :
    sentencesFromTimestamps timestamps wordIndex sentences = [] := by
  induction sentences with
  | nil => rfl
  | cons sentence rest ih =>
    rw [sentencesFromTimestamps, List.getElem?_eq_none h]
    exact ih

theorem sentencesFromTimestamps_cons {wordIndex : ℕ} {sentence : Text} {rest : List Text}
    (hvisible : strip sentence ≠ []) (hindex : wordIndex < timestamps.length) :
    sentencesFromTimestamps timestamps wordIndex (sentence :: rest) =
      (sentenceAt timestamps wordIndex sentence).toList ++
        sentencesFromTimestamps timestamps
          (min (wordIndex + (sentenceChars sentence).length) (timestamps.length - 1) + 1) rest := by
  rw [sentencesFromTimestamps, sentenceAt, List.getElem?_eq_getElem hindex]
  dsimp only
  rw [if_neg hvisible]
  rfl

/-- With `k` sentences before it, a sentence is read `k` items late. -/
theorem sentencesFromTimestamps_getElem? (timestamps : List Stamp)
    (hvisible : ∀ sentence ∈ sentences, strip sentence ≠ []) (wordIndex k : ℕ) :
    (sentencesFromTimestamps timestamps wordIndex sentences)[k]? =
      sentences[k]?.bind (sentenceAt timestamps (wordIndex + charsBefore sentences k + k)) := by
  induction sentences generalizing wordIndex k with
  | nil => simp [sentencesFromTimestamps]
  | cons sentence rest ih =>
    by_cases hindex : wordIndex < timestamps.length
    · rw [sentencesFromTimestamps_cons (hvisible sentence List.mem_cons_self) hindex, sentenceAt,
        List.getElem?_eq_getElem hindex, Option.map_some, Option.toList_some, List.singleton_append]
      cases k with
      | zero => simp [sentenceAt, List.getElem?_eq_getElem hindex]
      | succ k =>
        rw [List.getElem?_cons_succ, List.getElem?_cons_succ,
          ih (fun s hs => hvisible s (List.mem_cons_of_mem _ hs)), charsBefore_cons_succ]
        congr 1
        funext later
        by_cases hinside : wordIndex + (sentenceChars sentence).length < timestamps.length
        · rw [Nat.min_eq_left (by omega)]
          congr 1
          omega
        · rw [sentenceAt_of_length_le (by omega), sentenceAt_of_length_le (by omega)]
    · rw [sentencesFromTimestamps_of_length_le (by omega), List.getElem?_nil]
      cases (sentence :: rest)[k]? with
      | none => rfl
      | some later => exact (sentenceAt_of_length_le (by omega) later).symm

theorem sentencesFromTimestamps_length_le (wordIndex : ℕ) :
    (sentencesFromTimestamps timestamps wordIndex sentences).length ≤ sentences.length := by
  induction sentences generalizing wordIndex with
  | nil => exact le_rfl
  | cons sentence rest ih =>
    rw [sentencesFromTimestamps]
    split
    · exact (ih _).trans (Nat.le_succ _)
    · split
      · exact (ih _).trans (Nat.le_succ _)
      · exact Nat.succ_le_succ (ih _)

/-- The sentences keep their times exactly when the late reads agree with them. -/
theorem buildSentenceInfoFromTimestamps_keeps_iff (text : Text) (timestamps : List Stamp) :
    KeepsSentences (completeSentences text) timestamps
        (buildSentenceInfoFromTimestamps text timestamps) ↔
      LateReadsAgree (completeSentences text) timestamps := by
  set sentences := completeSentences text with hsentences
  set info := buildSentenceInfoFromTimestamps text timestamps
  have hvisible : ∀ sentence ∈ sentences, strip sentence ≠ [] :=
    strip_ne_nil_of_mem_completeSentencesFrom
  have hentry (k : ℕ) (hk : k < sentences.length) :
      info[k]? = sentenceAt timestamps (charsBefore sentences k + k) sentences[k] := by
    have hget := sentencesFromTimestamps_getElem? timestamps hvisible 0 k
    rwa [List.getElem?_eq_getElem hk, Nat.zero_add] at hget
  have hread (k : ℕ) (hk : k < sentences.length)
      (hlt : charsBefore sentences k + k < timestamps.length) :
      info[k]?.map TimedSentence.text = some (strip sentences[k]) ∧
        info[k]?.map TimedSentence.startMs =
          timestamps[charsBefore sentences k + k]?.map Stamp.startMs ∧
        info[k]?.map TimedSentence.endMs =
          timestamps[min (charsBefore sentences (k + 1) + k) (timestamps.length - 1)]?.map
            Stamp.endMs := by
    rw [hentry k hk, charsBefore_succ hk, Nat.add_right_comm]
    exact sentenceAt_of_lt hlt _
  constructor
  · intro hkeeps k hk
    have hlength : info.length = sentences.length := by
      simpa using congrArg List.length hkeeps.texts
    have hlt : charsBefore sentences k + k < timestamps.length := by
      by_contra hge
      have hnone := hentry k hk
      rw [sentenceAt_of_length_le (by omega), List.getElem?_eq_getElem (by omega)] at hnone
      cases hnone
    obtain ⟨-, hstart, hend⟩ := hread k hk hlt
    exact ⟨hlt, hstart.symm.trans (hkeeps.starts k hk), hend.symm.trans (hkeeps.ends k hk)⟩
  · intro hagree
    refine ⟨List.ext_getElem? fun k => ?_, fun k hk => ?_, fun k hk => ?_⟩
    · rw [List.getElem?_map, List.getElem?_map]
      by_cases hk : k < sentences.length
      · rw [(hread k hk (hagree k hk).1).1, List.getElem?_eq_getElem hk, Option.map_some]
      · have hle : info.length ≤ sentences.length := sentencesFromTimestamps_length_le 0
        rw [List.getElem?_eq_none (by omega), List.getElem?_eq_none (by omega)]
        rfl
    · obtain ⟨hlt, hstart, -⟩ := hagree k hk
      exact (hread k hk hlt).2.1.trans hstart
    · obtain ⟨hlt, -, hend⟩ := hagree k hk
      exact (hread k hk hlt).2.2.trans hend

/-- Only a single sentence is read in time, when no two timestamps end together. -/
theorem lateReadsAgree_iff_of_nodup (hchars : ∀ sentence ∈ sentences, sentenceChars sentence ≠ [])
    (hcount : timestamps.length = (sentences.flatMap sentenceChars).length)
    (hends : (timestamps.map Stamp.endMs).Nodup) :
    LateReadsAgree sentences timestamps ↔ sentences.length ≤ 1 := by
  have htotal : charsBefore sentences sentences.length = timestamps.length := by
    rw [charsBefore, List.take_length, hcount]
  have hpos (k : ℕ) (hk : k < sentences.length) :
      charsBefore sentences k < charsBefore sentences (k + 1) := by
    rw [charsBefore_succ hk]
    have := List.length_pos_iff.mpr (hchars _ (List.getElem_mem hk))
    omega
  constructor
  · intro hagree
    by_contra hmany
    have hfirst : 0 < charsBefore sentences 1 := hpos 0 (by omega)
    have hsecond : charsBefore sentences 1 < charsBefore sentences 2 := hpos 1 (by omega)
    have hle := charsBefore_mono sentences (by omega : 2 ≤ sentences.length)
    obtain ⟨-, -, hend⟩ := hagree 0 (by omega)
    rw [Nat.zero_add, Nat.add_zero, Nat.min_eq_left (by omega), ← List.getElem?_map,
      ← List.getElem?_map] at hend
    have hsame := (List.getElem?_inj (by rw [List.length_map]; omega) hends).mp hend
    omega
  · intro hone k hk
    obtain rfl : k = 0 := by omega
    have hfirst : 0 < charsBefore sentences 1 := hpos 0 hk
    have hlast : charsBefore sentences 1 = timestamps.length := by
      rw [← htotal]
      congr 1
      omega
    refine ⟨by rw [charsBefore_zero]; omega, rfl, ?_⟩
    rw [Nat.zero_add, Nat.add_zero, hlast, Nat.min_eq_right (Nat.sub_le _ _)]

/-- With a timestamp for each counted character, the builder keeps the times of the sentences
exactly when the late reads agree with them: when no two timestamps end together, for a single
sentence only. -/
theorem buildSentenceInfoFromTimestamps_keepsSentences_iff (text : Text) (timestamps : List Stamp)
    (hchars : ∀ sentence ∈ completeSentences text, sentenceChars sentence ≠ [])
    (hcount : timestamps.length = ((completeSentences text).flatMap sentenceChars).length) :
    (KeepsSentences (completeSentences text) timestamps
        (buildSentenceInfoFromTimestamps text timestamps) ↔
      LateReadsAgree (completeSentences text) timestamps) ∧
    ((timestamps.map Stamp.endMs).Nodup →
      (LateReadsAgree (completeSentences text) timestamps ↔ (completeSentences text).length ≤ 1)) :=
  ⟨buildSentenceInfoFromTimestamps_keeps_iff text timestamps,
    lateReadsAgree_iff_of_nodup hchars hcount⟩

instance (sentences : List Text) (timestamps : List Stamp) (info : List TimedSentence) :
    Decidable (KeepsSentences sentences timestamps info) :=
  decidable_of_iff
    (info.map TimedSentence.text = sentences.map strip ∧
      (∀ k < sentences.length, info[k]?.map TimedSentence.startMs =
        timestamps[charsBefore sentences k]?.map Stamp.startMs) ∧
      ∀ k < sentences.length, info[k]?.map TimedSentence.endMs =
        timestamps[charsBefore sentences (k + 1) - 1]?.map Stamp.endMs)
    ⟨fun ⟨htexts, hstarts, hends⟩ => ⟨htexts, hstarts, hends⟩,
      fun h => ⟨h.texts, h.starts, h.ends⟩⟩

/-- The timestamps of so many characters, a tenth of a second each. -/
def evenStamps (count : ℕ) : List Stamp :=
  (List.range count).map fun i => ⟨[], 100 * i, 100 * i + 100⟩

/-- A single sentence keeps its times. -/
theorem singleSentence_keepsSentences :
    KeepsSentences ["你好，世界。".toList] (evenStamps 4)
      (buildSentenceInfoFromTimestamps "你好，世界。".toList (evenStamps 4)) := by
  obtain ⟨hiff, hsingle⟩ := buildSentenceInfoFromTimestamps_keepsSentences_iff "你好，世界。".toList
    (evenStamps 4) (by decide +kernel) (by decide +kernel)
  exact hiff.mpr ((hsingle (by decide +kernel)).mpr (by decide +kernel))

/-- Of two sentences the first ends, and the second begins, one character late. One of a single
character is dropped. -/
theorem secondSentence_late :
    ((∀ sentence ∈ completeSentences "你好。再见。".toList, sentenceChars sentence ≠ []) ∧
      (evenStamps 4).length =
        ((completeSentences "你好。再见。".toList).flatMap sentenceChars).length ∧
      buildSentenceInfoFromTimestamps "你好。再见。".toList (evenStamps 4) =
        [⟨"你好。".toList, 0, 300⟩, ⟨"再见。".toList, 300, 400⟩] ∧
      ¬ KeepsSentences (completeSentences "你好。再见。".toList) (evenStamps 4)
        (buildSentenceInfoFromTimestamps "你好。再见。".toList (evenStamps 4))) ∧
    buildSentenceInfoFromTimestamps "你好。好！".toList (evenStamps 3) =
      [⟨"你好。".toList, 0, 300⟩] := by
  decide +kernel

end FunasrApi.Offline
