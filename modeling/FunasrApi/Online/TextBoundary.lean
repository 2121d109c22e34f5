import FunasrApi.Core.PythonText
import Mathlib.Order.Bounds.Basic

/-!
# De-duplication at the seam of two segments

The padded windows of two neighbouring segments overlap, so the end of one
recognized text may be repeated at the start of the next. The longest repeated
piece is removed from the earlier text.
-/

namespace FunasrApi.Online

open FunasrApi.Core Text

/-- `BOUNDARY_PUNCTUATION`. -/
def boundaryPunctuation : Text :=
  ['，', '。', '！', '？', '；', '：', '、', ',', '.', '!', '?', ';', ':']

/-- `REPEAT_SEPARATORS`. -/
def repeatSeparators : Text := ['，', ',', '、']

/-- The loop of `split_trailing_punctuation`, on the reversed text: white space is stripped
before every look at the last character, and a mark moves over to the punctuation. -/
def peelPunctuation : Text → Text → Text × Text
  | [], punctuation => ([], punctuation)
  | c :: front, punctuation =>
    if isSpace c then peelPunctuation front punctuation
    else if c ∈ boundaryPunctuation then peelPunctuation front (c :: punctuation)
    else ((c :: front).reverse, punctuation)

/-- `split_trailing_punctuation`: the core of a text, and the marks at its end. -/
def splitTrailingPunctuation (text : Text) : Text × Text := peelPunctuation text.reverse []

/-- The characters of the tail that `split_trailing_punctuation` takes off. -/
def isTail (c : Char) : Bool := isSpace c || decide (c ∈ boundaryPunctuation)

/-- `phrase_for_repeat_match`. -/
def phraseForRepeatMatch (text : Text) : Text := strip (splitTrailingPunctuation (strip text)).1

/-- A single repeated character counts only across a short gap. -/
def OverlapAllowed (gapMs mergeGapMs : ℤ) (size : ℕ) : Prop := size = 1 → gapMs ≤ min 600 mergeGapMs

instance (gapMs mergeGapMs : ℤ) (size : ℕ) : Decidable (OverlapAllowed gapMs mergeGapMs size) :=
  inferInstanceAs (Decidable (_ → _))

/-- `previous_core[:-size].rstrip()`. -/
def trimmedCore (previousCore : Text) (size : ℕ) : Text :=
  rstrip (previousCore.take (previousCore.length - size))

/-- The loop of `remove_repeated_previous_suffix`, from the longest size on down. -/
def repeatedSuffixLoop (previousText previousCore previousPunctuation currentCore : Text)
    (gapMs mergeGapMs : ℤ) : ℕ → Text
  | 0 => previousText
  | n + 1 =>
    if OverlapAllowed gapMs mergeGapMs (n + 1) ∧ currentCore.take (n + 1) <:+ previousCore then
      let trimmed := trimmedCore previousCore (n + 1)
      if trimmed = [] then previousText else trimmed ++ previousPunctuation
    else
      repeatedSuffixLoop previousText previousCore previousPunctuation currentCore gapMs
        mergeGapMs n

/-- `remove_repeated_previous_suffix`. -/
def removeRepeatedPreviousSuffix (previousText currentText : Text) (gapMs mergeGapMs : ℤ) : Text :=
  let previous := splitTrailingPunctuation previousText
  let currentCore := lstrip currentText
  repeatedSuffixLoop previousText previous.1 previous.2 currentCore gapMs mergeGapMs
    (min 12 (min previous.1.length currentCore.length))

/-- One part of `collapse_adjacent_repeated_phrases`: dropped when it repeats the last kept one. -/
def collapsePart (collapsed : List Text) (part : Text) : List Text :=
  let normalized := phraseForRepeatMatch part
  let previous := match collapsed.getLast? with
    | some last => phraseForRepeatMatch last
    | none => []
  if normalized ≠ [] ∧ normalized = previous ∧ 1 ≤ normalized.length ∧ normalized.length ≤ 12 then
    collapsed
  else collapsed ++ [part]

/-- The body of its loop over the separators. -/
def collapseSeparator (current : Text) (separator : Char) : Text :=
  let parts := split separator current
  if parts.length < 2 then current else join separator (parts.foldl collapsePart [])

/-- `collapse_adjacent_repeated_phrases`. -/
def collapseAdjacentRepeatedPhrases (text : Text) : Text :=
  strip (repeatSeparators.foldl collapseSeparator text)

/-- `repair_previous_boundary_overlap`: the repaired previous text, and the current one. -/
def repairPreviousBoundaryOverlap (previousText : Text) (previousEndMs : ℤ) (currentText : Text)
    (currentStartMs mergeGapMs : ℤ) : Text × Text :=
  let currentText := strip currentText
  if currentText = [] then (previousText, currentText)
  else
    let gapMs := currentStartMs - previousEndMs
    if gapMs < 0 ∨ mergeGapMs < gapMs then (previousText, currentText)
    else (removeRepeatedPreviousSuffix previousText currentText gapMs mergeGapMs, currentText)

theorem isSpace_of_mem_boundaryPunctuation {c : Char} (h : c ∈ boundaryPunctuation) :
    isSpace c = false := by
  have hall : boundaryPunctuation.all (fun c => !isSpace c) = true := by decide
  simpa using List.all_eq_true.mp hall c h

/-- What is peeled off a reversed text. -/
theorem peelPunctuation_eq (front punctuation : Text) : peelPunctuation front punctuation =
    ((front.dropWhile isTail).reverse,
      ((front.takeWhile isTail).filter (· ∈ boundaryPunctuation)).reverse ++ punctuation) := by
  induction front generalizing punctuation with
  | nil => rfl
  | cons c front ih =>
    by_cases hspace : isSpace c = true
    · have hnot : c ∉ boundaryPunctuation := fun hmark => by
        simp [isSpace_of_mem_boundaryPunctuation hmark] at hspace
      have htail : isTail c = true := by simp [isTail, hspace]
      rw [peelPunctuation, if_pos hspace, ih, List.dropWhile_cons_of_pos htail,
        List.takeWhile_cons_of_pos htail, List.filter_cons_of_neg (by simpa using hnot)]
    · by_cases hmark : c ∈ boundaryPunctuation
      · have htail : isTail c = true := by simp [isTail, hmark]
        rw [peelPunctuation, if_neg hspace, if_pos hmark, ih, List.dropWhile_cons_of_pos htail,
          List.takeWhile_cons_of_pos htail, List.filter_cons_of_pos (by simpa using hmark),
          List.reverse_cons, List.append_assoc, List.singleton_append]
      · have hcore : ¬ isTail c = true := by simp [isTail, hspace, hmark]
        rw [peelPunctuation, if_neg hspace, if_neg hmark, List.dropWhile_cons_of_neg hcore,
          List.takeWhile_cons_of_neg hcore]
        rfl

/-- The core of a text is what is left without its tail, and the punctuation is the marks of the
tail. -/
theorem splitTrailingPunctuation_eq (text : Text) : splitTrailingPunctuation text =
    (text.rdropWhile isTail, (text.rtakeWhile isTail).filter (· ∈ boundaryPunctuation)) := by
  rw [splitTrailingPunctuation, peelPunctuation_eq, List.append_nil, List.rtakeWhile,
    List.filter_reverse]
  rfl

/-- The core and the marks of a text are not longer than the text. -/
theorem splitTrailingPunctuation_length_le (text : Text) :
    (splitTrailingPunctuation text).1.length + (splitTrailingPunctuation text).2.length ≤
      text.length := by
  have hmarks := List.length_filter_le (fun c => decide (c ∈ boundaryPunctuation))
    (text.rtakeWhile isTail)
  have htext := congrArg List.length (List.rdropWhile_append_rtakeWhile (l := text) (p := isTail))
  rw [List.length_append] at htext
  rw [splitTrailingPunctuation_eq]
  dsimp only
  omega

/-- The first `size` characters of the current text are repeated at the end of the previous
core, and the size is one that the seam repair looks at. -/
structure RepeatedPiece (previousText currentText : Text) (gapMs mergeGapMs : ℤ) (size : ℕ) :
    Prop where
  pos : 1 ≤ size
  le_max : size ≤ min 12
    (min (splitTrailingPunctuation previousText).1.length (lstrip currentText).length)
  allowed : OverlapAllowed gapMs mergeGapMs size
  repeated : (lstrip currentText).take size <:+ (splitTrailingPunctuation previousText).1

/-- The longest repeated piece is not the whole core of the previous text. -/
def RepeatsAtSeam (previousText currentText : Text) (gapMs mergeGapMs : ℤ) : Prop :=
  ∃ size, IsGreatest {n | RepeatedPiece previousText currentText gapMs mergeGapMs n} size ∧
    trimmedCore (splitTrailingPunctuation previousText).1 size ≠ []

/-- The loop cuts at the longest piece it meets, or leaves the text as it is. -/
theorem repeatedSuffixLoop_cases (previousText previousCore previousPunctuation currentCore : Text)
    (gapMs mergeGapMs : ℤ) (n : ℕ) :
    let found size := OverlapAllowed gapMs mergeGapMs size ∧ currentCore.take size <:+ previousCore
    let result := repeatedSuffixLoop previousText previousCore previousPunctuation currentCore
      gapMs mergeGapMs n
    ((∀ size, 1 ≤ size → size ≤ n → ¬ found size) ∧ result = previousText) ∨
    ∃ size, 1 ≤ size ∧ size ≤ n ∧ found size ∧ (∀ k, k ≤ n → found k → k ≤ size) ∧
      result = if trimmedCore previousCore size = [] then previousText
        else trimmedCore previousCore size ++ previousPunctuation := by
  intro found
  induction n with
  | zero =>
    left
    exact ⟨fun size h1 h0 => absurd h1 (by omega), rfl⟩
  | succ n ih =>
    intro result
    by_cases hf : found (n + 1)
    · right
      refine ⟨n + 1, by omega, le_rfl, hf, fun k hk _ => hk, ?_⟩
      exact if_pos hf
    · have hresult : result = repeatedSuffixLoop previousText previousCore previousPunctuation
          currentCore gapMs mergeGapMs n := if_neg hf
      rw [hresult]
      rcases ih with ⟨hnone, heq⟩ | ⟨size, h1, hn, hsize, hmax, heq⟩
      · left
        refine ⟨fun size h1 hle => ?_, heq⟩
        rcases Nat.lt_or_eq_of_le hle with hlt | rfl
        · exact hnone size h1 (by omega)
        · exact hf
      · right
        refine ⟨size, h1, by omega, hsize, fun k hk hfk => ?_, heq⟩
        rcases Nat.lt_or_eq_of_le hk with hlt | rfl
        · exact hmax k (by omega) hfk
        · exact absurd hfk hf

/-- The previous text is cut at the longest repeated piece, unless that is the whole core. -/
theorem removeRepeatedPreviousSuffix_cases (previousText currentText : Text)
    (gapMs mergeGapMs : ℤ) :
    let result := removeRepeatedPreviousSuffix previousText currentText gapMs mergeGapMs
    let previous := splitTrailingPunctuation previousText
    (result = previousText ∧ ¬ RepeatsAtSeam previousText currentText gapMs mergeGapMs) ∨
      ∃ size, IsGreatest {n | RepeatedPiece previousText currentText gapMs mergeGapMs n} size ∧
        trimmedCore previous.1 size ≠ [] ∧ result = trimmedCore previous.1 size ++ previous.2 := by
  intro result previous
  rcases repeatedSuffixLoop_cases previousText previous.1 previous.2 (lstrip currentText) gapMs
    mergeGapMs (min 12 (min previous.1.length (lstrip currentText).length)) with
    ⟨hnone, heq⟩ | ⟨size, h1, hn, hfound, hmax, heq⟩
  · left
    refine ⟨heq, ?_⟩
    rintro ⟨size, ⟨hpiece, -⟩, -⟩
    exact hnone size hpiece.pos hpiece.le_max ⟨hpiece.allowed, hpiece.repeated⟩
  · have hgreatest : IsGreatest
        {n | RepeatedPiece previousText currentText gapMs mergeGapMs n} size :=
      ⟨⟨h1, hn, hfound.1, hfound.2⟩, fun k hk => hmax k hk.le_max ⟨hk.allowed, hk.repeated⟩⟩
    by_cases htrim : trimmedCore previous.1 size = []
    · left
      rw [if_pos htrim] at heq
      refine ⟨heq, ?_⟩
      rintro ⟨size', hgreatest', hne⟩
      obtain rfl := hgreatest.unique hgreatest'
      exact hne htrim
    · right
      rw [if_neg htrim] at heq
      exact ⟨size, hgreatest, htrim, heq⟩

/-- The previous text changes exactly when a piece of it, and not its whole core, is repeated. -/
theorem removeRepeatedPreviousSuffix_ne_iff (previousText currentText : Text)
    (gapMs mergeGapMs : ℤ) :
    removeRepeatedPreviousSuffix previousText currentText gapMs mergeGapMs ≠ previousText ↔
      RepeatsAtSeam previousText currentText gapMs mergeGapMs := by
  rcases removeRepeatedPreviousSuffix_cases previousText currentText gapMs mergeGapMs with
    ⟨hsame, hnot⟩ | ⟨size, hgreatest, htrim, heq⟩
  · exact ⟨fun hne => absurd hsame hne, fun hrepeats => absurd hrepeats hnot⟩
  · refine ⟨fun _ => ⟨size, hgreatest, htrim⟩, fun _ hsame => ?_⟩
    -- the cut text is shorter by at least the repeated piece
    have htext := congrArg List.length (heq.symm.trans hsame)
    have hlen := splitTrailingPunctuation_length_le previousText
    have hshort := rstrip_length_le ((splitTrailingPunctuation previousText).1.take
      ((splitTrailingPunctuation previousText).1.length - size))
    have hpos := hgreatest.1.pos
    have hcore : size ≤ (splitTrailingPunctuation previousText).1.length :=
      hgreatest.1.le_max.trans ((min_le_right _ _).trans (min_le_left _ _))
    rw [List.length_append, trimmedCore] at htext
    rw [List.length_take] at hshort
    omega

/-- A repaired text is never empty when it changes. -/
theorem removeRepeatedPreviousSuffix_ne_nil {previousText currentText : Text}
    {gapMs mergeGapMs : ℤ}
    (h : removeRepeatedPreviousSuffix previousText currentText gapMs mergeGapMs ≠ previousText) :
    removeRepeatedPreviousSuffix previousText currentText gapMs mergeGapMs ≠ [] := by
  rcases removeRepeatedPreviousSuffix_cases previousText currentText gapMs mergeGapMs with
    ⟨hsame, -⟩ | ⟨size, -, htrim, heq⟩
  · exact absurd hsame h
  · rw [heq]
    exact List.append_ne_nil_of_left_ne_nil htrim _

section Repair

variable (previousText : Text) (previousEndMs : ℤ) (currentText : Text)
  (currentStartMs mergeGapMs : ℤ)

/-- The current text is stripped. -/
theorem repairPreviousBoundaryOverlap_snd :
    (repairPreviousBoundaryOverlap previousText previousEndMs currentText currentStartMs
      mergeGapMs).2 = strip currentText := by
  unfold repairPreviousBoundaryOverlap
  dsimp only
  split
  · rfl
  · split <;> rfl

/-- The earlier text is repaired where there is a current text and the gap is not too long. -/
theorem repairPreviousBoundaryOverlap_fst :
    (repairPreviousBoundaryOverlap previousText previousEndMs currentText currentStartMs
      mergeGapMs).1 =
        if strip currentText = [] ∨ currentStartMs - previousEndMs < 0 ∨
            mergeGapMs < currentStartMs - previousEndMs then previousText
        else removeRepeatedPreviousSuffix previousText (strip currentText)
          (currentStartMs - previousEndMs) mergeGapMs := by
  unfold repairPreviousBoundaryOverlap
  dsimp only
  by_cases hblank : strip currentText = []
  · rw [if_pos hblank, if_pos (Or.inl hblank)]
  · by_cases hgap : currentStartMs - previousEndMs < 0 ∨
        mergeGapMs < currentStartMs - previousEndMs
    · rw [if_neg hblank, if_pos hgap, if_pos (Or.inr hgap)]
    · rw [if_neg hblank, if_neg hgap, if_neg (not_or.mpr ⟨hblank, hgap⟩)]

end Repair

section Speech

/-- What is said in a text: its characters without white space and boundary punctuation. -/
def speech (t : Text) : Text := (withoutSpace t).filter (· ∉ boundaryPunctuation)

@[simp] theorem speech_append (u v : Text) : speech (u ++ v) = speech u ++ speech v := by
  rw [speech, withoutSpace_append, List.filter_append]
  rfl

theorem speech_prefix {u v : Text} (h : u <+: v) : speech u <+: speech v :=
  (h.filter _).filter _

@[simp] theorem speech_lstrip (t : Text) : speech (lstrip t) = speech t := by
  rw [speech, withoutSpace_lstrip, speech]

@[simp] theorem speech_strip (t : Text) : speech (strip t) = speech t := by
  rw [speech, withoutSpace_strip, speech]

end Speech

end FunasrApi.Online
