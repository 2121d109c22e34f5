import FunasrApi.Online.LockedSentences

/-!
# What the repair of a seam takes away

The earlier text of a seam is cut before the longest piece, of at most twelve characters,
that the current text begins with; its marks stay at its end. So nothing is lost that is not
said again, and a text is never cut away whole. Over a whole run, what is said in the locked
sentences only grows at its end.
-/

namespace FunasrApi.Online

open FunasrApi.Core Text

/-- The core of the earlier text is cut before a piece that the current text begins with, the
longest of those that are looked for. -/
structure CutBefore (previousText currentText : Text) (gapMs mergeGapMs : ℤ)
    (kept space piece : Text) : Prop where
  core : (splitTrailingPunctuation previousText).1 = kept ++ space ++ piece
  blank : ∀ c ∈ space, isSpace c = true
  repeated : piece <+: lstrip currentText
  pos : 1 ≤ piece.length
  short : piece.length ≤ 12
  longest : ∀ longer, longer <+: lstrip currentText →
    longer <:+ (splitTrailingPunctuation previousText).1 → longer.length ≤ 12 →
    longer.length ≤ piece.length
  single : piece.length = 1 → gapMs ≤ min 600 mergeGapMs
  kept_ne_nil : kept ≠ []
  kept_stripped : rstrip kept = kept

section Cut

variable {previousText currentText : Text} {gapMs mergeGapMs : ℤ}

/-- A text is what is left of it without the white space at its end, and that. -/
theorem exists_eq_rstrip_append (t : Text) :
    ∃ space, t = rstrip t ++ space ∧ ∀ c ∈ space, isSpace c = true :=
  ⟨t.rtakeWhile isSpace, List.rdropWhile_append_rtakeWhile.symm,
    fun _ hc => List.mem_rtakeWhile_imp hc⟩

/-- A prefix of the current text at the end of the core is a piece that is looked for, unless it
is a single character across a longer gap. -/
theorem repeatedPiece_of_prefix {piece : Text} (hbegins : piece <+: lstrip currentText)
    (hsuffix : piece <:+ (splitTrailingPunctuation previousText).1) (hpos : 1 ≤ piece.length)
    (hshort : piece.length ≤ 12) (hallowed : OverlapAllowed gapMs mergeGapMs piece.length) :
    RepeatedPiece previousText currentText gapMs mergeGapMs piece.length where
  pos := hpos
  le_max := le_min hshort (le_min hsuffix.length_le hbegins.length_le)
  allowed := hallowed
  repeated := List.prefix_iff_eq_take.mp hbegins ▸ hsuffix

/-- The longest repeated piece is cut off with the white space before it. -/
theorem cutBefore_of_isGreatest {size : ℕ}
    (h : IsGreatest {n | RepeatedPiece previousText currentText gapMs mergeGapMs n} size)
    (htrimmed : trimmedCore (splitTrailingPunctuation previousText).1 size ≠ []) :
    ∃ space, CutBefore previousText currentText gapMs mergeGapMs
      (trimmedCore (splitTrailingPunctuation previousText).1 size) space
      ((lstrip currentText).take size) := by
  obtain ⟨hpiece, hgreatest⟩ := h
  have hmax := hpiece.le_max
  have hpos := hpiece.pos
  have hlength : ((lstrip currentText).take size).length = size := by
    rw [List.length_take]
    omega
  obtain ⟨front, hfront⟩ := hpiece.repeated
  have htake : (splitTrailingPunctuation previousText).1.take
      ((splitTrailingPunctuation previousText).1.length - size) = front := by
    rw [← hfront, List.length_append, hlength, Nat.add_sub_cancel, List.take_left]
  obtain ⟨space, hspace, hblank⟩ := exists_eq_rstrip_append front
  refine ⟨space, ?_⟩
  constructor
  · rw [trimmedCore, htake, ← hspace, hfront]
  · exact hblank
  · exact List.take_prefix ..
  · exact hlength.symm ▸ hpos
  · rw [hlength]
    omega
  · intro longer hbegins hsuffix hshort
    rw [hlength]
    by_contra hlt
    have hlonger : RepeatedPiece previousText currentText gapMs mergeGapMs longer.length :=
      repeatedPiece_of_prefix hbegins hsuffix (by omega) hshort fun hone => by omega
    exact hlt (hgreatest hlonger)
  · exact hlength.symm ▸ hpiece.allowed
  · exact htrimmed
  · exact List.rdropWhile_idempotent isSpace _

/-- A repair takes a duplicate away or nothing, and never the whole text. -/
theorem removeRepeatedPreviousSuffix_removes_duplicate (previousText currentText : Text)
    (gapMs mergeGapMs : ℤ) :
    (removeRepeatedPreviousSuffix previousText currentText gapMs mergeGapMs = previousText ∨
      ∃ kept space piece, CutBefore previousText currentText gapMs mergeGapMs kept space piece ∧
        removeRepeatedPreviousSuffix previousText currentText gapMs mergeGapMs =
          kept ++ (splitTrailingPunctuation previousText).2) ∧
      (previousText ≠ [] →
        removeRepeatedPreviousSuffix previousText currentText gapMs mergeGapMs ≠ []) := by
  constructor
  · rcases removeRepeatedPreviousSuffix_cases previousText currentText gapMs mergeGapMs with
      ⟨hsame, -⟩ | ⟨size, hgreatest, htrim, heq⟩
    · exact Or.inl hsame
    · obtain ⟨space, hcut⟩ := cutBefore_of_isGreatest hgreatest htrim
      exact Or.inr ⟨_, space, _, hcut, heq⟩
  · intro hne hnil
    by_cases hsame :
        removeRepeatedPreviousSuffix previousText currentText gapMs mergeGapMs = previousText
    · exact hne (hsame.symm.trans hnil)
    · exact removeRepeatedPreviousSuffix_ne_nil hsame hnil

example : removeRepeatedPreviousSuffix "你好你好。".toList "你好".toList 200 500 =
    "你好。".toList := by decide

end Cut

section Speech

/-- Nothing is said in a tail. -/
theorem speech_eq_nil {t : Text} (h : ∀ c ∈ t, isTail c = true) : speech t = [] := by
  rw [speech, List.filter_eq_nil_iff]
  intro c hc
  obtain ⟨hmem, hvisible⟩ := List.mem_filter.mp hc
  rcases Bool.or_eq_true_iff.mp (h c hmem) with hspace | hmark
  · simp [hspace] at hvisible
  · simpa using hmark

/-- All that is said in a text is in its core. -/
theorem speech_splitTrailingPunctuation (text : Text) :
    speech (splitTrailingPunctuation text).1 = speech text ∧
      speech (splitTrailingPunctuation text).2 = [] := by
  have htail : ∀ c ∈ text.rtakeWhile isTail, isTail c = true := fun _ => List.mem_rtakeWhile_imp
  rw [splitTrailingPunctuation_eq]
  constructor
  · conv_rhs => rw [← List.rdropWhile_append_rtakeWhile (l := text) (p := isTail), speech_append,
      speech_eq_nil htail, List.append_nil]
  · exact speech_eq_nil fun c hc => htail c (List.mem_of_mem_filter hc)

/-- What a repair takes away is said again at the beginning of the current text. -/
theorem speech_removeRepeatedPreviousSuffix (previousText currentText : Text)
    (gapMs mergeGapMs : ℤ) :
    ∃ piece, piece <+: speech currentText ∧ speech previousText =
      speech (removeRepeatedPreviousSuffix previousText currentText gapMs mergeGapMs) ++ piece := by
  rcases removeRepeatedPreviousSuffix_cases previousText currentText gapMs mergeGapMs with
    ⟨hsame, -⟩ | ⟨size, hgreatest, htrim, heq⟩
  · exact ⟨[], List.nil_prefix, by rw [hsame, List.append_nil]⟩
  · obtain ⟨space, hcut⟩ := cutBefore_of_isGreatest hgreatest htrim
    obtain ⟨hcore, hmarks⟩ := speech_splitTrailingPunctuation previousText
    have hspace : speech space = [] := speech_eq_nil fun c hc => by
      simp [isTail, hcut.blank c hc]
    have hsaid := congrArg speech hcut.core
    rw [hcore, speech_append, speech_append, hspace, List.append_nil] at hsaid
    refine ⟨speech ((lstrip currentText).take size), ?_, ?_⟩
    · rw [← speech_lstrip currentText]
      exact speech_prefix hcut.repeated
    · rw [heq, speech_append, hmarks, List.append_nil, hsaid]

/-- So no repair of a seam takes away what is not said again. -/
theorem speech_repairPreviousBoundaryOverlap (previousText : Text) (previousEndMs : ℤ)
    (currentText : Text) (currentStartMs mergeGapMs : ℤ) :
    let repaired := repairPreviousBoundaryOverlap previousText previousEndMs currentText
      currentStartMs mergeGapMs
    ∃ piece, piece <+: speech repaired.2 ∧ speech previousText = speech repaired.1 ++ piece := by
  dsimp only
  rw [repairPreviousBoundaryOverlap_fst, repairPreviousBoundaryOverlap_snd]
  split
  · exact ⟨[], List.nil_prefix, (List.append_nil _).symm⟩
  · exact speech_removeRepeatedPreviousSuffix ..

/-- The rewrite of a locked sentence takes nothing else away. -/
theorem speech_repairPrevious (segmentMergeGapMs : ℤ) (currentText : Text) (startMs : ℤ)
    (previous : LockedSentence) :
    ∃ piece, piece <+: speech currentText ∧ speech previous.text =
      speech (repairPrevious segmentMergeGapMs currentText startMs previous).text ++ piece := by
  unfold repairPrevious
  dsimp only
  split
  · obtain ⟨piece, hbegins, hspeech⟩ := speech_repairPreviousBoundaryOverlap previous.text
      previous.endMs currentText startMs segmentMergeGapMs
    rw [repairPreviousBoundaryOverlap_snd, speech_strip] at hbegins
    exact ⟨piece, hbegins, hspeech⟩
  · exact ⟨[], List.nil_prefix, (List.append_nil _).symm⟩

/-- What is said in the locked sentences. -/
def Transcript.said (t : Transcript) : Text := t.lockedSentences.flatMap fun s => speech s.text

/-- A lock takes nothing away of what has been said. -/
theorem Transcript.said_appendLockedSentence (segmentMergeGapMs : ℤ) (t : Transcript)
    (finalResult : FinalResult) (startMs endMs : ℤ) (source : Option LockSource) :
    t.said <+:
      (t.appendLockedSentence segmentMergeGapMs finalResult startMs endMs source).1.said := by
  unfold appendLockedSentence
  cases buildLockedSentence finalResult startMs endMs source with
  | none => exact List.prefix_refl _
  | some sentence =>
    dsimp only
    split
    · exact List.prefix_refl _
    · unfold said
      dsimp only
      rcases List.eq_nil_or_concat' t.lockedSentences with hnil | ⟨front, last, hlast⟩
      · rw [hnil]
        exact List.nil_prefix
      · obtain ⟨piece, hbegins, hspeech⟩ := speech_repairPrevious segmentMergeGapMs
          (strip sentence.text) startMs last
        rw [hlast, List.modifyLast_concat]
        simp only [List.flatMap_append, List.flatMap_singleton, List.append_assoc, hspeech]
        exact (List.prefix_append_right_inj _).mpr ((List.prefix_append_right_inj _).mpr hbegins)

end Speech

end FunasrApi.Online
