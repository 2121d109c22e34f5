import FunasrApi.Online.TextBoundary

/-!
# Phrases and the pieces of a text

The phrase by which repetitions are found does not depend on white space and on marks
at the end, so the phrase of a text ends in the phrase of one of the pieces that the
separators cut it into. When no phrase stands on both sides of a separator, it does not
either in what is left of the pieces.
-/

namespace FunasrApi.Online

open FunasrApi.Core Text

/-- Two parts have the same short phrase. -/
def SamePhrase (part next : Text) : Prop :=
  phraseForRepeatMatch part ≠ [] ∧ phraseForRepeatMatch part = phraseForRepeatMatch next ∧
    (phraseForRepeatMatch part).length ≤ 12

instance (part next : Text) : Decidable (SamePhrase part next) :=
  inferInstanceAs (Decidable (_ ∧ _))

section Phrases

theorem isTail_separator {separator : Char} (h : separator ∈ repeatSeparators) :
    isTail separator = true := by
  have hall : repeatSeparators.all isTail = true := by decide
  exact List.all_eq_true.mp hall separator h

theorem isSpace_repeatSeparators {separator : Char} (h : separator ∈ repeatSeparators) :
    isSpace separator = false := by
  have hall : repeatSeparators.all (fun separator => !isSpace separator) = true := by decide
  simpa using List.all_eq_true.mp hall separator h

/-- Dropping characters from the end of two joined texts goes on to the first one when nothing is
left of the second one. -/
theorem rdropWhile_append {α : Type*} (p : α → Bool) (front back : List α) :
    (front ++ back).rdropWhile p =
      if back.rdropWhile p = [] then front.rdropWhile p else front ++ back.rdropWhile p := by
  simp only [List.rdropWhile, List.reverse_append, List.dropWhile_append, List.isEmpty_iff,
    List.reverse_eq_nil_iff]
  split <;> simp

/-- What is left of a stripped text begins with no white space either. -/
theorem lstrip_rdropWhile (p : Char → Bool) (text : Text) :
    lstrip ((lstrip text).rdropWhile p) = (lstrip text).rdropWhile p := by
  refine List.dropWhile_eq_self_iff.mpr fun hpos => ?_
  obtain ⟨back, hback⟩ := List.rdropWhile_prefix p (lstrip text)
  rcases lstrip_eq_nil_or text with hnil | ⟨c, rest, hcons, hc⟩
  · rw [hnil] at hpos
    cases hpos
  · obtain ⟨d, front, hfront⟩ := List.exists_cons_of_ne_nil (List.ne_nil_of_length_pos hpos)
    rw [hfront, hcons, List.cons_append] at hback
    obtain ⟨rfl, -⟩ := List.cons_eq_cons.mp hback
    simp [hfront, hc]

/-- The phrase of a text is what is left when white space is stripped from its beginning, and
white space and marks from its end. -/
theorem phraseForRepeatMatch_eq (text : Text) :
    phraseForRepeatMatch text = (lstrip text).rdropWhile isTail := by
  have hstrip : (strip text).rdropWhile isTail = (lstrip text).rdropWhile isTail := by
    have hspaces : ((lstrip text).rtakeWhile isSpace).rdropWhile isTail = [] := by
      rw [List.rdropWhile_eq_nil_iff]
      intro c hc
      simp [isTail, List.mem_rtakeWhile_imp hc]
    have happend := rdropWhile_append isTail (strip text) ((lstrip text).rtakeWhile isSpace)
    rw [if_pos hspaces] at happend
    rw [← happend]
    exact congrArg _ List.rdropWhile_append_rtakeWhile
  rw [phraseForRepeatMatch, splitTrailingPunctuation_eq, hstrip]
  refine strip_eq_self_iff.mpr ⟨?_, ?_⟩
  · exact lstrip_rdropWhile isTail text
  · refine List.rdropWhile_eq_self_iff.mpr fun hne hlast => ?_
    exact List.rdropWhile_last_not isTail _ hne (by simp [isTail, hlast])

theorem length_phraseForRepeatMatch_le (text : Text) :
    (phraseForRepeatMatch text).length ≤ text.length := by
  rw [phraseForRepeatMatch_eq]
  exact ((List.rdropWhile_prefix isTail _).length_le).trans
    (List.dropWhile_suffix isSpace).length_le

/-- A phrase has no other characters than its text. -/
theorem phraseForRepeatMatch_subset (text : Text) : phraseForRepeatMatch text ⊆ text := by
  rw [phraseForRepeatMatch_eq]
  exact List.Subset.trans (List.rdropWhile_prefix isTail _).subset
    (List.dropWhile_suffix isSpace).subset

/-- A phrase is its own phrase. -/
theorem phraseForRepeatMatch_self (text : Text) :
    phraseForRepeatMatch (phraseForRepeatMatch text) = phraseForRepeatMatch text := by
  rw [phraseForRepeatMatch_eq (phraseForRepeatMatch text), phraseForRepeatMatch_eq text,
    lstrip_rdropWhile, List.rdropWhile_idempotent]

/-- A text without a phrase has only white space and marks. -/
theorem isTail_of_phrase_eq_nil {text : Text} (h : phraseForRepeatMatch text = []) :
    ∀ c ∈ text, isTail c = true := by
  rw [phraseForRepeatMatch_eq, List.rdropWhile_eq_nil_iff] at h
  intro c hc
  rw [← List.takeWhile_append_dropWhile (p := isSpace) (l := text), List.mem_append] at hc
  rcases hc with hspace | hrest
  · simp [isTail, List.mem_takeWhile_imp hspace]
  · exact h c hrest

/-- White space and marks at the end make no difference. -/
theorem phraseForRepeatMatch_append_tail (front : Text) {back : Text}
    (h : ∀ c ∈ back, isTail c = true) :
    phraseForRepeatMatch (front ++ back) = phraseForRepeatMatch front := by
  have hnone : ∀ rest : Text, rest <:+ back → rest.rdropWhile isTail = [] := fun rest hrest =>
    List.rdropWhile_eq_nil_iff.mpr fun c hc => h c (hrest.subset hc)
  rw [phraseForRepeatMatch_eq, phraseForRepeatMatch_eq, lstrip, List.dropWhile_append]
  split
  · next hblank =>
    rw [hnone _ (List.dropWhile_suffix isSpace), lstrip, List.isEmpty_iff.mp hblank]
    rfl
  · rw [rdropWhile_append, if_pos (hnone back (List.suffix_refl back))]
    rfl

/-- A separator before anything else than white space and marks stays in the phrase, with all that
stands before it. -/
theorem phraseForRepeatMatch_append_cons (front : Text) {separator : Char} {back : Text}
    (h : separator ∈ repeatSeparators) (hback : back.rdropWhile isTail ≠ []) :
    phraseForRepeatMatch (front ++ separator :: back) =
      lstrip front ++ separator :: back.rdropWhile isTail := by
  have hstart : lstrip (front ++ separator :: back) = lstrip front ++ separator :: back := by
    rw [lstrip, List.dropWhile_append]
    split
    · next hblank =>
      rw [lstrip, List.isEmpty_iff.mp hblank,
        List.dropWhile_cons_of_neg (by simp [isSpace_repeatSeparators h])]
      rfl
    · rfl
  rw [phraseForRepeatMatch_eq, hstart, List.append_cons, rdropWhile_append, if_neg hback,
    List.append_assoc]
  rfl

theorem phraseForRepeatMatch_rdropWhile (text : Text) :
    phraseForRepeatMatch (text.rdropWhile isTail) = phraseForRepeatMatch text := by
  have htail : ∀ c ∈ text.rtakeWhile isTail, isTail c = true := fun _ => List.mem_rtakeWhile_imp
  rw [← phraseForRepeatMatch_append_tail _ htail, List.rdropWhile_append_rtakeWhile]

end Phrases

section Pieces

/-- A text cut at all three separators: its pieces, each with the separator before it. -/
def pieces (before : Option Char) : Text → List (Option Char × Text)
  | [] => [(before, [])]
  | c :: rest =>
    if c ∈ repeatSeparators then (before, []) :: pieces (some c) rest
    else (pieces before rest).modifyHead fun piece => (piece.1, c :: piece.2)

/-- The first piece has the separator before the text. -/
theorem pieces_eq_cons (before : Option Char) (text : Text) :
    ∃ piece rest, pieces before text = (before, piece) :: rest := by
  cases text with
  | nil => exact ⟨_, _, rfl⟩
  | cons c text =>
    by_cases hc : c ∈ repeatSeparators
    · exact ⟨_, _, if_pos hc⟩
    · obtain ⟨piece, rest, hrest⟩ := pieces_eq_cons before text
      exact ⟨c :: piece, rest, by rw [pieces, if_neg hc, hrest]; rfl⟩

/-- A separator cuts the pieces apart. -/
theorem pieces_append (before : Option Char) (front back : Text) {separator : Char}
    (h : separator ∈ repeatSeparators) :
    pieces before (front ++ separator :: back) =
      pieces before front ++ pieces (some separator) back := by
  induction front generalizing before with
  | nil => exact if_pos h
  | cons c front ih =>
    rw [List.cons_append, pieces, pieces]
    split
    · rw [ih]
      rfl
    · obtain ⟨piece, rest, hfront⟩ := pieces_eq_cons before front
      rw [ih, hfront]
      rfl

/-- The pieces of parts that are joined at a separator. -/
theorem pieces_join (before : Option Char) {separator : Char} (h : separator ∈ repeatSeparators)
    (part : Text) (parts : List Text) :
    pieces before (join separator (part :: parts)) =
      pieces before part ++ parts.flatMap (pieces (some separator)) := by
  induction parts generalizing before part with
  | nil => simp [join]
  | cons next parts ih =>
    rw [join_cons part (List.cons_ne_nil next parts), pieces_append before part _ h, ih,
      List.flatMap_cons]

/-- A text without separators is one piece. -/
theorem pieces_eq_singleton (before : Option Char) {text : Text}
    (h : ∀ c ∈ text, c ∉ repeatSeparators) : pieces before text = [(before, text)] := by
  induction text with
  | nil => rfl
  | cons c text ih =>
    obtain ⟨hc, htext⟩ := List.forall_mem_cons.mp h
    rw [pieces, if_neg hc, ih htext]
    rfl

/-- The stretch after the last separator of a text. -/
def lastStretch (text : Text) : Text := text.rtakeWhile fun c => decide (c ∉ repeatSeparators)

theorem lastStretch_append_cons (front : Text) {separator : Char} {back : Text}
    (h : separator ∈ repeatSeparators) (hback : ∀ c ∈ back, c ∉ repeatSeparators) :
    lastStretch (front ++ separator :: back) = back := by
  rw [lastStretch, List.rtakeWhile, List.reverse_append, List.reverse_cons, List.append_assoc,
    List.takeWhile_append_of_pos (by simpa using hback)]
  simp [h]

/-- A text has separators or is the stretch after the last of them. -/
theorem eq_append_lastStretch (text : Text) : (∀ c ∈ text, c ∉ repeatSeparators) ∨
    ∃ front, ∃ separator ∈ repeatSeparators, text = front ++ separator :: lastStretch text := by
  by_cases hnil : text.rdropWhile (fun c => decide (c ∉ repeatSeparators)) = []
  · left
    simpa using List.rdropWhile_eq_nil_iff.mp hnil
  · right
    have hlast : (text.rdropWhile fun c => decide (c ∉ repeatSeparators)).getLast hnil ∈
        repeatSeparators := by
      have hnot := List.rdropWhile_last_not _ _ hnil
      rwa [decide_eq_true_iff, not_not] at hnot
    refine ⟨(text.rdropWhile fun c => decide (c ∉ repeatSeparators)).dropLast, _, hlast, ?_⟩
    have happend := List.rdropWhile_append_rtakeWhile (l := text)
      (p := fun c => decide (c ∉ repeatSeparators))
    rw [← List.dropLast_append_getLast hnil, List.append_assoc] at happend
    exact happend.symm

theorem lastStretch_noSeparator (text : Text) : ∀ c ∈ lastStretch text, c ∉ repeatSeparators :=
  fun _ hc => by simpa using List.mem_rtakeWhile_imp hc

/-- The phrase of a text ends in the phrase of one of its pieces. -/
theorem exists_piece (before : Option Char) (text : Text) (h : phraseForRepeatMatch text ≠ []) :
    ∃ piece ∈ pieces before text,
      phraseForRepeatMatch piece.2 =
        phraseForRepeatMatch (lastStretch (phraseForRepeatMatch text)) ∧
      phraseForRepeatMatch piece.2 ≠ [] ∧
      (phraseForRepeatMatch piece.2).length ≤ (phraseForRepeatMatch text).length := by
  induction hn : text.length using Nat.strong_induction_on generalizing text with
  | _ n ih =>
    rcases eq_append_lastStretch text with hnone | ⟨front, separator, hseparator, htext⟩
    · refine ⟨(before, text), ?_, ?_, h, le_rfl⟩
      · rw [pieces_eq_singleton before hnone]
        exact List.mem_singleton_self _
      · have hwhole : lastStretch (phraseForRepeatMatch text) = phraseForRepeatMatch text := by
          refine List.rtakeWhile_eq_self_iff.mpr fun c hc => ?_
          simpa using hnone c (phraseForRepeatMatch_subset text hc)
        rw [hwhole, phraseForRepeatMatch_self]
    · have hback := lastStretch_noSeparator text
      rw [htext, pieces_append before front _ hseparator]
      by_cases hphrase : phraseForRepeatMatch (lastStretch text) = []
      · -- the last stretch is part of the end that makes no difference
        have hsame : phraseForRepeatMatch (front ++ separator :: lastStretch text) =
            phraseForRepeatMatch front :=
          phraseForRepeatMatch_append_tail front (List.forall_mem_cons.mpr
            ⟨isTail_separator hseparator, isTail_of_phrase_eq_nil hphrase⟩)
        have hshorter : front.length < n := by
          rw [← hn, htext, List.length_append, List.length_cons]
          omega
        rw [htext, hsame] at h
        obtain ⟨piece, hpiece, hends⟩ := ih front.length hshorter front h rfl
        rw [hsame]
        exact ⟨piece, List.mem_append_left _ hpiece, hends⟩
      · have hleft : (lastStretch text).rdropWhile isTail ≠ [] := by
          intro hnil
          rw [← phraseForRepeatMatch_rdropWhile, hnil] at hphrase
          exact hphrase rfl
        have hwhole := phraseForRepeatMatch_append_cons front hseparator hleft
        have hstretch : lastStretch (lstrip front ++ separator ::
            (lastStretch text).rdropWhile isTail) = (lastStretch text).rdropWhile isTail :=
          lastStretch_append_cons _ hseparator fun c hc =>
            hback c ((List.rdropWhile_prefix isTail _).subset hc)
        refine ⟨(some separator, lastStretch text), List.mem_append_right _ ?_, ?_, hphrase, ?_⟩
        · rw [pieces_eq_singleton _ hback]
          exact List.mem_singleton_self _
        · rw [hwhole, hstretch, phraseForRepeatMatch_rdropWhile]
        · have hle := length_phraseForRepeatMatch_le ((lastStretch text).rdropWhile isTail)
          rw [phraseForRepeatMatch_rdropWhile] at hle
          rw [hwhole, List.length_append, List.length_cons]
          exact hle.trans (by omega)

/-- Two texts with the same short phrase have pieces with the same short phrase. -/
theorem SamePhrase.exists_pieces {part next : Text} (h : SamePhrase part next)
    (before between : Option Char) :
    ∃ p ∈ pieces before part, ∃ q ∈ pieces between next, SamePhrase p.2 q.2 := by
  obtain ⟨hne, heq, hshort⟩ := h
  obtain ⟨p, hp, hpends, hpne, hplength⟩ := exists_piece before part hne
  obtain ⟨q, hq, hqends, -, -⟩ := exists_piece between next (heq ▸ hne)
  exact ⟨p, hp, q, hq, hpne, by rw [hpends, hqends, heq], hplength.trans hshort⟩

end Pieces

section Across

/-- No short phrase of a piece comes again in a piece beyond the next separator of this kind. -/
def NoPhraseAcross (separator : Char) : List (Option Char × Text) → Prop
  | [] => True
  | p :: rest =>
    (∀ q ∈ rest.dropWhile fun piece => decide (piece.1 ≠ some separator), ¬ SamePhrase p.2 q.2) ∧
      NoPhraseAcross separator rest

instance decidableNoPhraseAcross (separator : Char) :
    (list : List (Option Char × Text)) → Decidable (NoPhraseAcross separator list)
  | [] => isTrue trivial
  | _ :: rest => @instDecidableAnd _ _ inferInstance (decidableNoPhraseAcross separator rest)

variable {separator : Char} {list : List (Option Char × Text)}

theorem dropWhile_sublist_dropWhile {α : Type*} (p : α → Bool) {kept list : List α}
    (h : kept.Sublist list) : (kept.dropWhile p).Sublist (list.dropWhile p) := by
  induction h with
  | slnil => exact List.Sublist.slnil
  | @cons kept list x hsub ih =>
    by_cases hx : p x = true
    · rwa [List.dropWhile_cons_of_pos hx]
    · rw [List.dropWhile_cons_of_neg hx]
      exact ((List.dropWhile_sublist p).trans hsub).cons x
  | @cons_cons kept list x hsub ih =>
    by_cases hx : p x = true
    · rwa [List.dropWhile_cons_of_pos hx, List.dropWhile_cons_of_pos hx]
    · rw [List.dropWhile_cons_of_neg hx, List.dropWhile_cons_of_neg hx]
      exact hsub.cons_cons x

/-- Pieces that are taken out bring nothing across. -/
theorem NoPhraseAcross.sublist {kept : List (Option Char × Text)}
    (h : NoPhraseAcross separator list) (hsub : kept.Sublist list) :
    NoPhraseAcross separator kept := by
  induction hsub with
  | slnil => trivial
  | cons _ _ ih => exact ih h.2
  | cons_cons _ hsub ih =>
    exact ⟨fun q hq => h.1 q ((dropWhile_sublist_dropWhile _ hsub).subset hq), ih h.2⟩

/-- Pieces on the two sides of the separator have different phrases. -/
theorem NoPhraseAcross.not_samePhrase {front back : List (Option Char × Text)} {piece : Text}
    (h : NoPhraseAcross separator (front ++ (some separator, piece) :: back)) :
    ∀ p ∈ front, ∀ q ∈ (some separator, piece) :: back, ¬ SamePhrase p.2 q.2 := by
  induction front with
  | nil => exact fun _ hp => absurd hp List.not_mem_nil
  | cons first front ih =>
    intro p hp q hq
    rcases List.mem_cons.mp hp with rfl | hrest
    · refine h.1 q ?_
      rw [List.append_eq, List.dropWhile_append]
      split
      · rw [List.dropWhile_cons_of_neg (by simp)]
        exact hq
      · exact List.mem_append_right _ hq
    · exact ih h.2 p hrest q hq

end Across


end FunasrApi.Online
