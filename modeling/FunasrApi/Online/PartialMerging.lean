import FunasrApi.Online.CleanText
import FunasrApi.Online.Session

/-!
# Merging streaming texts into the partial

The text of a decoded window is merged into what has been recognized before. A joined
text is clean if both texts are and no artifact goes over the seam. Windows that are
decoded on their own add up exactly where each text goes on from the end of the
partial; anywhere else the text replaces the partial.
-/

namespace FunasrApi.Online

open FunasrApi.Core Text

/-- How many characters two texts have in common where they begin. -/
def commonPrefix : Text → Text → ℕ
  | a :: previous, b :: current => if a = b then commonPrefix previous current + 1 else 0
  | _, _ => 0

/-- The longest beginning of the current text with which the previous one ends. -/
def overlapSize (previous current : Text) : Option ℕ :=
  ((List.range (min previous.length current.length)).reverse.map (· + 1)).find? fun size =>
    (current.take size).isSuffixOf previous

/-- What `merge_online_partial_text` returns. -/
inductive MergeChoice
  | previous
  | current
  /-- Both, without the overlap of so many characters. -/
  | joined (size : ℕ)

/-- The choice of `merge_online_partial_text` between two cleaned texts. -/
def mergeChoice (previous current : Text) : MergeChoice :=
  if previous = [] then .current
  else if current = [] then .previous
  else if previous.isPrefixOf current || current.isPrefixOf previous then .current
  else if 0 < commonPrefix previous current then .current
  else
    match overlapSize previous current with
    | some size => .joined size
    | none => .current

/-- `merge_online_partial_text`. -/
def mergeOnlinePartialText (previous current : Text) : Text :=
  let previous := cleanOnlineAsrText previous
  let current := cleanOnlineAsrText current
  match mergeChoice previous current with
  | .previous => previous
  | .current => current
  | .joined size => previous ++ current.drop size

section Choice

variable {previous current : Text} {size : ℕ}

theorem commonPrefix_pos_iff (hprevious : previous ≠ []) (hcurrent : current ≠ []) :
    0 < commonPrefix previous current ↔ previous.head? = current.head? := by
  obtain ⟨a, previous, rfl⟩ := List.exists_cons_of_ne_nil hprevious
  obtain ⟨b, current, rfl⟩ := List.exists_cons_of_ne_nil hcurrent
  rw [commonPrefix, List.head?_cons, List.head?_cons, Option.some_inj]
  split
  · next heq => simp [heq]
  · next hne => simp [hne]

/-- An overlap is a beginning of the one text and an end of the other. -/
theorem overlapSize_eq_some (h : overlapSize previous current = some size) :
    current.take size ≠ [] ∧ current.take size <:+ previous := by
  unfold overlapSize at h
  have hsuffix := List.find?_some h
  have hmem := List.mem_of_find?_eq_some h
  obtain ⟨index, hindex, rfl⟩ := List.mem_map.mp hmem
  rw [List.mem_reverse, List.mem_range, lt_min_iff] at hindex
  refine ⟨fun hnil => ?_, List.isSuffixOf_iff_suffix.mp hsuffix⟩
  have hlength := congrArg List.length hnil
  rw [List.length_take, List.length_nil] at hlength
  omega

/-- Where there is an overlap, one is found. -/
theorem overlapSize_eq_none_iff :
    overlapSize previous current = none ↔
      ∀ overlap, overlap <+: current → overlap <:+ previous → overlap = [] := by
  rw [overlapSize, List.find?_eq_none]
  constructor
  · intro h overlap hcurrent hprevious
    by_contra hne
    have hpos := List.length_pos_of_ne_nil hne
    have hlength : overlap.length - 1 < min previous.length current.length := by
      have := hcurrent.length_le
      have := hprevious.length_le
      omega
    refine h overlap.length (List.mem_map.mpr ⟨overlap.length - 1, ?_, by omega⟩) ?_
    · exact List.mem_reverse.mpr (List.mem_range.mpr hlength)
    · rw [← List.prefix_iff_eq_take.mp hcurrent]
      exact List.isSuffixOf_iff_suffix.mpr hprevious
  · intro h size hmem hsuffix
    obtain ⟨index, hindex, rfl⟩ := List.mem_map.mp hmem
    rw [List.mem_reverse, List.mem_range, lt_min_iff] at hindex
    have hnil := h _ (List.take_prefix ..) (List.isSuffixOf_iff_suffix.mp hsuffix)
    have hlength := congrArg List.length hnil
    rw [List.length_take, List.length_nil] at hlength
    omega

/-- Joined texts begin with an end of the previous one that the current one begins with. -/
theorem mergeChoice_eq_joined (h : mergeChoice previous current = .joined size) :
    previous ≠ [] ∧ current ≠ [] ∧ current.take size <:+ previous := by
  unfold mergeChoice at h
  split at h
  · cases h
  · next hprevious =>
    split at h
    · cases h
    · next hcurrent =>
      split at h
      · cases h
      · split at h
        · cases h
        · split at h
          · next found hfound =>
            obtain rfl := MergeChoice.joined.inj h
            exact ⟨hprevious, hcurrent, (overlapSize_eq_some hfound).2⟩
          · cases h

end Choice

section Cleanness

/-- What every cleaned text is, clean or not. -/
structure Tidy (text : Text) : Prop where
  no_markup : ¬ ['<', '>'].Sublist text
  no_marks : ∀ c ∈ text, c ∉ strayMarks
  single_spaced : SingleSpaced text
  stripped : strip text = text

theorem tidy_cleanOnlineAsrText (text : Text) : Tidy (cleanOnlineAsrText text) :=
  ⟨not_markup_cleanOnlineAsrText text, not_mem_strayMarks_cleanOnlineAsrText text,
    singleSpaced_cleanOnlineAsrText text, strip_cleanOnlineAsrText text⟩

theorem Tidy.isClean_iff {text : Text} (h : Tidy text) :
    IsClean text ↔ ∀ word ∈ transportWords, ¬ word <:+: text :=
  ⟨IsClean.no_words,
    fun hwords => ⟨h.no_markup, h.no_marks, hwords, h.single_spaced, h.stripped⟩⟩

/-- An artifact begins in the one text and ends in the other. -/
def OverSeam (previous rest : Text) : Prop :=
  ('<' ∈ previous ∧ '>' ∈ rest) ∨ ∃ word ∈ transportWords, ∃ front back, front ≠ [] ∧ back ≠ [] ∧
    word = front ++ back ∧ front <:+ previous ∧ back <+: rest

variable {previous current : Text} {size : ℕ}

/-- The joined text is the current one behind the beginning of the previous one. -/
theorem append_drop_eq (h : current.take size <:+ previous) :
    ∃ front, previous = front ++ current.take size ∧
      previous ++ current.drop size = front ++ current := by
  obtain ⟨front, rfl⟩ := h
  exact ⟨front, rfl, by rw [List.append_assoc, List.take_append_drop]⟩

/-- Joining keeps texts tidy, but for markup that goes over the seam. -/
theorem Tidy.joined (hprevious : Tidy previous) (hcurrent : Tidy current)
    (hpreviousNe : previous ≠ []) (hcurrentNe : current ≠ [])
    (hoverlap : current.take size <:+ previous)
    (hseam : ¬ ('<' ∈ previous ∧ '>' ∈ current.drop size)) :
    Tidy (previous ++ current.drop size) := by
  have hdrop : current.drop size <:+ current := List.drop_suffix size current
  have hleft := (strip_eq_self_iff.mp hprevious.stripped).1
  have hright := (strip_eq_self_iff.mp hprevious.stripped).2
  obtain ⟨front, -, hjoined⟩ := append_drop_eq hoverlap
  refine ⟨fun hsub => ?_, fun c hc => ?_, ⟨fun c hc => ?_, ?_⟩, strip_eq_self_iff.mpr ⟨?_, ?_⟩⟩
  · obtain ⟨left, right, heq, hl, hr⟩ := List.sublist_append_iff.mp hsub
    cases left with
    | nil =>
      rw [List.nil_append] at heq
      exact hcurrent.no_markup (heq ▸ hr.trans hdrop.sublist)
    | cons c left =>
      obtain ⟨rfl, htail⟩ := List.cons.inj heq
      cases left with
      | nil =>
        obtain rfl : ['>'] = right := htail
        exact hseam ⟨hl.subset List.mem_cons_self, hr.subset List.mem_cons_self⟩
      | cons d left =>
        obtain ⟨rfl, hnil⟩ := List.cons.inj htail
        obtain ⟨rfl, -⟩ := List.append_eq_nil_iff.mp hnil.symm
        exact hprevious.no_markup hl
  · exact (List.mem_append.mp hc).elim (hprevious.no_marks c) fun h =>
      hcurrent.no_marks c (hdrop.subset h)
  · exact (List.mem_append.mp hc).elim (hprevious.single_spaced.1 c) fun h =>
      hcurrent.single_spaced.1 c (hdrop.subset h)
  · have hlast := List.rdropWhile_eq_self_iff.mp hright hpreviousNe
    refine List.isChain_append.mpr ⟨hprevious.single_spaced.2,
      (hcurrent.single_spaced.of_isInfix hdrop.isInfix).2, fun c hc _ _ => Or.inl ?_⟩
    rw [List.getLast?_eq_some_getLast hpreviousNe] at hc
    obtain rfl := Option.some.inj hc
    simpa using hlast
  · exact lstrip_append_eq_self hleft hpreviousNe _
  · rw [hjoined]
    exact rstrip_append_eq_self (strip_eq_self_iff.mp hcurrent.stripped).2 hcurrentNe front

/-- A joined text is clean if both texts are and nothing goes over the seam. -/
theorem isClean_joined_iff (hprevious : Tidy previous) (hcurrent : Tidy current)
    (hpreviousNe : previous ≠ []) (hcurrentNe : current ≠ [])
    (hoverlap : current.take size <:+ previous) :
    IsClean (previous ++ current.drop size) ↔
      IsClean previous ∧ IsClean current ∧ ¬ OverSeam previous (current.drop size) := by
  obtain ⟨front, -, hjoined⟩ := append_drop_eq hoverlap
  constructor
  · intro h
    refine ⟨hprevious.isClean_iff.mpr fun word hword hin => ?_,
      hcurrent.isClean_iff.mpr fun word hword hin => ?_, ?_⟩
    · exact h.no_words word hword (List.infix_append_of_infix_left hin)
    · exact h.no_words word hword (hjoined ▸ List.infix_append_of_infix_right hin)
    · rintro (⟨hopen, hclose⟩ | ⟨word, hword, left, right, -, -, rfl, hleft, hright⟩)
      · exact h.no_markup ((List.singleton_sublist.mpr hopen).append
          (List.singleton_sublist.mpr hclose))
      · exact h.no_words _ hword
          (List.infix_append_iff.mpr (Or.inr (Or.inr ⟨left, right, rfl, hleft, hright⟩)))
  · rintro ⟨hcleanPrevious, hcleanCurrent, hseam⟩
    have htidy := hprevious.joined hcurrent hpreviousNe hcurrentNe hoverlap
      fun hmarkup => hseam (Or.inl hmarkup)
    refine htidy.isClean_iff.mpr fun word hword hin => ?_
    rcases List.infix_append_iff_ne_nil.mp hin with hin | hin | ⟨left, right, hl, hr, heq, hs⟩
    · exact hcleanPrevious.no_words word hword hin
    · exact hcleanCurrent.no_words word hword (hin.trans (List.drop_suffix size current).isInfix)
    · exact hseam (Or.inr ⟨word, hword, left, right, hl, hr, heq, hs⟩)

/-- The merged text stays as it is: the text that is taken over has no interrupted transport word,
and where two are joined neither has and nothing goes over the seam. -/
def MergesCleanly (previous current : Text) : Prop :=
  match mergeChoice (cleanOnlineAsrText previous) (cleanOnlineAsrText current) with
  | .previous => ¬ Interrupted transportWords (unmarked previous)
  | .current => ¬ Interrupted transportWords (unmarked current)
  | .joined size => ¬ Interrupted transportWords (unmarked previous) ∧
      ¬ Interrupted transportWords (unmarked current) ∧
      ¬ OverSeam (cleanOnlineAsrText previous) ((cleanOnlineAsrText current).drop size)

theorem isClean_mergeOnlinePartialText_iff (previous current : Text) :
    IsClean (mergeOnlinePartialText previous current) ↔ MergesCleanly previous current := by
  unfold mergeOnlinePartialText MergesCleanly
  dsimp only
  cases hchoice : mergeChoice (cleanOnlineAsrText previous) (cleanOnlineAsrText current) with
  | previous => exact isClean_cleanOnlineAsrText_iff previous
  | current => exact isClean_cleanOnlineAsrText_iff current
  | joined size =>
    obtain ⟨hprevious, hcurrent, hoverlap⟩ := mergeChoice_eq_joined hchoice
    dsimp only
    rw [isClean_joined_iff (tidy_cleanOnlineAsrText previous) (tidy_cleanOnlineAsrText current)
      hprevious hcurrent hoverlap, isClean_cleanOnlineAsrText_iff, isClean_cleanOnlineAsrText_iff]

/-- A cleaned text is free of artifacts and stays as it is exactly if no transport word was
interrupted in it; so does the text of a payload in any number of lists; and a merged text that is
cleaned again, if besides nothing goes over the seam. -/
theorem cleaning_settles_iff (str : Payload → Text) :
    (∀ text, cleanOnlineAsrText (cleanOnlineAsrText text) = cleanOnlineAsrText text ∧
        IsClean (cleanOnlineAsrText text) ↔ ¬ Interrupted transportWords (unmarked text)) ∧
      (∀ payload,
        (∀ depth, extractOnlineText str (wrapped depth payload) = extractOnlineText str payload) ↔
          ¬ Interrupted transportWords (unmarked (sourceText str payload))) ∧
      ∀ previous current, cleanOnlineAsrText (mergeOnlinePartialText previous current) =
          mergeOnlinePartialText previous current ↔ MergesCleanly previous current := by
  refine ⟨fun text => ?_, extractOnlineText_wrapped_iff str, fun previous current => ?_⟩
  · rw [cleanOnlineAsrText_cleanOnlineAsrText_iff, isClean_cleanOnlineAsrText_iff, and_self_iff]
  · rw [cleanOnlineAsrText_eq_self_iff, isClean_mergeOnlinePartialText_iff]

/-- A word in another one outlasts a cleaning, a list more or less around the text matters then,
and a clean partial grows an artifact over its seam. -/
theorem interruptedWord_notSettled :
    cleanOnlineAsrText "x/s/silil".toList = "x/sil".toList ∧
      cleanOnlineAsrText "x/sil".toList = ['x'] ∧
      ¬ IsClean (cleanOnlineAsrText "x/s/silil".toList) ∧
      (∀ str, extractOnlineText str (wrapped 1 (.text "x/s/silil".toList)) ≠
        extractOnlineText str (.text "x/s/silil".toList)) ∧
      mergeOnlinePartialText "x/s".toList "sil".toList = "x/sil".toList := by
  have honce : cleanOnlineAsrText "x/s/silil".toList = "x/sil".toList := by decide +kernel
  have htwice : cleanOnlineAsrText "x/sil".toList = ['x'] := by decide +kernel
  refine ⟨honce, htwice, ?_, fun str => ?_, by decide +kernel⟩
  · rw [honce, ← cleanOnlineAsrText_eq_self_iff, htwice]
    decide
  · rw [extractOnlineText_wrapped, extractOnlineText, Function.iterate_one, honce, htwice]
    decide

end Cleanness

section Accumulation

/-- The partial after some texts have been decoded. -/
def mergedPartial (texts : List Text) : Text := texts.foldl mergeOnlinePartialText []

/-- Something holds of each text and the texts before it. -/
def EachStep (texts : List Text) (step : List Text → Text → Prop) : Prop :=
  ∀ front text back, texts = front ++ text :: back → step front text

@[simp] theorem eachStep_nil (step : List Text → Text → Prop) : EachStep [] step :=
  fun _ _ _ h => absurd h.symm (by simp)

@[simp] theorem eachStep_cons (first : Text) (texts : List Text) (step : List Text → Text → Prop) :
    EachStep (first :: texts) step ↔
      step [] first ∧ EachStep texts fun front text => step (first :: front) text := by
  constructor
  · intro h
    refine ⟨h [] first texts rfl, fun front text back heq => ?_⟩
    exact h (first :: front) text back (by rw [heq, List.cons_append])
  · rintro ⟨hfirst, hrest⟩ front text back heq
    cases front with
    | nil =>
      obtain ⟨rfl, -⟩ := List.cons.inj heq
      exact hfirst
    | cons head front =>
      obtain ⟨rfl, htail⟩ := List.cons.inj heq
      exact hrest front text back htail

/-- Clean texts of single windows: none begins with the partial, and none is its beginning. -/
def DeltaTexts (texts : List Text) : Prop :=
  EachStep texts fun front text => IsClean text ∧ text ≠ [] ∧
    (front ≠ [] → ¬ text <+: mergedPartial front ∧ ¬ mergedPartial front <+: text)

/-- A text is found where the partial ends, but for an overlap with that end, and nothing of the
partial is lost. -/
def Attached (partialText text merged : Text) : Prop :=
  ∃ overlap rest, text = overlap ++ rest ∧ overlap <:+ partialText ∧ merged = partialText ++ rest

/-- Each text is attached to what the texts before it have made. -/
def Accumulates (texts : List Text) : Prop :=
  EachStep texts fun front text =>
    Attached (mergedPartial front) text (mergedPartial (front ++ [text]))

/-- A text begins with an end of the partial, and with another character than the partial. -/
def GoesOn (partialText text : Text) : Prop :=
  partialText.head? ≠ text.head? ∧
    ∃ overlap, overlap ≠ [] ∧ overlap <+: text ∧ overlap <:+ partialText

theorem mergedPartial_concat (texts : List Text) (text : Text) :
    mergedPartial (texts ++ [text]) = mergeOnlinePartialText (mergedPartial texts) text := by
  rw [mergedPartial, List.foldl_append]
  rfl

/-- What attached texts make grows at its end only. -/
theorem Accumulates.grows {texts front back : List Text} (h : Accumulates texts)
    (heq : texts = front ++ back) : mergedPartial front <+: mergedPartial texts := by
  induction back using List.reverseRecOn generalizing texts with
  | nil =>
    subst heq
    exact (List.append_nil front).symm ▸ List.prefix_refl _
  | append_singleton back text ih =>
    subst heq
    rw [← List.append_assoc] at h ⊢
    obtain ⟨overlap, rest, -, -, hmerged⟩ := h (front ++ back) text [] rfl
    have hearlier : Accumulates (front ++ back) := fun front' text' back' heq' =>
      h front' text' (back' ++ [text]) (by rw [heq', List.append_assoc, List.cons_append])
    exact (ih hearlier rfl).trans (hmerged ▸ List.prefix_append _ rest)

/-- All of them are found in it. -/
theorem Accumulates.contains {texts : List Text} (h : Accumulates texts) {text : Text}
    (htext : text ∈ texts) : text <:+: mergedPartial texts := by
  obtain ⟨front, back, heq⟩ := List.append_of_mem htext
  obtain ⟨overlap, rest, htext, ⟨earlier, hoverlap⟩, hmerged⟩ := h front text back heq
  have hgrows : mergedPartial (front ++ [text]) <+: mergedPartial texts :=
    h.grows (by rw [heq, List.append_cons])
  rw [hmerged, ← hoverlap, List.append_assoc, ← htext] at hgrows
  exact (List.suffix_append earlier text).isInfix.trans hgrows.isInfix

variable {previous current : Text}

theorem mergeOnlinePartialText_nil (hcurrent : IsClean current) :
    mergeOnlinePartialText [] current = current := by
  rw [mergeOnlinePartialText, cleanOnlineAsrText_eq_self_iff.mpr hcurrent]
  rfl

/-- A text that is not empty leaves a partial that is not. -/
theorem mergeOnlinePartialText_ne_nil (hcurrent : IsClean current) (hne : current ≠ []) :
    mergeOnlinePartialText previous current ≠ [] := by
  rw [mergeOnlinePartialText, cleanOnlineAsrText_eq_self_iff.mpr hcurrent]
  cases hchoice : mergeChoice (cleanOnlineAsrText previous) current with
  | previous =>
    unfold mergeChoice at hchoice
    split at hchoice
    · cases hchoice
    · next hprevious => exact hprevious
  | current => exact hne
  | joined size => simp [(mergeChoice_eq_joined hchoice).1]

/-- Clean texts of which neither begins the other: they are joined if the one goes on from the
other, and else the second replaces the first. -/
theorem mergeOnlinePartialText_of_isClean (hprevious : IsClean previous)
    (hcurrent : IsClean current) (hpreviousNe : previous ≠ []) (hcurrentNe : current ≠ [])
    (hdelta : ¬ current <+: previous ∧ ¬ previous <+: current) :
    (GoesOn previous current ∧
        Attached previous current (mergeOnlinePartialText previous current)) ∨
      ¬ GoesOn previous current ∧ mergeOnlinePartialText previous current = current := by
  have hprefix : ¬ (previous.isPrefixOf current || current.isPrefixOf previous) := by
    simpa using hdelta.symm
  rw [mergeOnlinePartialText, cleanOnlineAsrText_eq_self_iff.mpr hcurrent,
    cleanOnlineAsrText_eq_self_iff.mpr hprevious, mergeChoice, if_neg hpreviousNe,
    if_neg hcurrentNe, if_neg hprefix]
  by_cases hhead : previous.head? = current.head?
  · rw [if_pos ((commonPrefix_pos_iff hpreviousNe hcurrentNe).mpr hhead)]
    exact Or.inr ⟨fun hgoes => hgoes.1 hhead, rfl⟩
  · rw [if_neg (mt (commonPrefix_pos_iff hpreviousNe hcurrentNe).mp hhead)]
    cases hoverlap : overlapSize previous current with
    | some size =>
      obtain ⟨hne, hsuffix⟩ := overlapSize_eq_some hoverlap
      exact Or.inl ⟨⟨hhead, current.take size, hne, List.take_prefix .., hsuffix⟩,
        current.take size, current.drop size, (List.take_append_drop ..).symm, hsuffix, rfl⟩
    | none =>
      refine Or.inr ⟨?_, rfl⟩
      rintro ⟨-, overlap, hne, hcurrent, hprevious⟩
      exact hne (overlapSize_eq_none_iff.mp hoverlap overlap hcurrent hprevious)

/-- A text is attached exactly if it goes on from the partial. -/
theorem attached_mergeOnlinePartialText_iff (hprevious : IsClean previous)
    (hcurrent : IsClean current) (hpreviousNe : previous ≠ []) (hcurrentNe : current ≠ [])
    (hdelta : ¬ current <+: previous ∧ ¬ previous <+: current) :
    Attached previous current (mergeOnlinePartialText previous current) ↔
      GoesOn previous current := by
  rcases mergeOnlinePartialText_of_isClean hprevious hcurrent hpreviousNe hcurrentNe hdelta with
    ⟨hgoes, hattached⟩ | ⟨hreplaces, hmerged⟩
  · exact ⟨fun _ => hgoes, fun _ => hattached⟩
  · refine ⟨fun hattached => ?_, fun hgoes => absurd hgoes hreplaces⟩
    obtain ⟨_, rest, -, -, hjoined⟩ := hattached
    exact absurd ⟨rest, hjoined.symm.trans hmerged⟩ hdelta.2

/-- Windows that are decoded on their own accumulate, as long as the partial is clean, exactly if
each text after the first goes on from the partial. -/
theorem accumulates_iff {texts : List Text} (hdelta : DeltaTexts texts)
    (hclean : EachStep texts fun front _ => IsClean (mergedPartial front)) :
    Accumulates texts ↔
      EachStep texts fun front text => front ≠ [] → GoesOn (mergedPartial front) text := by
  refine forall_congr' fun front => forall_congr' fun text => forall_congr' fun back =>
    forall_congr' fun heq => ?_
  obtain ⟨htext, hne, happart⟩ := hdelta front text back heq
  dsimp only
  rw [mergedPartial_concat]
  rcases List.eq_nil_or_concat' front with rfl | ⟨earlier, last, rfl⟩
  · have hfirst : mergeOnlinePartialText (mergedPartial []) text = text :=
      mergeOnlinePartialText_nil htext
    rw [hfirst]
    exact ⟨fun _ hnil => absurd rfl hnil, fun _ => ⟨[], text, rfl, List.nil_suffix, rfl⟩⟩
  · have hfront : earlier ++ [last] ≠ [] := by simp
    have hlast := hdelta earlier last (text :: back) (by rw [heq]; simp)
    have hpartial : mergedPartial (earlier ++ [last]) ≠ [] := by
      rw [mergedPartial_concat]
      exact mergeOnlinePartialText_ne_nil hlast.1 hlast.2.1
    rw [attached_mergeOnlinePartialText_iff (hclean _ text back heq) htext hpartial hne
      (happart hfront)]
    exact ⟨fun hgoes _ => hgoes, fun h => h hfront⟩

/-- Two windows of which the second goes on from the end of the first. -/
theorem overlappingWindows_accumulate : Accumulates ["今天天气".toList, "天气很好".toList] := by
  have hclean : ∀ text ∈ ["今天天气".toList, "天气很好".toList], IsClean text := by
    simp only [← cleanOnlineAsrText_eq_self_iff]
    decide +kernel
  have hfirst : mergedPartial ["今天天气".toList] = "今天天气".toList := by decide +kernel
  refine (accumulates_iff ?_ ?_).mpr ?_
  · unfold DeltaTexts
    simp only [eachStep_cons, eachStep_nil, hfirst]
    refine ⟨⟨hclean _ (by simp), by decide, nofun⟩, ⟨hclean _ (by simp), by decide, ?_⟩, trivial⟩
    decide
  · simp only [eachStep_cons, eachStep_nil, hfirst]
    exact ⟨cleanOnlineAsrText_eq_self_iff.mp rfl, hclean _ (by simp), trivial⟩
  · simp only [eachStep_cons, eachStep_nil, hfirst]
    refine ⟨nofun, fun _ => ⟨by decide, "天气".toList, by decide, by decide, by decide⟩, trivial⟩

/-- The text of a window that has nothing in common with the one before replaces it. -/
theorem separateWindows_lost :
    DeltaTexts ["你好".toList, "世界".toList] ∧
      mergedPartial ["你好".toList, "世界".toList] = "世界".toList ∧
      ¬ Accumulates ["你好".toList, "世界".toList] := by
  have hclean : ∀ text ∈ ["你好".toList, "世界".toList], IsClean text := by
    simp only [← cleanOnlineAsrText_eq_self_iff]
    decide +kernel
  have hfirst : mergedPartial ["你好".toList] = "你好".toList := by decide +kernel
  have hboth : mergedPartial ["你好".toList, "世界".toList] = "世界".toList := by decide +kernel
  refine ⟨?_, hboth, fun h => ?_⟩
  · unfold DeltaTexts
    simp only [eachStep_cons, eachStep_nil, hfirst]
    refine ⟨⟨hclean _ (by simp), by decide, nofun⟩, ⟨hclean _ (by simp), by decide, ?_⟩, trivial⟩
    decide
  · obtain ⟨_, rest, -, -, hmerged⟩ := h ["你好".toList] "世界".toList [] rfl
    rw [List.singleton_append, hfirst, hboth] at hmerged
    exact absurd (List.cons.inj hmerged).1 (by decide)

end Accumulation

end FunasrApi.Online
