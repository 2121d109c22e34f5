import FunasrApi.Online.PhrasePieces
import Mathlib.Data.List.Destutter

/-!
# Repeated phrases in a text

A pass for a separator drops the parts that repeat the short phrase before them. No
repetition is left at the separator of the last pass; at an earlier one a later pass may
bring two equal phrases together, unless they stand on both sides of one kind of
separator only.
-/

namespace FunasrApi.Online

open FunasrApi.Core Text

/-- Two parts stand next to each other at a separator. -/
def Neighbours (separator : Char) (text part next : Text) : Prop :=
  [part, next] <:+: split separator text

/-- No two neighbours have the same short phrase. -/
def NoRepeat (separator : Char) (text : Text) : Prop :=
  ∀ part next, Neighbours separator text part next → ¬ SamePhrase part next

section Parts

theorem noRepeat_iff {separator : Char} {text : Text} : NoRepeat separator text ↔
    (split separator text).IsChain fun part next => ¬ SamePhrase part next := by
  rw [List.isChain_iff_forall_rel_of_append_cons_cons]
  constructor
  · intro h part next front back heq
    exact h part next ⟨front, back, by rw [heq]; simp⟩
  · rintro h part next ⟨front, back, heq⟩
    have hsplit : split separator text = front ++ part :: next :: back := by
      rw [← heq]
      simp
    exact h hsplit

theorem collapsePart_nil (part : Text) : collapsePart [] part = [part] := by
  have hnot : ¬ (phraseForRepeatMatch part ≠ [] ∧ phraseForRepeatMatch part = [] ∧
      1 ≤ (phraseForRepeatMatch part).length ∧ (phraseForRepeatMatch part).length ≤ 12) :=
    fun h => h.1 h.2.1
  rw [collapsePart]
  exact if_neg hnot

theorem collapsePart_concat (kept : List Text) (last part : Text) :
    collapsePart (kept ++ [last]) part =
      if SamePhrase last part then kept ++ [last] else kept ++ [last] ++ [part] := by
  unfold collapsePart
  simp only [List.getLast?_concat]
  refine if_congr ⟨?_, ?_⟩ rfl rfl
  · rintro ⟨hne, heq, -, hshort⟩
    exact ⟨heq ▸ hne, heq.symm, heq ▸ hshort⟩
  · rintro ⟨hne, heq, hshort⟩
    refine ⟨heq ▸ hne, heq.symm, ?_, heq ▸ hshort⟩
    exact List.length_pos_of_ne_nil (heq ▸ hne)

/-- The loop over the parts keeps a part that does not repeat the one kept last. -/
theorem foldl_collapsePart (parts : List Text) :
    parts.foldl collapsePart [] = parts.destutter fun part next => ¬ SamePhrase part next := by
  have hloop : ∀ (parts kept : List Text) (last : Text),
      parts.foldl collapsePart (kept ++ [last]) =
        kept ++ parts.destutter' (fun part next => ¬ SamePhrase part next) last := by
    intro parts
    induction parts with
    | nil => exact fun _ _ => rfl
    | cons part parts ih =>
      intro kept last
      rw [List.foldl_cons, collapsePart_concat, List.destutter'_cons]
      by_cases hsame : SamePhrase last part
      · rw [if_pos hsame, if_neg (not_not_intro hsame), ih]
      · rw [if_neg hsame, if_pos hsame, ih (kept ++ [last]) part, List.append_assoc,
          List.singleton_append]
  cases parts with
  | nil => rfl
  | cons part parts =>
    rw [List.foldl_cons, collapsePart_nil, List.destutter_cons']
    exact hloop parts [] part

end Parts

section Passes

variable {separator : Char} {text : Text}

/-- What is left of repetitions begins with the same element. -/
theorem destutter'_eq_cons {α : Type*} (R : α → α → Prop) [DecidableRel R] (x : α) (xs : List α) :
    ∃ kept, xs.destutter' R x = x :: kept ∧ kept.Sublist xs := by
  induction xs with
  | nil => exact ⟨[], rfl, List.Sublist.refl _⟩
  | cons y ys ih =>
    by_cases hy : R x y
    · exact ⟨_, List.destutter'_cons_pos ys hy, List.destutter'_sublist ys R y⟩
    · obtain ⟨kept, hkept, hsub⟩ := ih
      exact ⟨kept, by rw [List.destutter'_cons_neg ys hy, hkept], hsub.cons y⟩

/-- A pass joins the parts that do not repeat the one before. -/
theorem collapseSeparator_eq (text : Text) (separator : Char) : collapseSeparator text separator =
    join separator ((split separator text).destutter fun part next => ¬ SamePhrase part next) := by
  unfold collapseSeparator
  dsimp only
  split
  · next hfew =>
    have hne : split separator text ≠ [] := List.splitOn_ne_nil separator text
    obtain ⟨part, hpart⟩ := List.length_eq_one_iff.mp
      (le_antisymm (Nat.lt_succ_iff.mp hfew) (List.length_pos_of_ne_nil hne))
    have hjoin := join_split separator text
    rw [hpart] at hjoin ⊢
    rw [List.destutter_singleton, hjoin]
  · rw [foldl_collapsePart]

/-- No repetition is left at the separator of a pass. -/
theorem noRepeat_collapseSeparator (text : Text) (separator : Char) :
    NoRepeat separator (collapseSeparator text separator) := by
  have hsub := List.destutter_sublist (fun part next => ¬ SamePhrase part next)
    (split separator text)
  have hne : (split separator text).destutter (fun part next => ¬ SamePhrase part next) ≠ [] := by
    rw [Ne, List.destutter_eq_nil]
    exact List.splitOn_ne_nil separator text
  rw [noRepeat_iff, collapseSeparator_eq,
    split_join (fun part hpart => not_mem_of_mem_split (hsub.subset hpart)) hne]
  exact List.isChain_destutter _ _

/-- A pass leaves a text without repetitions as it is, and shortens any other. -/
theorem collapseSeparator_eq_self (h : NoRepeat separator text) :
    collapseSeparator text separator = text := by
  rw [collapseSeparator_eq, List.destutter_of_isChain _ _ (noRepeat_iff.mp h), join_split]

theorem length_collapseSeparator_lt (h : ¬ NoRepeat separator text) :
    (collapseSeparator text separator).length < text.length := by
  rw [noRepeat_iff, ← List.destutter_eq_self_iff] at h
  have hlt := length_join_lt_of_sublist separator
    (List.destutter_sublist _ (split separator text)) ?_ h
  · rwa [join_split, ← collapseSeparator_eq] at hlt
  · rw [Ne, List.destutter_eq_nil]
    exact List.splitOn_ne_nil separator text

/-- The text after the passes for some separators. -/
def passes (text : Text) (separators : List Char) : Text := separators.foldl collapseSeparator text

@[simp] theorem passes_cons (text : Text) (separators : List Char) :
    passes text (separator :: separators) = passes (collapseSeparator text separator) separators :=
  rfl

/-- Passes leave a text without repetitions as it is. -/
theorem passes_eq_self {separators : List Char}
    (h : ∀ separator ∈ separators, NoRepeat separator text) : passes text separators = text := by
  induction separators with
  | nil => rfl
  | cons separator separators ih =>
    obtain ⟨hfirst, hrest⟩ := List.forall_mem_cons.mp h
    rw [passes_cons, collapseSeparator_eq_self hfirst, ih hrest]

/-- Passes leave a text alone or shorten it. -/
theorem passes_eq_or_length_lt (text : Text) (separators : List Char) :
    (∀ separator ∈ separators, NoRepeat separator text) ∧ passes text separators = text ∨
      (passes text separators).length < text.length := by
  induction separators generalizing text with
  | nil => exact Or.inl ⟨fun _ h => absurd h List.not_mem_nil, rfl⟩
  | cons separator separators ih =>
    rw [passes_cons]
    by_cases hrepeat : NoRepeat separator text
    · rw [collapseSeparator_eq_self hrepeat]
      refine (ih text).imp_left fun ⟨hall, heq⟩ => ⟨?_, heq⟩
      exact List.forall_mem_cons.mpr ⟨hrepeat, hall⟩
    · refine Or.inr ((lt_of_le_of_lt ?_) (length_collapseSeparator_lt hrepeat))
      exact (ih (collapseSeparator text separator)).elim (fun h => h.2.symm ▸ le_rfl) le_of_lt

/-- White space around a text makes no difference to the repetitions in it. -/
theorem noRepeat_strip_iff (hseparator : isSpace separator = false) :
    NoRepeat separator (strip text) ↔ NoRepeat separator text := by
  have hphrase : ∀ part, phraseForRepeatMatch (strip part) = phraseForRepeatMatch part := by
    intro part
    rw [phraseForRepeatMatch, phraseForRepeatMatch, strip_strip]
  have hsame : ∀ part next, SamePhrase (strip part) (strip next) ↔ SamePhrase part next := by
    intro part next
    rw [SamePhrase, SamePhrase, hphrase, hphrase]
  have hparts : ∀ parts : List Text, (parts.IsChain fun part next => ¬ SamePhrase part next) ↔
      (parts.map strip).IsChain fun part next => ¬ SamePhrase part next := by
    intro parts
    simp only [List.isChain_map, hsame]
  rw [noRepeat_iff, noRepeat_iff, hparts, hparts (split separator text),
    map_strip_split_strip hseparator]

end Passes

section Settled

variable {separator : Char} {text : Text}

/-- A phrase that stands on one side of a separator only is not repeated there. -/
theorem noRepeat_of_noPhraseAcross (hseparator : separator ∈ repeatSeparators)
    (h : NoPhraseAcross separator (pieces none text)) : NoRepeat separator text := by
  rintro part next ⟨front, back, hparts⟩ hsame
  have htext : text = join separator (front ++ part :: next :: back) := by
    rw [← join_split separator text, ← hparts]
    simp
  obtain ⟨piece, rest, hnext⟩ := pieces_eq_cons (some separator) next
  -- the pieces of the part, which may be the first one of the text, and of the next one
  obtain ⟨before, whole, more, hpieces⟩ : ∃ before whole more,
      pieces none text = whole ++ pieces before part ++ pieces (some separator) next ++ more := by
    cases front with
    | nil =>
      rw [htext, List.nil_append, pieces_join none hseparator]
      exact ⟨none, [], back.flatMap (pieces (some separator)), by simp⟩
    | cons first front =>
      rw [htext, List.cons_append, pieces_join none hseparator]
      exact ⟨some separator, pieces none first ++ front.flatMap (pieces (some separator)),
        back.flatMap (pieces (some separator)), by simp⟩
  obtain ⟨p, hp, q, hq, hpq⟩ := hsame.exists_pieces before (some separator)
  rw [hpieces, hnext, List.append_assoc, List.cons_append] at h
  rw [hnext] at hq
  refine h.not_samePhrase p (List.mem_append_right _ hp) q ?_ hpq
  exact List.mem_append_left more hq

/-- A pass takes pieces out. -/
theorem pieces_collapseSeparator (hseparator : separator ∈ repeatSeparators) (text : Text) :
    (pieces none (collapseSeparator text separator)).Sublist (pieces none text) := by
  obtain ⟨part, parts, hparts⟩ := List.exists_cons_of_ne_nil (List.splitOn_ne_nil separator text)
  obtain ⟨kept, hkept, hsub⟩ := destutter'_eq_cons (fun part next => ¬ SamePhrase part next)
    part parts
  have hsplit : split separator text = part :: parts := hparts
  have htext := join_split separator text
  rw [hsplit] at htext
  rw [collapseSeparator_eq, hsplit, List.destutter_cons', hkept, ← htext,
    pieces_join none hseparator, pieces_join none hseparator]
  exact (hsub.flatMap _).append_left _

theorem pieces_passes {separators : List Char} (h : separators ⊆ repeatSeparators) (text : Text) :
    (pieces none (passes text separators)).Sublist (pieces none text) := by
  induction separators generalizing text with
  | nil => exact List.Sublist.refl _
  | cons separator separators ih =>
    obtain ⟨hfirst, hrest⟩ := List.cons_subset.mp h
    exact (ih hrest _).trans (pieces_collapseSeparator hfirst text)

/-- When phrases stand on both sides of one kind of separator only, no pass brings a repetition
to a separator. -/
theorem noRepeat_passes {own : Char} {separators : List Char}
    (hsubset : separators ⊆ repeatSeparators)
    (h : ∀ separator ∈ repeatSeparators, separator ≠ own →
      NoPhraseAcross separator (pieces none text)) :
    ∀ separator ∈ separators, NoRepeat separator (passes text separators) := by
  induction separators with
  | nil => exact fun _ hmem => absurd hmem List.not_mem_nil
  | cons first rest ih =>
    obtain ⟨hfirst, hrest⟩ := List.cons_subset.mp hsubset
    have hothers {t : Text} (hsub : (pieces none t).Sublist (pieces none text)) :
        ∀ separator ∈ repeatSeparators, separator ≠ own → NoRepeat separator t :=
      fun separator hseparator hne => noRepeat_of_noPhraseAcross hseparator
        ((h separator hseparator hne).sublist hsub)
    rw [passes_cons]
    by_cases hown : first = own
    · -- the only pass that may change the text
      subst hown
      have hall : ∀ other ∈ first :: rest, NoRepeat other (collapseSeparator text first) := by
        intro other hother
        by_cases heq : other = first
        · exact heq ▸ noRepeat_collapseSeparator text first
        · exact hothers (pieces_collapseSeparator hfirst text) other (hsubset hother) heq
      rw [passes_eq_self fun other hother => hall other (List.mem_cons_of_mem first hother)]
      exact hall
    · rw [collapseSeparator_eq_self (hothers (List.Sublist.refl _) first hfirst hown)]
      exact List.forall_mem_cons.mpr
        ⟨hothers (pieces_passes hrest text) first hfirst hown, ih hrest⟩

/-- A stripped text is its own result exactly if it has no repetition. -/
theorem collapseAdjacentRepeatedPhrases_eq_self_iff {text : Text} (h : strip text = text) :
    collapseAdjacentRepeatedPhrases text = text ↔
      ∀ separator ∈ repeatSeparators, NoRepeat separator text := by
  have hresult : collapseAdjacentRepeatedPhrases text = strip (passes text repeatSeparators) := rfl
  rcases passes_eq_or_length_lt text repeatSeparators with ⟨hnone, heq⟩ | hshorter
  · rw [hresult, heq]
    exact ⟨fun _ => hnone, fun _ => h⟩
  · have hlength : (strip (passes text repeatSeparators)).length < text.length :=
      ((rstrip_length_le _).trans (List.dropWhile_suffix isSpace).length_le).trans_lt hshorter
    constructor
    · intro heq
      rw [← hresult, heq] at hlength
      exact absurd hlength (lt_irrefl _)
    · intro hnone
      rw [passes_eq_self hnone] at hshorter
      exact absurd hshorter (lt_irrefl _)

/-- The result has no repetition at any of the three separators, and is its own result, for a text
without repetitions and for a text whose phrases stand on both sides of one kind of separator
only. -/
theorem collapseAdjacentRepeatedPhrases_settled
    (h : (∀ separator ∈ repeatSeparators, NoRepeat separator text) ∨
      ∃ own, ∀ separator ∈ repeatSeparators, separator ≠ own →
        NoPhraseAcross separator (pieces none text)) :
    (∀ separator ∈ repeatSeparators,
        NoRepeat separator (collapseAdjacentRepeatedPhrases text)) ∧
      collapseAdjacentRepeatedPhrases (collapseAdjacentRepeatedPhrases text) =
        collapseAdjacentRepeatedPhrases text := by
  have hresult : collapseAdjacentRepeatedPhrases text = strip (passes text repeatSeparators) := rfl
  have hpasses : ∀ separator ∈ repeatSeparators, NoRepeat separator
      (passes text repeatSeparators) := by
    rcases h with hnone | ⟨own, hacross⟩
    · rwa [passes_eq_self hnone]
    · exact noRepeat_passes (List.Subset.refl _) hacross
  have hnone : ∀ separator ∈ repeatSeparators,
      NoRepeat separator (collapseAdjacentRepeatedPhrases text) := by
    intro separator hseparator
    rw [hresult, noRepeat_strip_iff (isSpace_repeatSeparators hseparator)]
    exact hpasses separator hseparator
  have hstripped : strip (collapseAdjacentRepeatedPhrases text) =
      collapseAdjacentRepeatedPhrases text := by
    rw [hresult, strip_strip]
  exact ⟨hnone, (collapseAdjacentRepeatedPhrases_eq_self_iff hstripped).mpr hnone⟩

/-- A phrase is repeated at one kind of separator, and another kind stands between other phrases. -/
theorem otherSeparator_settled :
    ((∀ separator ∈ repeatSeparators, NoRepeat separator
        (collapseAdjacentRepeatedPhrases "你好，你好，世界、再见".toList)) ∧
      collapseAdjacentRepeatedPhrases
          (collapseAdjacentRepeatedPhrases "你好，你好，世界、再见".toList) =
        collapseAdjacentRepeatedPhrases "你好，你好，世界、再见".toList) ∧
      collapseAdjacentRepeatedPhrases "你好，你好，世界、再见".toList = "你好，世界、再见".toList := by
  have hacross : repeatSeparators.all (fun separator => decide (separator ≠ '，' →
      NoPhraseAcross separator (pieces none "你好，你好，世界、再见".toList))) = true := by
    decide +kernel
  have hothers : ∀ separator ∈ repeatSeparators, separator ≠ '，' →
      NoPhraseAcross separator (pieces none "你好，你好，世界、再见".toList) :=
    fun separator hseparator => of_decide_eq_true (List.all_eq_true.mp hacross separator hseparator)
  exact ⟨collapseAdjacentRepeatedPhrases_settled (.inr ⟨'，', hothers⟩), by decide +kernel⟩

/-- The pass for the last separator drops the second half, which brings two phrases together at
the first one. -/
theorem innerRepeat_left :
    collapseAdjacentRepeatedPhrases "好，好、好，好".toList = "好，好".toList ∧
      collapseAdjacentRepeatedPhrases "好，好".toList = "好".toList ∧
      ¬ NoRepeat '，' (collapseAdjacentRepeatedPhrases "好，好、好，好".toList) := by
  have hresult : collapseAdjacentRepeatedPhrases "好，好、好，好".toList = "好，好".toList := by
    decide +kernel
  refine ⟨hresult, by decide +kernel, fun h => ?_⟩
  rw [hresult] at h
  exact h "好".toList "好".toList (by unfold Neighbours; decide +kernel) (by decide +kernel)

end Settled

end FunasrApi.Online
