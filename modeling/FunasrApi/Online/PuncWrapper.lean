import FunasrApi.Core.WhileLoop
import FunasrApi.Online.TextBoundary

/-!
# Punctuating a long text in parts

A text that is too long for the punctuation model is cut into parts, after a soft break
where there is one late in the part. Wherever the soft breaks are, every round of the loop
gets on, and the parts are the text without its white space.
-/

namespace FunasrApi.Online

open FunasrApi.Core Text

/-- `soft_break_chars`. -/
def softBreakChars : Text := "了的呢啊呀吗吧嘛么着儿啦喽".toList

/-- The search for a soft break: the greatest index up to `index`, and greater than `low`, with a
soft break before it. -/
def softBreak (compact : Text) (low : ℕ) : ℕ → Option ℕ
  | 0 => none
  | index + 1 =>
    if index + 1 ≤ low then none
    else if compact[index]?.any (· ∈ softBreakChars) then some (index + 1)
    else softBreak compact low index

/-- Where the part from `start` on ends. -/
def partEnd (compact : Text) (maxChars start : ℕ) : ℕ :=
  let stop := min (start + maxChars) compact.length
  if stop < compact.length then (softBreak compact (max (start + 30) (stop - 24)) stop).getD stop
  else stop

/-- The variables of the loop. -/
structure PuncSplit where
  parts : List Text
  start : ℕ

/-- `compact[start:stop]`. -/
def sliceText (compact : Text) (start stop : ℕ) : Text := (compact.take stop).drop start

/-- One round of the loop. -/
def PuncSplit.round (compact : Text) (maxChars : ℕ) (s : PuncSplit) : PuncSplit :=
  let stop := partEnd compact maxChars s.start
  ⟨s.parts ++ [sliceText compact s.start stop], stop⟩

/-- `_split_text_for_punc`; `none` when its loop has not ended after so many rounds. -/
def splitTextForPunc (rounds : ℕ) (text : Text) (maxChars : ℕ) : Option (List Text) :=
  let compact := withoutSpace text
  if compact.length ≤ maxChars then some [compact]
  else
    (whileLoop (fun s => s.start < compact.length) (PuncSplit.round compact maxChars) rounds
      ⟨[], 0⟩).map fun s => s.parts.filter (· ≠ [])

section Split

variable {compact : Text} {maxChars : ℕ}

/-- A soft break is found in the window of the search. -/
theorem softBreak_mem {low index found : ℕ} (h : softBreak compact low index = some found) :
    low < found ∧ found ≤ index := by
  induction index with
  | zero => cases h
  | succ index ih =>
    unfold softBreak at h
    split at h
    · cases h
    · split at h
      · obtain rfl := Option.some.inj h
        omega
      · have hfound := ih h
        omega

/-- A part is neither empty nor too long, and ends in the text. -/
theorem partEnd_mem {start : ℕ} (hmax : 1 ≤ maxChars) (hstart : start < compact.length) :
    start < partEnd compact maxChars start ∧ partEnd compact maxChars start ≤ start + maxChars ∧
      partEnd compact maxChars start ≤ compact.length := by
  unfold partEnd
  dsimp only
  split
  · cases hfound : softBreak compact
        (max (start + 30) (min (start + maxChars) compact.length - 24))
        (min (start + maxChars) compact.length) with
    | none =>
      rw [Option.getD_none]
      omega
    | some found =>
      have hmem := softBreak_mem hfound
      rw [Option.getD_some]
      omega
  · omega

/-- The parts so far are the text up to where the next one starts. -/
structure PuncSplit.Cuts (compact : Text) (maxChars : ℕ) (s : PuncSplit) : Prop where
  start_le : s.start ≤ compact.length
  join : s.parts.flatten = compact.take s.start
  part : ∀ part ∈ s.parts, part ≠ [] ∧ part.length ≤ maxChars

theorem PuncSplit.Cuts.start : PuncSplit.Cuts compact maxChars ⟨[], 0⟩ :=
  ⟨Nat.zero_le _, rfl, fun _ h => absurd h List.not_mem_nil⟩

/-- A round of the loop adds a part. -/
theorem PuncSplit.Cuts.round {s : PuncSplit} (h : s.Cuts compact maxChars) (hmax : 1 ≤ maxChars)
    (hstart : s.start < compact.length) : (s.round compact maxChars).Cuts compact maxChars := by
  obtain ⟨hnext, hsize, hend⟩ := partEnd_mem hmax hstart
  have hlength : (sliceText compact s.start (partEnd compact maxChars s.start)).length =
      partEnd compact maxChars s.start - s.start := by
    rw [sliceText, List.length_drop, List.length_take, min_eq_left hend]
  refine ⟨hend, ?_, ?_⟩
  · have hfront : (compact.take (partEnd compact maxChars s.start)).take s.start =
        compact.take s.start := by
      rw [List.take_take, min_eq_left hnext.le]
    rw [PuncSplit.round, List.flatten_append, List.flatten_singleton, h.join, ← hfront, sliceText]
    exact List.take_append_drop _ _
  · intro part hpart
    rcases List.mem_append.mp hpart with hold | hnew
    · exact h.part part hold
    · obtain rfl := List.mem_singleton.mp hnew
      refine ⟨List.ne_nil_of_length_pos ?_, ?_⟩ <;> omega

/-- The parts that make up a text. -/
structure PartsOf (text : Text) (maxChars : ℕ) (parts : List Text) : Prop where
  join : parts.flatten = withoutSpace text
  length_le : ∀ part ∈ parts, part.length ≤ maxChars
  ne_nil : withoutSpace text ≠ [] → ∀ part ∈ parts, part ≠ []
  single : (withoutSpace text).length ≤ maxChars → parts = [withoutSpace text]

/-- Where the loop ends, the parts make up the text. -/
theorem partsOf_of_splitTextForPunc {text : Text} {rounds : ℕ} {parts : List Text}
    (hmax : 1 ≤ maxChars) (h : splitTextForPunc rounds text maxChars = some parts) :
    PartsOf text maxChars parts := by
  by_cases hfits : (withoutSpace text).length ≤ maxChars
  · obtain rfl := Option.some.inj ((if_pos hfits).symm.trans h)
    constructor
    · exact List.flatten_singleton
    · simpa using hfits
    · simp
    · exact fun _ => rfl
  · unfold splitTextForPunc at h
    rw [if_neg hfits] at h
    obtain ⟨s, hloop, rfl⟩ := Option.map_eq_some_iff.mp h
    obtain ⟨hcuts, hstop⟩ := whileLoop_invariant (I := PuncSplit.Cuts (withoutSpace text) maxChars)
      (fun _ hcuts hguard => hcuts.round hmax (of_decide_eq_true hguard)) .start hloop
    have hend : (withoutSpace text).length ≤ s.start := Nat.le_of_not_lt (of_decide_eq_false hstop)
    have hkept : s.parts.filter (· ≠ []) = s.parts :=
      List.filter_eq_self.mpr fun part hpart => by simpa using (hcuts.part part hpart).1
    rw [hkept]
    constructor
    · rw [hcuts.join, List.take_of_length_le hend]
    · exact fun part hpart => (hcuts.part part hpart).2
    · exact fun _ part hpart => (hcuts.part part hpart).1
    · exact fun hle => absurd hle hfits

/-- The loop ends, since every round gets on. -/
theorem splitTextForPunc_ends (text : Text) (hmax : 1 ≤ maxChars) :
    ∃ parts, ∀ rounds, (withoutSpace text).length < rounds →
      splitTextForPunc rounds text maxChars = some parts := by
  by_cases hfits : (withoutSpace text).length ≤ maxChars
  · exact ⟨_, fun _ _ => if_pos hfits⟩
  · obtain ⟨s, hruns⟩ := whileLoop_ends (fun s => s.start < (withoutSpace text).length)
      (PuncSplit.round (withoutSpace text) maxChars)
      (fun s => (withoutSpace text).length - s.start)
      (fun s hguard => by
        have hstart : s.start < (withoutSpace text).length := of_decide_eq_true hguard
        exact Nat.sub_lt_sub_left hstart (partEnd_mem hmax hstart).1) ⟨[], 0⟩
    refine ⟨s.parts.filter (· ≠ []), fun rounds hrounds => ?_⟩
    unfold splitTextForPunc
    rw [if_neg hfits, hruns rounds hrounds, Option.map_some]

/-- A text is cut into parts that are not too long and make up the text without its white space,
wherever the soft breaks are; no part is empty unless nothing is to be seen in the text. -/
theorem splitTextForPunc_parts (text : Text) (hmax : 1 ≤ maxChars) :
    ∃ parts, (∀ rounds, (withoutSpace text).length < rounds →
        splitTextForPunc rounds text maxChars = some parts) ∧
      parts.flatten = withoutSpace text ∧ (∀ part ∈ parts, part.length ≤ maxChars) ∧
      (withoutSpace text ≠ [] → ∀ part ∈ parts, part ≠ []) ∧
      ((withoutSpace text).length ≤ maxChars → parts = [withoutSpace text]) := by
  obtain ⟨parts, hruns⟩ := splitTextForPunc_ends text hmax
  have hparts := partsOf_of_splitTextForPunc hmax (hruns _ (Nat.lt_succ_self _))
  exact ⟨parts, hruns, hparts.join, hparts.length_le, hparts.ne_nil, hparts.single⟩

/-- A text of forty-six characters, with a soft break after the thirty-sixth. -/
def softBreakText : Text := List.replicate 35 '好' ++ '的' :: List.replicate 10 '好'

/-- It is cut there, although four more characters would fit in. -/
theorem softBreakText_parts :
    splitTextForPunc 47 softBreakText 40 =
        some [List.replicate 35 '好' ++ ['的'], List.replicate 10 '好'] ∧
      ∃ parts, splitTextForPunc 47 softBreakText 40 = some parts ∧
        parts.flatten = softBreakText ∧ ∀ part ∈ parts, part ≠ [] := by
  have hvisible : withoutSpace softBreakText = softBreakText := by decide +kernel
  have hlength : softBreakText.length = 46 := by decide +kernel
  obtain ⟨parts, hruns, hjoin, -, hne, -⟩ :=
    splitTextForPunc_parts softBreakText (show 1 ≤ 40 by decide)
  rw [hvisible] at hruns hjoin hne
  refine ⟨by decide +kernel, parts, hruns 47 (by omega), hjoin, hne ?_⟩
  exact List.ne_nil_of_length_pos (by omega)

/-- A text of white space is one part, and that is empty. -/
theorem blankText_emptyPart :
    splitTextForPunc 1 " ".toList 80 = some [[]] ∧
      ¬ ∃ parts, (∀ rounds, (withoutSpace " ".toList).length < rounds →
          splitTextForPunc rounds " ".toList 80 = some parts) ∧
        parts.flatten = withoutSpace " ".toList ∧ ∀ part ∈ parts, part ≠ [] := by
  refine ⟨rfl, ?_⟩
  rintro ⟨parts, hruns, -, hne⟩
  obtain rfl : [[]] = parts := Option.some.inj (hruns 1 (by decide))
  exact hne [] List.mem_cons_self rfl

end Split

end FunasrApi.Online
