import FunasrApi.Core.PythonText
import Mathlib.Data.List.Chain

/-!
# Cleaning of recognized text

The substitutions that take markup and transport artifacts out of a recognized
text. Plain characters with single spaces between them pass through them.
-/

namespace FunasrApi.Online

open FunasrApi.Core Text

/-- `re.sub` of the stretches from an opening mark to the next closing one, with no break between
them. What follows an opening mark is pending until the stretch ends: it is gone with the closing
mark, and stays with a break and at the end. -/
def removeSpans (opening closing : Char) (breaks : Char → Bool) : Option Text → Text → Text
  | none, [] => []
  | some pending, [] => pending
  | none, c :: rest =>
    if c = opening then removeSpans opening closing breaks (some [c]) rest
    else c :: removeSpans opening closing breaks none rest
  | some pending, c :: rest =>
    if c = closing then removeSpans opening closing breaks none rest
    else if breaks c then pending ++ c :: removeSpans opening closing breaks none rest
    else removeSpans opening closing breaks (some (pending ++ [c])) rest

/-- `re.sub` of some words, after so many characters of a word that goes. -/
def removeWords (removed : List Text) : ℕ → Text → Text
  | _, [] => []
  | skip + 1, _ :: rest => removeWords removed skip rest
  | 0, c :: rest =>
    match removed.find? fun word => word.isPrefixOf (c :: rest) with
    | some word => removeWords removed (word.length - 1) rest
    | none => c :: removeWords removed 0 rest

/-- `re.sub(r"\s+", " ", text)`, after white space or not. -/
def collapseSpace : Bool → Text → Text
  | _, [] => []
  | after, c :: rest =>
    if isSpace c then
      if after then collapseSpace true rest else ' ' :: collapseSpace true rest
    else c :: collapseSpace false rest

/-- The class of single characters that are removed. -/
def strayMarks : Text := ['Ｏ', '[', ']', '&', '＆', '|', '｜']

/-- The words that are removed. -/
def transportWords : List Text := ["/sil".toList, "endofbreak".toList, "FFFF".toList]

/-- `clean_online_asr_text`. -/
def cleanOnlineAsrText (text : Text) : Text :=
  if text = [] then []
  else
    let text := removeSpans '<' '>' (fun _ => false) none text
    let text := removeSpans '[' ']' (· == '\n') none text
    let text := text.filter fun c => !strayMarks.contains c
    let text := removeWords transportWords 0 text
    let text := collapseSpace false text
    strip text

/-- A character that no substitution is about. -/
def Plain (c : Char) : Prop := isSpace c = false ∧ c ≠ '<' ∧ c ∉ strayMarks

theorem removeSpans_of_not_mem {opening closing : Char} {breaks : Char → Bool} {text : Text}
    (h : opening ∉ text) : removeSpans opening closing breaks none text = text := by
  induction text with
  | nil => rfl
  | cons c rest ih =>
    rw [List.mem_cons, not_or] at h
    rw [removeSpans, if_neg (Ne.symm h.1), ih h.2]

/-- Without a word at any place nothing is removed. -/
theorem removeWords_of_not_isInfix {removed : List Text} {text : Text}
    (h : ∀ word ∈ removed, ¬ word <:+: text) : removeWords removed 0 text = text := by
  induction text with
  | nil => rfl
  | cons c rest ih =>
    have hnone : removed.find? (fun word => word.isPrefixOf (c :: rest)) = none := by
      rw [List.find?_eq_none]
      intro word hword hprefix
      exact h word hword (List.isPrefixOf_iff_prefix.mp hprefix).isInfix
    rw [removeWords, hnone]
    exact congrArg (c :: ·) (ih fun word hword hin => h word hword (List.infix_cons hin))

section Spaced

variable {chars : List Char}

/-- Of two neighbours one is the space between characters. -/
theorem isChain_intersperse (chars : List Char) :
    (chars.intersperse ' ').IsChain fun a b => a = ' ' ∨ b = ' ' := by
  induction chars with
  | nil => exact List.isChain_nil
  | cons c rest ih =>
    cases rest with
    | nil => exact List.isChain_singleton c
    | cons d rest =>
      rw [List.intersperse_cons_cons, List.isChain_cons_cons, List.isChain_cons]
      exact ⟨.inr rfl, fun _ _ => .inl rfl, ih⟩

theorem eq_space_or_mem_of_mem_intersperse {c : Char} (h : c ∈ chars.intersperse ' ') :
    c = ' ' ∨ c ∈ chars := by
  induction chars with
  | nil => cases h
  | cons d rest ih =>
    cases rest with
    | nil => exact .inr h
    | cons e rest =>
      rw [List.intersperse_cons_cons, List.mem_cons, List.mem_cons] at h
      rcases h with rfl | rfl | h
      · exact .inr List.mem_cons_self
      · exact .inl rfl
      · exact (ih h).imp_right (List.mem_cons_of_mem d)

theorem collapseSpace_intersperse (h : ∀ c ∈ chars, isSpace c = false) (after : Bool) :
    collapseSpace after (chars.intersperse ' ') = chars.intersperse ' ' := by
  induction chars generalizing after with
  | nil => rfl
  | cons c rest ih =>
    have hc : isSpace c = false := h c List.mem_cons_self
    cases rest with
    | nil => simp [collapseSpace, hc]
    | cons d rest =>
      have hspace : isSpace ' ' = true := by decide
      rw [List.intersperse_cons_cons, collapseSpace, if_neg (by simp [hc]), collapseSpace,
        if_pos hspace, if_neg Bool.false_ne_true, ih (fun e he => h e (List.mem_cons_of_mem c he))]

/-- Characters with spaces between them begin and end with a character. -/
theorem intersperse_ends (hne : chars ≠ []) :
    (∃ c ∈ chars, ∃ rest, chars.intersperse ' ' = c :: rest) ∧
      ∃ c ∈ chars, ∃ front, chars.intersperse ' ' = front ++ [c] := by
  induction chars with
  | nil => exact absurd rfl hne
  | cons c rest ih =>
    cases rest with
    | nil => exact ⟨⟨c, List.mem_cons_self, [], rfl⟩, c, List.mem_cons_self, [], rfl⟩
    | cons d rest =>
      obtain ⟨-, last, hlast, front, hfront⟩ := ih (List.cons_ne_nil d rest)
      rw [List.intersperse_cons_cons, hfront]
      exact ⟨⟨c, List.mem_cons_self, _, rfl⟩, last, List.mem_cons_of_mem c hlast,
        c :: ' ' :: front, rfl⟩

theorem strip_intersperse (h : ∀ c ∈ chars, isSpace c = false) :
    strip (chars.intersperse ' ') = chars.intersperse ' ' := by
  by_cases hne : chars = []
  · rw [hne]
    rfl
  · obtain ⟨⟨first, hfirst, rest, hrest⟩, last, hlast, front, hfront⟩ := intersperse_ends hne
    have hleft : lstrip (chars.intersperse ' ') = chars.intersperse ' ' := by
      rw [hrest, lstrip, List.dropWhile_cons_of_neg (by simp [h first hfirst])]
    rw [strip, hleft, hfront, rstrip, List.rdropWhile_concat_neg _ _ _ (by simp [h last hlast])]

/-- Plain characters with single spaces between them are clean. -/
theorem cleanOnlineAsrText_intersperse (h : ∀ c ∈ chars, Plain c) :
    cleanOnlineAsrText (chars.intersperse ' ') = chars.intersperse ' ' := by
  have hmem {c : Char} (hc : c ∈ chars.intersperse ' ') : c = ' ' ∨ Plain c :=
    (eq_space_or_mem_of_mem_intersperse hc).imp_right (h c)
  have htag : '<' ∉ chars.intersperse ' ' := fun hin =>
    (hmem hin).elim (by decide) fun hplain => hplain.2.1 rfl
  have hstray : ∀ c ∈ chars.intersperse ' ', c ∉ strayMarks := fun c hc =>
    (hmem hc).elim (fun heq => heq ▸ by decide) fun hplain => hplain.2.2
  have hbracket : '[' ∉ chars.intersperse ' ' := fun hin => hstray '[' hin (by decide)
  have hfilter : (chars.intersperse ' ').filter (fun c => !strayMarks.contains c) =
      chars.intersperse ' ' :=
    List.filter_eq_self.mpr fun c hc => by simp [hstray c hc]
  have hwords : ∀ word ∈ transportWords, ¬ word <:+: chars.intersperse ' ' := by
    rintro word hword ⟨front, back, heq⟩
    have hnot : ∀ word ∈ transportWords, ¬ word.IsChain fun a b => a = ' ' ∨ b = ' ' := by decide
    have hchain := isChain_intersperse chars
    rw [← heq, List.isChain_append, List.isChain_append] at hchain
    exact hnot word hword hchain.1.2.1
  have hspace : ∀ c ∈ chars, isSpace c = false := fun c hc => (h c hc).1
  unfold cleanOnlineAsrText
  dsimp only
  rw [removeSpans_of_not_mem htag, removeSpans_of_not_mem hbracket, hfilter,
    removeWords_of_not_isInfix hwords, collapseSpace_intersperse hspace, strip_intersperse hspace]
  split
  · next hnil => exact hnil.symm
  · rfl

end Spaced

end FunasrApi.Online
