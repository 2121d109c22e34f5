import FunasrApi.Online.ModelPayload

/-!
# Texts that cleaning leaves alone

Cleaning changes nothing of a text exactly if the text is free of artifacts. Markup,
brackets, stray marks and runs of white space never outlast one cleaning. A transport
word does where it stands in pieces with whole transport words between them, and only
there: then a second cleaning takes more away.
-/

namespace FunasrApi.Online

open FunasrApi.Core Text

section Spans

variable {opening closing : Char} {breaks : Char → Bool}

/-- Nothing is added by removing stretches. -/
theorem removeSpans_sublist (pending : Option Text) (text : Text) :
    (removeSpans opening closing breaks pending text).Sublist (pending.getD [] ++ text) := by
  induction text generalizing pending with
  | nil =>
    cases pending with
    | none => exact List.Sublist.refl []
    | some pending => exact (List.append_nil pending).symm ▸ List.Sublist.refl pending
  | cons c rest ih =>
    cases pending with
    | none =>
      rw [removeSpans]
      split
      · next heq => exact heq ▸ ih (some [c])
      · exact (ih none).cons_cons c
    | some pending =>
      rw [removeSpans]
      split
      · exact ((ih none).cons c).trans (List.sublist_append_right pending (c :: rest))
      · split
        · exact ((ih none).cons_cons c).append_left pending
        · simpa using ih (some (pending ++ [c]))

/-- No opening mark is left before a closing one. -/
theorem not_sublist_removeSpans (hne : opening ≠ closing) (text : Text) :
    ¬ [opening, closing].Sublist (removeSpans opening closing (fun _ => false) none text) ∧
      ∀ pending : Text, closing ∉ pending →
        ¬ [opening, closing].Sublist
          (removeSpans opening closing (fun _ => false) (some pending) text) := by
  induction text with
  | nil =>
    refine ⟨by simp [removeSpans], fun pending hpending hsub => ?_⟩
    exact hpending (hsub.subset (by simp))
  | cons c rest ih =>
    obtain ⟨hnone, hsome⟩ := ih
    constructor
    · rw [removeSpans]
      split
      · next heq => exact hsome [c] (by simpa [heq] using hne.symm)
      · next hopen =>
        intro hsub
        rcases List.sublist_cons_iff.mp hsub with hrest | ⟨_, heq, -⟩
        · exact hnone hrest
        · exact hopen (List.cons.inj heq).1.symm
    · intro pending hpending
      rw [removeSpans]
      split
      · exact hnone
      · next hclose =>
        rw [if_neg Bool.false_ne_true]
        exact hsome _ (by simp [hpending, Ne.symm hclose])

/-- Without a closing mark nothing is removed. -/
theorem removeSpans_of_closing_not_mem (pending : Option Text) {text : Text}
    (h : closing ∉ text) :
    removeSpans opening closing breaks pending text = pending.getD [] ++ text := by
  induction text generalizing pending with
  | nil =>
    cases pending with
    | none => rfl
    | some pending => exact (List.append_nil pending).symm
  | cons c rest ih =>
    rw [List.mem_cons, not_or] at h
    cases pending with
    | none =>
      rw [removeSpans, ih (some [c]) h.2, ih none h.2]
      split
      · next heq => rw [heq]; rfl
      · rfl
    | some pending =>
      rw [removeSpans, if_neg (Ne.symm h.1), ih none h.2, ih (some (pending ++ [c])) h.2]
      split
      · rfl
      · simp

/-- An opening mark with no closing one after it stays. -/
theorem removeSpans_eq_self {text : Text} (h : ¬ [opening, closing].Sublist text) :
    removeSpans opening closing breaks none text = text := by
  induction text with
  | nil => rfl
  | cons c rest ih =>
    rw [removeSpans]
    split
    · next heq =>
      have hclosing : closing ∉ rest := fun hmem =>
        h (heq ▸ (List.singleton_sublist.mpr hmem).cons_cons c)
      rw [removeSpans_of_closing_not_mem (some [c]) hclosing]
      rfl
    · rw [ih fun hsub => h (hsub.cons c)]

end Spans

section Words

variable {removed : List Text}

/-- Nothing is added by removing words. -/
theorem removeWords_sublist (removed : List Text) (skip : ℕ) (text : Text) :
    (removeWords removed skip text).Sublist text := by
  induction text generalizing skip with
  | nil => cases skip <;> exact List.Sublist.refl []
  | cons c rest ih =>
    cases skip with
    | succ skip => exact (ih skip).cons c
    | zero =>
      rw [removeWords]
      split
      · exact (ih _).cons c
      · exact (ih 0).cons_cons c

/-- What is left after a word does not depend on the word. -/
theorem removeWords_skip (skip : ℕ) (text : Text) :
    removeWords removed skip text = removeWords removed 0 (text.drop skip) := by
  induction text generalizing skip with
  | nil => cases skip <;> simp [removeWords]
  | cons c rest ih =>
    cases skip with
    | zero => rfl
    | succ skip => exact ih skip

/-- The word that is removed where a text begins. -/
def standing (removed : List Text) (text : Text) : Option Text :=
  removed.find? fun word => word.isPrefixOf text

theorem standing_eq_none_iff {text : Text} :
    standing removed text = none ↔ ∀ word ∈ removed, ¬ word <+: text := by
  simp [standing]

theorem removeWords_of_standing {c : Char} {rest word : Text} (hne : [] ∉ removed)
    (h : standing removed (c :: rest) = some word) :
    removeWords removed 0 (c :: rest) = removeWords removed 0 ((c :: rest).drop word.length) := by
  have hword : word ≠ [] := fun hnil => hne (hnil ▸ List.mem_of_find?_eq_some h)
  obtain ⟨d, tail, rfl⟩ := List.exists_cons_of_ne_nil hword
  rw [removeWords, show removed.find? _ = _ from h]
  exact removeWords_skip _ rest

theorem removeWords_of_none {c : Char} {rest : Text} (h : standing removed (c :: rest) = none) :
    removeWords removed 0 (c :: rest) = c :: removeWords removed 0 rest := by
  rw [removeWords, show removed.find? _ = _ from h]

/-- A text that loses no word has none. -/
theorem removeWords_eq_self_iff {text : Text} (hne : [] ∉ removed) :
    removeWords removed 0 text = text ↔ ∀ word ∈ removed, ¬ word <:+: text := by
  refine ⟨fun h => ?_, removeWords_of_not_isInfix⟩
  induction text with
  | nil =>
    intro word hword hin
    exact hne (List.infix_nil.mp hin ▸ hword)
  | cons c rest ih =>
    cases hstand : standing removed (c :: rest) with
    | some word =>
      -- the rest is too short
      have hlength := (removeWords_sublist removed 0 ((c :: rest).drop word.length)).length_le
      rw [← removeWords_of_standing hne hstand, h, List.length_drop] at hlength
      have hword : 0 < word.length := List.length_pos_of_ne_nil fun hnil =>
        hne (hnil ▸ List.mem_of_find?_eq_some hstand)
      rw [List.length_cons] at hlength
      omega
    | none =>
      rw [removeWords_of_none hstand] at h
      intro word hword hin
      rcases List.infix_cons_iff.mp hin with hstart | hrest
      · exact standing_eq_none_iff.mp hstand word hword hstart
      · exact ih (List.cons.inj h).2 word hword hrest

/-- The letters of a word, read from where the text begins past the words that are removed. -/
inductive Spells (removed : List Text) : Text → Text → Prop
  | done (text : Text) : Spells removed [] text
  | letter {c : Char} {word text : Text} (hnone : standing removed (c :: text) = none)
      (h : Spells removed word text) : Spells removed (c :: word) (c :: text)
  | past {word text whole : Text} (hwhole : standing removed text = some whole)
      (h : Spells removed word (text.drop whole.length)) : Spells removed word text

/-- One of the words stands in the text in pieces, with whole words between them: where a whole
word stands it is passed over, and so its letters are read from other places. -/
inductive Interrupted (removed : List Text) : Text → Prop
  | here {word text : Text} (hword : word ∈ removed) (h : Spells removed word text) :
      Interrupted removed text
  | letter {c : Char} {text : Text} (hnone : standing removed (c :: text) = none)
      (h : Interrupted removed text) : Interrupted removed (c :: text)
  | past {text whole : Text} (hwhole : standing removed text = some whole)
      (h : Interrupted removed (text.drop whole.length)) : Interrupted removed text

/-- The scan of a text, by what stands where it is. -/
@[elab_as_elim]
theorem scan_induction (hne : [] ∉ removed) {motive : Text → Prop} (nil : motive [])
    (letter : ∀ c rest, standing removed (c :: rest) = none → motive rest → motive (c :: rest))
    (past : ∀ c rest whole, standing removed (c :: rest) = some whole →
      motive ((c :: rest).drop whole.length) → motive (c :: rest)) (text : Text) : motive text := by
  induction hlength : text.length using Nat.strong_induction_on generalizing text with
  | _ n ih =>
    subst hlength
    cases text with
    | nil => exact nil
    | cons c rest =>
      cases hstand : standing removed (c :: rest) with
      | none => exact letter c rest hstand (ih rest.length (Nat.lt_succ_self _) rest rfl)
      | some whole =>
        have hwhole : 0 < whole.length := List.length_pos_of_ne_nil fun hnil =>
          hne (hnil ▸ List.mem_of_find?_eq_some hstand)
        have hshorter : ((c :: rest).drop whole.length).length < (c :: rest).length := by
          rw [List.length_drop, List.length_cons]
          omega
        exact past c rest whole hstand (ih _ hshorter _ rfl)

/-- The letters that are read are those that stay. -/
theorem spells_iff (hne : [] ∉ removed) {word text : Text} :
    Spells removed word text ↔ word <+: removeWords removed 0 text := by
  constructor
  · intro h
    induction h with
    | done text => exact List.nil_prefix
    | letter hnone _ ih =>
      rw [removeWords_of_none hnone]
      exact List.cons_prefix_cons.mpr ⟨rfl, ih⟩
    | @past word text whole hwhole _ ih =>
      cases text with
      | nil =>
        rw [List.drop_nil] at ih
        exact ih
      | cons c rest => exact removeWords_of_standing hne hwhole ▸ ih
  · intro h
    induction text using scan_induction hne generalizing word with
    | nil =>
      rw [List.prefix_nil.mp h]
      exact .done []
    | letter c rest hnone ih =>
      rw [removeWords_of_none hnone] at h
      cases word with
      | nil => exact .done _
      | cons d word =>
        obtain ⟨rfl, hrest⟩ := List.cons_prefix_cons.mp h
        exact .letter hnone (ih hrest)
    | past c rest whole hwhole ih =>
      rw [removeWords_of_standing hne hwhole] at h
      exact .past hwhole (ih h)

/-- Exactly the words that stand in pieces outlast the removal. -/
theorem interrupted_iff (hne : [] ∉ removed) {text : Text} :
    Interrupted removed text ↔ ∃ word ∈ removed, word <:+: removeWords removed 0 text := by
  constructor
  · intro h
    induction h with
    | here hword h => exact ⟨_, hword, ((spells_iff hne).mp h).isInfix⟩
    | letter hnone _ ih =>
      obtain ⟨word, hword, hin⟩ := ih
      rw [removeWords_of_none hnone]
      exact ⟨word, hword, List.infix_cons hin⟩
    | @past text whole hwhole _ ih =>
      cases text with
      | nil =>
        rw [List.drop_nil] at ih
        exact ih
      | cons c rest => exact removeWords_of_standing hne hwhole ▸ ih
  · rintro ⟨word, hword, hin⟩
    induction text using scan_induction hne with
    | nil => exact absurd (List.infix_nil.mp hin ▸ hword) hne
    | letter c rest hnone ih =>
      rw [removeWords_of_none hnone] at hin
      rcases List.infix_cons_iff.mp hin with hstart | hrest
      · refine .here hword ((spells_iff hne).mpr ?_)
        rwa [removeWords_of_none hnone]
      · exact .letter hnone (ih hrest)
    | past c rest whole hwhole ih =>
      rw [removeWords_of_standing hne hwhole] at hin
      exact .past hwhole (ih hin)

end Words

section Spaces

/-- The white space consists of single spaces. -/
def SingleSpaced (text : Text) : Prop :=
  (∀ c ∈ text, isSpace c = true → c = ' ') ∧
    text.IsChain fun a b => isSpace a = false ∨ isSpace b = false

theorem SingleSpaced.of_isInfix {part text : Text} (h : SingleSpaced text)
    (hin : part <:+: text) : SingleSpaced part := by
  obtain ⟨front, back, rfl⟩ := hin
  refine ⟨fun c hc => h.1 c (by simp [hc]), ?_⟩
  have hchain := h.2
  rw [List.isChain_append, List.isChain_append] at hchain
  exact hchain.1.2.1

theorem strip_isInfix (text : Text) : strip text <:+: text :=
  (List.rdropWhile_prefix isSpace (lstrip text)).isInfix.trans
    (List.dropWhile_suffix isSpace).isInfix

theorem length_collapseSpace_le (after : Bool) (text : Text) :
    (collapseSpace after text).length ≤ text.length := by
  induction text generalizing after with
  | nil => exact le_rfl
  | cons c rest ih =>
    rw [collapseSpace]
    split
    · split
      · exact (ih true).trans (Nat.le_succ _)
      · exact Nat.succ_le_succ (ih true)
    · exact Nat.succ_le_succ (ih false)

/-- What is not white space stays. -/
@[simp] theorem withoutSpace_collapseSpace (after : Bool) (text : Text) :
    withoutSpace (collapseSpace after text) = withoutSpace text := by
  induction text generalizing after with
  | nil => rfl
  | cons c rest ih =>
    have hblank : isSpace ' ' = true := by decide
    unfold withoutSpace at ih ⊢
    rw [collapseSpace]
    by_cases hc : isSpace c = true
    · cases after <;> simp [hc, hblank, ih]
    · simp [hc, ih]

/-- Single spaces are left, and none after a space. -/
theorem singleSpaced_collapseSpace (after : Bool) (text : Text) :
    SingleSpaced (collapseSpace after text) ∧
      (after = true → ∀ c ∈ (collapseSpace after text).head?, isSpace c = false) := by
  induction text generalizing after with
  | nil => exact ⟨⟨by simp [collapseSpace], List.isChain_nil⟩, by simp [collapseSpace]⟩
  | cons c rest ih =>
    obtain ⟨⟨hspaces, hchain⟩, hhead⟩ := ih true
    obtain ⟨⟨hspaces', hchain'⟩, -⟩ := ih false
    rw [collapseSpace]
    split
    · split
      · next hafter => exact hafter ▸ ih true
      · next hafter =>
        refine ⟨⟨fun d hd hdspace => ?_, ?_⟩, fun h => absurd h hafter⟩
        · rcases List.mem_cons.mp hd with rfl | hd
          · rfl
          · exact hspaces d hd hdspace
        · exact List.isChain_cons.mpr ⟨fun d hd => Or.inr (hhead rfl d hd), hchain⟩
    · next hc =>
      have hc : isSpace c = false := by simpa using hc
      refine ⟨⟨fun d hd hdspace => ?_, ?_⟩, fun _ d hd => ?_⟩
      · rcases List.mem_cons.mp hd with rfl | hd
        · exact absurd hdspace (by simp [hc])
        · exact hspaces' d hd hdspace
      · exact List.isChain_cons.mpr ⟨fun _ _ => Or.inl hc, hchain'⟩
      · obtain rfl := Option.some.inj hd
        exact hc

/-- Single spaces are left alone. -/
theorem collapseSpace_eq_self {text : Text} (h : SingleSpaced text) (after : Bool)
    (hafter : after = true → ∀ c ∈ text.head?, isSpace c = false) :
    collapseSpace after text = text := by
  induction text generalizing after with
  | nil => rfl
  | cons c rest ih =>
    obtain ⟨hspaces, hchain⟩ := h
    obtain ⟨hnext, hrest⟩ := List.isChain_cons.mp hchain
    have hrestSpaced : SingleSpaced rest :=
      ⟨fun d hd => hspaces d (List.mem_cons_of_mem c hd), hrest⟩
    rw [collapseSpace]
    split
    · next hc =>
      have hplace : after ≠ true := fun htrue => by
        rw [hafter htrue c rfl] at hc
        cases hc
      rw [if_neg hplace, hspaces c List.mem_cons_self hc]
      refine congrArg _ (ih hrestSpaced true fun _ d hd => ?_)
      exact (hnext d hd).resolve_left (by simp [hc])
    · exact congrArg _ (ih hrestSpaced false fun hfalse => absurd hfalse Bool.false_ne_true)

variable {word text : Text}

/-- A word without white space begins a text with collapsed spaces if it begins the text. -/
theorem prefix_collapseSpace_iff (hword : ∀ c ∈ word, isSpace c = false) (text : Text) :
    word <+: collapseSpace false text ↔ word <+: text := by
  induction word generalizing text with
  | nil => simp
  | cons d word ih =>
    obtain ⟨hd, hrest⟩ := List.forall_mem_cons.mp hword
    cases text with
    | nil => rfl
    | cons c rest =>
      rw [collapseSpace]
      split
      · next hc =>
        have hcd : d ≠ c := fun heq => by
          rw [heq, hc] at hd
          cases hd
        have hblank : d ≠ ' ' := fun heq => by
          rw [heq] at hd
          cases hd
        rw [if_neg Bool.false_ne_true]
        simp only [List.cons_prefix_cons, hcd, hblank, false_and]
      · simp only [List.cons_prefix_cons, ih hrest]

/-- A word without white space does not begin at a space. -/
theorem not_prefix_of_isSpace (hword : ∀ c ∈ word, isSpace c = false) (hne : word ≠ []) {c : Char}
    (hc : isSpace c = true) (rest : Text) : ¬ word <+: c :: rest := by
  obtain ⟨d, tail, rfl⟩ := List.exists_cons_of_ne_nil hne
  intro hstart
  obtain ⟨rfl, -⟩ := List.cons_prefix_cons.mp hstart
  rw [hword d List.mem_cons_self] at hc
  cases hc

/-- Collapsing spaces makes no word and breaks none. -/
theorem infix_collapseSpace_iff (hword : ∀ c ∈ word, isSpace c = false) (hne : word ≠ [])
    (after : Bool) : word <:+: collapseSpace after text ↔ word <:+: text := by
  induction text generalizing after with
  | nil => rfl
  | cons c rest ih =>
    have hblank : isSpace ' ' = true := by decide
    rw [collapseSpace]
    split
    · next hc =>
      have hstart := not_prefix_of_isSpace hword hne hc rest
      split
      · simp only [List.infix_cons_iff, hstart, false_or, ih]
      · have hblankStart := not_prefix_of_isSpace hword hne hblank (collapseSpace true rest)
        simp only [List.infix_cons_iff, hstart, hblankStart, false_or, ih]
    · next hc =>
      have hstart : word <+: c :: collapseSpace false rest ↔ word <+: c :: rest := by
        rw [← prefix_collapseSpace_iff hword (c :: rest), collapseSpace, if_neg hc]
      simp only [List.infix_cons_iff, hstart, ih]

theorem infix_lstrip_iff (hword : ∀ c ∈ word, isSpace c = false) (hne : word ≠ []) :
    word <:+: lstrip text ↔ word <:+: text := by
  induction text with
  | nil => rfl
  | cons c rest ih =>
    unfold lstrip at ih ⊢
    by_cases hc : isSpace c = true
    · rw [List.dropWhile_cons_of_pos hc, ih, List.infix_cons_iff]
      simp only [not_prefix_of_isSpace hword hne hc rest, false_or]
    · rw [List.dropWhile_cons_of_neg hc]

/-- Stripping breaks no word. -/
theorem infix_strip_iff (hword : ∀ c ∈ word, isSpace c = false) (hne : word ≠ []) :
    word <:+: strip text ↔ word <:+: text := by
  have hright : word <:+: rstrip (lstrip text) ↔ word <:+: lstrip text := by
    have hreverse := @List.reverse_infix _ word (lstrip text)
    rw [← List.reverse_infix, ← hreverse, rstrip, List.rdropWhile, List.reverse_reverse]
    exact infix_lstrip_iff (fun c hc => hword c (List.mem_reverse.mp hc)) (by simpa using hne)
  exact hright.trans (infix_lstrip_iff hword hne)

end Spaces

section Cleaning

/-- A text free of the artifacts that cleaning is about. -/
structure IsClean (text : Text) : Prop where
  no_markup : ¬ ['<', '>'].Sublist text
  no_marks : ∀ c ∈ text, c ∉ strayMarks
  no_words : ∀ word ∈ transportWords, ¬ word <:+: text
  single_spaced : SingleSpaced text
  stripped : strip text = text

/-- The text without markup, brackets and stray marks: what the transport words are taken from. -/
def unmarked (text : Text) : Text :=
  (removeSpans '[' ']' (· == '\n') none (removeSpans '<' '>' (fun _ => false) none text)).filter
    fun c => !strayMarks.contains c

theorem nil_not_mem_transportWords : [] ∉ transportWords := by decide

theorem isSpace_transportWords {word : Text} (hword : word ∈ transportWords) :
    ∀ c ∈ word, isSpace c = false := by
  have hall : transportWords.all (fun word => word.all fun c => !isSpace c) = true := by decide
  intro c hc
  simpa using List.all_eq_true.mp (List.all_eq_true.mp hall word hword) c hc

theorem cleanOnlineAsrText_eq (text : Text) : cleanOnlineAsrText text =
    strip (collapseSpace false (removeWords transportWords 0 (unmarked text))) := by
  unfold cleanOnlineAsrText
  split
  · next hnil =>
    rw [hnil]
    rfl
  · rfl

theorem unmarked_sublist (text : Text) : (unmarked text).Sublist text :=
  (List.filter_sublist ..).trans
    ((removeSpans_sublist none _).trans (removeSpans_sublist none text))

/-- What is no white space is found in a cleaned text where it is found before the spaces are
collapsed. -/
theorem withoutSpace_cleanOnlineAsrText (text : Text) : withoutSpace (cleanOnlineAsrText text) =
    withoutSpace (removeWords transportWords 0 (unmarked text)) := by
  rw [cleanOnlineAsrText_eq, withoutSpace_strip, withoutSpace_collapseSpace]

/-- No markup outlasts a cleaning. -/
theorem not_markup_cleanOnlineAsrText (text : Text) :
    ¬ ['<', '>'].Sublist (cleanOnlineAsrText text) := by
  intro hsub
  have hfiltered := hsub.filter fun c => !isSpace c
  have hkept : (['<', '>'].filter fun c => !isSpace c) = ['<', '>'] := by decide
  rw [hkept, ← withoutSpace, withoutSpace_cleanOnlineAsrText] at hfiltered
  have hspans : (unmarked text).Sublist (removeSpans '<' '>' (fun _ => false) none text) :=
    (List.filter_sublist ..).trans (removeSpans_sublist none _)
  have hafter := ((hfiltered.trans (List.filter_sublist ..)).trans
    (removeWords_sublist transportWords 0 (unmarked text))).trans hspans
  exact (not_sublist_removeSpans (by decide) text).1 hafter

/-- No stray mark outlasts a cleaning. -/
theorem not_mem_strayMarks_cleanOnlineAsrText (text : Text) :
    ∀ c ∈ cleanOnlineAsrText text, c ∉ strayMarks := by
  intro c hc hmark
  have hspace : isSpace c = false := by
    have hall : strayMarks.all (fun mark => !isSpace mark) = true := by decide
    simpa using List.all_eq_true.mp hall c hmark
  have hkept : c ∈ withoutSpace (cleanOnlineAsrText text) :=
    List.mem_filter.mpr ⟨hc, by simp [hspace]⟩
  rw [withoutSpace_cleanOnlineAsrText] at hkept
  have hunmarked := (removeWords_sublist transportWords 0 (unmarked text)).subset
    (List.mem_of_mem_filter hkept)
  have hnot := (List.mem_filter.mp hunmarked).2
  simp [hmark] at hnot

theorem singleSpaced_cleanOnlineAsrText (text : Text) : SingleSpaced (cleanOnlineAsrText text) := by
  rw [cleanOnlineAsrText_eq]
  exact (singleSpaced_collapseSpace false _).1.of_isInfix (strip_isInfix _)

theorem strip_cleanOnlineAsrText (text : Text) :
    strip (cleanOnlineAsrText text) = cleanOnlineAsrText text := by
  rw [cleanOnlineAsrText_eq, strip_strip]

/-- The transport words in a cleaned text are those left by the one removal. -/
theorem infix_cleanOnlineAsrText_iff {word text : Text} (hword : word ∈ transportWords) :
    word <:+: cleanOnlineAsrText text ↔ word <:+: removeWords transportWords 0 (unmarked text) := by
  have hspace := isSpace_transportWords hword
  have hne : word ≠ [] := fun hnil => nil_not_mem_transportWords (hnil ▸ hword)
  rw [cleanOnlineAsrText_eq, infix_strip_iff hspace hne, infix_collapseSpace_iff hspace hne]

/-- A cleaned text is clean unless a transport word was interrupted. -/
theorem isClean_cleanOnlineAsrText_iff (text : Text) :
    IsClean (cleanOnlineAsrText text) ↔ ¬ Interrupted transportWords (unmarked text) := by
  rw [interrupted_iff nil_not_mem_transportWords]
  constructor
  · rintro h ⟨word, hword, hin⟩
    exact h.no_words word hword ((infix_cleanOnlineAsrText_iff hword).mpr hin)
  · intro h
    refine ⟨not_markup_cleanOnlineAsrText text, not_mem_strayMarks_cleanOnlineAsrText text,
      fun word hword hin => ?_, singleSpaced_cleanOnlineAsrText text, strip_cleanOnlineAsrText text⟩
    exact h ⟨word, hword, (infix_cleanOnlineAsrText_iff hword).mp hin⟩

/-- Cleaning leaves alone exactly the clean texts. -/
theorem cleanOnlineAsrText_eq_self_iff {text : Text} :
    cleanOnlineAsrText text = text ↔ IsClean text := by
  constructor
  · intro h
    -- nothing is shorter after any of the passes
    have hlength : text.length ≤ (removeWords transportWords 0 (unmarked text)).length := by
      calc text.length = (cleanOnlineAsrText text).length := by rw [h]
        _ ≤ (collapseSpace false (removeWords transportWords 0 (unmarked text))).length := by
          rw [cleanOnlineAsrText_eq]
          exact (strip_isInfix _).length_le
        _ ≤ (removeWords transportWords 0 (unmarked text)).length := length_collapseSpace_le ..
    have hremoved := removeWords_sublist transportWords 0 (unmarked text)
    have hunmarked : unmarked text = text :=
      (unmarked_sublist text).eq_of_length_le (hlength.trans hremoved.length_le)
    rw [hunmarked] at hlength hremoved
    have hwords := hremoved.eq_of_length_le hlength
    refine ⟨h ▸ not_markup_cleanOnlineAsrText text, h ▸ not_mem_strayMarks_cleanOnlineAsrText text,
      (removeWords_eq_self_iff nil_not_mem_transportWords).mp hwords,
      h ▸ singleSpaced_cleanOnlineAsrText text, h ▸ strip_cleanOnlineAsrText text⟩
  · intro h
    have hmarks : unmarked text = text := by
      have hbracket : '[' ∉ text := fun hmem => h.no_marks '[' hmem (by decide)
      rw [unmarked, removeSpans_eq_self h.no_markup, removeSpans_of_not_mem hbracket]
      exact List.filter_eq_self.mpr fun c hc => by simp [h.no_marks c hc]
    rw [cleanOnlineAsrText_eq, hmarks, removeWords_of_not_isInfix h.no_words,
      collapseSpace_eq_self h.single_spaced false nofun, h.stripped]

/-- A second cleaning changes nothing unless a transport word was interrupted. -/
theorem cleanOnlineAsrText_cleanOnlineAsrText_iff (text : Text) :
    cleanOnlineAsrText (cleanOnlineAsrText text) = cleanOnlineAsrText text ↔
      ¬ Interrupted transportWords (unmarked text) :=
  cleanOnlineAsrText_eq_self_iff.trans (isClean_cleanOnlineAsrText_iff text)

end Cleaning

section Extraction

variable (str : Payload → Text)

mutual

/-- The text that is cleaned last when the text of a payload is extracted. -/
def sourceText : Payload → Text
  | .null => []
  | .text t => t
  | .bytes _ decoded => decoded
  | .number _ => []
  | .tuple items =>
    match pairedText items with
    | some t => t
    | none => ((textsOfItems str items).filter (· ≠ [])).flatten
  | .dict entries =>
    ((textKeys.map fun key => ((sourcesOfEntries entries).lookup key).getD []).find?
      (cleanOnlineAsrText · ≠ [])).getD []
  | .list items => ((textsOfItems str items).filter (· ≠ [])).flatten
  | .other name => str (.other name)

/-- The source of each value of a dictionary. -/
def sourcesOfEntries : List (Text × Payload) → List (Text × Text)
  | [] => []
  | (key, value) :: rest => (key, sourceText value) :: sourcesOfEntries rest

end

/-- The first text that is left by cleaning some texts is that of one of them. -/
theorem find?_map_cleanOnlineAsrText (texts : List Text) :
    ((texts.map cleanOnlineAsrText).find? (· ≠ [])).getD [] =
      cleanOnlineAsrText ((texts.find? (cleanOnlineAsrText · ≠ [])).getD []) := by
  rw [List.find?_map, show ((fun text : Text => decide (text ≠ [])) ∘ cleanOnlineAsrText) =
    (fun text => decide (cleanOnlineAsrText text ≠ [])) from rfl]
  cases texts.find? fun text => decide (cleanOnlineAsrText text ≠ []) <;> rfl

theorem lookup_map_snd {entries : List (Text × Text)} (f : Text → Text) (key : Text) :
    (entries.map fun entry => (entry.1, f entry.2)).lookup key = (entries.lookup key).map f := by
  induction entries with
  | nil => rfl
  | cons entry rest ih =>
    obtain ⟨name, value⟩ := entry
    rw [List.map_cons, List.lookup_cons, List.lookup_cons, ih]
    cases key == name <;> rfl

mutual

/-- The text of a payload is one cleaning of its source. -/
theorem extractOnlineText_eq : ∀ payload : Payload,
    extractOnlineText str payload = cleanOnlineAsrText (sourceText str payload)
  | .null => rfl
  | .text _ => rfl
  | .bytes _ _ => rfl
  | .number _ => rfl
  | .tuple items => by
    rw [extractOnlineText, sourceText]
    cases pairedText items <;> rfl
  | .dict entries => by
    have hclean : ∀ key, ((textsOfEntries str entries).lookup key).getD [] =
        cleanOnlineAsrText (((sourcesOfEntries str entries).lookup key).getD []) := by
      intro key
      rw [textsOfEntries_eq entries, lookup_map_snd]
      cases (sourcesOfEntries str entries).lookup key <;> rfl
    rw [extractOnlineText, sourceText, ← find?_map_cleanOnlineAsrText, List.map_map]
    simp only [hclean]
    rfl
  | .list _ => rfl
  | .other _ => rfl

theorem textsOfEntries_eq : ∀ entries : List (Text × Payload),
    textsOfEntries str entries = (sourcesOfEntries str entries).map fun entry =>
      (entry.1, cleanOnlineAsrText entry.2)
  | [] => rfl
  | (key, value) :: rest => by
    rw [textsOfEntries, sourcesOfEntries, extractOnlineText_eq value, textsOfEntries_eq rest,
      List.map_cons]

end

/-- A payload in so many lists of one element. -/
def wrapped (depth : ℕ) (payload : Payload) : Payload :=
  (fun inner => .list [inner])^[depth] payload

/-- Each list around a payload is one more cleaning of its text. -/
theorem extractOnlineText_wrapped (depth : ℕ) (payload : Payload) :
    extractOnlineText str (wrapped depth payload) =
      cleanOnlineAsrText^[depth] (extractOnlineText str payload) := by
  induction depth with
  | zero => rfl
  | succ depth ih =>
    have hitem : ((textsOfItems str [wrapped depth payload]).filter (· ≠ [])).flatten =
        extractOnlineText str (wrapped depth payload) := by
      rw [textsOfItems, textsOfItems]
      by_cases hnil : extractOnlineText str (wrapped depth payload) = []
      · simp [hnil]
      · simp [hnil]
    rw [wrapped, Function.iterate_succ_apply', ← wrapped, extractOnlineText, hitem, ih,
      Function.iterate_succ_apply']

/-- The text does not depend on the lists around a payload unless a transport word was interrupted
in the text that is cleaned last. -/
theorem extractOnlineText_wrapped_iff (payload : Payload) :
    (∀ depth, extractOnlineText str (wrapped depth payload) = extractOnlineText str payload) ↔
      ¬ Interrupted transportWords (unmarked (sourceText str payload)) := by
  rw [← cleanOnlineAsrText_cleanOnlineAsrText_iff, ← extractOnlineText_eq]
  constructor
  · intro h
    exact (extractOnlineText_wrapped str 1 payload).symm.trans (h 1)
  · intro h depth
    rw [extractOnlineText_wrapped]
    exact Function.iterate_fixed h depth

end Extraction

end FunasrApi.Online
