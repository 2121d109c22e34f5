import FunasrApi.Core.PythonText

/-!
# Units and separators of a transcript

For timestamps a text falls into units, a run of ASCII word characters or any
other single character, and separators between them. A token is a unit with the
separators after it, the first one also with those before it.
-/

namespace FunasrApi.Offline

open FunasrApi.Core Text

/-- `is_ascii_word_char`. -/
def isAsciiWordChar (c : Char) : Bool :=
  ('a' ≤ c && c ≤ 'z') || ('A' ≤ c && c ≤ 'Z') || ('0' ≤ c && c ≤ '9') || c == '\'' || c == '-'

/-- The ASCII word characters are ASCII characters. -/
theorem toNat_lt_of_word {c : Char} (h : isAsciiWordChar c = true) : c.toNat < 128 := by
  simp only [isAsciiWordChar, Bool.or_eq_true, Bool.and_eq_true, decide_eq_true_eq, beq_iff_eq,
    Char.le_def, UInt32.le_iff_toNat_le] at h
  rcases h with (((⟨-, hle⟩ | ⟨-, hle⟩) | ⟨-, hle⟩) | rfl) | rfl
  · exact hle.trans_lt (by decide)
  · exact hle.trans_lt (by decide)
  · exact hle.trans_lt (by decide)
  · decide
  · decide

/-- The characters of `is_text_separator` other than white space. -/
def separatorChars : Text :=
  ['。', '！', '？', '!', '?', '，', ',', '、', '：', ':', '；', ';', '（', '）', '(', ')', '【', '】',
    '[', ']', '《', '》', '<', '>', '\'', '…']

/-- `is_text_separator`. -/
def isTextSeparator (c : Char) : Bool := isSpace c || separatorChars.contains c

/-- A piece of a text, as the loop of `align_text_to_timestamps` scans it. -/
inductive TextPiece
  | separator (c : Char)
  | unit (u : Text)
deriving DecidableEq

namespace TextPiece

/-- The characters of a piece. -/
def text : TextPiece → Text
  | separator c => [c]
  | unit u => u

/-- The unit, if the piece is one. -/
def unit? : TextPiece → Option Text
  | separator _ => none
  | unit u => some u

end TextPiece

/-- The scan of the loop of `align_text_to_timestamps`. A piece is at least one character, so as
many rounds as there are characters are enough. -/
def scanPieces : ℕ → Text → List TextPiece
  | 0, _ => []
  | _ + 1, [] => []
  | rounds + 1, c :: rest =>
    if isTextSeparator c then .separator c :: scanPieces rounds rest
    else if isAsciiWordChar c then
      .unit (c :: rest.takeWhile isAsciiWordChar) ::
        scanPieces rounds (rest.dropWhile isAsciiWordChar)
    else .unit [c] :: scanPieces rounds rest

/-- The pieces of a text. -/
def textPieces (text : Text) : List TextPiece := scanPieces text.length text

/-- The units of a text. -/
def textUnits (text : Text) : List Text := (textPieces text).filterMap TextPiece.unit?

/-- The leading separators of a list of pieces, and its tokens. -/
def attachSeparators : List TextPiece → Text × List Text
  | [] => ([], [])
  | .separator c :: rest => (c :: (attachSeparators rest).1, (attachSeparators rest).2)
  | .unit u :: rest => ([], (u ++ (attachSeparators rest).1) :: (attachSeparators rest).2)

/-- The tokens of a list of pieces, after some leading separators. -/
def tokensAfter (leading : Text) (pieces : List TextPiece) : List Text :=
  match attachSeparators pieces with
  | (_, []) => []
  | (more, first :: rest) => (leading ++ more ++ first) :: rest

/-- The tokens of a text. -/
def textTokens (text : Text) : List Text := tokensAfter [] (textPieces text)

/-- More rounds than there are characters change nothing. -/
theorem scanPieces_eq_textPieces (rounds : ℕ) (text : Text) (h : text.length ≤ rounds) :
    scanPieces rounds text = textPieces text := by
  have hfewer : ∀ (fewer rounds : ℕ) (text : Text), text.length ≤ fewer → fewer ≤ rounds →
      scanPieces rounds text = scanPieces fewer text := by
    intro fewer
    induction fewer with
    | zero =>
      intro rounds text htext _
      obtain rfl := List.eq_nil_of_length_eq_zero (Nat.le_zero.mp htext)
      cases rounds <;> rfl
    | succ fewer ih =>
      intro rounds text htext hrounds
      obtain ⟨rounds, rfl⟩ : ∃ n, rounds = n + 1 := ⟨rounds - 1, by omega⟩
      cases text with
      | nil => rfl
      | cons c rest =>
        have hrest : rest.length ≤ fewer := Nat.le_of_succ_le_succ htext
        have hdrop : (rest.dropWhile isAsciiWordChar).length ≤ fewer :=
          (List.dropWhile_sublist isAsciiWordChar).length_le.trans hrest
        have hle : fewer ≤ rounds := Nat.le_of_succ_le_succ hrounds
        rw [scanPieces, scanPieces, ih rounds rest hrest hle, ih rounds _ hdrop hle]
  exact hfewer text.length rounds text le_rfl h

@[simp] theorem textPieces_nil : textPieces [] = [] := rfl

/-- The scan of a text, by its first character. -/
theorem textPieces_cons (c : Char) (rest : Text) :
    textPieces (c :: rest) =
      if isTextSeparator c then .separator c :: textPieces rest
      else if isAsciiWordChar c then
        .unit (c :: rest.takeWhile isAsciiWordChar) ::
          textPieces (rest.dropWhile isAsciiWordChar)
      else .unit [c] :: textPieces rest := by
  have hdrop : (rest.dropWhile isAsciiWordChar).length ≤ rest.length :=
    (List.dropWhile_sublist isAsciiWordChar).length_le
  rw [textPieces, List.length_cons, scanPieces, scanPieces_eq_textPieces _ _ le_rfl,
    scanPieces_eq_textPieces _ _ hdrop]

/-- An induction along the scan. -/
theorem textPieces_induction {P : Text → Prop} (hnil : P [])
    (hcons : ∀ c rest, P rest → P (rest.dropWhile isAsciiWordChar) → P (c :: rest)) :
    ∀ text, P text := by
  have hlength : ∀ (n : ℕ) (text : Text), text.length ≤ n → P text := by
    intro n
    induction n with
    | zero =>
      intro text htext
      obtain rfl := List.eq_nil_of_length_eq_zero (Nat.le_zero.mp htext)
      exact hnil
    | succ n ih =>
      intro text htext
      cases text with
      | nil => exact hnil
      | cons c rest =>
        have hrest : rest.length ≤ n := Nat.le_of_succ_le_succ htext
        exact hcons c rest (ih rest hrest)
          (ih _ ((List.dropWhile_sublist isAsciiWordChar).length_le.trans hrest))
  exact fun text => hlength text.length text le_rfl

/-- The pieces of a text make up the text. -/
theorem textPieces_text (text : Text) : (textPieces text).flatMap TextPiece.text = text := by
  induction text using textPieces_induction with
  | hnil => rfl
  | hcons c rest ih ihdrop =>
    rw [textPieces_cons]
    split
    · rw [List.flatMap_cons, ih]
      rfl
    · split
      · rw [List.flatMap_cons, ihdrop, TextPiece.text, List.cons_append,
          List.takeWhile_append_dropWhile]
      · rw [List.flatMap_cons, ih]
        rfl

/-- A unit begins with a character that is not white space. -/
theorem visible_of_unit {text u : Text} (h : .unit u ∈ textPieces text) : Visible u := by
  induction text using textPieces_induction with
  | hnil => cases h
  | hcons c rest ih ihdrop =>
    rw [textPieces_cons] at h
    split at h
    · rcases List.mem_cons.mp h with heq | hrest
      · cases heq
      · exact ih hrest
    · next hsep =>
      have hspace : isSpace c = false := by
        rw [isTextSeparator, Bool.or_eq_true, not_or] at hsep
        exact Bool.eq_false_iff.mpr hsep.1
      split at h
      · rcases List.mem_cons.mp h with heq | hrest
        · cases heq
          exact ⟨c, List.mem_cons_self .., hspace⟩
        · exact ihdrop hrest
      · rcases List.mem_cons.mp h with heq | hrest
        · cases heq
          exact ⟨c, List.mem_singleton_self c, hspace⟩
        · exact ih hrest

section Tokens

/-- In a text without separators and word characters, every character is a piece. -/
theorem textPieces_of_single {text : Text}
    (h : ∀ c ∈ text, isTextSeparator c = false ∧ isAsciiWordChar c = false) :
    textPieces text = text.map fun c => .unit [c] := by
  induction text with
  | nil => rfl
  | cons c rest ih =>
    obtain ⟨hseparator, hword⟩ := h c (List.mem_cons_self ..)
    rw [textPieces_cons, hseparator, hword, ih fun d hd => h d (List.mem_cons_of_mem c hd)]
    rfl

/-- Every character of such a text is a unit. -/
theorem textUnits_of_single {text : Text}
    (h : ∀ c ∈ text, isTextSeparator c = false ∧ isAsciiWordChar c = false) :
    textUnits text = text.map fun c => [c] := by
  rw [textUnits, textPieces_of_single h, List.filterMap_map]
  exact congrFun List.filterMap_eq_map' text

/-- Every character of such a text is a token. -/
theorem textTokens_of_single {text : Text}
    (h : ∀ c ∈ text, isTextSeparator c = false ∧ isAsciiWordChar c = false) :
    textTokens text = text.map fun c => [c] := by
  have hattached : attachSeparators (text.map fun c => .unit [c]) =
      ([], text.map fun c => [c]) := by
    clear h
    induction text with
    | nil => rfl
    | cons c rest ih => simp [attachSeparators, ih]
  rw [textTokens, textPieces_of_single h, tokensAfter, hattached]
  cases text <;> rfl

theorem attachSeparators_text (pieces : List TextPiece) :
    (attachSeparators pieces).1 ++ (attachSeparators pieces).2.flatten =
      pieces.flatMap TextPiece.text := by
  induction pieces with
  | nil => rfl
  | cons piece rest ih =>
    rw [List.flatMap_cons, ← ih]
    cases piece <;> simp [attachSeparators, TextPiece.text]

/-- A separator before the first token waits for it. -/
theorem tokensAfter_separator (leading : Text) (c : Char) (pieces : List TextPiece) :
    tokensAfter leading (.separator c :: pieces) = tokensAfter (leading ++ [c]) pieces := by
  rw [tokensAfter, tokensAfter, attachSeparators]
  rcases attachSeparators pieces with ⟨more, _ | ⟨first, rest⟩⟩
  · rfl
  · simp

theorem length_attachSeparators (pieces : List TextPiece) :
    (attachSeparators pieces).2.length = (pieces.filterMap TextPiece.unit?).length := by
  induction pieces with
  | nil => rfl
  | cons piece rest ih =>
    cases piece with
    | separator c => exact ih
    | unit u => exact congrArg Nat.succ ih

theorem length_tokensAfter (leading : Text) (pieces : List TextPiece) :
    (tokensAfter leading pieces).length = (pieces.filterMap TextPiece.unit?).length := by
  rw [← length_attachSeparators, tokensAfter]
  split <;> next heq => simp [heq]

/-- There is one token for each unit. -/
theorem length_textTokens (text : Text) : (textTokens text).length = (textUnits text).length :=
  length_tokensAfter [] (textPieces text)

/-- The tokens make up the text, unless it has only separators. -/
theorem textTokens_flatten {text : Text} (h : textUnits text ≠ []) :
    (textTokens text).flatten = text := by
  have hlength := length_attachSeparators (textPieces text)
  have htext := attachSeparators_text (textPieces text)
  rw [textPieces_text] at htext
  rw [textTokens, tokensAfter]
  split
  · next heq =>
    rw [heq] at hlength
    exact absurd (List.eq_nil_of_length_eq_zero hlength.symm) h
  · next heq =>
    rw [heq] at htext
    simpa using htext

theorem visible_of_attached {pieces : List TextPiece}
    (h : ∀ u, .unit u ∈ pieces → Visible u) :
    ∀ token ∈ (attachSeparators pieces).2, Visible token := by
  induction pieces with
  | nil => exact fun _ hmem => absurd hmem List.not_mem_nil
  | cons piece rest ih =>
    have hrest := ih fun u hu => h u (List.mem_cons_of_mem _ hu)
    cases piece with
    | separator c => exact hrest
    | unit u =>
      intro token htoken
      rcases List.mem_cons.mp htoken with rfl | hmem
      · exact (h u (List.mem_cons_self ..)).append_right _
      · exact hrest token hmem

/-- Every token has a character that is not white space. -/
theorem visible_of_token {text token : Text} (h : token ∈ textTokens text) : Visible token := by
  have hattached : ∀ token ∈ (attachSeparators (textPieces text)).2, Visible token :=
    visible_of_attached fun _ => visible_of_unit
  rw [textTokens, tokensAfter] at h
  split at h
  · cases h
  · next heq =>
    rw [heq] at hattached
    rcases List.mem_cons.mp h with rfl | hrest
    · exact (hattached _ (List.mem_cons_self ..)).append_left _
    · exact hattached token (List.mem_cons_of_mem _ hrest)

end Tokens

section Seams

/-- A word runs over the seam of two texts. -/
def WordAcross (text more : Text) : Prop :=
  text.getLast?.any isAsciiWordChar = true ∧ more.head?.any isAsciiWordChar = true

instance (text more : Text) : Decidable (WordAcross text more) :=
  inferInstanceAs (Decidable (_ ∧ _))

/-- The end of a text is what lies at the seam. -/
theorem WordAcross.of_suffix {text back more : Text} (h : WordAcross back more)
    (hback : back <:+ text) : WordAcross text more := by
  obtain ⟨front, rfl⟩ := hback
  obtain ⟨hlast, hmore⟩ := h
  refine ⟨?_, hmore⟩
  obtain ⟨c, hc, hword⟩ := (Option.any_eq_true _ _).mp hlast
  rw [List.getLast?_append, hc]
  exact hword

/-- The pieces of two texts are those of each, unless a word runs over the seam. -/
theorem textPieces_append {text more : Text} (h : ¬ WordAcross text more) :
    textPieces (text ++ more) = textPieces text ++ textPieces more := by
  induction text using textPieces_induction with
  | hnil => rfl
  | hcons c rest ih ihdrop =>
    have hrest : ¬ WordAcross rest more := mt (fun hw => hw.of_suffix (List.suffix_cons c rest)) h
    rw [List.cons_append, textPieces_cons, textPieces_cons]
    split
    · rw [ih hrest]
      rfl
    · split
      · next hword =>
        by_cases hall : ∀ d ∈ rest, isAsciiWordChar d = true
        · -- the run ends at the seam, where the other text does not go on with it
          have hrun : ∀ d ∈ c :: rest, isAsciiWordChar d = true :=
            List.forall_mem_cons.mpr ⟨hword, hall⟩
          have hlast : (c :: rest).getLast?.any isAsciiWordChar = true := by
            rw [List.getLast?_eq_some_getLast (List.cons_ne_nil c rest)]
            exact hrun _ (List.getLast_mem _)
          have hmore : ∀ d ∈ more.head?, ¬ isAsciiWordChar d = true := fun d hd hword' =>
            h ⟨hlast, (Option.any_eq_true _ _).mpr ⟨d, hd, hword'⟩⟩
          have htake : more.takeWhile isAsciiWordChar = [] := by
            cases more with
            | nil => rfl
            | cons d more => exact List.takeWhile_cons_of_neg (hmore d rfl)
          have hdrop : more.dropWhile isAsciiWordChar = more := by
            cases more with
            | nil => rfl
            | cons d more => exact List.dropWhile_cons_of_neg (hmore d rfl)
          rw [List.takeWhile_append_of_pos hall, List.dropWhile_append_of_pos hall, htake, hdrop,
            List.append_nil, List.takeWhile_eq_self_iff.mpr hall,
            List.dropWhile_eq_nil_iff.mpr hall]
          rfl
        · have hsome : rest.dropWhile isAsciiWordChar ≠ [] := mt List.dropWhile_eq_nil_iff.mp hall
          have hdrop : ¬ WordAcross (rest.dropWhile isAsciiWordChar) more :=
            mt (fun hw => hw.of_suffix (List.dropWhile_suffix _)) hrest
          rw [List.dropWhile_append, if_neg (by simpa using hsome), ihdrop hdrop,
            List.takeWhile_append, if_neg ?_]
          · rfl
          · intro hlength
            have htake := (List.takeWhile_prefix isAsciiWordChar).eq_of_length hlength
            exact hall (List.takeWhile_eq_self_iff.mp htake)
      · rw [ih hrest]
        rfl

/-- No word runs over a seam of joined texts. -/
def SeamsApart : List Text → Prop
  | [] => True
  | text :: rest => ¬ WordAcross text rest.flatten ∧ SeamsApart rest

/-- The units of such texts stay apart when they are joined. -/
theorem textUnits_flatten {texts : List Text} (h : SeamsApart texts) :
    textUnits texts.flatten = texts.flatMap textUnits := by
  induction texts with
  | nil => rfl
  | cons text rest ih =>
    rw [List.flatten_cons, List.flatMap_cons, ← ih h.2, textUnits, textPieces_append h.1,
      List.filterMap_append]
    rfl

end Seams

section Counting

theorem length_textUnits_cons (c : Char) (rest : Text) :
    (textUnits (c :: rest)).length =
      if isTextSeparator c then (textUnits rest).length
      else if isAsciiWordChar c then (textUnits (rest.dropWhile isAsciiWordChar)).length + 1
      else (textUnits rest).length + 1 := by
  unfold textUnits
  rw [textPieces_cons]
  split
  · rfl
  · split <;> rfl

/-- A text has no unit when all of its characters are separators. -/
theorem textUnits_eq_nil_iff {text : Text} :
    textUnits text = [] ↔ ∀ c ∈ text, isTextSeparator c = true := by
  rw [← List.length_eq_zero_iff]
  induction text with
  | nil => simp [textUnits]
  | cons c rest ih =>
    rw [length_textUnits_cons]
    split
    · next hsep => simp [ih, hsep]
    · next hsep =>
      have hall : ¬ ∀ d ∈ c :: rest, isTextSeparator d = true := fun h =>
        hsep (h c (List.mem_cons_self ..))
      split <;> exact iff_of_false (Nat.succ_ne_zero _) hall

/-- A run of word characters at the front is a unit, unless it has only separators. -/
theorem length_textUnits_run (text : Text) :
    (textUnits text).length =
      (if (text.takeWhile isAsciiWordChar).any fun c => !isTextSeparator c then 1 else 0) +
        (textUnits (text.dropWhile isAsciiWordChar)).length := by
  induction text with
  | nil => rfl
  | cons c rest ih =>
    by_cases hword : isAsciiWordChar c = true
    · rw [length_textUnits_cons, if_pos hword, List.takeWhile_cons_of_pos hword,
        List.dropWhile_cons_of_pos hword, List.any_cons]
      by_cases hsep : isTextSeparator c = true
      · rw [if_pos hsep, ih]
        simp [hsep]
      · rw [if_neg hsep, Nat.add_comm]
        simp [hsep]
    · rw [List.takeWhile_cons_of_neg hword, List.dropWhile_cons_of_neg hword]
      simp

/-- Dropping word characters from the front adds no unit. -/
theorem length_textUnits_dropWhile_le (text : Text) :
    (textUnits (text.dropWhile isAsciiWordChar)).length ≤ (textUnits text).length := by
  rw [length_textUnits_run text]
  exact Nat.le_add_left _ _

/-- Joining two texts adds no unit, but may join two. -/
theorem length_textUnits_append_le (text more : Text) :
    (textUnits (text ++ more)).length ≤ (textUnits text).length + (textUnits more).length := by
  induction text using textPieces_induction with
  | hnil => simp [textUnits]
  | hcons c rest ih ihdrop =>
    rw [List.cons_append, length_textUnits_cons, length_textUnits_cons]
    split
    · exact ih
    · split
      · rw [List.dropWhile_append]
        split
        · next hall =>
          have hmore := length_textUnits_dropWhile_le more
          omega
        · omega
      · omega

/-- More text does not take units away. -/
theorem length_textUnits_le_append (text more : Text) :
    (textUnits text).length ≤ (textUnits (text ++ more)).length := by
  induction text using textPieces_induction with
  | hnil => exact Nat.zero_le _
  | hcons c rest ih ihdrop =>
    rw [List.cons_append, length_textUnits_cons, length_textUnits_cons]
    split
    · exact ih
    · split
      · rw [List.dropWhile_append]
        split
        · next hall =>
          rw [List.isEmpty_iff.mp hall]
          exact Nat.succ_le_succ (Nat.zero_le _)
        · exact Nat.succ_le_succ ihdrop
      · exact Nat.succ_le_succ ih

/-- Text in front does not take units away either, as a word that goes on is still one. -/
theorem length_textUnits_le_append_left (before text : Text) :
    (textUnits text).length ≤ (textUnits (before ++ text)).length := by
  induction before using textPieces_induction with
  | hnil => exact le_rfl
  | hcons c rest ih ihdrop =>
    rw [List.cons_append, length_textUnits_cons]
    split
    · exact ih
    · split
      · rw [List.dropWhile_append]
        split
        · have hrun := length_textUnits_run text
          split at hrun <;> omega
        · exact Nat.le_succ_of_le ihdrop
      · exact Nat.le_succ_of_le ih

/-- A text with a unit goes on in the same way, whether it is followed by more or not. -/
theorem length_textUnits_dropWhile_append {text : Text} (h : textUnits text ≠ []) (more : Text) :
    (textUnits ((text ++ more).dropWhile isAsciiWordChar)).length + (textUnits text).length =
      (textUnits (text.dropWhile isAsciiWordChar)).length + (textUnits (text ++ more)).length := by
  have hrun := length_textUnits_run text
  have hrun' := length_textUnits_run (text ++ more)
  by_cases hall : (text.dropWhile isAsciiWordChar).isEmpty = true
  · have hnil := List.isEmpty_iff.mp hall
    have htake : text.takeWhile isAsciiWordChar = text := by
      have happend := List.takeWhile_append_dropWhile (p := isAsciiWordChar) (l := text)
      rwa [hnil, List.append_nil] at happend
    -- the whole text is one run, which goes on in what follows
    have hpart : (text.any fun c => !isTextSeparator c) = true := by
      rw [List.any_eq_true]
      by_contra hnone
      refine h (textUnits_eq_nil_iff.mpr fun c hc => ?_)
      by_contra hsep
      exact hnone ⟨c, hc, by simpa using hsep⟩
    rw [htake, if_pos hpart, hnil] at hrun
    rw [List.takeWhile_append, htake, if_pos rfl, List.any_append, hpart, Bool.true_or,
      if_pos rfl, List.dropWhile_append, if_pos hall] at hrun'
    rw [List.dropWhile_append, if_pos hall, hnil, hrun, hrun']
    omega
  · have htake : ¬ (text.takeWhile isAsciiWordChar).length = text.length := by
      intro hlength
      have happend := congrArg List.length
        (List.takeWhile_append_dropWhile (p := isAsciiWordChar) (l := text))
      rw [List.length_append] at happend
      exact hall (List.isEmpty_iff.mpr (List.eq_nil_of_length_eq_zero (by omega)))
    rw [List.takeWhile_append, if_neg htake, List.dropWhile_append, if_neg hall] at hrun'
    rw [List.dropWhile_append, if_neg hall]
    omega

/-- Joining on the left and on the right of a text with a unit does not interfere. -/
theorem length_textUnits_glue {text : Text} (h : textUnits text ≠ []) (before after : Text) :
    (textUnits (before ++ (text ++ after))).length + (textUnits text).length =
      (textUnits (before ++ text)).length + (textUnits (text ++ after)).length := by
  induction before using textPieces_induction with
  | hnil => exact Nat.add_comm _ _
  | hcons c rest ih ihdrop =>
    rw [List.cons_append, List.cons_append, length_textUnits_cons, length_textUnits_cons]
    split
    · exact ih
    · split
      · have hdrop (more : Text) : (rest ++ more).dropWhile isAsciiWordChar =
            if (rest.dropWhile isAsciiWordChar).isEmpty then more.dropWhile isAsciiWordChar
            else rest.dropWhile isAsciiWordChar ++ more := List.dropWhile_append
        rw [hdrop, hdrop]
        split
        · have hsame := length_textUnits_dropWhile_append h after
          omega
        · omega
      · omega

end Counting

end FunasrApi.Offline
