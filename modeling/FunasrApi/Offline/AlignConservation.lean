import FunasrApi.Offline.Timestamps
import Mathlib.Data.List.SplitBy

/-!
# What the alignment of a text conserves

The tokens of an aligned text spell the text, with any mix of separators, words and
other characters and with too few or too many timestamps, and each carries the
times of its timestamp. The scanner takes an apostrophe for a separator before it
takes it for a word character, so a run of apostrophes alone is not a unit.
-/

namespace FunasrApi.Offline

open FunasrApi.Core Text

section Runs

variable {α : Type*} {p : α → Bool}

/-- The maximal runs of elements with a property, and the other elements one by one. -/
def runsOf (p : α → Bool) (l : List α) : List (List α) := l.splitBy fun a b => p a && p b

theorem runsOf_cons_of_pos {a : α} (l : List α) (h : p a = true) :
    runsOf p (a :: l) = (a :: l.takeWhile p) :: runsOf p (l.dropWhile p) := by
  have hrun : ∀ b ∈ a :: l.takeWhile p, p b = true := by
    intro b hb
    rcases List.mem_cons.mp hb with rfl | hmem
    · exact h
    · exact List.mem_takeWhile_imp hmem
  have hchain : (a :: l.takeWhile p).splitBy (fun a b => p a && p b) = [a :: l.takeWhile p] := by
    refine List.splitBy_of_isChain (List.cons_ne_nil _ _) (List.Pairwise.isChain ?_)
    exact List.pairwise_of_forall_mem_list fun b hb c hc => by simp [hrun b hb, hrun c hc]
  unfold runsOf
  conv_lhs => rw [← List.takeWhile_append_dropWhile (p := p) (l := l), ← List.cons_append]
  rw [List.splitBy_append, hchain]
  · rfl
  · intro b _ c hc
    have hstop := List.head?_dropWhile_not p l
    rw [Option.mem_def] at hc
    rw [hc] at hstop
    simp [hstop]

theorem runsOf_cons_of_neg {a : α} (l : List α) (h : p a = false) :
    runsOf p (a :: l) = [a] :: runsOf p l := by
  unfold runsOf
  rw [← List.singleton_append, List.splitBy_append]
  · rfl
  · intro b hb c _
    obtain rfl : b = a := by simpa using hb.symm
    simp [h]

end Runs

/-- The times of a timed unit. -/
def TimedUnit.times (unit : TimedUnit) : ℤ × ℤ := (unit.startMs, unit.endMs)

/-- The units of a text, as a reader sees them: the maximal runs of ASCII word characters, and the
other characters that are not separators, one by one. -/
def spokenUnits (text : Text) : List Text :=
  (runsOf isAsciiWordChar text).filter fun run =>
    run.any fun c => isAsciiWordChar c || !isTextSeparator c

/-- The runs of ASCII word characters that are apostrophes only. -/
def apostropheRuns (text : Text) : List Text :=
  (runsOf isAsciiWordChar text).filter fun run => run.all fun c => c = '\''

/-- The tokens are as many as the units and the timestamps allow, each carries the times of its
timestamp, and together they spell the text. -/
structure Conserves (text : Text) (timestamps : List Stamp) (tokens : List TimedUnit) : Prop where
  length_eq : tokens.length = min (spokenUnits text).length timestamps.length
  times : tokens.map TimedUnit.times = (timestamps.take tokens.length).map Stamp.times
  text : tokens.flatMap TimedUnit.text = text

section Loop

/-- What holds after the first rounds of the loop. -/
structure AlignedUpTo (timestamps : List Stamp) (pieces : List TextPiece) (a : Alignment) :
    Prop where
  text : a.tokens.flatMap TimedUnit.text ++ a.pendingPrefix = pieces.flatMap TextPiece.text
  pendingPrefix : a.tokens ≠ [] → a.pendingPrefix = []
  times : a.tokens.map TimedUnit.times ++ a.remaining.map Stamp.times =
    timestamps.map Stamp.times
  length_eq : a.tokens.length =
    min (pieces.filterMap TextPiece.unit?).length timestamps.length

/-- What goes with the last token changes its text only. -/
theorem appendToLast_spec {tokens : List TimedUnit} (h : tokens ≠ []) (more : Text) :
    (appendToLast tokens more).flatMap TimedUnit.text = tokens.flatMap TimedUnit.text ++ more ∧
      (appendToLast tokens more).map TimedUnit.times = tokens.map TimedUnit.times ∧
      appendToLast tokens more ≠ [] := by
  obtain ⟨front, last, rfl⟩ := List.eq_nil_or_concat tokens |>.resolve_left h
  rw [List.concat_eq_append, appendToLast_concat]
  simp [TimedUnit.times]

variable {timestamps : List Stamp} {pieces : List TextPiece} {a : Alignment}

/-- A piece that takes no timestamp goes with the last token. -/
theorem AlignedUpTo.appendToLast (h : AlignedUpTo timestamps pieces a) (hsome : a.tokens ≠ [])
    (piece : TextPiece) (hfull : piece.unit? = none ∨ a.remaining = []) :
    AlignedUpTo timestamps (pieces ++ [piece])
      { a with tokens := appendToLast a.tokens piece.text } := by
  obtain ⟨htext, hpending, htimes, hlength⟩ := h
  obtain ⟨htext', htimes', -⟩ := appendToLast_spec hsome piece.text
  have hlength' := congrArg List.length htimes'
  have hcount := congrArg List.length htimes
  simp only [List.length_append, List.length_map] at hlength' hcount
  refine ⟨?_, fun _ => hpending hsome, ?_, ?_⟩
  · rw [hpending hsome, List.append_nil] at htext ⊢
    rw [htext', htext, List.flatMap_append, List.flatMap_singleton]
  · rw [htimes', htimes]
  · rw [hlength', hlength, List.filterMap_append, List.length_append]
    rcases hfull with hnone | hnil
    · simp [hnone]
    · rw [hnil, List.length_nil] at hcount
      omega

/-- One round of the loop. -/
theorem AlignedUpTo.next (h : AlignedUpTo timestamps pieces a) (hne : timestamps ≠ [])
    (includeTimestampDetail : Bool) (piece : TextPiece) :
    AlignedUpTo timestamps (pieces ++ [piece]) (alignPiece includeTimestampDetail a piece) := by
  have hpos := List.length_pos_iff.mpr hne
  have hcount := congrArg List.length h.times
  simp only [List.length_append, List.length_map] at hcount
  have hlength := h.length_eq
  cases piece with
  | separator c =>
    rw [alignPiece]
    by_cases hnil : a.tokens = []
    · rw [if_pos hnil]
      have htext := h.text
      refine ⟨?_, fun hsome => absurd hnil hsome, h.times, ?_⟩
      · rw [List.flatMap_append, ← htext, List.append_assoc]
        rfl
      · rw [List.filterMap_append, List.length_append]
        exact hlength
    · rw [if_neg hnil]
      exact h.appendToLast hnil (.separator c) (.inl rfl)
  | unit u =>
    rw [alignPiece]
    cases hremaining : a.remaining with
    | nil =>
      rw [hremaining, List.length_nil] at hcount
      have hsome : a.tokens ≠ [] := List.length_pos_iff.mp (by omega)
      have hlast := h.appendToLast hsome (.unit u) (.inr hremaining)
      rwa [hremaining] at hlast
    | cons stamp rest =>
      have htext := h.text
      have htimes := h.times
      rw [hremaining, List.length_cons] at hcount
      refine ⟨?_, fun _ => rfl, ?_, ?_⟩
      · rw [List.flatMap_append, List.flatMap_append, ← htext]
        simp [timedToken, TextPiece.text]
      · rw [← htimes, hremaining]
        simp [timedToken, TimedUnit.times, Stamp.times]
      · rw [List.filterMap_append, List.length_append, List.length_append]
        change _ + 1 = min (_ + 1) _
        omega

/-- The whole loop. -/
theorem AlignedUpTo.run (hne : timestamps ≠ []) (includeTimestampDetail : Bool)
    (rest : List TextPiece) (h : AlignedUpTo timestamps pieces a) :
    AlignedUpTo timestamps (pieces ++ rest)
      (rest.foldl (alignPiece includeTimestampDetail) a) := by
  induction rest generalizing pieces a with
  | nil => simpa using h
  | cons piece rest ih =>
    rw [List.foldl_cons, List.append_cons]
    exact ih (h.next hne includeTimestampDetail piece)

/-- Every unit that finds one takes the next timestamp, and no character is lost. -/
theorem alignTextToTimestamps_conserves {text : Text} (hunit : textUnits text ≠ [])
    (hne : timestamps ≠ []) (includeTimestampDetail : Bool) :
    let tokens := alignTextToTimestamps includeTimestampDetail text timestamps
    tokens.length = min (textUnits text).length timestamps.length ∧
      tokens.map TimedUnit.times = (timestamps.take tokens.length).map Stamp.times ∧
      tokens.flatMap TimedUnit.text = text := by
  have hstart : AlignedUpTo timestamps [] ⟨timestamps, [], []⟩ :=
    ⟨rfl, fun _ => rfl, rfl, by simp⟩
  obtain ⟨htext, hpending, htimes, hlength⟩ :=
    hstart.run hne includeTimestampDetail (textPieces text)
  rw [List.nil_append] at htext hlength
  unfold alignTextToTimestamps
  generalize (textPieces text).foldl (alignPiece includeTimestampDetail)
    ⟨timestamps, [], []⟩ = a at *
  have hunits := List.length_pos_iff.mpr hunit
  have hstamps := List.length_pos_iff.mpr hne
  unfold textUnits at hunits
  have hsome : a.tokens ≠ [] := List.length_pos_iff.mp (by omega)
  dsimp only
  rw [hpending hsome, appendToLast_nil]
  rw [hpending hsome, List.append_nil, textPieces_text] at htext
  refine ⟨hlength, ?_, htext⟩
  have htake := congrArg (List.take a.tokens.length) htimes
  rwa [List.take_left' (List.length_map _), ← List.map_take] at htake

end Loop

section Units

/-- The apostrophe is the only separator among the ASCII word characters. -/
theorem isTextSeparator_of_word {c : Char} (h : isAsciiWordChar c = true) :
    isTextSeparator c = decide (c = '\'') := by
  have hascii : ∀ n < 128, isAsciiWordChar (Char.ofNat n) = true →
      isTextSeparator (Char.ofNat n) = decide (Char.ofNat n = '\'') := by decide
  have hc := hascii c.toNat (toNat_lt_of_word h)
  rw [Char.ofNat_toNat] at hc
  exact hc h

/-- The scanner finds something in a run of word characters, unless they are apostrophes. -/
theorem any_notSeparator_of_word {run : Text} (h : ∀ c ∈ run, isAsciiWordChar c = true) :
    (run.any fun c => !isTextSeparator c) = !run.all fun c => c = '\'' := by
  rw [List.not_all_eq_any_not, Bool.eq_iff_iff, List.any_eq_true, List.any_eq_true]
  refine exists_congr fun c => and_congr_right fun hc => ?_
  rw [isTextSeparator_of_word (h c hc)]

/-- A reader counts the runs of apostrophes, which the scanner passes over. -/
theorem length_spokenUnits (text : Text) :
    (spokenUnits text).length = (textUnits text).length + (apostropheRuns text).length := by
  unfold spokenUnits apostropheRuns
  simp only [← List.countP_eq_length_filter]
  induction text using textPieces_induction with
  | hnil => rfl
  | hcons c rest ih ihdrop =>
    by_cases hword : isAsciiWordChar c = true
    · have hwords : ∀ d ∈ c :: rest.takeWhile isAsciiWordChar, isAsciiWordChar d = true := by
        intro d hd
        rcases List.mem_cons.mp hd with rfl | hmem
        · exact hword
        · exact List.mem_takeWhile_imp hmem
      have hspoken : (c :: rest.takeWhile isAsciiWordChar).any
          (fun d => isAsciiWordChar d || !isTextSeparator d) = true := by
        simp [hword]
      have hscan := length_textUnits_run (c :: rest)
      rw [List.takeWhile_cons_of_pos hword, List.dropWhile_cons_of_pos hword,
        any_notSeparator_of_word hwords] at hscan
      rw [runsOf_cons_of_pos rest hword, List.countP_cons, List.countP_cons, hspoken, ihdrop,
        hscan]
      cases (c :: rest.takeWhile isAsciiWordChar).all fun d => decide (d = '\'') with
      | false => simp; omega
      | true => simp; omega
    · have hother := Bool.eq_false_iff.mpr hword
      have hne : c ≠ '\'' := by
        rintro rfl
        exact hword (by decide)
      have hscan := length_textUnits_cons c rest
      rw [if_neg hword] at hscan
      rw [runsOf_cons_of_neg rest hother, List.countP_cons, List.countP_cons, hscan, ih]
      by_cases hsep : isTextSeparator c = true
      · simp [hother, hsep, hne]
      · simp [hother, hsep, hne]
        omega

end Units

/-- The alignment conserves a text, exactly when it has no run of apostrophes, or no more
timestamps than other units. -/
theorem alignTextToTimestamps_conserves_iff (includeTimestampDetail : Bool) (text : Text)
    (timestamps : List Stamp) (hspoken : ∃ c ∈ text, isTextSeparator c = false)
    (hne : timestamps ≠ []) :
    Conserves text timestamps (alignTextToTimestamps includeTimestampDetail text timestamps) ↔
      apostropheRuns text = [] ∨
        timestamps.length + (apostropheRuns text).length ≤ (spokenUnits text).length := by
  have hunit : textUnits text ≠ [] := by
    obtain ⟨c, hc, hsep⟩ := hspoken
    intro hnil
    rw [textUnits_eq_nil_iff.mp hnil c hc] at hsep
    cases hsep
  obtain ⟨hlength, htimes, htext⟩ :=
    alignTextToTimestamps_conserves hunit hne includeTimestampDetail
  have hcount := length_spokenUnits text
  rw [← List.length_eq_zero_iff]
  constructor
  · intro h
    have hmin := h.length_eq
    omega
  · exact fun h => ⟨by omega, htimes, htext⟩

/-- Two units and three timestamps, with separators around them. -/
theorem alignTextToTimestamps_conserves_two :
    Conserves ['，', 'o', '\'', 'k', '。', '好', ' ']
      [⟨[], 0, 100⟩, ⟨[], 100, 200⟩, ⟨[], 200, 300⟩]
      (alignTextToTimestamps false ['，', 'o', '\'', 'k', '。', '好', ' ']
        [⟨[], 0, 100⟩, ⟨[], 100, 200⟩, ⟨[], 200, 300⟩]) :=
  (alignTextToTimestamps_conserves_iff false _ _ ⟨'好', by decide, by decide⟩ (by decide)).mpr
    (.inl (by decide))

/-- An apostrophe by itself takes no timestamp. -/
theorem alignTextToTimestamps_lone_apostrophe :
    spokenUnits ['a', ' ', '\''] = [['a'], ['\'']] ∧
      (alignTextToTimestamps false ['a', ' ', '\''] [⟨[], 0, 100⟩, ⟨[], 100, 200⟩]).length = 1 ∧
      ¬ Conserves ['a', ' ', '\''] [⟨[], 0, 100⟩, ⟨[], 100, 200⟩]
        (alignTextToTimestamps false ['a', ' ', '\''] [⟨[], 0, 100⟩, ⟨[], 100, 200⟩]) := by
  refine ⟨by decide, by decide, fun h => ?_⟩
  exact absurd h.length_eq (by decide)

end FunasrApi.Offline
