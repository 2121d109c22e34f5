import FunasrApi.Offline.TextUnits
import FunasrApi.Core.Numeric
import FunasrApi.Core.ListLoops
import Mathlib.Data.Prod.Lex

/-!
# Timestamps of a transcript

The helpers that normalize, shift and complete timestamps, and the alignment of a
text to them by position: each unit of the text takes the next timestamp, and the
separators go with the unit before them.
-/

namespace FunasrApi.Offline

open FunasrApi.Core Text

/-- An item of timestamp data: a list of three or of two with numbers for times, or another. -/
inductive RawTimestamp
  | triple (token : Text) (startMs endMs : ℚ)
  | pair (startMs endMs : ℚ)
  | other
deriving DecidableEq

/-- The value of a `timestamp` key: a list, a string with what `json.loads` makes of it when
that is a list, or `None`. -/
inductive TimestampValue
  | items (items : List RawTimestamp)
  | json (source : Text) (parsed : Option (List RawTimestamp))
  | null
deriving DecidableEq

/-- A normalized timestamp, `[text, start_ms, end_ms]`. -/
structure Stamp where
  /-- The text of the token, which the alignment does not read. -/
  token : Text
  /-- The time at which the token begins. -/
  startMs : ℤ
  /-- The time at which the token ends. -/
  endMs : ℤ
deriving DecidableEq

namespace Stamp

/-- The same token, later. -/
def shift (stamp : Stamp) (offsetMs : ℤ) : Stamp :=
  { stamp with startMs := stamp.startMs + offsetMs, endMs := stamp.endMs + offsetMs }

/-- The item that the timestamp is in a list of timestamp data. -/
def raw (stamp : Stamp) : RawTimestamp := .triple stamp.token stamp.startMs stamp.endMs

/-- The times of the token. -/
def times (stamp : Stamp) : ℤ × ℤ := (stamp.startMs, stamp.endMs)

/-- The key by which timed units are sorted. -/
def key (stamp : Stamp) : Lex (ℤ × ℤ) := toLex stamp.times

end Stamp

/-- The timestamps do not run backwards. -/
def InTimeOrder (timestamps : List Stamp) : Prop := timestamps.Pairwise fun a b => a.key ≤ b.key

instance (timestamps : List Stamp) : Decidable (InTimeOrder timestamps) :=
  inferInstanceAs (Decidable (List.Pairwise _ _))

/-- One item of `normalize_timestamps`; an item that is not a list of two or three is skipped. -/
def normalizeItem : RawTimestamp → Option Stamp
  | .triple token startMs endMs => some ⟨token, truncate startMs, truncate endMs⟩
  | .pair startMs endMs => some ⟨[], truncate startMs, truncate endMs⟩
  | .other => none

/-- The loop of `normalize_timestamps`: `normalized or None`. -/
def normalizeItems (items : List RawTimestamp) : Option (List Stamp) :=
  match items.filterMap normalizeItem with
  | [] => none
  | normalized => some normalized

/-- `normalize_timestamps`. -/
def normalizeTimestamps : TimestampValue → Option (List Stamp)
  | .items items => normalizeItems items
  | .json _ parsed => parsed.bind normalizeItems
  | .null => none

/-- `offset_timestamps`. -/
def offsetTimestamps (timestamps : List Stamp) (offsetMs : ℤ) : List Stamp :=
  if timestamps = [] ∨ offsetMs ≤ 0 then timestamps else timestamps.map (·.shift offsetMs)

/-- The `last_end` of `maybe_offset_timestamps`, the latest end of a nonempty list. -/
def lastEnd (first : Stamp) (rest : List Stamp) : ℤ :=
  rest.foldl (fun latest stamp => max latest stamp.endMs) first.endMs

/-- `maybe_offset_timestamps`. -/
def maybeOffsetTimestamps (timestamps : List Stamp) (startMs endMs : ℤ) : List Stamp :=
  match timestamps with
  | [] => []
  | first :: rest =>
    if startMs ≤ 0 then first :: rest
    else
      let sentenceDuration := max 0 (endMs - startMs)
      if sentenceDuration ≠ 0 ∧ lastEnd first rest ≤ sentenceDuration + 50 then
        (first :: rest).map (·.shift startMs)
      else first :: rest

/-- `fill_timestamp_tokens`: the tokens of the text, when there are as many as timestamps. -/
def fillTimestampTokens (text : Text) (timestamps : List Stamp) : List Stamp :=
  if text = [] ∨ timestamps = [] then timestamps
  else
    let fill (rawTokens : List Text) :=
      rawTokens.zipWith (fun token stamp => { stamp with token := token }) timestamps
    let chars := (text.filter fun c => !isSpace c && !isTextSeparator c).map ([·])
    if (words text).length = timestamps.length then fill (words text)
    else if chars.length = timestamps.length then fill chars
    else timestamps

/-- A timed unit of a text. The `timestamp` key may be absent. -/
structure TimedUnit where
  /-- The unit with the separators that go with it. -/
  text : Text
  /-- The time at which it begins. -/
  startMs : ℤ
  /-- The time at which it ends. -/
  endMs : ℤ
  /-- The timestamp detail. -/
  timestamp : Option TimestampValue
deriving DecidableEq

/-- The key by which timed units are sorted. -/
def TimedUnit.key (unit : TimedUnit) : Lex (ℤ × ℤ) := toLex (unit.startMs, unit.endMs)

/-- The `timestamp` key of an aligned token, when the detail is asked for. -/
def Stamp.detail (includeTimestampDetail : Bool) (stamp : Stamp) : Option TimestampValue :=
  if includeTimestampDetail then some (.items [stamp.raw]) else none

/-- The token that a text is with its timestamp. -/
def timedToken (includeTimestampDetail : Bool) (text : Text) (stamp : Stamp) : TimedUnit :=
  ⟨text, stamp.startMs, stamp.endMs, stamp.detail includeTimestampDetail⟩

/-- `tokens[-1]["text"] += text`, when there is a token. -/
def appendToLast : List TimedUnit → Text → List TimedUnit
  | [], _ => []
  | [token], text => [{ token with text := token.text ++ text }]
  | token :: next :: rest, text => token :: appendToLast (next :: rest) text

/-- The variables of the loop of `align_text_to_timestamps`. -/
structure Alignment where
  /-- The timestamps from `timestamp_index` on. -/
  remaining : List Stamp
  /-- The tokens so far. -/
  tokens : List TimedUnit
  /-- The separators before the first token. -/
  pendingPrefix : Text

section Align

variable (includeTimestampDetail : Bool)

/-- One round of the loop. A unit for which no timestamp is left goes with the last token. -/
def alignPiece (a : Alignment) : TextPiece → Alignment
  | .separator c =>
    if a.tokens = [] then { a with pendingPrefix := a.pendingPrefix ++ [c] }
    else { a with tokens := appendToLast a.tokens [c] }
  | .unit u =>
    match a.remaining with
    | [] => { a with tokens := appendToLast a.tokens u }
    | stamp :: rest =>
      { remaining := rest
        tokens := a.tokens ++ [timedToken includeTimestampDetail (a.pendingPrefix ++ u) stamp]
        pendingPrefix := [] }

/-- `align_text_to_timestamps`. All callers pass normalized timestamps. -/
def alignTextToTimestamps (text : Text) (timestamps : List Stamp) : List TimedUnit :=
  let done := (textPieces text).foldl (alignPiece includeTimestampDetail) ⟨timestamps, [], []⟩
  appendToLast done.tokens done.pendingPrefix

end Align

@[simp] theorem normalizeItem_raw (stamp : Stamp) : normalizeItem stamp.raw = some stamp := by
  simp [normalizeItem, Stamp.raw]

/-- Timestamps in whole milliseconds are normalized to themselves. -/
theorem normalizeTimestamps_raw {stamps : List Stamp} (h : stamps ≠ []) :
    normalizeTimestamps (.items (stamps.map Stamp.raw)) = some stamps := by
  have hitems : (stamps.map Stamp.raw).filterMap normalizeItem = stamps := by
    simp [List.filterMap_map]
  cases stamps with
  | nil => exact absurd rfl h
  | cons first rest => rw [normalizeTimestamps, normalizeItems, hitems]

/-- Offsetting by a negative number is not offsetting. -/
theorem offsetTimestamps_eq_map (stamps : List Stamp) {offsetMs : ℤ} (h : 0 ≤ offsetMs) :
    offsetTimestamps stamps offsetMs = stamps.map (·.shift offsetMs) := by
  unfold offsetTimestamps
  split
  · next hnone =>
    rcases hnone with rfl | hle
    · rfl
    · obtain rfl : offsetMs = 0 := by omega
      simp [Stamp.shift]
  · rfl

/-- Filling in tokens leaves the times as they are. -/
theorem fillTimestampTokens_times (text : Text) (stamps : List Stamp) :
    (fillTimestampTokens text stamps).map Stamp.times = stamps.map Stamp.times := by
  have hfill : ∀ tokens : List Text, tokens.length = stamps.length →
      (tokens.zipWith (fun token stamp => { stamp with token := token }) stamps).map Stamp.times =
        stamps.map Stamp.times := by
    intro tokens hlength
    induction tokens generalizing stamps with
    | nil =>
      obtain rfl := List.eq_nil_of_length_eq_zero hlength.symm
      rfl
    | cons token tokens ih =>
      cases stamps with
      | nil => cases hlength
      | cons stamp stamps => simp [ih stamps (Nat.succ.inj hlength), Stamp.times]
  unfold fillTimestampTokens
  split
  · rfl
  · dsimp only
    split
    · exact hfill _ (by assumption)
    · split
      · exact hfill _ (by assumption)
      · rfl

section LastEnd

/-- The latest end is at least every end. -/
theorem le_lastEnd (first : Stamp) (rest : List Stamp) :
    ∀ stamp ∈ first :: rest, stamp.endMs ≤ lastEnd first rest := by
  have hmono : ∀ (stamps : List Stamp) (latest : ℤ),
      latest ≤ stamps.foldl (fun latest stamp => max latest stamp.endMs) latest := by
    intro stamps
    induction stamps with
    | nil => exact fun latest => le_rfl
    | cons stamp stamps ih => exact fun latest => (le_max_left _ _).trans (ih _)
  have hall : ∀ (stamps : List Stamp) (latest : ℤ), ∀ stamp ∈ stamps,
      stamp.endMs ≤ stamps.foldl (fun latest stamp => max latest stamp.endMs) latest := by
    intro stamps
    induction stamps with
    | nil => exact fun _ _ h => absurd h List.not_mem_nil
    | cons head stamps ih =>
      intro latest stamp hstamp
      rcases List.mem_cons.mp hstamp with rfl | hrest
      · exact (le_max_right _ _).trans (hmono stamps _)
      · exact ih _ stamp hrest
  intro stamp hstamp
  rcases List.mem_cons.mp hstamp with rfl | hrest
  · exact hmono rest _
  · exact hall rest _ stamp hrest

/-- The latest end is below whatever all ends are below. -/
theorem lastEnd_le {first : Stamp} {rest : List Stamp} {bound : ℤ}
    (h : ∀ stamp ∈ first :: rest, stamp.endMs ≤ bound) : lastEnd first rest ≤ bound := by
  unfold lastEnd
  have hfirst := h first (List.mem_cons_self ..)
  generalize first.endMs = latest at hfirst
  induction rest generalizing latest with
  | nil => exact hfirst
  | cons stamp rest ih =>
    refine ih (fun other hother => h other ?_) _ (max_le hfirst (h stamp (by simp)))
    rcases List.mem_cons.mp hother with rfl | hrest
    · exact List.mem_cons_self ..
    · exact List.mem_cons_of_mem _ (List.mem_cons_of_mem _ hrest)

end LastEnd

section AlignSpec

variable {includeTimestampDetail : Bool}

@[simp] theorem appendToLast_nil (tokens : List TimedUnit) : appendToLast tokens [] = tokens := by
  induction tokens with
  | nil => rfl
  | cons first rest ih =>
    cases rest with
    | nil => simp [appendToLast]
    | cons next rest => exact congrArg (first :: ·) ih

@[simp] theorem appendToLast_concat (tokens : List TimedUnit) (token : TimedUnit) (text : Text) :
    appendToLast (tokens ++ [token]) text =
      tokens ++ [{ token with text := token.text ++ text }] := by
  induction tokens with
  | nil => rfl
  | cons first rest ih =>
    cases rest with
    | nil => rfl
    | cons next rest => exact congrArg (first :: ·) ih

/-- Once there is a token, separators go with it and every unit takes the next timestamp. -/
theorem foldl_alignPiece_concat (includeTimestampDetail : Bool) (pieces : List TextPiece)
    (tokens : List TimedUnit) (last : TimedUnit) (stamps : List Stamp)
    (h : (pieces.filterMap TextPiece.unit?).length ≤ stamps.length) :
    let a := pieces.foldl (alignPiece includeTimestampDetail) ⟨stamps, tokens ++ [last], []⟩
    a.pendingPrefix = [] ∧
      a.tokens = tokens ++ { last with text := last.text ++ (attachSeparators pieces).1 } ::
        (attachSeparators pieces).2.zipWith (timedToken includeTimestampDetail) stamps := by
  induction pieces generalizing tokens last stamps with
  | nil => simp [attachSeparators]
  | cons piece pieces ih =>
    rw [List.foldl_cons]
    cases piece with
    | separator c =>
      rw [alignPiece, if_neg (by simp), appendToLast_concat]
      obtain ⟨hpending, htokens⟩ := ih tokens { last with text := last.text ++ [c] } stamps h
      exact ⟨hpending, htokens.trans (by simp [attachSeparators])⟩
    | unit u =>
      cases stamps with
      | nil => simp [TextPiece.unit?] at h
      | cons stamp stamps =>
        obtain ⟨hpending, htokens⟩ := ih (tokens ++ [last])
          (timedToken includeTimestampDetail u stamp) stamps (Nat.le_of_succ_le_succ h)
        refine ⟨hpending, htokens.trans ?_⟩
        simp [attachSeparators, timedToken]

/-- Before the first token, separators wait for it. -/
theorem foldl_alignPiece_nil (includeTimestampDetail : Bool) (pieces : List TextPiece)
    (leading : Text) (stamps : List Stamp)
    (h : (pieces.filterMap TextPiece.unit?).length ≤ stamps.length) :
    let a := pieces.foldl (alignPiece includeTimestampDetail) ⟨stamps, [], leading⟩
    (a.tokens ≠ [] → a.pendingPrefix = []) ∧
      a.tokens =
        (tokensAfter leading pieces).zipWith (timedToken includeTimestampDetail) stamps := by
  induction pieces generalizing leading with
  | nil => exact ⟨fun hne => absurd rfl hne, rfl⟩
  | cons piece pieces ih =>
    rw [List.foldl_cons]
    cases piece with
    | separator c =>
      rw [alignPiece, if_pos rfl]
      obtain ⟨hpending, htokens⟩ := ih (leading ++ [c]) h
      exact ⟨hpending, htokens.trans (by rw [tokensAfter_separator])⟩
    | unit u =>
      cases stamps with
      | nil => simp [TextPiece.unit?] at h
      | cons stamp stamps =>
        obtain ⟨hpending, htokens⟩ := foldl_alignPiece_concat includeTimestampDetail pieces []
          (timedToken includeTimestampDetail (leading ++ u) stamp) stamps
          (Nat.le_of_succ_le_succ h)
        refine ⟨fun _ => hpending, htokens.trans ?_⟩
        simp [tokensAfter, attachSeparators, timedToken]

/-- The tokens of a text, each with the timestamp that it takes. -/
def timedTokens (text : Text) (timestamps : List Stamp) : List (Text × Stamp) :=
  (textTokens text).zip timestamps

/-- With enough timestamps, the tokens of the text take them one after the other. -/
theorem alignTextToTimestamps_eq_map {text : Text} {timestamps : List Stamp}
    (h : (textUnits text).length ≤ timestamps.length) :
    alignTextToTimestamps includeTimestampDetail text timestamps =
      (timedTokens text timestamps).map fun p => timedToken includeTimestampDetail p.1 p.2 := by
  obtain ⟨hpending, htokens⟩ :=
    foldl_alignPiece_nil includeTimestampDetail (textPieces text) [] timestamps h
  have hlast : alignTextToTimestamps includeTimestampDetail text timestamps =
      ((textPieces text).foldl (alignPiece includeTimestampDetail)
        ⟨timestamps, [], []⟩).tokens := by
    rw [alignTextToTimestamps]
    by_cases hnil : ((textPieces text).foldl (alignPiece includeTimestampDetail)
        ⟨timestamps, [], []⟩).tokens = []
    · rw [hnil]
      rfl
    · rw [hpending hnil, appendToLast_nil]
  rw [hlast, htokens, timedTokens, ← List.map_uncurry_zip_eq_zipWith]
  rfl

theorem timedTokens_fst {text : Text} {timestamps : List Stamp}
    (h : (textUnits text).length ≤ timestamps.length) :
    (timedTokens text timestamps).map Prod.fst = textTokens text :=
  List.map_fst_zip (by rwa [length_textTokens])

/-- The tokens of a text are read as the text. -/
theorem timedTokens_text {text : Text} {timestamps : List Stamp}
    (h : (textUnits text).length ≤ timestamps.length) (hunit : textUnits text ≠ []) :
    (timedTokens text timestamps).flatMap Prod.fst = text := by
  rw [List.flatMap_def, timedTokens_fst h, textTokens_flatten hunit]

theorem timedTokens_ne_nil {text : Text} {timestamps : List Stamp}
    (h : (textUnits text).length ≤ timestamps.length) (hunit : textUnits text ≠ []) :
    timedTokens text timestamps ≠ [] := by
  intro hnil
  have htext := timedTokens_text h hunit
  rw [hnil] at htext
  exact hunit (by rw [← htext]; rfl)

end AlignSpec

end FunasrApi.Offline
