import FunasrApi.Offline.OnnxMerge

/-!
# Sentences for VAD segments

Without decoded segments and timestamps, the text is cut at one mark and each piece
gets the mark and a VAD segment. So the text is kept exactly when the mark ends
every sentence and there are segments enough.
-/

namespace FunasrApi.Offline

open FunasrApi.Core Text

/-- The mark at which the text is cut. -/
abbrev fullStop : Char := '。'

/-- The text is a row of sentences, none blank, that end with the mark, and so many segments are
enough for them. -/
structure EndsEverySentence (text : Text) (segments : ℕ) : Prop where
  sentences : ∀ piece ∈ (split fullStop text).dropLast, strip piece ≠ []
  rest : ∀ piece ∈ (split fullStop text).getLast?, strip piece = []
  count : (split fullStop text).dropLast.length ≤ segments

instance (text : Text) (segments : ℕ) : Decidable (EndsEverySentence text segments) :=
  decidable_of_iff
    ((∀ piece ∈ (split fullStop text).dropLast, strip piece ≠ []) ∧
      (∀ piece ∈ (split fullStop text).getLast?, strip piece = []) ∧
      (split fullStop text).dropLast.length ≤ segments)
    ⟨fun ⟨hsentences, hrest, hcount⟩ => ⟨hsentences, hrest, hcount⟩,
      fun h => ⟨h.sentences, h.rest, h.count⟩⟩

/-- Some of the pieces that are not empty, and an empty one, are all the pieces exactly when the
last one is empty, the others are not, and none is left out. -/
theorem take_filter_append_nil_iff {α : Type*} [DecidableEq α] {pieces : List (List α)} {n : ℕ} :
    (pieces.filter (· ≠ [])).take n ++ [[]] = pieces ↔
      (∀ piece ∈ pieces.dropLast, piece ≠ []) ∧ pieces.getLast? = some [] ∧
        pieces.dropLast.length ≤ n := by
  constructor
  · intro h
    have hlast : pieces.getLast? = some [] := by rw [← h, List.getLast?_concat]
    have hfront : pieces.dropLast = (pieces.filter (· ≠ [])).take n := by
      conv_lhs => rw [← h]
      rw [List.dropLast_concat]
    refine ⟨fun piece hpiece => ?_, hlast, ?_⟩
    · rw [hfront] at hpiece
      exact of_decide_eq_true (List.mem_filter.mp (List.mem_of_mem_take hpiece)).2
    · rw [hfront]
      exact List.length_take_le _ _
  · rintro ⟨hpieces, hlast, hcount⟩
    have hsplit : pieces = pieces.dropLast ++ [[]] := (List.dropLast_append_getLast? _ hlast).symm
    have hfilter : pieces.filter (· ≠ []) = pieces.dropLast := by
      conv_lhs => rw [hsplit]
      rw [List.filter_append, List.filter_eq_self.mpr fun piece hpiece =>
        decide_eq_true (hpieces piece hpiece)]
      simp
    rw [hfilter, List.take_of_length_le hcount, ← hsplit]

theorem zipWith_right {α β : Type*} (xs : List α) (ys : List β) :
    xs.zipWith (fun _ y => y) ys = ys.take xs.length := by
  induction xs generalizing ys with
  | nil => rfl
  | cons x xs ih =>
    cases ys with
    | nil => rfl
    | cons y ys => exact congrArg (y :: ·) (ih ys)

/-- The texts of the sentences, as many as there are segments. -/
theorem buildSentenceInfoFromVad_text {text : Text} (hne : text ≠ [])
    (vadSegments : List (ℤ × ℤ)) :
    (buildSentenceInfoFromVad text vadSegments).map TimedSentence.text =
      (if ∀ piece ∈ split fullStop text, strip piece = [] then [text]
        else (((split fullStop text).map strip).filter (· ≠ [])).map (· ++ [fullStop])).take
        vadSegments.length := by
  have hblank : (((split fullStop text).map strip).filter (· ≠ [])).map (· ++ [fullStop]) = [] ↔
      ∀ piece ∈ split fullStop text, strip piece = [] := by
    rw [List.map_eq_nil_iff, List.filter_eq_nil_iff]
    simp
  unfold buildSentenceInfoFromVad
  dsimp only
  rw [List.map_zipWith, zipWith_right]
  by_cases hall : ∀ piece ∈ split fullStop text, strip piece = []
  · rw [if_pos ⟨hblank.mpr hall, hne⟩, if_pos hall]
  · rw [if_neg fun h => hall (hblank.mp h.1), if_neg hall]

theorem endsEverySentence_iff {text : Text} {segments : ℕ} :
    EndsEverySentence text segments ↔
      (∀ piece ∈ ((split fullStop text).map withoutSpace).dropLast, piece ≠ []) ∧
        ((split fullStop text).map withoutSpace).getLast? = some [] ∧
        ((split fullStop text).map withoutSpace).dropLast.length ≤ segments := by
  have hne : split fullStop text ≠ [] := List.splitOn_ne_nil _ _
  have hlast : ((split fullStop text).map withoutSpace).getLast? = some [] ↔
      ∀ piece ∈ (split fullStop text).getLast?, strip piece = [] := by
    rw [List.getLast?_map, List.getLast?_eq_some_getLast hne, Option.map_some, Option.some_inj,
      withoutSpace_eq_nil_iff]
    simp
  have hfront : (∀ piece ∈ ((split fullStop text).map withoutSpace).dropLast, piece ≠ []) ↔
      ∀ piece ∈ (split fullStop text).dropLast, strip piece ≠ [] := by
    rw [← List.map_dropLast, List.forall_mem_map]
    exact forall₂_congr fun piece _ => not_congr withoutSpace_eq_nil_iff
  rw [hfront, hlast, ← List.map_dropLast, List.length_map]
  exact ⟨fun h => ⟨h.sentences, h.rest, h.count⟩, fun ⟨hs, hr, hc⟩ => ⟨hs, hr, hc⟩⟩

/-- Unless all pieces are blank, the sentences for the segments keep the text exactly when each
sentence ends with the mark and has a segment. -/
theorem marked_withoutSpace_iff (text : Text) (segments : ℕ) :
    withoutSpace ((((((split fullStop text).map strip).filter (· ≠ [])).map
        (· ++ [fullStop])).take segments).flatten) = withoutSpace text ↔
      EndsEverySentence text segments := by
  set pieces := split fullStop text with hpieces
  have hspace : isSpace fullStop = false := by decide
  have hmark : ∀ piece ∈ pieces, fullStop ∉ withoutSpace piece := fun piece hpiece hmem =>
    not_mem_of_mem_split hpiece (List.mem_of_mem_filter hmem)
  have hkept : (((pieces.map strip).filter (· ≠ [])).take segments).map withoutSpace =
      ((pieces.map withoutSpace).filter (· ≠ [])).take segments := by
    have hstrip : withoutSpace ∘ strip = withoutSpace := funext withoutSpace_strip
    have hblank : (fun t : Text => decide (t ≠ [])) ∘ strip =
        (fun t : Text => decide (t ≠ [])) ∘ withoutSpace :=
      funext fun piece => decide_eq_decide.mpr (not_congr withoutSpace_eq_nil_iff.symm)
    rw [List.map_take, List.filter_map, List.map_map, hstrip, List.filter_map, hblank]
  have htext : withoutSpace text = join fullStop (pieces.map withoutSpace) := by
    rw [← withoutSpace_join hspace, hpieces, join_split]
  have hne : pieces ≠ [] := List.splitOn_ne_nil _ _
  rw [← List.map_take, flatten_map_append_mark, withoutSpace_join hspace, List.map_append, hkept,
    htext, List.map_singleton, join_inj ?_ ?_ (by simp) (by simpa using hne),
    show withoutSpace [] = [] from rfl, take_filter_append_nil_iff, endsEverySentence_iff]
  · intro t ht
    rcases List.mem_append.mp ht with hkeep | hlast
    · obtain ⟨piece, hpiece, rfl⟩ :=
        List.mem_map.mp (List.mem_of_mem_filter (List.mem_of_mem_take hkeep))
      exact hmark piece hpiece
    · rw [List.mem_singleton.mp hlast]
      exact List.not_mem_nil
  · simpa using hmark

section Fallback

variable {κ : Type*} [Zero κ]

/-- Without decoded segments and timestamps, `build_asr_sentence_info` keeps the text up to white
space exactly when there are no VAD segments, the text has no sentence at all, or each of its
sentences ends with the mark and has a segment. -/
theorem buildAsrSentenceInfo_keepsText_iff (payload : OnnxPayload κ)
    (htext : strip payload.text ≠ [])
    (hsegments : ∀ segment ∈ payload.asrSegments, segment.text = [])
    (htimestamps : payload.timestamps = []) :
    withoutSpace ((buildAsrSentenceInfo payload).flatMap SpokenSentence.text) =
        withoutSpace payload.text ↔
      payload.vadSegments = [] ∨
        (∀ piece ∈ split fullStop payload.text, strip piece = []) ∨
        EndsEverySentence payload.text payload.vadSegments.length := by
  have hne : payload.text ≠ [] := by
    rintro hnil
    rw [hnil] at htext
    exact htext rfl
  have hfilter : payload.asrSegments.filter (·.text ≠ []) = [] :=
    List.filter_eq_nil_iff.mpr fun segment hsegment => by simpa using hsegments segment hsegment
  have hspoken : payload.spokenText = payload.text := if_pos hne
  unfold buildAsrSentenceInfo
  rw [hfilter, htimestamps, hspoken]
  by_cases hvad : payload.vadSegments = []
  · simp [hvad, hne]
  · have htexts : ((buildSentenceInfoFromVad payload.text payload.vadSegments).map
        (TimedSentence.spoken (κ := κ))).flatMap SpokenSentence.text = _ :=
      (List.flatMap_map ..).trans (congrArg List.flatten
        (buildSentenceInfoFromVad_text hne payload.vadSegments))
    rw [if_neg (by simp), if_neg (by simp), if_pos hvad, htexts]
    by_cases hblank : ∀ piece ∈ split fullStop payload.text, strip piece = []
    · have hsome : 0 < payload.vadSegments.length := List.length_pos_iff.mpr hvad
      rw [if_pos hblank, List.take_of_length_le hsome, List.flatten_singleton]
      exact iff_of_true rfl (.inr (.inl hblank))
    · rw [if_neg hblank, marked_withoutSpace_iff]
      simp [hvad, hblank]

end Fallback

/-- A payload with a text and VAD segments only. -/
def textPayload (text : Text) (vadSegments : List (ℤ × ℤ)) : OnnxPayload ℕ :=
  ⟨text, [], vadSegments, [], [], [], none, none⟩

/-- Two sentences with their marks and two segments. -/
theorem keepsText_of_marked :
    withoutSpace ((buildAsrSentenceInfo
        (textPayload " 你好。 再见。".toList [(0, 900), (1000, 1800)])).flatMap SpokenSentence.text) =
      withoutSpace " 你好。 再见。".toList :=
  (buildAsrSentenceInfo_keepsText_iff (textPayload " 你好。 再见。".toList [(0, 900), (1000, 1800)])
    (by decide +kernel) (by decide +kernel) (by decide +kernel)).mpr (by decide +kernel)

/-- With a segment too few the second sentence is lost. A question gets a full stop. -/
theorem sentence_lost_mark_invented :
    (strip "你好。再见。".toList ≠ [] ∧
      buildAsrSentenceInfo (textPayload "你好。再见。".toList [(0, 1800)]) =
        [⟨"你好。".toList, 0, 1800, 0, none⟩] ∧
      withoutSpace ((buildAsrSentenceInfo
          (textPayload "你好。再见。".toList [(0, 1800)])).flatMap SpokenSentence.text) ≠
        withoutSpace "你好。再见。".toList) ∧
    buildAsrSentenceInfo (textPayload "你好？".toList [(0, 900)]) =
      [⟨"你好？。".toList, 0, 900, 0, none⟩] := by
  decide +kernel

end FunasrApi.Offline
