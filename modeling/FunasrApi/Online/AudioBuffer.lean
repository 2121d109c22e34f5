import Mathlib.Data.List.TakeDrop
import Mathlib.Data.Int.Order.Basic

/-!
# The chunked audio buffer

The buffer keeps the received chunks under their absolute sample offsets, and
forgets consumed samples from the front. Against the list of all received
samples it is the part from its start sample on, however the audio was chunked.
-/

namespace FunasrApi.Online

variable {S : Type*}

/-- The samples of a list from one offset to another. -/
def samplesBetween (l : List S) (start stop : ℤ) : List S := (l.take stop.toNat).drop start.toNat

/-- `ChunkedAudioBuffer`. -/
structure ChunkedAudioBuffer (S : Type*) where
  startSample : ℤ
  totalSamples : ℤ
  chunks : List (List S)

namespace ChunkedAudioBuffer

/-- `reset`. -/
def empty : ChunkedAudioBuffer S := ⟨0, 0, []⟩

/-- `replace`. -/
def replace (audio : List S) : ChunkedAudioBuffer S :=
  ⟨0, audio.length, if audio.length ≠ 0 then [audio] else []⟩

/-- `append`. -/
def append (b : ChunkedAudioBuffer S) (audio : List S) : ChunkedAudioBuffer S :=
  if audio.length ≠ 0 then
    { b with chunks := b.chunks ++ [audio], totalSamples := b.totalSamples + audio.length }
  else b

/-- The loop of `slice`, from the chunk at offset `current` on. -/
def sliceLoop (start stop : ℤ) : ℤ → List (List S) → List (List S)
  | _, [] => []
  | current, chunk :: chunks =>
    let chunkEnd := current + chunk.length
    if chunkEnd ≤ start then sliceLoop start stop chunkEnd chunks
    else if stop ≤ current then []
    else
      let localStart := max (start - current) 0
      let localEnd := min (stop - current) chunk.length
      if localStart < localEnd then
        samplesBetween chunk localStart localEnd :: sliceLoop start stop chunkEnd chunks
      else sliceLoop start stop chunkEnd chunks

/-- `slice`. -/
def slice (b : ChunkedAudioBuffer S) (startSample endSample : ℤ) : List S :=
  let start := max startSample b.startSample
  let stop := min endSample b.totalSamples
  if stop ≤ start ∨ b.chunks.isEmpty then []
  else (sliceLoop start stop b.startSample b.chunks).flatten

/-- The loop of `drop_before`, from the chunk at offset `current` on. -/
def dropLoop (target : ℤ) : ℤ → List (List S) → List (List S)
  | _, [] => []
  | current, chunk :: chunks =>
    let chunkEnd := current + chunk.length
    if chunkEnd ≤ target then dropLoop target chunkEnd chunks
    else if current < target then
      chunk.drop (target - current).toNat :: dropLoop target chunkEnd chunks
    else chunk :: dropLoop target chunkEnd chunks

/-- `drop_before`. -/
def dropBefore (b : ChunkedAudioBuffer S) (sampleIndex : ℤ) : ChunkedAudioBuffer S :=
  let target := max b.startSample (min sampleIndex b.totalSamples)
  if target ≤ b.startSample ∨ b.chunks.isEmpty then b
  else { b with chunks := dropLoop target b.startSample b.chunks, startSample := target }

/-- The buffer holds the received samples from its start sample on. -/
structure Holds (b : ChunkedAudioBuffer S) (received : List S) : Prop where
  startSample_nonneg : 0 ≤ b.startSample
  startSample_le : b.startSample ≤ b.totalSamples
  totalSamples_eq : b.totalSamples = received.length
  flatten_chunks : b.chunks.flatten = received.drop b.startSample.toNat

/-- A stretch of two joined lists is the stretch of the one and that of the other. -/
theorem samplesBetween_append (l r : List S) (start stop : ℤ) :
    samplesBetween (l ++ r) start stop =
      samplesBetween l start stop ++ samplesBetween r (start - l.length) (stop - l.length) := by
  have hstart : (start - l.length).toNat = start.toNat - l.length := by omega
  have hstop : (stop - l.length).toNat = stop.toNat - l.length := by omega
  simp only [samplesBetween, List.take_append, List.drop_append, List.length_take, hstart, hstop]
  rcases Nat.le_total l.length stop.toNat with hle | hle
  · rw [Nat.min_eq_right hle]
  · rw [Nat.sub_eq_zero_of_le hle]
    simp

theorem samplesBetween_eq_nil {l : List S} {start stop : ℤ}
    (h : stop ≤ max start 0 ∨ (l.length : ℤ) ≤ max start 0) :
    samplesBetween l start stop = [] := by
  refine List.drop_eq_nil_of_le ?_
  rw [List.length_take]
  omega

/-- Bounds beyond the ends of a list do not matter. -/
theorem samplesBetween_congr {l : List S} {start start' stop stop' : ℤ}
    (hstart : start.toNat = start'.toNat)
    (hstop : min stop.toNat l.length = min stop'.toNat l.length) :
    samplesBetween l start stop = samplesBetween l start' stop' := by
  unfold samplesBetween
  rw [hstart, List.take_eq_take_min, hstop, ← List.take_eq_take_min]

/-- The loop of `slice` collects one stretch of the samples of its chunks. -/
theorem flatten_sliceLoop (start stop current : ℤ) (chunks : List (List S)) :
    (sliceLoop start stop current chunks).flatten =
      samplesBetween chunks.flatten (start - current) (stop - current) := by
  induction chunks generalizing current with
  | nil => simp [sliceLoop, samplesBetween]
  | cons chunk chunks ih =>
    have hsplit := samplesBetween_append chunk chunks.flatten (start - current) (stop - current)
    rw [show start - current - chunk.length = start - (current + chunk.length) by omega,
      show stop - current - chunk.length = stop - (current + chunk.length) by omega,
      ← ih (current + chunk.length)] at hsplit
    rw [List.flatten_cons, hsplit, sliceLoop]
    dsimp only
    by_cases hskip : current + chunk.length ≤ start
    · rw [if_pos hskip, samplesBetween_eq_nil (.inr (by omega)), List.nil_append]
    · rw [if_neg hskip]
      by_cases hbreak : stop ≤ current
      · -- beyond the break every stretch is empty
        rw [if_pos hbreak, ih, samplesBetween_eq_nil (.inl (by omega)),
          samplesBetween_eq_nil (.inl (by omega))]
        rfl
      · rw [if_neg hbreak]
        by_cases hlocal : max (start - current) 0 < min (stop - current) chunk.length
        · rw [if_pos hlocal, List.flatten_cons]
          congr 1
          exact samplesBetween_congr (by omega) (by omega)
        · rw [if_neg hlocal, samplesBetween_eq_nil (by omega), List.nil_append]

/-- The loop of `drop_before` keeps the samples from the target on. -/
theorem flatten_dropLoop (target current : ℤ) (chunks : List (List S)) :
    (dropLoop target current chunks).flatten = chunks.flatten.drop (target - current).toNat := by
  induction chunks generalizing current with
  | nil => simp [dropLoop]
  | cons chunk chunks ih =>
    have hrest : (target - (current + chunk.length)).toNat =
        (target - current).toNat - chunk.length := by omega
    rw [List.flatten_cons, List.drop_append, ← hrest, ← ih, dropLoop]
    by_cases hskip : current + chunk.length ≤ target
    · rw [if_pos hskip, List.drop_eq_nil_of_le (by omega), List.nil_append]
    · rw [if_neg hskip]
      by_cases hcut : current < target
      · rw [if_pos hcut, List.flatten_cons]
      · rw [if_neg hcut, List.flatten_cons, show (target - current).toNat = 0 by omega,
          List.drop_zero]

variable {b : ChunkedAudioBuffer S} {received : List S}

theorem holds_empty : (empty : ChunkedAudioBuffer S).Holds [] :=
  ⟨le_rfl, le_rfl, rfl, rfl⟩

/-- Appended audio is received after what was received before. -/
theorem Holds.append (h : b.Holds received) (audio : List S) :
    (b.append audio).Holds (received ++ audio) ∧ (b.append audio).startSample = b.startSample := by
  have hstart := h.startSample_nonneg
  have hle := h.startSample_le
  have htotal := h.totalSamples_eq
  have hchunks := h.flatten_chunks
  unfold ChunkedAudioBuffer.append
  by_cases hsize : audio.length ≠ 0
  · rw [if_pos hsize]
    refine ⟨⟨hstart, ?_, ?_, ?_⟩, rfl⟩
    · dsimp only
      omega
    · rw [List.length_append]
      push_cast
      omega
    · have hlen : b.startSample.toNat ≤ received.length := by omega
      rw [List.flatten_append, hchunks, List.flatten_singleton, List.drop_append_of_le_length hlen]
  · obtain rfl := List.eq_nil_of_length_eq_zero (not_not.mp hsize)
    rw [if_neg hsize, List.append_nil]
    exact ⟨h, rfl⟩

/-- A slice is the stretch of the received samples that the buffer still has. -/
theorem Holds.slice (h : b.Holds received) (startSample endSample : ℤ) :
    b.slice startSample endSample =
      samplesBetween received (max startSample b.startSample) endSample := by
  have hstart := h.startSample_nonneg
  have hle := h.startSample_le
  have htotal := h.totalSamples_eq
  unfold ChunkedAudioBuffer.slice
  by_cases hnone : min endSample b.totalSamples ≤ max startSample b.startSample ∨ b.chunks.isEmpty
  · rw [if_pos hnone]
    symm
    refine List.drop_eq_nil_of_le ?_
    rw [List.length_take]
    rcases hnone with hempty | hempty
    · omega
    · have hlen := congrArg List.length h.flatten_chunks
      rw [List.isEmpty_iff.mp hempty, List.flatten_nil, List.length_nil, List.length_drop] at hlen
      omega
  · rw [if_neg hnone, flatten_sliceLoop, h.flatten_chunks]
    have hshift (start stop : ℤ) (h0 : b.startSample ≤ start) :
        samplesBetween (received.drop b.startSample.toNat) (start - b.startSample)
          (stop - b.startSample) = samplesBetween received start stop := by
      have htake : (stop - b.startSample).toNat = stop.toNat - b.startSample.toNat := by omega
      have hdrop : b.startSample.toNat + (start - b.startSample).toNat = start.toNat := by omega
      unfold samplesBetween
      rw [htake, ← List.drop_take, List.drop_drop, hdrop]
    rw [hshift _ _ (le_max_right _ _)]
    exact samplesBetween_congr rfl (by omega)

/-- A slice that begins in the buffer is the stretch of the received samples. -/
theorem Holds.slice_eq (h : b.Holds received) {startSample : ℤ}
    (hs : b.startSample ≤ max 0 startSample) (endSample : ℤ) :
    b.slice startSample endSample = samplesBetween received startSample endSample := by
  rw [h.slice]
  exact samplesBetween_congr (by have := h.startSample_nonneg; omega) rfl

/-- Dropping forgets the samples before the target, and no others. -/
theorem Holds.dropBefore (h : b.Holds received) (sampleIndex : ℤ) :
    (b.dropBefore sampleIndex).Holds received := by
  have hstart := h.startSample_nonneg
  have hle := h.startSample_le
  unfold ChunkedAudioBuffer.dropBefore
  by_cases hnone : max b.startSample (min sampleIndex b.totalSamples) ≤ b.startSample ∨
      b.chunks.isEmpty
  · rw [if_pos hnone]
    exact h
  · rw [if_neg hnone]
    refine ⟨?_, ?_, h.totalSamples_eq, ?_⟩
    · dsimp only
      omega
    · dsimp only
      omega
    · rw [flatten_dropLoop, h.flatten_chunks, List.drop_drop]
      congr 1
      dsimp only
      omega

@[simp] theorem dropBefore_totalSamples (b : ChunkedAudioBuffer S) (sampleIndex : ℤ) :
    (b.dropBefore sampleIndex).totalSamples = b.totalSamples := by
  unfold ChunkedAudioBuffer.dropBefore
  dsimp only
  split <;> rfl

/-- The start sample moves to the target at most. -/
theorem dropBefore_startSample_le (b : ChunkedAudioBuffer S) (sampleIndex : ℤ) :
    (b.dropBefore sampleIndex).startSample ≤
      max b.startSample (min sampleIndex b.totalSamples) := by
  unfold ChunkedAudioBuffer.dropBefore
  dsimp only
  split
  · exact le_max_left _ _
  · exact le_rfl

end ChunkedAudioBuffer

end FunasrApi.Online
