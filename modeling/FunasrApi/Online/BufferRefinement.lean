import FunasrApi.Online.AudioBuffer
import Mathlib.Algebra.GroupWithZero.Nat

/-!
# The chunked buffer is a list with its front removed

The abstract buffer is the list of all samples received, and how many of them
were dropped from its front. The chunked buffer refines it under any operations,
and never keeps an empty chunk.
-/

namespace FunasrApi.Online

variable {S : Type*}

/-- The samples received since the last `reset` or `replace`, and how many leading ones are
dropped. -/
structure SampleWindow (S : Type*) where
  samples : List S
  dropped : ℤ

/-- The operations that change a buffer. -/
inductive BufferOp (S : Type*)
  | append (audio : List S)
  | dropBefore (sampleIndex : ℤ)
  | replace (audio : List S)
  | reset

/-- An operation on the abstract buffer. -/
def SampleWindow.apply (w : SampleWindow S) : BufferOp S → SampleWindow S
  | .append audio => { w with samples := w.samples ++ audio }
  | .dropBefore sampleIndex =>
    { w with dropped := max w.dropped (min sampleIndex w.samples.length) }
  | .replace audio => ⟨audio, 0⟩
  | .reset => ⟨[], 0⟩

namespace ChunkedAudioBuffer

/-- The same operation of the code. -/
def apply (b : ChunkedAudioBuffer S) : BufferOp S → ChunkedAudioBuffer S
  | .append audio => b.append audio
  | .dropBefore sampleIndex => b.dropBefore sampleIndex
  | .replace audio => replace audio
  | .reset => empty

/-- The chunked buffer has the samples of the abstract one that were not dropped. -/
structure Refines (b : ChunkedAudioBuffer S) (w : SampleWindow S) : Prop where
  holds : b.Holds w.samples
  start_eq : b.startSample = w.dropped
  nonempty : ∀ chunk ∈ b.chunks, chunk ≠ []

theorem refines_empty : (empty : ChunkedAudioBuffer S).Refines ⟨[], 0⟩ :=
  ⟨holds_empty, rfl, fun _ hc => absurd hc List.not_mem_nil⟩

/-- The loop of `drop_before` keeps no empty remainder. -/
theorem nonempty_dropLoop (target current : ℤ) {chunks : List (List S)}
    (h : ∀ chunk ∈ chunks, chunk ≠ []) :
    ∀ chunk ∈ dropLoop target current chunks, chunk ≠ [] := by
  induction chunks generalizing current with
  | nil => exact h
  | cons first chunks ih =>
    have hrest := ih (current + first.length) fun c hc => h c (List.mem_cons_of_mem _ hc)
    intro chunk hchunk
    rw [dropLoop] at hchunk
    by_cases hskip : current + first.length ≤ target
    · rw [if_pos hskip] at hchunk
      exact hrest chunk hchunk
    · rw [if_neg hskip] at hchunk
      by_cases hcut : current < target
      · rw [if_pos hcut] at hchunk
        rcases List.mem_cons.mp hchunk with rfl | hc
        · intro hnil
          have hlen := List.drop_eq_nil_iff.mp hnil
          omega
        · exact hrest chunk hc
      · rw [if_neg hcut] at hchunk
        rcases List.mem_cons.mp hchunk with rfl | hc
        · exact h chunk (List.mem_cons_self ..)
        · exact hrest chunk hc

variable {b : ChunkedAudioBuffer S} {w : SampleWindow S}

/-- The lengths of the chunks add up to what the buffer still has. -/
theorem Refines.sum_length (h : b.Refines w) :
    ((b.chunks.map List.length).sum : ℤ) = b.totalSamples - b.startSample := by
  have hstart := h.holds.startSample_nonneg
  have hle := h.holds.startSample_le
  have htotal := h.holds.totalSamples_eq
  rw [← List.length_flatten, h.holds.flatten_chunks, List.length_drop]
  omega

/-- The buffer begins at the target of a drop, also when there is nothing left to cut. -/
theorem Refines.dropBefore_startSample (h : b.Refines w) (sampleIndex : ℤ) :
    (b.dropBefore sampleIndex).startSample =
      max b.startSample (min sampleIndex b.totalSamples) := by
  have hle := h.holds.startSample_le
  have hsum := h.sum_length
  unfold ChunkedAudioBuffer.dropBefore
  by_cases hnone : max b.startSample (min sampleIndex b.totalSamples) ≤ b.startSample ∨
      b.chunks.isEmpty = true
  · rw [if_pos hnone]
    rcases hnone with htarget | hchunks
    · omega
    · rw [List.isEmpty_iff.mp hchunks, List.map_nil, List.sum_nil] at hsum
      omega
  · rw [if_neg hnone]

theorem Refines.append (h : b.Refines w) (audio : List S) :
    (b.append audio).Refines (w.apply (.append audio)) := by
  obtain ⟨hholds, hstart⟩ := h.holds.append audio
  refine ⟨hholds, hstart.trans h.start_eq, ?_⟩
  unfold ChunkedAudioBuffer.append
  split
  · next hsize =>
    intro chunk hchunk
    rcases List.mem_append.mp hchunk with hold | hnew
    · exact h.nonempty chunk hold
    · rw [List.mem_singleton.mp hnew]
      exact List.ne_nil_of_length_pos (Nat.pos_of_ne_zero hsize)
  · exact h.nonempty

theorem Refines.dropBefore (h : b.Refines w) (sampleIndex : ℤ) :
    (b.dropBefore sampleIndex).Refines (w.apply (.dropBefore sampleIndex)) := by
  refine ⟨h.holds.dropBefore sampleIndex, ?_, ?_⟩
  · rw [h.dropBefore_startSample, h.start_eq, h.holds.totalSamples_eq]
    rfl
  · unfold ChunkedAudioBuffer.dropBefore
    dsimp only
    split
    · exact h.nonempty
    · exact nonempty_dropLoop _ _ h.nonempty

theorem refines_replace (audio : List S) : (replace audio).Refines ⟨audio, 0⟩ := by
  refine ⟨⟨le_rfl, Int.natCast_nonneg _, rfl, ?_⟩, rfl, ?_⟩
  · unfold replace
    split
    · exact List.flatten_singleton
    · next hsize => exact (List.eq_nil_of_length_eq_zero (not_not.mp hsize)).symm
  · unfold replace
    split
    · next hsize =>
      intro chunk hchunk
      rw [List.mem_singleton.mp hchunk]
      exact List.ne_nil_of_length_pos (Nat.pos_of_ne_zero hsize)
    · exact fun _ hc => absurd hc List.not_mem_nil

/-- Every operation keeps the refinement. -/
theorem Refines.step (h : b.Refines w) (op : BufferOp S) : (b.apply op).Refines (w.apply op) := by
  cases op with
  | append audio => exact h.append audio
  | dropBefore sampleIndex => exact h.dropBefore sampleIndex
  | replace audio => exact refines_replace audio
  | reset => exact refines_empty

theorem Refines.foldl (h : b.Refines w) (ops : List (BufferOp S)) :
    (ops.foldl apply b).Refines (ops.foldl SampleWindow.apply w) := by
  induction ops generalizing b w with
  | nil => exact h
  | cons op ops ih => exact ih (h.step op)

/-- After any operations on a new buffer, every slice is the stretch of the received samples that
was asked for and not dropped, the two counters say what was dropped and received, and the chunks
are nonempty pieces of what is left. -/
theorem buffer_refines_window (ops : List (BufferOp S)) :
    let b := ops.foldl apply empty
    let w := ops.foldl SampleWindow.apply (⟨[], 0⟩ : SampleWindow S)
    (∀ startSample endSample, b.slice startSample endSample =
      samplesBetween w.samples (max startSample w.dropped) (min endSample w.samples.length)) ∧
    b.startSample = w.dropped ∧ b.totalSamples = w.samples.length ∧
    (∀ chunk ∈ b.chunks, chunk ≠ []) ∧
    ((b.chunks.map List.length).sum : ℤ) = b.totalSamples - b.startSample := by
  intro b w
  have h : b.Refines w := refines_empty.foldl ops
  refine ⟨fun startSample endSample => ?_, h.start_eq, h.holds.totalSamples_eq, h.nonempty,
    h.sum_length⟩
  rw [h.holds.slice, h.start_eq]
  exact samplesBetween_congr rfl (by omega)

example : (([.append [1, 2, 3], .append [], .append [4, 5], .dropBefore 4, .append [6]] :
    List (BufferOp ℕ)).foldl apply empty).chunks = [[5], [6]] := by decide

end ChunkedAudioBuffer

end FunasrApi.Online
