import FunasrApi.Online.SessionPolicy

/-!
# The queue of pending final segments

Confirmed VAD segments are appended to the queue or merged into its last entry,
and finalized from its front. What finalizing an entry does to the session is a
parameter: the queue only decides which entries are finalized, and in which
order. Over any sequence of calls the finalized and the pending entries together
are the hulls of consecutive runs of the confirmed segments.
-/

namespace FunasrApi.Online

open FunasrApi.Core

/-- `_normalize_vad_segment`: two numbers, cut to whole milliseconds, of positive length. -/
def normalizeVadSegment : List ℚ → Option Segment
  | [start, stop] =>
    if h : truncate start < truncate stop then some ⟨truncate start, truncate stop, h⟩ else none
  | _ => none

/-- `_enqueue_pending_final_segment`: merge into the last entry, or append. -/
def enqueuePendingFinalSegment (segmentMergeGapMs : ℤ) (pending : List Segment)
    (segment : Segment) : List Segment :=
  match pending.getLast? with
  | none => [segment]
  | some current =>
    if segment.start - current.stop ≤ segmentMergeGapMs then
      pending.dropLast ++ [current.join segment]
    else pending ++ [segment]

/-- What a flush leaves behind. -/
structure Flushed (σ : Type*) where
  /-- The entries that are still waiting. -/
  pendingFinalSegments : List Segment
  /-- The session after the finalized entries. -/
  state : σ
  /-- Whether one of the finalized entries locked a sentence. -/
  lockedAny : Bool

section Flush

variable {σ : Type*} (shouldFlush : Bool → σ → Segment → Bool)
  (finalize : Segment → List Segment → σ → σ × Bool)

/-- The loop of `_flush_pending_final_segments`: an entry is popped before it is finalized. -/
def flushLoop (force : Bool) : List Segment → σ → Bool → Flushed σ
  | [], s, lockedAny => ⟨[], s, lockedAny⟩
  | segment :: rest, s, lockedAny =>
    if shouldFlush force s segment then
      let done := finalize segment rest s
      flushLoop force rest done.1 (done.2 || lockedAny)
    else ⟨segment :: rest, s, lockedAny⟩

/-- `_flush_pending_final_segments`. -/
def flushPendingFinalSegments (force : Bool) (pending : List Segment) (s : σ) : Flushed σ :=
  flushLoop shouldFlush finalize force pending s false

/-- `_flush_ready_pending_segments`. -/
def flushReadyPendingSegments (pending : List Segment) (s : σ) : Flushed σ :=
  match pending with
  | [] => ⟨[], s, false⟩
  | segment :: rest =>
    if shouldFlush false s segment then
      flushPendingFinalSegments shouldFlush finalize false (segment :: rest) s
    else ⟨segment :: rest, s, false⟩

/-- The pending entries after the loop of `_lock_confirmed_segments`. -/
def enqueueConfirmedSegments (segmentMergeGapMs : ℤ) (segments : List (List ℚ))
    (pending : List Segment) : List Segment :=
  (segments.filterMap normalizeVadSegment).foldl (enqueuePendingFinalSegment segmentMergeGapMs)
    pending

/-- `_lock_confirmed_segments`. -/
def lockConfirmedSegments (segmentMergeGapMs : ℤ) (segments : List (List ℚ))
    (pending : List Segment) (s : σ) : Flushed σ :=
  flushReadyPendingSegments shouldFlush finalize
    (enqueueConfirmedSegments segmentMergeGapMs segments pending) s

variable {shouldFlush finalize}

/-- What every single finalization keeps, with the entries that stay, the loop keeps. -/
theorem flushLoop_invariant {I : List Segment → σ → Prop}
    (hstep : ∀ segment rest s, I (segment :: rest) s → I rest (finalize segment rest s).1)
    {force : Bool} {pending : List Segment} {s : σ} {lockedAny : Bool} (h : I pending s) :
    I (flushLoop shouldFlush finalize force pending s lockedAny).pendingFinalSegments
      (flushLoop shouldFlush finalize force pending s lockedAny).state := by
  induction pending generalizing s lockedAny with
  | nil => exact h
  | cons segment rest ih =>
    unfold flushLoop
    split
    · exact ih (hstep segment rest s h)
    · exact h

theorem flushPendingFinalSegments_invariant {I : List Segment → σ → Prop}
    (hstep : ∀ segment rest s, I (segment :: rest) s → I rest (finalize segment rest s).1)
    {force : Bool} {pending : List Segment} {s : σ} (h : I pending s) :
    I (flushPendingFinalSegments shouldFlush finalize force pending s).pendingFinalSegments
      (flushPendingFinalSegments shouldFlush finalize force pending s).state :=
  flushLoop_invariant hstep h

theorem flushReadyPendingSegments_invariant {I : List Segment → σ → Prop}
    (hstep : ∀ segment rest s, I (segment :: rest) s → I rest (finalize segment rest s).1)
    {pending : List Segment} {s : σ} (h : I pending s) :
    I (flushReadyPendingSegments shouldFlush finalize pending s).pendingFinalSegments
      (flushReadyPendingSegments shouldFlush finalize pending s).state := by
  unfold flushReadyPendingSegments
  split
  · exact h
  · split
    · exact flushLoop_invariant hstep h
    · exact h

/-- A forced flush leaves no entry. -/
theorem flushLoop_eq_nil {force : Bool} (hforce : ∀ s segment, shouldFlush force s segment = true)
    (pending : List Segment) (s : σ) (lockedAny : Bool) :
    (flushLoop shouldFlush finalize force pending s lockedAny).pendingFinalSegments = [] := by
  induction pending generalizing s lockedAny with
  | nil => rfl
  | cons segment rest ih =>
    rw [flushLoop, if_pos (hforce s segment)]
    exact ih _ _

end Flush

section Enqueue

variable {done pending confirmed : List Segment}

/-- One confirmed segment extends the last run, or opens one of its own. -/
theorem enqueuePendingFinalSegment_coalesced (h : Coalesced confirmed (done ++ pending))
    (segmentMergeGapMs : ℤ) (segment : Segment) :
    Coalesced (confirmed ++ [segment])
      (done ++ enqueuePendingFinalSegment segmentMergeGapMs pending segment) := by
  unfold enqueuePendingFinalSegment
  split
  · next hnone =>
    obtain rfl := List.getLast?_eq_none_iff.mp hnone
    rw [List.append_nil] at h
    exact h.fresh segment
  · next current hsome =>
    obtain ⟨front, rfl⟩ := List.getLast?_eq_some_iff.mp hsome
    split
    · rw [List.dropLast_concat, ← List.append_assoc]
      rw [← List.append_assoc] at h
      exact h.extend segment
    · rw [← List.append_assoc]
      exact h.fresh segment

/-- So does a whole call. -/
theorem enqueueConfirmedSegments_coalesced (segmentMergeGapMs : ℤ) (segments : List (List ℚ))
    (h : Coalesced confirmed (done ++ pending)) :
    Coalesced (confirmed ++ segments.filterMap normalizeVadSegment)
      (done ++ enqueueConfirmedSegments segmentMergeGapMs segments pending) := by
  unfold enqueueConfirmedSegments
  induction segments.filterMap normalizeVadSegment generalizing confirmed pending with
  | nil => simpa using h
  | cons x xs ih =>
    rw [List.append_cons, List.foldl_cons]
    exact ih (enqueuePendingFinalSegment_coalesced h segmentMergeGapMs x)

end Enqueue

section Calls

/-- One call of `_lock_confirmed_segments`, with what it reads of the session and its VAD. -/
structure LockCall where
  settings : SessionSettings
  currentDurationMs : ℤ
  activeSpeechStart : Option ℚ
  segments : List (List ℚ)

/-- `_effective_segment_merge_gap_ms`. -/
def SessionSettings.segmentMergeGapMs (settings : SessionSettings) : ℤ :=
  effectiveSegmentMergeGapMs settings.vadMergeGapMs settings.vadPostPaddingMs

variable {σ : Type*}

/-- `_should_flush_pending_segment`. The clock and the VAD stand still during a call. -/
def LockCall.shouldFlush (call : LockCall) (force : Bool) (_ : σ) (segment : Segment) : Bool :=
  shouldFlushPendingSegment segment force call.currentDurationMs call.settings.vadMaxFinalMs
    call.settings.vadMinFinalMs call.settings.segmentMergeGapMs call.activeSpeechStart

variable (finalize : Segment → List Segment → σ → σ × Bool)

/-- Finalize a segment, and note its interval. -/
def noteFinalized (segment : Segment) (rest : List Segment) (s : σ × List Segment) :
    (σ × List Segment) × Bool :=
  let done := finalize segment rest s.1
  ((done.1, s.2 ++ [segment]), done.2)

/-- The calls one after the other, from what the ones before have left. -/
def lockCalls (before : Flushed (σ × List Segment)) (calls : List LockCall) :
    Flushed (σ × List Segment) :=
  calls.foldl (fun left call =>
    lockConfirmedSegments call.shouldFlush (noteFinalized finalize)
      call.settings.segmentMergeGapMs call.segments left.pendingFinalSegments left.state) before

/-- The calls from an empty queue, followed by the forced flush of `finish`. -/
def lockCallsThenFinish (s : σ) (calls : List LockCall) (finish : LockCall) :
    Flushed (σ × List Segment) :=
  let left := lockCalls finalize ⟨[], (s, []), false⟩ calls
  flushPendingFinalSegments finish.shouldFlush (noteFinalized finalize) true
    left.pendingFinalSegments left.state

/-- The two numbers of a well-formed VAD segment. -/
def vadInterval : List ℚ → Option (ℚ × ℚ)
  | [start, stop] => some (start, stop)
  | _ => none

/-- The VAD segments follow one another in time. -/
def Chronological (segments : List (List ℚ)) : Prop :=
  (segments.filterMap vadInterval).Pairwise fun a b => a.2 ≤ b.1

instance (segments : List (List ℚ)) : Decidable (Chronological segments) :=
  inferInstanceAs (Decidable (List.Pairwise _ _))

/-- The positive segments that a sequence of calls confirms, in whole milliseconds. -/
def confirmedSegments (calls : List LockCall) : List Segment :=
  (calls.flatMap LockCall.segments).filterMap normalizeVadSegment

/-- Only the two numbers of a VAD segment enter the queue, cut to integers. -/
theorem normalizeVadSegment_eq_some {segment : List ℚ} {x : Segment}
    (h : normalizeVadSegment segment = some x) :
    ∃ p, vadInterval segment = some p ∧ x.start = truncate p.1 ∧ x.stop = truncate p.2 := by
  unfold normalizeVadSegment at h
  split at h
  · next start stop =>
    split at h
    · obtain rfl := Option.some.inj h
      exact ⟨(start, stop), rfl, rfl, rfl⟩
    · cases h
  · cases h

/-- Chronological VAD segments do not overlap after the cut. -/
theorem Chronological.normalized {segments : List (List ℚ)} (h : Chronological segments) :
    (segments.filterMap normalizeVadSegment).Pairwise Span.Before := by
  rw [Chronological, List.pairwise_filterMap] at h
  rw [List.pairwise_filterMap]
  refine h.imp ?_
  intro a b hab x hx y hy
  obtain ⟨p, hp, -, hxp⟩ := normalizeVadSegment_eq_some hx
  obtain ⟨q, hq, hyq, -⟩ := normalizeVadSegment_eq_some hy
  rw [Span.Before, hxp, hyq]
  exact truncate_mono (hab p hp q hq)

theorem confirmedSegments_cons (call : LockCall) (calls : List LockCall) :
    confirmedSegments (call :: calls) =
      call.segments.filterMap normalizeVadSegment ++ confirmedSegments calls := by
  rw [confirmedSegments, List.flatMap_cons, List.filterMap_append, confirmedSegments]

variable {finalize}

/-- The hulls noted so far and the waiting ones, as the queue rules see them. -/
def QueueCovers (confirmed pending : List Segment) (s : σ × List Segment) : Prop :=
  Coalesced confirmed (s.2 ++ pending)

/-- Finalizing the first entry only moves it from the waiting to the noted ones. -/
theorem QueueCovers.noteFinalized {confirmed rest : List Segment} {segment : Segment}
    {s : σ × List Segment} (h : QueueCovers confirmed (segment :: rest) s) :
    QueueCovers confirmed rest (noteFinalized finalize segment rest s).1 := by
  rw [QueueCovers, List.append_cons] at h
  exact h

/-- The finalized and the pending entries together are hulls of runs, after every call. -/
theorem lockCalls_covers (before : Flushed (σ × List Segment)) {confirmed : List Segment}
    (h : QueueCovers confirmed before.pendingFinalSegments before.state)
    (calls : List LockCall) :
    QueueCovers (confirmed ++ confirmedSegments calls)
      (lockCalls finalize before calls).pendingFinalSegments
      (lockCalls finalize before calls).state := by
  induction calls generalizing confirmed before with
  | nil => simpa [confirmedSegments, lockCalls] using h
  | cons call calls ih =>
    rw [confirmedSegments_cons, ← List.append_assoc]
    apply ih
    apply flushReadyPendingSegments_invariant
    · intro segment rest s hs
      exact hs.noteFinalized
    · exact enqueueConfirmedSegments_coalesced call.settings.segmentMergeGapMs call.segments h

/-- Confirmed speech is neither lost nor finalized twice: after the calls and the forced flush
nothing is pending, the finalized intervals are the hulls of consecutive runs of the confirmed
segments, in order and without overlap, and each confirmed segment lies in exactly one. -/
theorem lockCallsThenFinish_partition (finalize : Segment → List Segment → σ → σ × Bool) (s : σ)
    (calls : List LockCall) (finish : LockCall)
    (h : Chronological (calls.flatMap LockCall.segments)) :
    let flushed := lockCallsThenFinish finalize s calls finish
    let finalized := flushed.state.2
    flushed.pendingFinalSegments = [] ∧
    finalized.Pairwise Span.Before ∧
    (∃ runs : List (Segment × List Segment),
      runs.flatMap (fun run => run.1 :: run.2) = confirmedSegments calls ∧
        runs.map Span.hull = finalized) ∧
    ∀ x ∈ confirmedSegments calls, ∃! j : Fin finalized.length, x.Within (finalized.get j) := by
  intro flushed finalized
  have hcalls : QueueCovers (confirmedSegments calls)
      (lockCalls finalize ⟨[], (s, []), false⟩ calls).pendingFinalSegments
      (lockCalls finalize ⟨[], (s, []), false⟩ calls).state :=
    lockCalls_covers ⟨[], (s, []), false⟩ Coalesced.nil calls
  have hempty : flushed.pendingFinalSegments = [] :=
    flushLoop_eq_nil (fun _ _ => rfl) _ _ _
  have hflush : QueueCovers (confirmedSegments calls) flushed.pendingFinalSegments flushed.state :=
    flushPendingFinalSegments_invariant (fun _ _ _ ht => ht.noteFinalized) hcalls
  rw [hempty, QueueCovers, List.append_nil] at hflush
  exact ⟨hempty, hflush.ordered h.normalized, hflush,
    fun x hx => hflush.existsUnique_within h.normalized hx⟩

/-- The default settings of a session at 16 kHz. -/
def defaultSettings : SessionSettings :=
  .init 16000 600 600 350 800 1200 2500 12000 (by decide) (by decide) (by decide)

/-- Two segments that merge, then a distant one while the first sentence is still pending. -/
def twoSentenceCalls : List LockCall :=
  [⟨defaultSettings, 4200, none, [[0, 1000], [1500, 4000]]⟩,
    ⟨defaultSettings, 9600, none, [[9000, 9500]]⟩]

/-- Three confirmed segments become two intervals. -/
theorem twoSentenceCalls_partition :
    (confirmedSegments twoSentenceCalls).length = 3 ∧
    (lockCallsThenFinish (fun _ _ n => (n + 1, true)) 0 twoSentenceCalls
      ⟨defaultSettings, 9600, none, []⟩).state.2.map (fun x => (x.start, x.stop)) =
        [(0, 4000), (9000, 9500)] ∧
    (lockCallsThenFinish (fun _ _ n => (n + 1, true)) 0 twoSentenceCalls
      ⟨defaultSettings, 9600, none, []⟩).state.2.Pairwise Span.Before :=
  ⟨by decide +kernel, by decide +kernel,
    (lockCallsThenFinish_partition _ 0 twoSentenceCalls ⟨defaultSettings, 9600, none, []⟩
      (by decide +kernel)).2.1⟩

end Calls

end FunasrApi.Online
