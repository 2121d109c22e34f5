import FunasrApi.Online.SeamRepair
import FunasrApi.Online.SessionSafety

/-!
# What the events of a session report

A call of a session only adds to its transcript: the repair of a seam shortens the last sentence
by what the next one says again, and no other sentence is touched. The cursor moves with the
events alone. So over any run of calls the events report every sentence once and in order, and
with all that the transcript still says in its place.
-/

namespace FunasrApi.Online

open FunasrApi.Core Text

/-- What repairs have left of a sentence: its times, and the beginning of what it said. -/
structure LockedSentence.Remains (sentence left : LockedSentence) : Prop where
  startMs : left.startMs = sentence.startMs
  endMs : left.endMs = sentence.endMs
  speech : speech left.text <+: speech sentence.text

theorem LockedSentence.Remains.refl (sentence : LockedSentence) : sentence.Remains sentence :=
  ⟨rfl, rfl, List.prefix_refl _⟩

theorem LockedSentence.Remains.trans {a b c : LockedSentence} (h : a.Remains b)
    (h' : b.Remains c) : a.Remains c :=
  ⟨h'.startMs.trans h.startMs, h'.endMs.trans h.endMs, h'.speech.trans h.speech⟩

theorem repairPrevious_remains (segmentMergeGapMs : ℤ) (currentText : Text) (startMs : ℤ)
    (previous : LockedSentence) :
    previous.Remains (repairPrevious segmentMergeGapMs currentText startMs previous) := by
  obtain ⟨hstart, hend⟩ := repairPrevious_times segmentMergeGapMs currentText startMs previous
  obtain ⟨piece, -, hspeech⟩ := speech_repairPrevious segmentMergeGapMs currentText startMs previous
  exact ⟨hstart, hend, piece, hspeech.symm⟩

theorem remains_trans {l l' l'' : List LockedSentence}
    (h : List.Forall₂ LockedSentence.Remains l l')
    (h' : List.Forall₂ LockedSentence.Remains l' l'') :
    List.Forall₂ LockedSentence.Remains l l'' := by
  induction h generalizing l'' with
  | nil => exact h'
  | cons hab _ ih =>
    cases h' with
    | cons hbc hrest => exact .cons (hab.trans hbc) (ih hrest)

namespace Transcript

/-- A later transcript says more, has the same sentences but the last, and of the last at least
the beginning. -/
structure Grows (t t' : Transcript) : Prop where
  said : t.said <+: t'.said
  kept : t.lockedSentences.dropLast <+: t'.lockedSentences
  remains : List.Forall₂ LockedSentence.Remains t.lockedSentences
    (t'.lockedSentences.take t.lockedSentences.length)

/-- Growth by locks, which leave the cursor where it is. -/
structure Locks (t t' : Transcript) : Prop extends Grows t t' where
  cursor : t'.emittedLockedCount = t.emittedLockedCount

variable {t t' t'' : Transcript}

theorem Grows.length_le (h : t.Grows t') :
    t.lockedSentences.length ≤ t'.lockedSentences.length := by
  have hlength := h.remains.length_eq
  rw [List.length_take] at hlength
  omega

/-- With the same sentences nothing changes but the cursor. -/
theorem Grows.of_lockedSentences (h : t'.lockedSentences = t.lockedSentences) : t.Grows t' := by
  have hsaid : t'.said = t.said := by rw [Transcript.said, Transcript.said, h]
  refine ⟨hsaid ▸ List.prefix_refl _, ?_, ?_⟩
  · rw [h]
    exact List.dropLast_prefix _
  · rw [h, List.take_length]
    exact List.forall₂_same.mpr fun sentence _ => .refl sentence

theorem Grows.trans (h : t.Grows t') (h' : t'.Grows t'') : t.Grows t'' := by
  have hlength := h.length_le
  refine ⟨h.said.trans h'.said, ?_, ?_⟩
  · -- of the sentences before the last, none is the last one of the transcript in between
    have hshort : t.lockedSentences.dropLast.length ≤ t'.lockedSentences.dropLast.length := by
      rw [List.length_dropLast, List.length_dropLast]
      omega
    have hfront := List.prefix_of_prefix_length_le h.kept (List.dropLast_prefix _) hshort
    exact hfront.trans h'.kept
  · have hlater := List.forall₂_take t.lockedSentences.length h'.remains
    rw [List.take_take, min_eq_left hlength] at hlater
    exact remains_trans h.remains hlater

theorem Locks.refl (t : Transcript) : t.Locks t := ⟨.of_lockedSentences rfl, rfl⟩

theorem Locks.trans (h : t.Locks t') (h' : t'.Locks t'') : t.Locks t'' :=
  ⟨h.toGrows.trans h'.toGrows, h'.cursor.trans h.cursor⟩

/-- A lock leaves the transcript as it is, or repairs its last sentence and adds one. -/
theorem appendLockedSentence_cases (segmentMergeGapMs : ℤ) (t : Transcript)
    (finalResult : FinalResult) (startMs endMs : ℤ) (source : Option LockSource) :
    (t.appendLockedSentence segmentMergeGapMs finalResult startMs endMs source).1 = t ∨
      ∃ currentText sentence,
        (t.appendLockedSentence segmentMergeGapMs finalResult startMs endMs source).1 =
          ⟨t.lockedSentences.modifyLast (repairPrevious segmentMergeGapMs currentText startMs) ++
            [sentence], t.emittedLockedCount⟩ := by
  unfold appendLockedSentence
  cases buildLockedSentence finalResult startMs endMs source with
  | none => exact .inl rfl
  | some sentence =>
    dsimp only
    split
    · exact .inl rfl
    · exact .inr ⟨_, _, rfl⟩

/-- So it only takes from the last sentence, and only what the new one says again. -/
theorem appendLockedSentence_locks (segmentMergeGapMs : ℤ) (t : Transcript)
    (finalResult : FinalResult) (startMs endMs : ℤ) (source : Option LockSource) :
    t.Locks (t.appendLockedSentence segmentMergeGapMs finalResult startMs endMs source).1 := by
  have hsaid := t.said_appendLockedSentence segmentMergeGapMs finalResult startMs endMs source
  rcases t.appendLockedSentence_cases segmentMergeGapMs finalResult startMs endMs source with
    hsame | ⟨currentText, sentence, hpushed⟩
  · rw [hsame]
    exact .refl t
  · rw [hpushed] at hsaid ⊢
    refine ⟨⟨hsaid, ?_, ?_⟩, rfl⟩
    · rcases List.eq_nil_or_concat' t.lockedSentences with hnil | ⟨front, last, hlast⟩
      · rw [hnil]
        exact List.nil_prefix
      · rw [hlast, List.modifyLast_concat, List.dropLast_concat, List.append_assoc]
        exact List.prefix_append ..
    · rcases List.eq_nil_or_concat' t.lockedSentences with hnil | ⟨front, last, hlast⟩
      · rw [hnil]
        exact .nil
      · have hlength : (front ++ [last]).length = (front ++
            [repairPrevious segmentMergeGapMs currentText startMs last]).length := by simp
        rw [hlast, List.modifyLast_concat, hlength, List.take_left]
        refine List.rel_append (List.forall₂_same.mpr fun sentence _ => .refl sentence) ?_
        exact .cons (repairPrevious_remains ..) .nil

end Transcript

namespace Session

variable {settings : SessionSettings} {models : Recognizers} {s s' : Session}

theorem decodeFinalSegment_transcript (startMs endMs : ℤ) (s : Session) :
    (s.decodeFinalSegment settings models startMs endMs).2.transcript = s.transcript := by
  obtain ⟨n, hstate⟩ := decodeFinalSegment_state settings models s startMs endMs
  rw [hstate]

theorem lockText_locks (settings : SessionSettings) (finalResult : FinalResult) (startMs endMs : ℤ)
    (source : Option LockSource) (s : Session) :
    s.transcript.Locks (s.lockText settings finalResult startMs endMs source).transcript := by
  unfold lockText
  split
  · exact .refl _
  · unfold appendLockedSentence
    dsimp only
    exact s.transcript.appendLockedSentence_locks settings.segmentMergeGapMs finalResult startMs
      endMs source

theorem restartPartial_transcript (endMs : ℤ) (s : Session) :
    (s.restartPartial settings endMs).transcript = s.transcript := rfl

/-- To finalize a segment is at most a lock. -/
theorem finalizePendingSegment_locks (segment : Segment) (rest : List Segment) (s : Session) :
    s.transcript.Locks (finalizePendingSegment settings models segment rest s).1.transcript := by
  change s.transcript.Locks
    (restartPartial settings (lockText settings _ _ _ _ _) segment.stop).transcript
  rw [restartPartial_transcript]
  let popped : Session := { s with pendingFinalSegments := rest }
  have hlocked := lockText_locks settings (.record (popped.decodeFinalSegment settings models
    segment.start segment.stop).1) segment.start segment.stop none
    (popped.decodeFinalSegment settings models segment.start segment.stop).2
  rw [decodeFinalSegment_transcript] at hlocked
  exact hlocked

/-- A flush only locks. -/
theorem flush_locks (models : Recognizers) (t : Transcript) {segment : Segment}
    {rest : List Segment} {s : Session} (h : t.Locks s.transcript) :
    t.Locks (finalizePendingSegment settings models segment rest s).1.transcript :=
  h.trans (finalizePendingSegment_locks segment rest s)

theorem lockConfirmedSegments_locks (segments : List (List ℚ)) (s : Session) :
    s.transcript.Locks (s.lockConfirmedSegments settings models segments).1.transcript :=
  flushReadyPendingSegments_invariant (I := fun _ (t : Session) => s.transcript.Locks t.transcript)
    (fun _ _ _ h => flush_locks models s.transcript h) (.refl _)

theorem flushReadyPendingSegments_locks (s : Session) :
    s.transcript.Locks (s.flushReadyPendingSegments settings models).1.transcript :=
  Online.flushReadyPendingSegments_invariant
    (I := fun _ (t : Session) => s.transcript.Locks t.transcript)
    (fun _ _ _ h => flush_locks models s.transcript h) (.refl _)

theorem forcedFlush_locks (s : Session) :
    s.transcript.Locks (s.forcedFlush settings models).transcript :=
  flushPendingFinalSegments_invariant (I := fun _ (t : Session) => s.transcript.Locks t.transcript)
    (fun _ _ _ h => flush_locks models s.transcript h) (.refl _)

/-- The feeds of the VAD do not touch the transcript. -/
theorem feedLoop_transcript (rounds : ℕ) (confirmed : List (List ℚ)) (s : Session) :
    (feedLoop settings models rounds confirmed s).2.transcript = s.transcript := by
  induction rounds generalizing confirmed s with
  | zero => rfl
  | succ rounds ih =>
    unfold feedLoop
    split
    · dsimp only
      split
      · rfl
      · rw [ih]
        rfl
    · rfl

theorem feedRemaining_transcript (models : Recognizers) (s : Session) :
    (s.feedRemaining models).2.transcript = s.transcript := by
  unfold feedRemaining
  dsimp only
  split
  · rfl
  · split
    · rfl
    · rfl

theorem addAudio_locks (pcmBytes : List UInt8) (s : Session) :
    s.transcript.Locks (s.addAudio settings models pcmBytes).1.transcript := by
  unfold addAudio
  split
  · exact .refl _
  · split
    · exact .refl _
    · next audio _ =>
      split
      · exact .refl _
      · dsimp only
        split
        · exact flushReadyPendingSegments_locks (s.appendAudioChunk audio)
        · let fed := feedLoop settings models ((s.appendAudioChunk audio).audio.totalSamples -
            (s.appendAudioChunk audio).vadFedSamples).toNat [] (s.appendAudioChunk audio)
          have hfed : fed.2.transcript = s.transcript := feedLoop_transcript ..
          split
          · exact hfed ▸ .refl _
          · next confirmed _ =>
            exact hfed ▸ lockConfirmedSegments_locks confirmed fed.2

theorem decodePartial_transcript (s : Session) :
    (s.decodePartial settings models).transcript = s.transcript := by
  unfold decodePartial
  dsimp only
  split
  · rfl
  · split <;> rfl

theorem forceLockTail_locks (s : Session) :
    s.transcript.Locks (s.forceLockTail settings models).transcript := by
  unfold forceLockTail
  dsimp only
  split
  · exact .refl _
  · have hlocked := lockText_locks settings (.record (s.decodeFinalSegment settings models
      (min s.partialStartMs (s.currentDurationMs settings)) (s.currentDurationMs settings)).1)
      (min s.partialStartMs (s.currentDurationMs settings)) (s.currentDurationMs settings)
      (some .forcedFinalTail) (s.decodeFinalSegment settings models
      (min s.partialStartMs (s.currentDurationMs settings)) (s.currentDurationMs settings)).2
    rw [decodeFinalSegment_transcript] at hlocked
    exact hlocked

theorem lockOpenSpeech_locks (s : Session) :
    s.transcript.Locks (s.lockOpenSpeech settings models).transcript := by
  unfold lockOpenSpeech
  split
  · exact .refl _
  · exact lockConfirmedSegments_locks _ s

/-- `finish` only locks, at whichever feed it ends. -/
theorem finish_locks (s : Session) :
    s.transcript.Locks (s.finish settings models).1.transcript := by
  have hfed := feedRemaining_transcript models s
  unfold finish
  dsimp only
  split
  · rw [hfed]
    exact .refl _
  · next confirmed _ =>
    split
    · exact hfed ▸ .refl _
    · next segments _ =>
      let last := ((s.feedRemaining models).2.feedVad models [] true
        (s.feedRemaining models).2.audio.totalSamples).2
      have hlast : last.transcript = s.transcript := hfed
      have hlocked : s.transcript.Locks (((last.lockConfirmedSegments settings models
          (confirmed ++ segments)).1.lockOpenSpeech settings models).forcedFlush settings
          models).transcript :=
        hlast ▸ ((lockConfirmedSegments_locks (confirmed ++ segments) last).trans
          (lockOpenSpeech_locks _)).trans (forcedFlush_locks _)
      unfold finishLocking
      dsimp only
      split
      · exact hlocked.trans (forceLockTail_locks _)
      · exact hlocked

section Events

/-- The sentences that a call hands out. -/
def reported (s : Session) : Call → List LockedSentence
  | .buildOfflineEvent => s.transcript.consumeLockedSentences.1
  | _ => []

/-- The sentences of all events of a run, in the order in which the client receives them. -/
def reportedAlong (settings : SessionSettings) (models : Recognizers) :
    Session → List Call → List LockedSentence
  | _, [] => []
  | s, call :: calls => s.reported call ++
      (s.step settings models call).elim [] fun t => reportedAlong settings models t calls

variable {call : Call} {t : Session}

/-- Between two starts a call locks, or it is an event. -/
theorem step_transcript (hcall : call ≠ .start) (hstep : s.step settings models call = some s') :
    s.reported call = [] ∧ s.transcript.Locks s'.transcript ∨
      call = .buildOfflineEvent ∧ s'.transcript = s.transcript.consumeLockedSentences.2 := by
  cases call with
  | start => exact absurd rfl hcall
  | addAudio pcmBytes =>
    simp only [step, Option.ite_none_right_eq_some, Option.some.injEq] at hstep
    obtain ⟨-, rfl⟩ := hstep
    exact .inl ⟨rfl, addAudio_locks pcmBytes s⟩
  | decodePartial =>
    simp only [step, Option.ite_none_right_eq_some, Option.some.injEq] at hstep
    obtain ⟨-, rfl⟩ := hstep
    exact .inl ⟨rfl, decodePartial_transcript s ▸ .refl _⟩
  | buildOfflineEvent =>
    obtain rfl := Option.some.inj hstep
    exact .inr ⟨rfl, rfl⟩
  | finish =>
    simp only [step, Option.ite_none_right_eq_some, Option.some.injEq] at hstep
    obtain ⟨-, rfl⟩ := hstep
    exact .inl ⟨rfl, finish_locks s⟩

/-- The cursor is never beyond the sentences. -/
theorem cursor_le (h : Reachable settings models s) :
    s.transcript.emittedLockedCount ≤ s.transcript.lockedSentences.length := by
  refine Machine.Reach.invariant h
    (I := fun s => s.transcript.emittedLockedCount ≤ s.transcript.lockedSentences.length)
    (Nat.zero_le _) fun s call s' hs _ hstep => ?_
  by_cases hcall : call = .start
  · subst hcall
    obtain rfl := Option.some.inj hstep
    exact Nat.zero_le _
  · rcases step_transcript hcall hstep with ⟨-, hlocks⟩ | ⟨-, hconsumed⟩
    · rw [hlocks.cursor]
      exact hs.trans hlocks.length_le
    · rw [hconsumed]
      exact le_rfl

/-- One call reports what is between the cursors, and the run after it the rest. -/
theorem reported_step (hs : s.transcript.emittedLockedCount ≤ s.transcript.lockedSentences.length)
    (hcall : call ≠ .start) (hstep : s.step settings models call = some s')
    (hgrows : s'.transcript.Grows t.transcript)
    (hcursor : s'.transcript.emittedLockedCount ≤ t.transcript.emittedLockedCount)
    {later : List LockedSentence}
    (hlater : List.Forall₂ LockedSentence.Remains later
      ((t.transcript.lockedSentences.take t.transcript.emittedLockedCount).drop
        s'.transcript.emittedLockedCount)) :
    s.transcript.emittedLockedCount ≤ s'.transcript.emittedLockedCount ∧
      s.transcript.Grows s'.transcript ∧
      List.Forall₂ LockedSentence.Remains (s.reported call ++ later)
        ((t.transcript.lockedSentences.take t.transcript.emittedLockedCount).drop
          s.transcript.emittedLockedCount) := by
  rcases step_transcript hcall hstep with ⟨hnothing, hlocks⟩ | ⟨rfl, hconsumed⟩
  · rw [hnothing, List.nil_append, ← hlocks.cursor]
    exact ⟨le_rfl, hlocks.toGrows, hlater⟩
  · have hsame : s'.transcript.lockedSentences = s.transcript.lockedSentences := by
      rw [hconsumed]
      rfl
    have hmoved : s'.transcript.emittedLockedCount = s.transcript.lockedSentences.length := by
      rw [hconsumed]
      rfl
    refine ⟨hmoved ▸ hs, .of_lockedSentences hsame, ?_⟩
    -- what is reported now lies before the new cursor, the later reports begin there
    rw [hmoved] at hcursor hlater
    have hnow := List.forall₂_drop s.transcript.emittedLockedCount hgrows.remains
    rw [hsame] at hnow
    have hsplit : t.transcript.lockedSentences.take t.transcript.emittedLockedCount =
        t.transcript.lockedSentences.take s.transcript.lockedSentences.length ++
          (t.transcript.lockedSentences.take t.transcript.emittedLockedCount).drop
            s.transcript.lockedSentences.length := by
      conv_lhs => rw [← List.take_append_drop s.transcript.lockedSentences.length
        (t.transcript.lockedSentences.take t.transcript.emittedLockedCount), List.take_take,
        min_eq_left hcursor]
    have hlength : s.transcript.emittedLockedCount ≤
        (t.transcript.lockedSentences.take s.transcript.lockedSentences.length).length := by
      have hgrown := hgrows.length_le
      rw [hsame] at hgrown
      rw [List.length_take, min_eq_left hgrown]
      exact hs
    rw [hsplit, List.drop_append_of_le_length hlength]
    exact List.rel_append hnow hlater

/-- Over any calls after a start, whatever the VAD and the models answer and wherever they raise,
the transcript only grows: what is said stays the beginning of it, and of the sentences only the
last may still lose what the next one says again. The events report each sentence once and in
order, with its times, and with all that the transcript says in its place. -/
theorem run_reported {calls : List Call} (hs : Reachable settings models s)
    (hcalls : ∀ call ∈ calls, call ≠ .start)
    (hrun : (machine settings models).run s calls = some t) :
    s.transcript.Grows t.transcript ∧
      s.transcript.emittedLockedCount ≤ t.transcript.emittedLockedCount ∧
      t.transcript.emittedLockedCount ≤ t.transcript.lockedSentences.length ∧
      List.Forall₂ LockedSentence.Remains (reportedAlong settings models s calls)
        ((t.transcript.lockedSentences.take t.transcript.emittedLockedCount).drop
          s.transcript.emittedLockedCount) := by
  induction calls generalizing s with
  | nil =>
    obtain rfl := Option.some.inj hrun
    refine ⟨.of_lockedSentences rfl, le_rfl, cursor_le hs, ?_⟩
    rw [List.drop_of_length_le (List.length_take_le ..)]
    exact .nil
  | cons call calls ih =>
    obtain ⟨s', hstep, hrest⟩ := Option.bind_eq_some_iff.mp hrun
    obtain ⟨hcall, hcalls⟩ := List.forall_mem_cons.mp hcalls
    obtain ⟨hgrows, hcursor, hend, hlater⟩ :=
      ih (.tail call hs trivial hstep) hcalls hrest
    obtain ⟨hfirst, hgrown, hreported⟩ :=
      reported_step (cursor_le hs) hcall hstep hgrows hcursor hlater
    refine ⟨hgrown.trans hgrows, hfirst.trans hcursor, hend, ?_⟩
    have hstep' : s.step settings models call = some s' := hstep
    rw [reportedAlong, hstep', Option.elim_some]
    exact hreported

/-- The two chunks with an event after each part. -/
def reportedCalls : List Call :=
  [.addAudio (List.replicate 20 1), .decodePartial, .addAudio (List.replicate 20 2),
    .buildOfflineEvent, .finish, .buildOfflineEvent]

/-- The session after its start. -/
def started : Session := { fresh 0 with isActive := true }

/-- The two events of the run report the closed and the open speech. -/
theorem reportedCalls_reported :
    ∃ t, (machine slowSettings scriptedModels).run started reportedCalls = some t ∧
      (reportedAlong slowSettings scriptedModels started reportedCalls).map
        (fun l => (l.startMs, l.endMs)) = [(200, 700), (1200, 2000)] ∧
      List.Forall₂ LockedSentence.Remains
        (reportedAlong slowSettings scriptedModels started reportedCalls)
        (t.transcript.lockedSentences.take t.transcript.emittedLockedCount) := by
  have hreach : Reachable slowSettings scriptedModels started :=
    .tail .start .refl trivial rfl
  have hsome : ((machine slowSettings scriptedModels).run started reportedCalls).isSome := by
    decide +kernel
  obtain ⟨t, hrun⟩ := Option.isSome_iff_exists.mp hsome
  refine ⟨t, hrun, by decide +kernel, ?_⟩
  exact (run_reported hreach (by simp [reportedCalls]) hrun).2.2.2

end Events

end Session

end FunasrApi.Online
