import FunasrApi.Online.Packetization

/-!
# What a session receives

Only `add_audio` adds to the received audio, and it adds the samples of its chunk also when the VAD
raises. No call but `start` and `finish` changes whether the session is active.
-/

namespace FunasrApi.Online.Session

open FunasrApi.Core

variable {settings : SessionSettings} {models : Recognizers}

/-- What `np.frombuffer` reads, nothing when it raises. -/
def samplesOf (pcmBytes : List UInt8) : List Sample := (frombuffer pcmBytes).getD []

/-- A call changes neither the received audio nor the activity of a session. -/
def SameIntake (s s' : Session) : Prop := s'.received = s.received ∧ s'.isActive = s.isActive

theorem SameIntake.trans {s s' s'' : Session} (h : s.SameIntake s') (h' : s'.SameIntake s'') :
    s.SameIntake s'' := ⟨h'.1.trans h.1, h'.2.trans h.2⟩

theorem finalizePendingSegment_intake {s s' : Session} {segment : Segment} {rest : List Segment}
    (h : s.SameIntake s') :
    s.SameIntake (finalizePendingSegment settings models segment rest s').1 :=
  ⟨(finalizePendingSegment_finalized settings models segment rest s').received.trans h.1,
    (finalizePendingSegment_isActive settings models segment rest s').trans h.2⟩

theorem lockConfirmedSegments_intake (segments : List (List ℚ)) (s : Session) :
    s.SameIntake (s.lockConfirmedSegments settings models segments).1 :=
  flushReadyPendingSegments_invariant (I := fun _ t => s.SameIntake t)
    (fun _ _ _ h => finalizePendingSegment_intake h) ⟨rfl, rfl⟩

theorem flushReadyPendingSegments_intake (s : Session) :
    s.SameIntake (s.flushReadyPendingSegments settings models).1 :=
  Online.flushReadyPendingSegments_invariant (I := fun _ t => s.SameIntake t)
    (fun _ _ _ h => finalizePendingSegment_intake h) ⟨rfl, rfl⟩

theorem feedLoop_intake (rounds : ℕ) (confirmed : List (List ℚ)) (s : Session) :
    s.SameIntake (feedLoop settings models rounds confirmed s).2 := by
  induction rounds generalizing confirmed s with
  | zero => exact ⟨rfl, rfl⟩
  | succ rounds ih =>
    unfold feedLoop
    split
    · dsimp only
      split
      · exact ⟨rfl, rfl⟩
      · exact ih ..
    · exact ⟨rfl, rfl⟩

/-- `add_audio` receives the samples of its chunk, also when the VAD raises. -/
theorem addAudio_intake (settings : SessionSettings) (models : Recognizers)
    (pcmBytes : List UInt8) (s : Session) :
    (s.addAudio settings models pcmBytes).1.received = s.received ++ samplesOf pcmBytes ∧
      (s.addAudio settings models pcmBytes).1.isActive = s.isActive := by
  refine ⟨?_, addAudio_isActive settings models pcmBytes s⟩
  unfold addAudio samplesOf
  split
  · next hempty =>
    rw [List.isEmpty_iff.mp hempty]
    exact (List.append_nil _).symm
  · cases hbytes : frombuffer pcmBytes with
    | none => exact (List.append_nil _).symm
    | some audio =>
      dsimp only [Option.getD_some]
      split
      · next hsilent =>
        rw [List.isEmpty_iff.mp hsilent, List.append_nil]
      · split
        · exact (flushReadyPendingSegments_intake (s.appendAudioChunk audio)).1
        · split
          · exact (feedLoop_intake _ _ (s.appendAudioChunk audio)).1
          · exact (lockConfirmedSegments_intake _ _).1.trans
              (feedLoop_intake _ _ (s.appendAudioChunk audio)).1

theorem decodePartial_intake (settings : SessionSettings) (models : Recognizers)
    (s : Session) :
    s.SameIntake (s.decodePartial settings models) := by
  unfold decodePartial
  dsimp only
  split
  · exact ⟨rfl, rfl⟩
  · split <;> exact ⟨rfl, rfl⟩

theorem lockText_intake (finalResult : FinalResult) (startMs endMs : ℤ)
    (source : Option LockSource) (s : Session) :
    s.SameIntake (s.lockText settings finalResult startMs endMs source) := by
  obtain ⟨t, hlocked, -⟩ := lockText_state settings s finalResult startMs endMs source
  rw [hlocked]
  exact ⟨rfl, rfl⟩

theorem forceLockTail_intake (s : Session) :
    s.SameIntake (s.forceLockTail settings models) := by
  unfold forceLockTail
  dsimp only
  split
  · exact ⟨rfl, rfl⟩
  · obtain ⟨n, hdecoded⟩ := decodeFinalSegment_state settings models s
      (min s.partialStartMs (s.currentDurationMs settings)) (s.currentDurationMs settings)
    rw [hdecoded]
    exact lockText_intake _ _ _ _ _

theorem lockOpenSpeech_intake (s : Session) :
    s.SameIntake (s.lockOpenSpeech settings models) := by
  unfold lockOpenSpeech
  split
  · exact ⟨rfl, rfl⟩
  · exact lockConfirmedSegments_intake _ s

theorem finishLocking_intake (confirmed : List (List ℚ)) (lockedCountBeforeFinish : ℕ)
    (s : Session) :
    s.SameIntake (s.finishLocking settings models confirmed lockedCountBeforeFinish) := by
  let locked := (s.lockConfirmedSegments settings models confirmed).1
  have hlocked : s.SameIntake locked := lockConfirmedSegments_intake confirmed s
  have hopen : locked.SameIntake (locked.lockOpenSpeech settings models) :=
    lockOpenSpeech_intake locked
  have hflushed : s.SameIntake
      ((locked.lockOpenSpeech settings models).forcedFlush settings models) :=
    flushPendingFinalSegments_invariant (I := fun _ t => s.SameIntake t)
      (fun _ _ _ h => finalizePendingSegment_intake h) (hlocked.trans hopen)
  unfold finishLocking
  dsimp only
  split
  · exact hflushed.trans (forceLockTail_intake _)
  · exact hflushed

theorem finish_intake (settings : SessionSettings) (models : Recognizers)
    (s : Session) : s.SameIntake (s.finish settings models).1 := by
  have hfed : s.SameIntake (s.feedRemaining models).2 := by
    unfold feedRemaining
    dsimp only
    split
    · exact ⟨rfl, rfl⟩
    · split <;> exact ⟨rfl, rfl⟩
  unfold finish
  dsimp only
  split
  · exact hfed
  · next confirmed _ =>
    split
    · exact hfed
    · next segments _ =>
      let last := ((s.feedRemaining models).2.feedVad models [] true
        (s.feedRemaining models).2.audio.totalSamples).2
      have hlast : s.SameIntake last := hfed
      exact hlast.trans (finishLocking_intake (confirmed ++ segments) _ last)

end FunasrApi.Online.Session
