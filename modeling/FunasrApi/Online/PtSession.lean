import FunasrApi.Online.SessionSafety

/-!
# The realtime PT session

`OnlineRealtimeSession` itself: the ONNX session inherits its state and its final
decodes. It feeds its VAD all new audio at once, and its `finish` flushes the
streaming model over the audio that no partial decode has seen, and may lock that
text as the last sentence.
-/

namespace FunasrApi.Online.PtSession

open FunasrApi.Core Session

variable (settings : SessionSettings) (models : Recognizers)

/-- `add_audio`, and what it returns, or `none` when it raises. -/
def addAudio (pcmBytes : List UInt8) (s : Session) : Session × Option Bool :=
  if pcmBytes.isEmpty then (s, some false)
  else
    match frombuffer pcmBytes with
    | none => (s, none)
    | some audio =>
      if audio.isEmpty then (s, some false)
      else
        let s := s.appendAudioChunk audio
        let newAudio := s.audio.slice s.vadFedSamples s.audio.totalSamples
        if newAudio.isEmpty then (s, some false)
        else
          let fed := s.feedVad models newAudio false s.audio.totalSamples
          match fed.1 with
          | none => (fed.2, none)
          | some segments =>
            let locked := { fed.2 with vadFedSamples := s.audio.totalSamples }.lockConfirmedSegments
              settings models segments
            (locked.1, some locked.2)

/-- `_flush_streaming_tail`: the text, or an empty one. -/
def flushStreamingTail (s : Session) : Text × Session :=
  let remaining := s.audio.slice s.lastStreamSamples s.audio.totalSamples
  if remaining.isEmpty then ([], s)
  else if models.hasEffectiveSpeechAudio remaining = false then
    ([], { s with lastStreamSamples := s.audio.totalSamples })
  else
    let asked := { s with calls := s.calls + 1 }
    match models.streamingDecode s.calls remaining true with
    | none => ([], asked)
    | some text =>
      if text ≠ [] ∧ models.hasAcceptableFinalText text = false then ([], asked)
      else (text, { asked with lastStreamSamples := s.audio.totalSamples })

/-- `audio_buffer`: what the buffer still has. -/
def audioBuffer (s : Session) : List Sample :=
  s.audio.slice s.audio.startSample s.audio.totalSamples

/-- Lock the text of the streaming tail. Its end is computed from the length of the buffer. -/
def lockStreamingTail (flushText : Text) (s : Session) : Session :=
  let durationMs := sampleToMs settings.sampleRate (audioBuffer s).length
  let startMs := min s.partialStartMs durationMs
  s.appendLockedSentence settings (.plain flushText) startMs durationMs
    (some .streamingFinalFlush)

/-- `finish` up to the tail: the last feeds, the confirmed and the open speech, the forced flush.
It ends where it is when a feed raises. -/
def finishSegments (s : Session) : Session × Bool :=
  let fed := s.feedRemaining models
  match fed.1 with
  | none => (fed.2, false)
  | some confirmed =>
    let last := fed.2.feedVad models [] true fed.2.audio.totalSamples
    match last.1 with
    | none => (last.2, false)
    | some segments =>
      let locked := (last.2.lockConfirmedSegments settings models (confirmed ++ segments)).1
      ((locked.lockOpenSpeech settings models).forcedFlush settings models, true)

/-- The tail of `finish`. -/
def finishTail (lockedCountBeforeFinish : ℕ) (s : Session) : Session :=
  let flushed := flushStreamingTail models s
  let s := flushed.2
  let s :=
    if flushed.1 ≠ [] ∧ s.transcript.lockedSentences.length = lockedCountBeforeFinish then
      lockStreamingTail settings flushed.1 s
    else if s.transcript.lockedSentences.length = lockedCountBeforeFinish then
      s.forceLockTail settings models
    else s
  { s with partialText := [], partialStartMs := 0 }

/-- `finish`, and whether it has returned. -/
def finish (s : Session) : Session × Bool :=
  let segments := finishSegments settings models s
  if segments.2 then
    (finishTail settings models s.transcript.lockedSentences.length segments.1, true)
  else (segments.1, false)

/-- One call on a PT session, or its rejection. -/
def step (s : Session) : Call → Option Session
  | .start => some { s.reset with isActive := true }
  | .addAudio pcmBytes =>
    if s.isActive then some (addAudio settings models pcmBytes s).1 else none
  | .decodePartial => if s.isActive then some (s.decodePartial settings models) else none
  | .buildOfflineEvent => some { s with transcript := s.transcript.consumeLockedSentences.2 }
  | .finish =>
    if s.isActive then
      let finished := finish settings models s
      some { finished.1 with isActive := finished.1.isActive && !finished.2 }
    else none

/-- The PT session as a guarded machine. -/
def machine : Machine Session Call := ⟨step settings models⟩

end FunasrApi.Online.PtSession
