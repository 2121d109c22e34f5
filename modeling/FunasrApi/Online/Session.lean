import FunasrApi.Core.History
import FunasrApi.Core.Transition
import FunasrApi.Online.AudioBuffer
import FunasrApi.Online.LockedSentences
import FunasrApi.Online.SegmentQueue

/-!
# The realtime ONNX session

The state of `OnlineOnnxRealtimeSession` and its calls. The VAD and the models
answer by the number of the call, so a run may get any answers, also different
ones for the same audio. History fields record what was received, what the VAD
answered and what the final model was asked. A call that raises leaves the state
as it is at that moment. The exact quotient stands for the floating point one.
-/

namespace FunasrApi.Online

open FunasrApi.Core

/-- A 16-bit sample; the float that the models receive is its value over 32768. -/
abbrev Sample := ℤ

/-- `np.frombuffer(pcm_bytes, dtype=np.int16)`: little-endian pairs, or a `ValueError`. -/
def frombuffer : List UInt8 → Option (List Sample)
  | [] => some []
  | [_] => none
  | low :: high :: rest =>
    let unsigned : ℤ := low.toNat + 256 * high.toNat
    (frombuffer rest).map ((if unsigned < 32768 then unsigned else unsigned - 65536) :: ·)

/-- What one `vad.feed` does: the closed segments, or `none` when it raises, and the
`current_speech_start` it leaves. -/
structure VadReply where
  segments : Option (List (List ℚ))
  currentSpeechStart : Option ℚ

/-- What a final decode yields after extraction, compaction and punctuation. -/
structure FinalAnswer where
  rawText : Text
  finalText : Text
  timestamps : List TimedToken

/-- The VAD, the models and the quality checks of a session. -/
structure Recognizers where
  vadFeed : ℕ → List Sample → Bool → VadReply
  /-- `none` when the model raises. -/
  finalDecode : ℕ → List Sample → Option FinalAnswer
  /-- The extracted text, or `none` when the model raises. -/
  streamingDecode : ℕ → List Sample → Bool → Option Text
  hasEffectiveSpeechAudio : List Sample → Bool
  hasAcceptableFinalText : Text → Bool
  mergeOnlinePartialText : Text → Text → Text

/-- The arguments of one `vad.feed`. -/
structure VadBlock where
  audio : List Sample
  isFinal : Bool
  deriving DecidableEq

/-- One feed of the VAD: its block, how much audio it has been fed then, and what it answered. -/
structure VadFeed where
  block : VadBlock
  fedSamples : ℤ
  closed : List (List ℚ)
  currentSpeechStart : Option ℚ

/-- One run of `_decode_final_segment`, with the audio buffer it reads and all audio received. -/
structure FinalDecode where
  startMs : ℤ
  endMs : ℤ
  buffer : ChunkedAudioBuffer Sample
  received : List Sample

/-- The state of a session; the last four fields are history. -/
structure Session where
  audio : ChunkedAudioBuffer Sample
  vadFedSamples : ℤ
  lastStreamSamples : ℤ
  partialText : Text
  partialStartMs : ℤ
  firstDecodeDone : Bool
  transcript : Transcript
  pendingFinalSegments : List Segment
  isActive : Bool
  /-- `vad.current_speech_start`. -/
  currentSpeechStart : Option ℚ
  /-- How many calls of the VAD and the models there have been. -/
  calls : ℕ
  received : List Sample
  /-- The feeds since the last `reset`, newest first. -/
  feeds : List VadFeed
  /-- The final decodes since the last `reset`, newest first. -/
  decodes : List FinalDecode

namespace Session

/-- The session after `reset`, when `calls` calls of the models have been made. -/
def fresh (calls : ℕ) : Session where
  audio := .empty
  vadFedSamples := 0
  lastStreamSamples := 0
  partialText := []
  partialStartMs := 0
  firstDecodeDone := false
  transcript := .empty
  pendingFinalSegments := []
  isActive := false
  currentSpeechStart := none
  calls := calls
  received := []
  feeds := []
  decodes := []

/-- `reset`. -/
def reset (s : Session) : Session := fresh s.calls

variable (settings : SessionSettings) (models : Recognizers)

/-- `_current_duration_ms`. -/
def currentDurationMs (s : Session) : ℤ := sampleToMs settings.sampleRate s.audio.totalSamples

/-- `_append_audio_chunk`. -/
def appendAudioChunk (s : Session) (audio : List Sample) : Session :=
  { s with audio := s.audio.append audio, received := s.received ++ audio }

/-- `_trim_audio_buffer`. -/
def trimAudioBuffer (s : Session) : Session :=
  { s with audio := s.audio.dropBefore (audioTrimKeepFromSample s.lastStreamSamples s.vadFedSamples
      s.pendingFinalSegments settings.vadPrePaddingMs settings.sampleRate s.currentSpeechStart) }

/-- `_decode_final_segment`. -/
def decodeFinalSegment (s : Session) (startMs endMs : ℤ) : FinalRecord × Session :=
  let paddedStartMs := max 0 (startMs - settings.vadPrePaddingMs)
  let paddedEndMs := min (s.currentDurationMs settings) (endMs + settings.vadPostPaddingMs)
  let startSample := msToSample settings.sampleRate paddedStartMs
  let endSample := min (msToSample settings.sampleRate paddedEndMs) s.audio.totalSamples
  let segmentAudio := s.audio.slice startSample endSample
  let noted := { s with decodes := ⟨startMs, endMs, s.audio, s.received⟩ :: s.decodes }
  let nothing := emptyFinalResult startMs endMs paddedStartMs paddedEndMs
  if (segmentAudio.length : ℤ) < settings.sampleRate / 10 then (nothing, noted)
  else if models.hasEffectiveSpeechAudio segmentAudio = false then (nothing, noted)
  else
    let asked := { noted with calls := s.calls + 1 }
    match models.finalDecode s.calls segmentAudio with
    | none => (nothing, asked)
    | some answer =>
      if answer.finalText ≠ [] ∧ models.hasAcceptableFinalText answer.finalText = false then
        (nothing, asked)
      else
        (buildFinalResult answer.finalText answer.rawText answer.timestamps startMs endMs
          paddedStartMs paddedEndMs, asked)

/-- `_append_locked_sentence`. -/
def appendLockedSentence (s : Session) (finalResult : FinalResult) (startMs endMs : ℤ)
    (source : Option LockSource) : Session :=
  { s with transcript := (s.transcript.appendLockedSentence settings.segmentMergeGapMs finalResult
      startMs endMs source).1 }

/-- Lock the text of a final result, if it has one. -/
def lockText (s : Session) (finalResult : FinalResult) (startMs endMs : ℤ)
    (source : Option LockSource) : Session :=
  if finalTextFromResult finalResult = [] then s
  else s.appendLockedSentence settings finalResult startMs endMs source

/-- The end of `_finalize_pending_segment`: the partial text begins again after the segment. -/
def restartPartial (s : Session) (endMs : ℤ) : Session :=
  let endSample := min (msToSample settings.sampleRate endMs) s.audio.totalSamples
  { s with
    lastStreamSamples := endSample
    partialStartMs := endMs
    partialText := []
    firstDecodeDone := false }.trimAudioBuffer settings

/-- `_finalize_pending_segment`, when the entry has been popped and `rest` stays. -/
def finalizePendingSegment (segment : Segment) (rest : List Segment) (s : Session) :
    Session × Bool :=
  let popped := { s with pendingFinalSegments := rest }
  let decoded := popped.decodeFinalSegment settings models segment.start segment.stop
  let finalResult := FinalResult.record decoded.1
  let locked := decoded.2.lockText settings finalResult segment.start segment.stop none
  (locked.restartPartial settings segment.stop, decide (finalTextFromResult finalResult ≠ []))

/-- `_should_flush_pending_segment`. -/
def shouldFlush (force : Bool) (s : Session) (segment : Segment) : Bool :=
  shouldFlushPendingSegment segment force (s.currentDurationMs settings) settings.vadMaxFinalMs
    settings.vadMinFinalMs settings.segmentMergeGapMs s.currentSpeechStart

/-- The session with what a flush of its queue has left. -/
def afterFlush (flushed : Flushed Session) : Session :=
  { flushed.state with pendingFinalSegments := flushed.pendingFinalSegments }

/-- `_lock_confirmed_segments`. -/
def lockConfirmedSegments (segments : List (List ℚ)) (s : Session) : Session × Bool :=
  let flushed := Online.lockConfirmedSegments (shouldFlush settings)
    (finalizePendingSegment settings models) settings.segmentMergeGapMs segments
    s.pendingFinalSegments s
  (afterFlush flushed, flushed.lockedAny)

/-- `_flush_ready_pending_segments`. -/
def flushReadyPendingSegments (s : Session) : Session × Bool :=
  let flushed := Online.flushReadyPendingSegments (shouldFlush settings)
    (finalizePendingSegment settings models) s.pendingFinalSegments s
  (afterFlush flushed, flushed.lockedAny)

/-- `_flush_pending_final_segments(force=True)`. -/
def forcedFlush (s : Session) : Session :=
  afterFlush (flushPendingFinalSegments (shouldFlush settings)
    (finalizePendingSegment settings models) true s.pendingFinalSegments s)

/-- `vad.feed`, when the VAD has then been fed `fedSamples` samples. -/
def feedVad (s : Session) (audio : List Sample) (isFinal : Bool) (fedSamples : ℤ) :
    Option (List (List ℚ)) × Session :=
  let reply := models.vadFeed s.calls audio isFinal
  (reply.segments, { s with
    calls := s.calls + 1
    currentSpeechStart := reply.currentSpeechStart
    feeds := ⟨⟨audio, isFinal⟩, fedSamples, reply.segments.getD [], reply.currentSpeechStart⟩ ::
      s.feeds })

/-- The loop of `add_audio`: the VAD is fed in blocks of `vad_chunk_samples`. Every round feeds
at least one sample, so as many rounds as there are samples are enough. -/
def feedLoop : ℕ → List (List ℚ) → Session → Option (List (List ℚ)) × Session
  | 0, confirmed, s => (some confirmed, s)
  | rounds + 1, confirmed, s =>
    if settings.vadChunkSamples ≤ s.audio.totalSamples - s.vadFedSamples then
      let chunkEnd := s.vadFedSamples + settings.vadChunkSamples
      let vadChunk := s.audio.slice s.vadFedSamples chunkEnd
      let fed := s.feedVad models vadChunk false chunkEnd
      match fed.1 with
      | none => (none, fed.2)
      | some segments =>
        feedLoop rounds (confirmed ++ segments) { fed.2 with vadFedSamples := chunkEnd }
    else (some confirmed, s)

/-- `add_audio`, and what it returns, or `none` when it raises. -/
def addAudio (pcmBytes : List UInt8) (s : Session) : Session × Option Bool :=
  if pcmBytes.isEmpty then (s, some false)
  else
    match frombuffer pcmBytes with
    | none => (s, none)
    | some audio =>
      if audio.isEmpty then (s, some false)
      else
        let s := s.appendAudioChunk audio
        if s.audio.totalSamples - s.vadFedSamples < settings.vadChunkSamples then
          let flushed := s.flushReadyPendingSegments settings models
          (flushed.1, some flushed.2)
        else
          let fed := feedLoop settings models (s.audio.totalSamples - s.vadFedSamples).toNat [] s
          match fed.1 with
          | none => (fed.2, none)
          | some confirmed =>
            let locked := fed.2.lockConfirmedSegments settings models confirmed
            (locked.1, some locked.2)

/-- The `threshold` of `decode_partial`. -/
def decodeThreshold (s : Session) : ℤ :=
  if s.firstDecodeDone then settings.chunkSamples else settings.firstDecodeSamples

/-- `decode_partial`. A failed decode leaves the positions as they are. -/
def decodePartial (s : Session) : Session :=
  let threshold := s.decodeThreshold settings
  let chunkEnd := min (s.lastStreamSamples + threshold) s.audio.totalSamples
  let newAudio := s.audio.slice s.lastStreamSamples chunkEnd
  if (newAudio.length : ℤ) < threshold then s
  else
    let asked := { s with calls := s.calls + 1 }
    match models.streamingDecode s.calls newAudio false with
    | none => asked
    | some [] => { asked with lastStreamSamples := chunkEnd }
    | some text => { asked with
        partialText := models.mergeOnlinePartialText s.partialText text
        firstDecodeDone := true
        lastStreamSamples := chunkEnd }

/-- `_force_lock_tail`. -/
def forceLockTail (s : Session) : Session :=
  let durationMs := s.currentDurationMs settings
  let startMs := min s.partialStartMs durationMs
  if durationMs ≤ startMs then s
  else
    let decoded := s.decodeFinalSegment settings models startMs durationMs
    decoded.2.lockText settings (.record decoded.1) startMs durationMs (some .forcedFinalTail)

/-- The speech that is still open in `finish` ends with the audio. -/
def lockOpenSpeech (s : Session) : Session :=
  match s.currentSpeechStart with
  | none => s
  | some speechStart =>
    { (s.lockConfirmedSegments settings models
        [[speechStart, (s.currentDurationMs settings : ℚ)]]).1 with currentSpeechStart := none }

/-- `finish` after the last feed: the confirmed and the open speech, the forced flush, the tail. -/
def finishLocking (confirmed : List (List ℚ)) (lockedCountBeforeFinish : ℕ) (s : Session) :
    Session :=
  let s := (s.lockConfirmedSegments settings models confirmed).1
  let s := s.lockOpenSpeech settings models
  let s := s.forcedFlush settings models
  let s := if s.transcript.lockedSentences.length = lockedCountBeforeFinish then
      s.forceLockTail settings models
    else s
  { s with partialText := [], partialStartMs := 0 }

/-- The first feed of `finish`: the audio that the VAD has not been fed, if there is any. -/
def feedRemaining (s : Session) : Option (List (List ℚ)) × Session :=
  let remaining := s.audio.slice s.vadFedSamples s.audio.totalSamples
  if remaining.isEmpty then (some [], s)
  else
    let fed := s.feedVad models remaining true s.audio.totalSamples
    match fed.1 with
    | none => (none, fed.2)
    | some segments => (some segments, { fed.2 with vadFedSamples := s.audio.totalSamples })

/-- `finish`, and whether it has returned. -/
def finish (s : Session) : Session × Bool :=
  let lockedCountBeforeFinish := s.transcript.lockedSentences.length
  let fed := s.feedRemaining models
  match fed.1 with
  | none => (fed.2, false)
  | some confirmed =>
    let last := fed.2.feedVad models [] true fed.2.audio.totalSamples
    match last.1 with
    | none => (last.2, false)
    | some segments =>
      (last.2.finishLocking settings models (confirmed ++ segments) lockedCountBeforeFinish, true)

/-- The calls that the runtime makes on a session. -/
inductive Call
  /-- `start_session`: `reset`, then the session is active. -/
  | start
  | addAudio (pcmBytes : List UInt8)
  | decodePartial
  /-- `build_offline_event`, as far as it concerns the session. -/
  | buildOfflineEvent
  /-- `stop_session`: `finish`, and when it has returned the session is not active any more. -/
  | finish

/-- One call, or its rejection: audio, partial decodes and `finish` are for an active session. -/
def step (s : Session) : Call → Option Session
  | .start => some { s.reset with isActive := true }
  | .addAudio pcmBytes =>
    if s.isActive then some (s.addAudio settings models pcmBytes).1 else none
  | .decodePartial => if s.isActive then some (s.decodePartial settings models) else none
  | .buildOfflineEvent => some { s with transcript := s.transcript.consumeLockedSentences.2 }
  | .finish =>
    if s.isActive then
      let finished := s.finish settings models
      some { finished.1 with isActive := finished.1.isActive && !finished.2 }
    else none

/-- The session as a guarded machine. -/
def machine : Machine Session Call := ⟨step settings models⟩

/-- The states of a session that was just constructed, under any sequence of calls. -/
def Reachable (s : Session) : Prop :=
  (machine settings models).Reach (fun _ _ => True) (fresh 0) s

end Session

end FunasrApi.Online
