import FunasrApi.Online.Packetization
import FunasrApi.Online.Stream.GenerationSteps
import FunasrApi.Online.TranscriptGrowth

/-!
# A stream with its session

The runtime of a stream and the session it drives, as one machine. An action of the stream is
accepted when the session gives the answer that the action names; a call of the session takes
effect when it returns, which nobody can tell from an earlier moment because the call stands under
the session lock. Along with the two parts the machine keeps the chunk and the events that the
coroutines hold in local variables, and the offline events that the client has received.
-/

namespace FunasrApi.Online

open FunasrApi.Core

/-- `result["sentences"] or result["text"]`. -/
def OfflineEvent.hasContent (event : OfflineEvent) : Bool :=
  !event.sentences.isEmpty || !event.text.isEmpty

namespace Session

variable (settings : SessionSettings) (models : Recognizers)

/-- `build_offline_event`. -/
def buildOfflineEvent (isFinal : Bool) (s : Session) : OfflineEvent × Session :=
  let consumed := s.transcript.consumeLockedSentences
  (offlineEvent consumed.1 (s.currentDurationMs settings) isFinal,
    { s with transcript := consumed.2 })

/-- `should_decode`, when the clock allows a decode. -/
def hasDecodableAudio (s : Session) : Bool :=
  s.decodeThreshold settings ≤ s.audio.totalSamples - s.lastStreamSamples

/-- The model raises in `decode_partial`. -/
def decodePartialRaises (s : Session) : Bool :=
  let threshold := s.decodeThreshold settings
  let chunkEnd := min (s.lastStreamSamples + threshold) s.audio.totalSamples
  let newAudio := s.audio.slice s.lastStreamSamples chunkEnd
  threshold ≤ newAudio.length && (models.streamingDecode s.calls newAudio false).isNone

end Session

/-- One stream with its session, and what the coroutines hold in between. -/
structure LiveStream where
  stream : Stream.State (List UInt8)
  session : Session
  /-- The `data` of the running `add_audio`. -/
  chunk : List UInt8
  /-- The offline event in the worker's `payload`, when there is one. -/
  workerEvent : Option OfflineEvent
  /-- The `final_result` of `stop_session`. -/
  clientEvent : Option OfflineEvent
  /-- The offline events sent since the last `reset()`, in the order of the sends. -/
  received : List OfflineEvent

namespace LiveStream

/-- The stream as `run` leaves it before its first await, with the session just constructed. -/
def initial : LiveStream where
  stream := .initial _
  session := .fresh 0
  chunk := []
  workerEvent := none
  clientEvent := none
  received := []

variable (settings : SessionSettings) (models : Recognizers)

/-- `start_session` under the session lock. -/
def resetSession (generation : ℕ) (l : LiveStream) : LiveStream :=
  if generation ≠ l.stream.generation then l
  else { l with session := { l.session.reset with isActive := true }, received := [] }

/-- `_process_audio` before `add_audio`. -/
def beginAudio (generation : ℕ) (data : List UInt8) (l : LiveStream) : LiveStream :=
  if generation ≠ l.stream.generation ∨ l.session.isActive = false then l
  else { l with chunk := data }

/-- `add_audio` returns. -/
def addAudio (l : LiveStream) : LiveStream × Option Bool :=
  let added := l.session.addAudio settings models l.chunk
  ({ l with session := added.1 }, added.2)

/-- `build_offline_event` for the worker's payload. -/
def buildPayload (l : LiveStream) : LiveStream :=
  let built := l.session.buildOfflineEvent settings false
  { l with session := built.2, workerEvent := some built.1 }

/-- `_process_audio` from `add_audio` on. -/
def endAudio (generation : ℕ) (result : Stream.AddResult) (l : LiveStream) : Option LiveStream :=
  let added := l.addAudio settings models
  match result, added.2 with
  | .raised, none => some added.1
  | .locked content, some true =>
    if generation ≠ l.stream.generation then some added.1
    else if content = (added.1.session.buildOfflineEvent settings false).1.hasContent then
      some (added.1.buildPayload settings)
    else none
  | .unlocked decode, some false =>
    if decode = true ∧ added.1.session.hasDecodableAudio settings = false then none
    else some added.1
  | _, _ => none

/-- `_process_audio` from `decode_partial` on. A partial result has no sentences. -/
def endPartial (content : Option Bool) (l : LiveStream) : Option LiveStream :=
  let session := l.session.decodePartial settings models
  let answer := if l.session.decodePartialRaises settings models then none
    else some !session.partialText.isEmpty
  if content = answer then some { l with session := session, workerEvent := none } else none

/-- `stop_session` from `finish` on. -/
def endFinish (content : Option Bool) (l : LiveStream) : Option LiveStream :=
  let finished := l.session.finish settings models
  if finished.2 then
    let built := finished.1.buildOfflineEvent settings true
    if content = some built.1.hasContent then
      some { l with session := { built.2 with isActive := false }, clientEvent := some built.1 }
    else none
  else if content = none then some { l with session := finished.1 }
  else none

/-- The client receives an offline event. -/
def receive (event : Option OfflineEvent) (l : LiveStream) : LiveStream :=
  { l with received := l.received ++ event.toList }

/-- What an action of the stream does to the session and to the events. -/
def perform (l : LiveStream) : Stream.Action (List UInt8) → Option LiveStream
  | .acquireStart =>
    match l.stream.client with
    | .startSession generation => some (l.resetSession generation)
    | _ => none
  | .acquireProcess =>
    match l.stream.worker with
    | .processAudio generation data => some (l.beginAudio generation data)
    | _ => none
  | .audioAdded result =>
    match l.stream.worker with
    | .addAudio generation => l.endAudio settings models generation result
    | _ => none
  | .partialDecoded content => l.endPartial settings models content
  | .finished content => l.endFinish settings models content
  | .clientSent true =>
    match l.stream.client with
    | .sending (.recognition _) _ => some (l.receive l.clientEvent)
    | _ => some l
  | .workerSent true =>
    match l.stream.worker with
    | .sendingPayload _ => some (l.receive l.workerEvent)
    | _ => some l
  | _ => some l

/-- One coroutine goes from its await to the next one, and the session answers. -/
def step (queueMaxChunks : ℕ) (l : LiveStream) (a : Stream.Action (List UInt8)) :
    Option LiveStream :=
  (Stream.step queueMaxChunks l.stream a).bind fun stream =>
    (l.perform settings models a).map fun performed => { performed with stream := stream }

/-- The stream with its session, over the scheduler's choices and the outcomes of the sends. -/
def machine (queueMaxChunks : ℕ) : Machine LiveStream (Stream.Action (List UInt8)) :=
  ⟨step settings models queueMaxChunks⟩

/-- The step is not a failed send of a recognition payload by the worker. -/
def PayloadSent (l : LiveStream) (a : Stream.Action (List UInt8)) : Prop :=
  ∀ payload, l.stream.worker = .sendingPayload payload → a ≠ .workerSent false

/-- The states of a stream with its session, as long as the worker's payloads can be sent. -/
def Reachable (queueMaxChunks : ℕ) (l : LiveStream) : Prop :=
  (machine settings models queueMaxChunks).Reach PayloadSent initial l

section Projections

variable {settings models} {queueMaxChunks : ℕ} {l l' : LiveStream}
  {a : Stream.Action (List UInt8)}

/-- A step is one of the stream and what the session does with it. -/
theorem step_cases (h : step settings models queueMaxChunks l a = some l') :
    ∃ stream performed, Stream.step queueMaxChunks l.stream a = some stream ∧
      l.perform settings models a = some performed ∧
      l' = { performed with stream := stream } := by
  obtain ⟨stream, hstream, hrest⟩ := Option.bind_eq_some_iff.mp h
  obtain ⟨performed, hperformed, rfl⟩ := Option.map_eq_some_iff.mp hrest
  exact ⟨stream, performed, hstream, hperformed, rfl⟩

/-- The stream takes no step that the runtime alone could not take. -/
theorem Reachable.stream (h : Reachable settings models queueMaxChunks l) :
    Stream.Reachable queueMaxChunks l.stream := by
  refine Machine.Reach.invariant (I := fun l => Stream.Reachable queueMaxChunks l.stream) h .refl
    fun l a l' hl _ hstep => ?_
  obtain ⟨stream, performed, hstream, -, rfl⟩ := step_cases hstep
  exact .tail a hl trivial hstream

end Projections

end LiveStream

end FunasrApi.Online
