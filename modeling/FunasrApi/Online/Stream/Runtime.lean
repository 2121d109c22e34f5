import FunasrApi.Core.Transition

/-!
# The runtime of one ONLINE recognition stream

Two coroutines share an `OnlineStreamRuntime`: the controller, which dispatches
one client message at a time, and the recognition worker. Between two awaits a
coroutine runs alone, so one action is what a coroutine does from one await to
the next; the scheduler chooses the coroutine and the environment the outcome of
the await. The model keeps the queue with its unfinished count, the generation
counter, both locks and the session's activity flag. The session itself is
abstract: it is represented by the audio it was fed since its last `reset()`,
which is all that its later results can depend on.
-/

namespace FunasrApi.Online.Stream

open FunasrApi.Core

/-- The two recognition modes on the wire: `2pass-online` and `2pass-offline`. -/
inductive PayloadMode
  | online
  | offline
  deriving DecidableEq, Repr

/-- A recognition payload with its provenance. -/
structure Payload (Audio : Type*) where
  /-- Partial hypothesis or locked sentences. -/
  mode : PayloadMode
  /-- What the session had received since its reset when the payload was computed. -/
  source : List Audio
  deriving DecidableEq, Repr

/-- Everything the runtime sends over the WebSocket. -/
inductive Event (Audio : Type*)
  | ready
  | started
  | recognition (payload : Payload Audio)
  | stopped
  | error (message : String)
  | backpressure (queueSize queueMaxChunks : Nat)
  deriving DecidableEq, Repr

/-- The reply to audio sent before `START` or after `STOP`. -/
def inactiveSessionEvent {Audio : Type*} : Event Audio := .error "会话未开始，请先发送 START"

/-- The reply to any other text message. -/
def unknownCommandEvent {Audio : Type*} (command : String) : Event Audio :=
  .error ("未知命令: " ++ command)

/-- The worker's report of a failure in the session or in sending its payload. -/
def internalErrorEvent {Audio : Type*} : Event Audio := .error "Internal Server Error"

/-- A client message, text messages after `normalize_stream_command`. -/
inductive Message (Audio : Type*)
  | start
  | stop
  | unknown (command : String)
  | bytes (data : Audio)
  | empty
  | disconnect

/-- The two coroutines, as owners of a lock. -/
inductive Party
  | client
  | worker
  deriving DecidableEq, Repr

/-- The await at which the controller coroutine is suspended. -/
inductive ClientPc (Audio : Type*)
  /-- `websocket.receive()`. -/
  | receive
  /-- `start_session` waits for the session lock. -/
  | startSession (generation : Nat)
  /-- `stop_session` waits in `audio_queue.join()`. -/
  | join
  /-- `stop_session` waits for the session lock. -/
  | stopSession
  /-- `session.finish()`, under the session lock. -/
  | finishing
  /-- `send_json` waits for the send lock. -/
  | send (event : Event Audio) (rest : List (Event Audio))
  /-- `websocket.send_json`, under the send lock. -/
  | sending (event : Event Audio) (rest : List (Event Audio))
  /-- `close()` waits for the cancelled worker. -/
  | closing
  | closed

/-- The await at which the recognition worker is suspended. -/
inductive WorkerPc (Audio : Type*)
  /-- `audio_queue.get()` with its timeout. -/
  | poll
  /-- `_process_audio` waits for the session lock. -/
  | processAudio (generation : Nat) (data : Audio)
  /-- `session.add_audio`, under the session lock. -/
  | addAudio (generation : Nat)
  /-- `session.decode_partial`, under the session lock. -/
  | decodePartial (generation : Nat)
  /-- `_send_if_current` waits for the session lock. -/
  | sendIfCurrent (generation : Nat) (payload : Payload Audio)
  /-- `_send_if_current` waits for the send lock, under the session lock. -/
  | sendPayload (payload : Payload Audio)
  /-- `websocket.send_json` of the payload, under both locks. -/
  | sendingPayload (payload : Payload Audio)
  /-- The error handler waits for the send lock. -/
  | report
  /-- `websocket.send_json` of the error event, under the send lock. -/
  | reporting
  /-- The coroutine has returned or an exception has left it. -/
  | done

/-- What happened, as far as the session and the wire are concerned. -/
inductive TraceEvent (Audio : Type*)
  /-- A `START` message is dispatched. -/
  | start
  /-- `put_nowait` accepted a chunk. -/
  | accepted (data : Audio)
  | reset
  | addAudio (data : Audio)
  | decodePartial
  | finish
  /-- `websocket.send_json` returned. -/
  | sent (event : Event Audio)

/-- One stream: the fields of `OnlineStreamRuntime` that its coroutines read, the
session as an input history, the two suspension points, and the trace. -/
structure State (Audio : Type*) where
  /-- `audio_queue`, oldest chunk first, each under its generation. -/
  audioQueue : List (Nat × Audio)
  /-- The queue's `_unfinished_tasks`. -/
  unfinished : Nat
  generation : Nat
  stopWorker : Bool
  sessionLock : Option Party
  sendLock : Option Party
  /-- `session.is_active`. -/
  isActive : Bool
  /-- Audio given to the session since its last `reset()`. -/
  fed : List Audio
  client : ClientPc Audio
  worker : WorkerPc Audio
  /-- Newest first. -/
  trace : List (TraceEvent Audio)

/-- The stream as `run` leaves it before its first await: the worker is started and
the `ready` event is about to be sent. -/
def State.initial (Audio : Type*) : State Audio where
  audioQueue := []
  unfinished := 0
  generation := 0
  stopWorker := false
  sessionLock := none
  sendLock := none
  isActive := false
  fed := []
  client := .send .ready []
  worker := .poll
  trace := []

/-- How `session.add_audio` ends, with the branch `_process_audio` then takes. -/
inductive AddResult
  | raised
  /-- Segments were locked; `content` says whether the offline event has any. -/
  | locked (content : Bool)
  /-- Nothing was locked; `decode` is the answer of `should_decode`. -/
  | unlocked (decode : Bool)

/-- One coroutine goes on from its await, with the outcome of the await. -/
inductive Action (Audio : Type*)
  /-- `notice`: the clock allows another backpressure notice. -/
  | receive (message : Message Audio) (notice : Bool)
  | acquireStart
  | joined
  | acquireStop
  /-- `none`: `finish()` raised; otherwise whether its event has content. -/
  | finished (content : Option Bool)
  | clientLock
  | clientSent (ok : Bool)
  | workerAwaited
  | timeout
  | take
  | acquireProcess
  | audioAdded (result : AddResult)
  /-- `none`: `decode_partial` raised; otherwise whether its text is non-empty. -/
  | partialDecoded (content : Option Bool)
  | acquireSend
  | workerLock
  | workerSent (ok : Bool)
  | cancelled

variable {Audio : Type*}

/-- The worker's next await: the loop's test of `_stop_worker` comes first. -/
def WorkerPc.loop (stopWorker : Bool) : WorkerPc Audio := if stopWorker then .done else .poll

/-- `audio_queue.task_done()`, which ends the worker's iteration. -/
def State.taskDone (s : State Audio) : State Audio :=
  { s with unfinished := s.unfinished - 1, worker := .loop s.stopWorker }

/-- `_drain_audio_queue`: `get_nowait` and `task_done` until the queue is empty. -/
def State.drainAudioQueue (s : State Audio) : State Audio :=
  { s with audioQueue := [], unfinished := s.unfinished - s.audioQueue.length }

/-- `close()` up to its await; every exception of the controller ends here as well. -/
def State.close (s : State Audio) : State Audio :=
  { s with generation := s.generation + 1, stopWorker := true, client := .closing }

/-- The part of `start_session` before the session lock. -/
def State.startSession (s : State Audio) : State Audio :=
  { s.drainAudioQueue with
    generation := s.generation + 1
    client := .startSession (s.generation + 1)
    trace := .start :: s.trace }

/-- `_handle_backpressure`; without a due notice nothing is sent. -/
def State.handleBackpressure (queueMaxChunks : Nat) (notice : Bool) (s : State Audio) :
    State Audio :=
  if notice then
    { s with client := .send (.backpressure s.audioQueue.length (max 1 queueMaxChunks)) [] }
  else s

/-- `enqueue_audio`. The queue's capacity is `max(1, queue_max_chunks)`. -/
def State.enqueueAudio (queueMaxChunks : Nat) (data : Audio) (notice : Bool) (s : State Audio) :
    State Audio :=
  if s.isActive = false then { s with client := .send inactiveSessionEvent [] }
  else if s.audioQueue.length < max 1 queueMaxChunks then
    { s with
      audioQueue := s.audioQueue ++ [(s.generation, data)]
      unfinished := s.unfinished + 1
      trace := .accepted data :: s.trace }
  else s.handleBackpressure queueMaxChunks notice

/-- The dispatch of `OnlineStreamController.run`. -/
def State.dispatch (queueMaxChunks : Nat) (notice : Bool) (s : State Audio) :
    Message Audio → State Audio
  | .start => s.startSession
  | .stop => { s with client := .join }
  | .unknown command => { s with client := .send (unknownCommandEvent command) [] }
  | .bytes data => s.enqueueAudio queueMaxChunks data notice
  | .empty => s
  | .disconnect => s.close

/-- `start_session` from the session lock to its first send, with no await between. -/
def State.resetSession (s : State Audio) (generation : Nat) : State Audio :=
  if generation ≠ s.generation then { s with client := .receive }
  else
    { s with
      isActive := true
      fed := []
      client := .send .started []
      trace := .reset :: s.trace }

/-- `stop_session` under the session lock, up to `finish()`. -/
def State.finishSession (s : State Audio) : State Audio :=
  if s.isActive then
    { s with sessionLock := some .client, client := .finishing, trace := .finish :: s.trace }
  else { s with client := .send .stopped [] }

/-- `stop_session` after `finish()`: the final event is built and the lock released. -/
def State.stopSession (s : State Audio) (content : Bool) : State Audio :=
  { s with
    isActive := false
    sessionLock := none
    client :=
      if content then .send (.recognition ⟨.offline, s.fed⟩) [.stopped]
      else .send .stopped [] }

/-- The client's coroutine after one event is sent. -/
def State.sentNext (s : State Audio) (event : Event Audio) (rest : List (Event Audio)) :
    State Audio :=
  { s with
    sendLock := none
    trace := .sent event :: s.trace
    client := match rest with
      | [] => .receive
      | next :: rest => .send next rest }

/-- `_process_audio` from the session lock to `add_audio`. -/
def State.beginAudio (s : State Audio) (generation : Nat) (data : Audio) : State Audio :=
  if generation ≠ s.generation ∨ s.isActive = false then s.taskDone
  else
    { s with
      sessionLock := some .worker
      fed := s.fed ++ [data]
      worker := .addAudio generation
      trace := .addAudio data :: s.trace }

/-- Leave `_process_audio` with a payload, or with none when it has no content. -/
def State.leaveProcess (s : State Audio) (generation : Nat) (mode : PayloadMode)
    (content : Bool) : State Audio :=
  let s := { s with sessionLock := none }
  if content then { s with worker := .sendIfCurrent generation ⟨mode, s.fed⟩ } else s.taskDone

/-- An exception leaves the session lock and enters the worker's error handler. -/
def State.workerFailed (s : State Audio) : State Audio :=
  { s with sessionLock := none, worker := .report }

/-- `_process_audio` after `add_audio`. -/
def State.endAudio (s : State Audio) (generation : Nat) : AddResult → State Audio
  | .raised => s.workerFailed
  | .locked content =>
    if generation ≠ s.generation then { s with sessionLock := none }.taskDone
    else s.leaveProcess generation .offline content
  | .unlocked decode =>
    if generation ≠ s.generation ∨ decode = false then { s with sessionLock := none }.taskDone
    else { s with worker := .decodePartial generation, trace := .decodePartial :: s.trace }

/-- `_send_if_current` under the session lock. -/
def State.beginSend (s : State Audio) (generation : Nat) (payload : Payload Audio) :
    State Audio :=
  if generation ≠ s.generation then s.taskDone
  else { s with sessionLock := some .worker, worker := .sendPayload payload }

/-- The worker's coroutine after `websocket.send_json`. A failure to send the error
event is not caught: `finally` marks the chunk done and the coroutine dies. -/
def State.endSend (s : State Audio) (ok : Bool) : Option (State Audio) :=
  match s.worker with
  | .sendingPayload payload =>
    let s := { s with sessionLock := none, sendLock := none }
    some (if ok then { s with trace := .sent (.recognition payload) :: s.trace }.taskDone
      else s.workerFailed)
  | .reporting =>
    let s := { s with sendLock := none }
    some (if ok then { s with trace := .sent internalErrorEvent :: s.trace }.taskDone
      else { s.taskDone with worker := .done })
  | _ => none

/-- `CancelledError` at any await of the worker: its locks are released, a chunk it
holds is marked done, and the coroutine ends. -/
def State.cancelWorker (s : State Audio) : State Audio :=
  let s := { s with
    sessionLock := if s.sessionLock = some Party.worker then none else s.sessionLock
    sendLock := if s.sendLock = some Party.worker then none else s.sendLock }
  match s.worker with
  | .poll | .done => { s with worker := .done }
  | _ => { s.taskDone with worker := .done }

/-- One coroutine goes from its await to the next one. -/
def step (queueMaxChunks : Nat) (s : State Audio) : Action Audio → Option (State Audio)
  | .receive message notice =>
    match s.client with
    | .receive => some (s.dispatch queueMaxChunks notice message)
    | _ => none
  | .acquireStart =>
    match s.client, s.sessionLock with
    | .startSession generation, none => some (s.resetSession generation)
    | _, _ => none
  | .joined =>
    match s.client, s.unfinished with
    | .join, 0 => some { s with client := .stopSession }
    | _, _ => none
  | .acquireStop =>
    match s.client, s.sessionLock with
    | .stopSession, none => some s.finishSession
    | _, _ => none
  | .finished content =>
    match s.client, content with
    | .finishing, some content => some (s.stopSession content)
    | .finishing, none => some { s with sessionLock := none }.close
    | _, _ => none
  | .clientLock =>
    match s.client, s.sendLock with
    | .send event rest, none =>
      some { s with sendLock := some .client, client := .sending event rest }
    | _, _ => none
  | .clientSent ok =>
    match s.client with
    | .sending event rest =>
      some (if ok then s.sentNext event rest else { s with sendLock := none }.close)
    | _ => none
  | .workerAwaited =>
    match s.client, s.worker with
    | .closing, .done => some { s with client := .closed }
    | _, _ => none
  | .timeout =>
    match s.worker with
    | .poll => some { s with worker := .loop s.stopWorker }
    | _ => none
  | .take =>
    match s.worker, s.audioQueue with
    | .poll, (generation, data) :: rest =>
      some { s with audioQueue := rest, worker := .processAudio generation data }
    | _, _ => none
  | .acquireProcess =>
    match s.worker, s.sessionLock with
    | .processAudio generation data, none => some (s.beginAudio generation data)
    | _, _ => none
  | .audioAdded result =>
    match s.worker with
    | .addAudio generation => some (s.endAudio generation result)
    | _ => none
  | .partialDecoded content =>
    match s.worker, content with
    | .decodePartial generation, some content => some (s.leaveProcess generation .online content)
    | .decodePartial _, none => some s.workerFailed
    | _, _ => none
  | .acquireSend =>
    match s.worker, s.sessionLock with
    | .sendIfCurrent generation payload, none => some (s.beginSend generation payload)
    | _, _ => none
  | .workerLock =>
    match s.worker, s.sendLock with
    | .sendPayload payload, none =>
      some { s with sendLock := some .worker, worker := .sendingPayload payload }
    | .report, none => some { s with sendLock := some .worker, worker := .reporting }
    | _, _ => none
  | .workerSent ok => s.endSend ok
  | .cancelled =>
    match s.client with
    | .closing => some s.cancelWorker
    | _ => none

/-- The stream as a machine over the scheduler's and the environment's choices. -/
def machine (Audio : Type*) (queueMaxChunks : Nat) : Machine (State Audio) (Action Audio) where
  step := step queueMaxChunks

/-- States of a stream under every interleaving and every outcome of its awaits. -/
def Reachable (queueMaxChunks : Nat) (s : State Audio) : Prop :=
  (machine Audio queueMaxChunks).Reach (fun _ _ => True) (State.initial Audio) s

end FunasrApi.Online.Stream
