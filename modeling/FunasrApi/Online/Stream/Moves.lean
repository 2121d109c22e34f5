import FunasrApi.Online.Stream.Runtime

/-!
# What one step of the stream can do

The inversion of `step`: one constructor for each way through the code between
two awaits, with the guard it passed and the state it leaves. Every invariant of
the stream is proved by cases on `Move`, never by unfolding `step`.
-/

namespace FunasrApi.Online.Stream

variable {Audio : Type*}

/-- An event that is neither `started` nor a recognition result. -/
def Event.isNotice : Event Audio → Bool
  | .started | .recognition _ => false
  | _ => true

/-- The ways through the code between two awaits, for the action that takes them. -/
inductive Move (queueMaxChunks : Nat) (s : State Audio) (a : Action Audio) : State Audio → Prop
  | idle : Move queueMaxChunks s a s
  | start (hc : s.client = .receive) : Move queueMaxChunks s a s.startSession
  | stop (hc : s.client = .receive) : Move queueMaxChunks s a { s with client := .join }
  /-- A reply with no effect on the session: an error, a notice, or `stopped`. -/
  | reply (event : Event Audio)
      (hc : s.client = .receive ∨ s.client = .stopSession ∧ s.sessionLock = none)
      (he : event.isNotice = true) :
      Move queueMaxChunks s a { s with client := .send event [] }
  | enqueue (data : Audio) (hc : s.client = .receive) (ha : s.isActive = true)
      (hq : s.audioQueue.length < max 1 queueMaxChunks) :
      Move queueMaxChunks s a
        { s with
          audioQueue := s.audioQueue ++ [(s.generation, data)]
          unfinished := s.unfinished + 1
          trace := .accepted data :: s.trace }
  | disconnect (hc : s.client = .receive) : Move queueMaxChunks s a s.close
  | superseded (generation : Nat) (hc : s.client = .startSession generation)
      (hl : s.sessionLock = none) (hg : generation ≠ s.generation) :
      Move queueMaxChunks s a { s with client := .receive }
  | reset (hc : s.client = .startSession s.generation) (hl : s.sessionLock = none) :
      Move queueMaxChunks s a
        { s with
          isActive := true
          fed := []
          client := .send .started []
          trace := .reset :: s.trace }
  | joined (hc : s.client = .join) (hu : s.unfinished = 0) :
      Move queueMaxChunks s a { s with client := .stopSession }
  | finish (hc : s.client = .stopSession) (hl : s.sessionLock = none) (ha : s.isActive = true) :
      Move queueMaxChunks s a
        { s with
          sessionLock := some .client
          client := .finishing
          trace := .finish :: s.trace }
  | finished (content : Bool) (hc : s.client = .finishing) :
      Move queueMaxChunks s a (s.stopSession content)
  | finishRaised (hc : s.client = .finishing) :
      Move queueMaxChunks s a { s with sessionLock := none }.close
  | clientLock (event : Event Audio) (rest : List (Event Audio))
      (hc : s.client = .send event rest) (hl : s.sendLock = none) :
      Move queueMaxChunks s a
        { s with sendLock := some .client, client := .sending event rest }
  | clientSent (event : Event Audio) (rest : List (Event Audio))
      (hc : s.client = .sending event rest) : Move queueMaxChunks s a (s.sentNext event rest)
  | clientRaised (event : Event Audio) (rest : List (Event Audio))
      (hc : s.client = .sending event rest) :
      Move queueMaxChunks s a { s with sendLock := none }.close
  | closed (hc : s.client = .closing) (hw : s.worker = .done) :
      Move queueMaxChunks s a { s with client := .closed }
  | timeout (hw : s.worker = .poll) :
      Move queueMaxChunks s a { s with worker := .loop s.stopWorker }
  | take (generation : Nat) (data : Audio) (rest : List (Nat × Audio)) (hw : s.worker = .poll)
      (hq : s.audioQueue = (generation, data) :: rest) :
      Move queueMaxChunks s a
        { s with audioQueue := rest, worker := .processAudio generation data }
  /-- The chunk is of an older generation, or the session is not active. -/
  | skip (generation : Nat) (data : Audio) (hw : s.worker = .processAudio generation data)
      (hl : s.sessionLock = none) (hg : generation ≠ s.generation ∨ s.isActive = false) :
      Move queueMaxChunks s a s.taskDone
  | addAudio (data : Audio) (hw : s.worker = .processAudio s.generation data)
      (hl : s.sessionLock = none) (ha : s.isActive = true) :
      Move queueMaxChunks s a
        { s with
          sessionLock := some .worker
          fed := s.fed ++ [data]
          worker := .addAudio s.generation
          trace := .addAudio data :: s.trace }
  /-- The session raised, from `add_audio` or from `decode_partial`. -/
  | sessionRaised (generation : Nat)
      (hw : s.worker = .addAudio generation ∨ s.worker = .decodePartial generation) :
      Move queueMaxChunks s a s.workerFailed
  /-- `_process_audio` returns no payload. -/
  | noPayload (generation : Nat)
      (hw : s.worker = .addAudio generation ∨ s.worker = .decodePartial generation) :
      Move queueMaxChunks s a { s with sessionLock := none }.taskDone
  | decodePartial (hw : s.worker = .addAudio s.generation) :
      Move queueMaxChunks s a
        { s with
          worker := .decodePartial s.generation
          trace := .decodePartial :: s.trace }
  | payload (generation : Nat) (mode : PayloadMode)
      (hw : s.worker = .addAudio generation ∨ s.worker = .decodePartial generation) :
      Move queueMaxChunks s a
        { s with
          sessionLock := none
          worker := .sendIfCurrent generation ⟨mode, s.fed⟩ }
  | stale (generation : Nat) (payload : Payload Audio)
      (hw : s.worker = .sendIfCurrent generation payload) (hl : s.sessionLock = none)
      (hg : generation ≠ s.generation) : Move queueMaxChunks s a s.taskDone
  | current (payload : Payload Audio) (hw : s.worker = .sendIfCurrent s.generation payload)
      (hl : s.sessionLock = none) :
      Move queueMaxChunks s a
        { s with sessionLock := some .worker, worker := .sendPayload payload }
  | payloadLock (payload : Payload Audio) (hw : s.worker = .sendPayload payload)
      (hl : s.sendLock = none) :
      Move queueMaxChunks s a
        { s with sendLock := some .worker, worker := .sendingPayload payload }
  | payloadSent (payload : Payload Audio) (hw : s.worker = .sendingPayload payload) :
      Move queueMaxChunks s a
        { s with
          sessionLock := none
          sendLock := none
          trace := .sent (.recognition payload) :: s.trace }.taskDone
  | payloadRaised (payload : Payload Audio) (hw : s.worker = .sendingPayload payload) :
      Move queueMaxChunks s a { s with sessionLock := none, sendLock := none }.workerFailed
  | reportLock (hw : s.worker = .report) (hl : s.sendLock = none) :
      Move queueMaxChunks s a { s with sendLock := some .worker, worker := .reporting }
  | reported (hw : s.worker = .reporting) :
      Move queueMaxChunks s a
        { s with sendLock := none, trace := .sent internalErrorEvent :: s.trace }.taskDone
  /-- The error event could not be sent: the exception leaves the worker's coroutine. -/
  | reportRaised (hw : s.worker = .reporting) (ha : a = .workerSent false) :
      Move queueMaxChunks s a { { s with sendLock := none }.taskDone with worker := .done }
  | cancelled (hc : s.client = .closing) : Move queueMaxChunks s a s.cancelWorker

/-- Dispatching a message is one of the client's moves. -/
private theorem move_dispatch {queueMaxChunks : Nat} {s : State Audio} {a : Action Audio}
    {notice : Bool} (hc : s.client = .receive) (message : Message Audio) :
    Move queueMaxChunks s a (s.dispatch queueMaxChunks notice message) := by
  cases message with
  | start => exact .start hc
  | stop => exact .stop hc
  | unknown command => exact .reply _ (.inl hc) rfl
  | empty => exact .idle
  | disconnect => exact .disconnect hc
  | bytes data =>
    simp only [State.dispatch, State.enqueueAudio, State.handleBackpressure]
    split
    · exact .reply _ (.inl hc) rfl
    · rename_i ha
      split
      · rename_i hq
        exact .enqueue data hc (by simpa using ha) hq
      · split
        · exact .reply _ (.inl hc) rfl
        · exact .idle

/-- What the worker does after `add_audio` is one of its moves. -/
private theorem move_endAudio {queueMaxChunks : Nat} {s : State Audio} {a : Action Audio}
    {generation : Nat} (hw : s.worker = .addAudio generation) (result : AddResult) :
    Move queueMaxChunks s a (s.endAudio generation result) := by
  cases result with
  | raised => exact .sessionRaised generation (.inl hw)
  | locked content =>
    simp only [State.endAudio, State.leaveProcess]
    split
    · exact .noPayload generation (.inl hw)
    · split
      · exact .payload generation .offline (.inl hw)
      · exact .noPayload generation (.inl hw)
  | unlocked decode =>
    simp only [State.endAudio]
    split
    · exact .noPayload generation (.inl hw)
    · rename_i hg
      obtain rfl : generation = s.generation := by
        by_contra h
        exact hg (.inl h)
      exact .decodePartial hw

/-- Every accepted action is one of the moves. -/
theorem move_of_step {queueMaxChunks : Nat} {s t : State Audio} {a : Action Audio}
    (h : step queueMaxChunks s a = some t) : Move queueMaxChunks s a t := by
  cases a with
  | receive message notice =>
    simp only [step] at h
    split at h
    · cases h
      exact move_dispatch ‹_› message
    · cases h
  | acquireStart =>
    simp only [step] at h
    split at h
    · rename_i generation hc hl
      cases h
      simp only [State.resetSession]
      split
      · exact .superseded generation hc hl ‹_›
      · obtain rfl : generation = s.generation := not_not.mp ‹_›
        exact .reset hc hl
    · cases h
  | joined =>
    simp only [step] at h
    split at h
    · cases h
      exact .joined ‹_› ‹_›
    · cases h
  | acquireStop =>
    simp only [step] at h
    split at h
    · rename_i hc hl
      cases h
      simp only [State.finishSession]
      split
      · exact .finish hc hl ‹_›
      · exact .reply _ (.inr ⟨hc, hl⟩) rfl
    · cases h
  | finished content =>
    simp only [step] at h
    split at h
    · cases h
      exact .finished _ ‹_›
    · cases h
      exact .finishRaised ‹_›
    · cases h
  | clientLock =>
    simp only [step] at h
    split at h
    · cases h
      exact .clientLock _ _ ‹_› ‹_›
    · cases h
  | clientSent ok =>
    simp only [step] at h
    split at h
    · cases h
      cases ok with
      | true => exact .clientSent _ _ ‹_›
      | false => exact .clientRaised _ _ ‹_›
    · cases h
  | workerAwaited =>
    simp only [step] at h
    split at h
    · cases h
      exact .closed ‹_› ‹_›
    · cases h
  | timeout =>
    simp only [step] at h
    split at h
    · cases h
      exact .timeout ‹_›
    · cases h
  | take =>
    simp only [step] at h
    split at h
    · cases h
      exact .take _ _ _ ‹_› ‹_›
    · cases h
  | acquireProcess =>
    simp only [step] at h
    split at h
    · rename_i generation data hw hl
      cases h
      simp only [State.beginAudio]
      split
      · exact .skip generation data hw hl ‹_›
      · rename_i hg
        obtain ⟨hg, ha⟩ := not_or.mp hg
        obtain rfl : generation = s.generation := not_not.mp hg
        exact .addAudio data hw hl (by simpa using ha)
    · cases h
  | audioAdded result =>
    simp only [step] at h
    split at h
    · cases h
      exact move_endAudio ‹_› result
    · cases h
  | partialDecoded content =>
    simp only [step] at h
    split at h
    · rename_i generation content hw
      cases h
      cases content with
      | true => exact .payload generation .online (.inr hw)
      | false => exact .noPayload generation (.inr hw)
    · cases h
      exact .sessionRaised _ (.inr ‹_›)
    · cases h
  | acquireSend =>
    simp only [step] at h
    split at h
    · rename_i generation payload hw hl
      cases h
      simp only [State.beginSend]
      split
      · exact .stale generation payload hw hl ‹_›
      · obtain rfl : generation = s.generation := not_not.mp ‹_›
        exact .current payload hw hl
    · cases h
  | workerLock =>
    simp only [step] at h
    split at h
    · cases h
      exact .payloadLock _ ‹_› ‹_›
    · cases h
      exact .reportLock ‹_› ‹_›
    · cases h
  | workerSent ok =>
    simp only [step, State.endSend] at h
    split at h
    · cases h
      cases ok with
      | true => exact .payloadSent _ ‹_›
      | false => exact .payloadRaised _ ‹_›
    · cases h
      cases ok with
      | true => exact .reported ‹_›
      | false => exact .reportRaised ‹_› rfl
    · cases h
  | cancelled =>
    simp only [step] at h
    split at h
    · cases h
      exact .cancelled ‹_›
    · cases h

end FunasrApi.Online.Stream
