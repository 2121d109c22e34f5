import FunasrApi.Online.Stream.Moves

/-!
# The session lock and the queue's unfinished count

Two invariants that hold of every run, whatever fails: the session lock is held
exactly by the coroutine that stands inside its critical section, and the
queue's unfinished count is what is queued plus the chunk the worker holds.
-/

namespace FunasrApi.Online.Stream

open FunasrApi.Core

variable {Audio : Type*}

/-- The worker stands inside `async with self._session_lock`. -/
def WorkerPc.inSession : WorkerPc Audio → Bool
  | .addAudio _ | .decodePartial _ | .sendPayload _ | .sendingPayload _ => true
  | _ => false

/-- The worker holds a chunk whose `task_done()` is still to come. -/
def WorkerPc.holdsChunk : WorkerPc Audio → Bool
  | .poll | .done => false
  | _ => true

/-- The worker is sending an error event. -/
def WorkerPc.isReporting : WorkerPc Audio → Bool
  | .reporting => true
  | _ => false

/-- The client stands inside `async with self._session_lock`. -/
def ClientPc.inSession : ClientPc Audio → Bool
  | .finishing => true
  | _ => false

/-- `close()` has been called. -/
def ClientPc.isClosing : ClientPc Audio → Bool
  | .closing | .closed => true
  | _ => false

@[simp] theorem WorkerPc.inSession_loop (b : Bool) :
    (WorkerPc.loop b : WorkerPc Audio).inSession = false := by
  cases b <;> rfl

@[simp] theorem WorkerPc.holdsChunk_loop (b : Bool) :
    (WorkerPc.loop b : WorkerPc Audio).holdsChunk = false := by
  cases b <;> rfl

@[simp] theorem WorkerPc.inSession_done : (WorkerPc.done : WorkerPc Audio).inSession = false := rfl

section CancelWorker

variable (s : State Audio)

@[simp] theorem State.cancelWorker_worker : s.cancelWorker.worker = .done := by
  cases hw : s.worker <;> simp [State.cancelWorker, State.taskDone, hw]

@[simp] theorem State.cancelWorker_client : s.cancelWorker.client = s.client := by
  cases hw : s.worker <;> simp [State.cancelWorker, State.taskDone, hw]

@[simp] theorem State.cancelWorker_audioQueue : s.cancelWorker.audioQueue = s.audioQueue := by
  cases hw : s.worker <;> simp [State.cancelWorker, State.taskDone, hw]

@[simp] theorem State.cancelWorker_generation : s.cancelWorker.generation = s.generation := by
  cases hw : s.worker <;> simp [State.cancelWorker, State.taskDone, hw]

@[simp] theorem State.cancelWorker_isActive : s.cancelWorker.isActive = s.isActive := by
  cases hw : s.worker <;> simp [State.cancelWorker, State.taskDone, hw]

@[simp] theorem State.cancelWorker_fed : s.cancelWorker.fed = s.fed := by
  cases hw : s.worker <;> simp [State.cancelWorker, State.taskDone, hw]

@[simp] theorem State.cancelWorker_trace : s.cancelWorker.trace = s.trace := by
  cases hw : s.worker <;> simp [State.cancelWorker, State.taskDone, hw]

theorem State.cancelWorker_sessionLock :
    s.cancelWorker.sessionLock =
      if s.sessionLock = some Party.worker then none else s.sessionLock := by
  cases hw : s.worker <;> simp [State.cancelWorker, State.taskDone, hw]

/-- Cancelling the worker marks the chunk it holds as done. -/
theorem State.cancelWorker_unfinished :
    s.cancelWorker.unfinished = s.unfinished - if s.worker.holdsChunk then 1 else 0 := by
  cases hw : s.worker <;> simp [State.cancelWorker, State.taskDone, WorkerPc.holdsChunk, hw]

end CancelWorker

/-- The client's suspension point after an event is sent. -/
theorem State.sentNext_client (s : State Audio) (event : Event Audio)
    (rest : List (Event Audio)) :
    (s.sentNext event rest).client = .receive ∧ rest = [] ∨
      ∃ next more, rest = next :: more ∧ (s.sentNext event rest).client = .send next more := by
  cases rest with
  | nil => exact .inl ⟨rfl, rfl⟩
  | cons next more => exact .inr ⟨next, more, rfl, rfl⟩

/-- Each holder of the session lock stands inside its critical section, and conversely. -/
structure Locks (s : State Audio) : Prop where
  worker_iff : s.sessionLock = some .worker ↔ s.worker.inSession = true
  client_iff : s.sessionLock = some .client ↔ s.client.inSession = true

/-- The queue's count of chunks that were put and not yet marked done. -/
def Counted (s : State Audio) : Prop :=
  s.unfinished = s.audioQueue.length + if s.worker.holdsChunk then 1 else 0

/-- A free session lock: nobody is inside a critical section. -/
theorem Locks.of_free {s : State Audio} (h : Locks s) (hl : s.sessionLock = none) :
    s.worker.inSession = false ∧ s.client.inSession = false := by
  constructor
  · by_contra hw
    have := h.worker_iff.mpr (by simpa using hw)
    simp [hl] at this
  · by_contra hc
    have := h.client_iff.mpr (by simpa using hc)
    simp [hl] at this

/-- The two coroutines are never in their critical sections together. -/
theorem Locks.exclusive {s : State Audio} (h : Locks s) (hc : s.client.inSession = true) :
    s.worker.inSession = false := by
  by_contra hw
  have hl := h.client_iff.mpr hc
  have := h.worker_iff.mpr (by simpa using hw)
  simp [hl] at this

/-- The worker in its critical section leaves the client outside of its own. -/
theorem Locks.exclusive' {s : State Audio} (h : Locks s) (hw : s.worker.inSession = true) :
    s.client.inSession = false := by
  by_contra hc
  have := h.exclusive (by simpa using hc)
  simp [hw] at this

/-- Only the pcs and the session lock matter to the lock invariant. -/
theorem Locks.congr {s t : State Audio} (h : Locks s) (hl : t.sessionLock = s.sessionLock)
    (hw : t.worker.inSession = s.worker.inSession)
    (hc : t.client.inSession = s.client.inSession) : Locks t := by
  constructor
  · rw [hl, hw]
    exact h.worker_iff
  · rw [hl, hc]
    exact h.client_iff

/-- Both coroutines have left their critical sections and the lock is free. -/
theorem Locks.release {t : State Audio} (hl : t.sessionLock = none)
    (hw : t.worker.inSession = false) (hc : t.client.inSession = false) : Locks t := by
  constructor
  · simp [hl, hw]
  · simp [hl, hc]

/-- A worker inside the session, at one of two suspension points. -/
private theorem inSession_of_or {s : State Audio} {generation : Nat}
    (hw : s.worker = .addAudio generation ∨ s.worker = .decodePartial generation) :
    s.worker.inSession = true := by
  rcases hw with hw | hw
  · rw [hw]
    rfl
  · rw [hw]
    rfl

/-- There the worker holds the chunk it is processing. -/
private theorem holdsChunk_of_or {s : State Audio} {generation : Nat}
    (hw : s.worker = .addAudio generation ∨ s.worker = .decodePartial generation) :
    s.worker.holdsChunk = true := by
  rcases hw with hw | hw
  · rw [hw]
    rfl
  · rw [hw]
    rfl

/-- The lock invariant is kept by every move. -/
theorem Locks.move {queueMaxChunks : Nat} {s t : State Audio} {a : Action Audio} (h : Locks s)
    (hm : Move queueMaxChunks s a t) : Locks t := by
  cases hm with
  | idle => exact h
  | start hc | stop hc | disconnect hc | joined hc =>
    exact h.congr rfl rfl (by rw [hc]; rfl)
  | superseded generation hc | reset hc | clientLock event rest hc | clientRaised event rest hc
    | closed hc =>
    exact h.congr rfl rfl (by rw [hc]; rfl)
  | reply event hc he =>
    refine h.congr rfl rfl ?_
    rcases hc with hc | ⟨hc, -⟩
    · rw [hc]
      rfl
    · rw [hc]
      rfl
  | enqueue data hc ha hq => exact h.congr rfl rfl rfl
  | finish hc hl ha =>
    have hw := (h.of_free hl).1
    constructor
    · simp [hw]
    · simp [ClientPc.inSession]
  | finished content hc =>
    have hw := h.exclusive (by rw [hc]; rfl)
    refine .release rfl hw ?_
    cases content <;> rfl
  | finishRaised hc => exact .release rfl (h.exclusive (by rw [hc]; rfl)) rfl
  | clientSent event rest hc =>
    refine h.congr rfl rfl ?_
    rcases s.sentNext_client event rest with ⟨hr, -⟩ | ⟨next, more, -, hr⟩
    · rw [hr, hc]
      rfl
    · rw [hr, hc]
      rfl
  | take generation data rest hw | decodePartial hw | payloadLock payload hw | reportLock hw
    | reportRaised hw =>
    exact h.congr rfl (by rw [hw]; rfl) rfl
  | timeout hw | skip generation data hw | stale generation payload hw | reported hw =>
    exact h.congr rfl (by rw [hw]; exact WorkerPc.inSession_loop _) rfl
  | addAudio data hw hl | current payload hw hl =>
    have hc := (h.of_free hl).2
    constructor
    · simp [WorkerPc.inSession]
    · simp [hc]
  | sessionRaised generation hw | payload generation mode hw =>
    exact .release rfl rfl (h.exclusive' (inSession_of_or hw))
  | noPayload generation hw =>
    exact .release rfl (WorkerPc.inSession_loop _) (h.exclusive' (inSession_of_or hw))
  | payloadSent payload hw =>
    exact .release rfl (WorkerPc.inSession_loop _) (h.exclusive' (by rw [hw]; rfl))
  | payloadRaised payload hw => exact .release rfl rfl (h.exclusive' (by rw [hw]; rfl))
  | cancelled hc =>
    have hs : s.client.inSession = false := by rw [hc]; rfl
    have hl : s.sessionLock ≠ some .client := by
      intro hl
      have := h.client_iff.mp hl
      simp [hs] at this
    refine .release ?_ (by simp) (by simpa using hs)
    rw [s.cancelWorker_sessionLock]
    rcases hp : s.sessionLock with _ | p
    · simp
    · cases p with
      | client => exact absurd hp hl
      | worker => simp

/-- Only the queue's length, the count and the chunk in hand matter to the count. -/
theorem Counted.congr {s t : State Audio} (h : Counted s) (hq : t.audioQueue = s.audioQueue)
    (hu : t.unfinished = s.unfinished) (hw : t.worker.holdsChunk = s.worker.holdsChunk) :
    Counted t := by
  unfold Counted at h ⊢
  rw [hq, hu, hw]
  exact h

/-- A count of zero: nothing is queued and the worker has no chunk. -/
theorem Counted.of_zero {s : State Audio} (h : Counted s) (hu : s.unfinished = 0) :
    s.audioQueue = [] ∧ s.worker.holdsChunk = false := by
  unfold Counted at h
  constructor
  · apply List.eq_nil_of_length_eq_zero
    omega
  · by_contra hw
    rw [if_pos (by simpa using hw)] at h
    omega

/-- Marking the chunk in hand as done keeps the count. -/
theorem Counted.taskDone {s t : State Audio} (h : Counted s) (hk : s.worker.holdsChunk = true)
    (hq : t.audioQueue = s.audioQueue) (hu : t.unfinished = s.unfinished - 1)
    (hw : t.worker.holdsChunk = false) : Counted t := by
  unfold Counted at h ⊢
  rw [hk, if_pos rfl] at h
  rw [hq, hu, hw, h]
  simp

/-- The count is kept by every move. -/
theorem Counted.move {queueMaxChunks : Nat} {s t : State Audio} {a : Action Audio} (h : Counted s)
    (hm : Move queueMaxChunks s a t) : Counted t := by
  cases hm with
  | idle | stop | reply | disconnect | superseded | reset | joined | finish | finished
    | finishRaised | clientLock | clientSent | clientRaised | closed =>
    exact h
  | start hc =>
    unfold Counted at h ⊢
    show s.unfinished - s.audioQueue.length = 0 + if s.worker.holdsChunk then 1 else 0
    omega
  | enqueue data hc ha hq =>
    unfold Counted at h ⊢
    show s.unfinished + 1 = (s.audioQueue ++ [(s.generation, data)]).length +
      if s.worker.holdsChunk then 1 else 0
    rw [List.length_append, List.length_singleton]
    omega
  | take generation data rest hw hq =>
    unfold Counted at h ⊢
    rw [hw, hq, List.length_cons] at h
    exact h
  | timeout hw => exact h.congr rfl rfl (by rw [hw]; exact WorkerPc.holdsChunk_loop _)
  | skip generation data hw | stale generation payload hw | payloadSent payload hw
    | reported hw =>
    exact h.taskDone (by rw [hw]; rfl) rfl rfl (WorkerPc.holdsChunk_loop _)
  | reportRaised hw => exact h.taskDone (by rw [hw]; rfl) rfl rfl rfl
  | noPayload generation hw =>
    exact h.taskDone (holdsChunk_of_or hw) rfl rfl (WorkerPc.holdsChunk_loop _)
  | sessionRaised generation hw | payload generation mode hw =>
    exact h.congr rfl rfl (holdsChunk_of_or hw).symm
  | addAudio data hw | decodePartial hw | current payload hw | payloadLock payload hw
    | payloadRaised payload hw | reportLock hw =>
    exact h.congr rfl rfl (by rw [hw]; rfl)
  | cancelled hc =>
    unfold Counted at h ⊢
    rw [s.cancelWorker_unfinished, s.cancelWorker_audioQueue, s.cancelWorker_worker, h]
    exact Nat.add_sub_cancel ..

end FunasrApi.Online.Stream
