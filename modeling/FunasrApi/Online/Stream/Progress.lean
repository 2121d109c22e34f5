import FunasrApi.Online.Stream.DeadWorker
import FunasrApi.Online.Stream.GenerationSteps

/-!
# A stream does not stop halfway

Without a new message a stream takes a bounded number of steps. As long as the worker's error
reports can be sent, some coroutine can go on until the controller waits for the next message
again, or the stream is closed.
-/

namespace FunasrApi.Online.Stream

open FunasrApi.Core

variable {Audio : Type*} {queueMaxChunks : ℕ} {s t : State Audio} {a : Action Audio}

/-- The worker stands inside `async with self._send_lock`. -/
def WorkerPc.isSending : WorkerPc Audio → Bool
  | .sendingPayload _ | .reporting => true
  | _ => false

/-- The client stands inside `async with self._send_lock`. -/
def ClientPc.isSending : ClientPc Audio → Bool
  | .sending _ _ => true
  | _ => false

/-- Who owns the send lock is sending. -/
structure SendLocks (s : State Audio) : Prop where
  worker : s.sendLock = some .worker → s.worker.isSending = true
  client : s.sendLock = some .client → s.client.isSending = true

section SendLock

theorem State.cancelWorker_sendLock (s : State Audio) :
    s.cancelWorker.sendLock = if s.sendLock = some Party.worker then none else s.sendLock := by
  cases hw : s.worker <;> simp [State.cancelWorker, State.taskDone, hw]

/-- A step of the worker outside of the send lock, or one that gives it back. -/
theorem SendLocks.worker_step (h : SendLocks s) (hclient : t.client = s.client)
    (hlock : t.sendLock = s.sendLock ∧ s.worker.isSending = false ∨ t.sendLock = none) :
    SendLocks t := by
  rcases hlock with ⟨hlock, hout⟩ | hnone
  · refine ⟨fun hworker => ?_, fun hown => ?_⟩
    · have hsending := h.worker (hlock ▸ hworker)
      rw [hout] at hsending
      cases hsending
    · rw [hclient]
      exact h.client (hlock ▸ hown)
  · exact ⟨fun hworker => (by rw [hnone] at hworker; cases hworker),
      fun hclient => (by rw [hnone] at hclient; cases hclient)⟩

/-- A step of the client outside of the send lock, or one that gives it back. -/
theorem SendLocks.client_step (h : SendLocks s) (hworker : t.worker = s.worker)
    (hlock : t.sendLock = s.sendLock ∧ s.client.isSending = false ∨ t.sendLock = none) :
    SendLocks t := by
  rcases hlock with ⟨hlock, hout⟩ | hnone
  · refine ⟨fun hown => ?_, fun hclient => ?_⟩
    · rw [hworker]
      exact h.worker (hlock ▸ hown)
    · have hsending := h.client (hlock ▸ hclient)
      rw [hout] at hsending
      cases hsending
  · exact ⟨fun hworker => (by rw [hnone] at hworker; cases hworker),
      fun hclient => (by rw [hnone] at hclient; cases hclient)⟩

theorem SendLocks.move (h : SendLocks s) (hm : Move queueMaxChunks s a t) : SendLocks t := by
  cases hm with
  | idle => exact h
  | start hc | stop hc | enqueue data hc | disconnect hc | superseded generation hc | reset hc
    | joined hc | finish hc | finished content hc | finishRaised hc | closed hc =>
    exact h.client_step rfl (.inl ⟨rfl, by rw [hc]; rfl⟩)
  | reply event hc =>
    refine h.client_step rfl (.inl ⟨rfl, ?_⟩)
    rcases hc with hc | ⟨hc, -⟩ <;> rw [hc] <;> rfl
  | clientLock event rest hc hl => exact ⟨(fun hown => by cases hown), fun _ => rfl⟩
  | clientSent event rest hc | clientRaised event rest hc => exact h.client_step rfl (.inr rfl)
  | timeout hw | take generation data rest hw | skip generation data hw | addAudio data hw
    | decodePartial hw | stale generation payload hw | current payload hw =>
    exact h.worker_step rfl (.inl ⟨rfl, by rw [hw]; rfl⟩)
  | sessionRaised generation hw | noPayload generation hw | payload generation mode hw =>
    refine h.worker_step rfl (.inl ⟨rfl, ?_⟩)
    rcases hw with hw | hw <;> rw [hw] <;> rfl
  | payloadLock payload hw hl | reportLock hw hl =>
    exact ⟨fun _ => rfl, fun hown => by cases hown⟩
  | payloadSent payload hw | payloadRaised payload hw | reported hw | reportRaised hw =>
    exact h.worker_step rfl (.inr rfl)
  | cancelled hc =>
    refine ⟨fun hown => ?_, fun hown => ?_⟩
    · rw [s.cancelWorker_sendLock] at hown
      split at hown
      · cases hown
      · exact absurd hown ‹_›
    · rw [s.cancelWorker_sendLock] at hown
      rw [s.cancelWorker_client]
      split at hown
      · cases hown
      · exact h.client hown

theorem sendLocks (h : Reachable queueMaxChunks s) : SendLocks s :=
  Machine.Reach.invariant h ⟨(fun hown => by cases hown), (fun hown => by cases hown)⟩
    fun _ _ _ hs _ hstep => hs.move (move_of_step hstep)

end SendLock

section Bound

/-- How many steps the controller still has until it waits for the next message. -/
def ClientPc.remaining : ClientPc Audio → ℕ
  | .receive | .closed => 0
  | .closing => 1
  | .sending _ rest => 2 * rest.length + 2
  | .send _ rest => 2 * rest.length + 3
  | .startSession _ => 4
  | .finishing => 6
  | .stopSession => 7
  | .join => 8

/-- How many steps the worker still has with its chunk. -/
def WorkerPc.remaining : WorkerPc Audio → ℕ
  | .done => 0
  | .poll => 1
  | .reporting => 2
  | .report => 3
  | .sendingPayload _ => 4
  | .sendPayload _ => 5
  | .sendIfCurrent _ _ => 6
  | .decodePartial _ => 7
  | .addAudio _ => 8
  | .processAudio _ _ => 9

/-- How many steps a stream can take without a new message. -/
def State.remaining (s : State Audio) : ℕ :=
  s.client.remaining + s.worker.remaining + 9 * s.audioQueue.length

/-- The action takes a message, or it only waits: the worker's `get()` has timed out, or the worker
that is cancelled has ended already. -/
def State.waits (s : State Audio) : Action Audio → Bool
  | .receive _ _ => true
  | .timeout => !s.stopWorker
  | .cancelled =>
    match s.worker with
    | .done => true
    | _ => false
  | _ => false

theorem WorkerPc.remaining_loop (stopWorker : Bool) :
    (WorkerPc.loop stopWorker : WorkerPc Audio).remaining ≤ 1 := by
  cases stopWorker with
  | false => exact Nat.le_refl 1
  | true => exact Nat.zero_le 1

/-- A step of the client that takes no message and puts nothing into the queue. -/
theorem remaining_lt_of_client (hworker : t.worker = s.worker)
    (hqueue : t.audioQueue = s.audioQueue) (hclient : t.client.remaining < s.client.remaining) :
    t.remaining < s.remaining := by
  unfold State.remaining
  rw [hworker, hqueue]
  omega

/-- A step of the worker with its chunk. -/
theorem remaining_lt_of_worker (hclient : t.client = s.client)
    (hqueue : t.audioQueue = s.audioQueue) (hworker : t.worker.remaining < s.worker.remaining) :
    t.remaining < s.remaining := by
  unfold State.remaining
  rw [hclient, hqueue]
  omega

/-- The worker has done with its chunk. -/
theorem remaining_lt_of_loop (hclient : t.client = s.client) (hqueue : t.audioQueue = s.audioQueue)
    {stopWorker : Bool} (hworker : t.worker = .loop stopWorker)
    (hbusy : 1 < s.worker.remaining) : t.remaining < s.remaining :=
  remaining_lt_of_worker hclient hqueue
    (hworker ▸ Nat.lt_of_le_of_lt (WorkerPc.remaining_loop stopWorker) hbusy)

/-- Every other step lowers the bound. -/
theorem remaining_lt (h : step queueMaxChunks s a = some t) (ha : s.waits a = false) :
    t.remaining < s.remaining := by
  cases a with
  | receive => cases ha
  | acquireStart =>
    simp only [step] at h
    split at h
    · next generation hc hl =>
      obtain rfl := Option.some.inj h
      unfold State.resetSession
      split
      · exact remaining_lt_of_client rfl rfl (by simp [hc, ClientPc.remaining])
      · exact remaining_lt_of_client rfl rfl (by simp [hc, ClientPc.remaining])
    · cases h
  | joined =>
    simp only [step] at h
    split at h
    · next hc hu =>
      obtain rfl := Option.some.inj h
      exact remaining_lt_of_client rfl rfl (by simp [hc, ClientPc.remaining])
    · cases h
  | acquireStop =>
    simp only [step] at h
    split at h
    · next hc hl =>
      obtain rfl := Option.some.inj h
      unfold State.finishSession
      split
      · exact remaining_lt_of_client rfl rfl (by simp [hc, ClientPc.remaining])
      · exact remaining_lt_of_client rfl rfl (by simp [hc, ClientPc.remaining])
    · cases h
  | finished content =>
    simp only [step] at h
    split at h
    · next content hc =>
      obtain rfl := Option.some.inj h
      refine remaining_lt_of_client rfl rfl ?_
      cases content <;> simp [State.stopSession, hc, ClientPc.remaining]
    · next hc =>
      obtain rfl := Option.some.inj h
      exact remaining_lt_of_client rfl rfl (by simp [State.close, hc, ClientPc.remaining])
    · cases h
  | clientLock =>
    simp only [step] at h
    split at h
    · next event rest hc hl =>
      obtain rfl := Option.some.inj h
      exact remaining_lt_of_client rfl rfl (by rw [hc]; exact Nat.lt_succ_self _)
    · cases h
  | clientSent ok =>
    simp only [step] at h
    split at h
    · next event rest hc =>
      obtain rfl := Option.some.inj h
      cases ok with
      | true =>
        refine remaining_lt_of_client rfl rfl ?_
        cases rest with
        | nil => simp [State.sentNext, hc, ClientPc.remaining]
        | cons next more =>
          simp only [State.sentNext, hc, if_true, ClientPc.remaining, List.length_cons]
          omega
      | false =>
        exact remaining_lt_of_client rfl rfl (by simp [State.close, hc, ClientPc.remaining])
    · cases h
  | workerAwaited =>
    simp only [step] at h
    split at h
    · next hc hw =>
      obtain rfl := Option.some.inj h
      exact remaining_lt_of_client rfl rfl (by simp [hc, ClientPc.remaining])
    · cases h
  | timeout =>
    simp only [step] at h
    split at h
    · next hw =>
      obtain rfl := Option.some.inj h
      have hstop : s.stopWorker = true := by simpa [State.waits] using ha
      refine remaining_lt_of_worker rfl rfl ?_
      simp [hw, hstop, WorkerPc.remaining, WorkerPc.loop]
    · cases h
  | take =>
    simp only [step] at h
    split at h
    · next generation data rest hw hq =>
      obtain rfl := Option.some.inj h
      simp only [State.remaining, hw, hq, WorkerPc.remaining, List.length_cons]
      omega
    · cases h
  | acquireProcess =>
    simp only [step] at h
    split at h
    · next generation data hw hl =>
      obtain rfl := Option.some.inj h
      unfold State.beginAudio
      split
      · exact remaining_lt_of_loop rfl rfl rfl (by simp [hw, WorkerPc.remaining])
      · exact remaining_lt_of_worker rfl rfl (by simp [hw, WorkerPc.remaining])
    · cases h
  | audioAdded result =>
    simp only [step] at h
    split at h
    · next generation hw =>
      obtain rfl := Option.some.inj h
      cases result with
      | raised =>
        exact remaining_lt_of_worker rfl rfl
          (by simp [State.endAudio, State.workerFailed, hw, WorkerPc.remaining])
      | locked content =>
        simp only [State.endAudio, State.leaveProcess]
        split
        · exact remaining_lt_of_loop rfl rfl rfl (by simp [hw, WorkerPc.remaining])
        · split
          · exact remaining_lt_of_worker rfl rfl (by simp [hw, WorkerPc.remaining])
          · exact remaining_lt_of_loop rfl rfl rfl (by simp [hw, WorkerPc.remaining])
      | unlocked decode =>
        simp only [State.endAudio]
        split
        · exact remaining_lt_of_loop rfl rfl rfl (by simp [hw, WorkerPc.remaining])
        · exact remaining_lt_of_worker rfl rfl (by simp [hw, WorkerPc.remaining])
    · cases h
  | partialDecoded content =>
    simp only [step] at h
    split at h
    · next generation content hw =>
      obtain rfl := Option.some.inj h
      unfold State.leaveProcess
      cases content with
      | true => exact remaining_lt_of_worker rfl rfl (by simp [hw, WorkerPc.remaining])
      | false => exact remaining_lt_of_loop rfl rfl rfl (by simp [hw, WorkerPc.remaining])
    · next generation hw =>
      obtain rfl := Option.some.inj h
      exact remaining_lt_of_worker rfl rfl (by simp [State.workerFailed, hw, WorkerPc.remaining])
    · cases h
  | acquireSend =>
    simp only [step] at h
    split at h
    · next generation payload hw hl =>
      obtain rfl := Option.some.inj h
      unfold State.beginSend
      split
      · exact remaining_lt_of_loop rfl rfl rfl (by simp [hw, WorkerPc.remaining])
      · exact remaining_lt_of_worker rfl rfl (by simp [hw, WorkerPc.remaining])
    · cases h
  | workerLock =>
    simp only [step] at h
    split at h
    · next payload hw hl =>
      obtain rfl := Option.some.inj h
      exact remaining_lt_of_worker rfl rfl (by simp [hw, WorkerPc.remaining])
    · next hw hl =>
      obtain rfl := Option.some.inj h
      exact remaining_lt_of_worker rfl rfl (by simp [hw, WorkerPc.remaining])
    · cases h
  | workerSent ok =>
    simp only [step, State.endSend] at h
    split at h
    · next payload hw =>
      obtain rfl := Option.some.inj h
      cases ok with
      | true => exact remaining_lt_of_loop rfl rfl rfl (by simp [hw, WorkerPc.remaining])
      | false =>
        exact remaining_lt_of_worker rfl rfl
          (by simp [State.workerFailed, hw, WorkerPc.remaining])
    · next hw =>
      obtain rfl := Option.some.inj h
      cases ok with
      | true => exact remaining_lt_of_loop rfl rfl rfl (by simp [hw, WorkerPc.remaining])
      | false => exact remaining_lt_of_worker rfl rfl (by simp [hw, WorkerPc.remaining])
    · cases h
  | cancelled =>
    simp only [step] at h
    split at h
    · next hc =>
      obtain rfl := Option.some.inj h
      refine remaining_lt_of_worker s.cancelWorker_client s.cancelWorker_audioQueue ?_
      rw [s.cancelWorker_worker]
      cases hw : s.worker with
      | done =>
        rw [State.waits, hw] at ha
        cases ha
      | _ => exact Nat.succ_pos _
    · cases h

/-- A run without a message and without mere waiting is no longer than the bound. -/
theorem length_le_remaining {actions : List (Action Audio)}
    (hrun : (machine Audio queueMaxChunks).runIf (fun s a => s.waits a = false) s actions =
      some t) :
    actions.length + t.remaining ≤ s.remaining := by
  induction actions generalizing s with
  | nil =>
    obtain rfl := Option.some.inj hrun
    exact Nat.le_of_eq (Nat.zero_add _)
  | cons a actions ih =>
    rw [Machine.runIf] at hrun
    split at hrun
    · next ha =>
      obtain ⟨u, hstep, hrest⟩ := Option.bind_eq_some_iff.mp hrun
      have hfirst := remaining_lt hstep ha
      have hlater := ih hrest
      rw [List.length_cons]
      omega
    · cases hrun

end Bound

section Progress

theorem sessionLock_free (h : Locks s) (hworker : s.worker.inSession = false)
    (hclient : s.client.inSession = false) : s.sessionLock = none := by
  cases hl : s.sessionLock with
  | none => rfl
  | some party =>
    cases party with
    | worker => rw [h.worker_iff.mp hl] at hworker; cases hworker
    | client => rw [h.client_iff.mp hl] at hclient; cases hclient

theorem sendLock_free (h : SendLocks s) (hworker : s.worker.isSending = false)
    (hclient : s.client.isSending = false) : s.sendLock = none := by
  cases hl : s.sendLock with
  | none => rfl
  | some party =>
    cases party with
    | worker => rw [h.worker hl] at hworker; cases hworker
    | client => rw [h.client hl] at hclient; cases hclient

/-- Some coroutine can go on. -/
def CanStep (queueMaxChunks : ℕ) (s : State Audio) : Prop :=
  ∃ a, s.waits a = false ∧ (step queueMaxChunks s a).isSome = true

/-- A worker with a chunk can go on, unless it waits for a lock of the client. -/
theorem canStep_of_busy (hlocks : Locks s) (hsend : SendLocks s)
    (hbusy : s.worker.holdsChunk = true) (hin : s.client.inSession = false)
    (hout : s.client.isSending = false) : CanStep queueMaxChunks s := by
  cases hw : s.worker with
  | poll | done =>
    rw [hw] at hbusy
    cases hbusy
  | processAudio generation data =>
    have hl := sessionLock_free hlocks (by rw [hw]; rfl) hin
    exact ⟨.acquireProcess, rfl, by simp only [step, hw, hl, Option.isSome_some]⟩
  | addAudio generation =>
    exact ⟨.audioAdded .raised, rfl, by simp only [step, hw, Option.isSome_some]⟩
  | decodePartial generation =>
    exact ⟨.partialDecoded none, rfl, by simp only [step, hw, Option.isSome_some]⟩
  | sendIfCurrent generation payload =>
    have hl := sessionLock_free hlocks (by rw [hw]; rfl) hin
    exact ⟨.acquireSend, rfl, by simp only [step, hw, hl, Option.isSome_some]⟩
  | sendPayload payload | report =>
    have hl := sendLock_free hsend (by rw [hw]; rfl) hout
    exact ⟨.workerLock, rfl, by simp only [step, hw, hl, Option.isSome_some]⟩
  | sendingPayload payload | reporting =>
    exact ⟨.workerSent true, rfl, by simp only [step, State.endSend, hw, Option.isSome_some]⟩

/-- A worker that owns a lock can go on, or it waits for the send lock. -/
theorem canStep_of_client (hlocks : Locks s) (hsend : SendLocks s)
    (hin : s.client.inSession = false) (hout : s.client.isSending = false)
    (hfree : s.sessionLock = none → CanStep queueMaxChunks s) : CanStep queueMaxChunks s := by
  cases hbusy : s.worker.inSession with
  | false => exact hfree (sessionLock_free hlocks hbusy hin)
  | true =>
    refine canStep_of_busy hlocks hsend ?_ hin hout
    cases hw : s.worker with
    | poll | done =>
      rw [hw] at hbusy
      cases hbusy
    | _ => rfl

/-- As long as the worker's error reports can be sent, the stream does not stop before the
controller waits for a message or has ended. -/
theorem canStep (hlocks : Locks s) (hcount : Counted s) (hsend : SendLocks s) (halive : Alive s)
    (hreceive : s.client ≠ .receive) (hclosed : s.client ≠ .closed) :
    CanStep queueMaxChunks s := by
  cases hc : s.client with
  | receive => exact absurd hc hreceive
  | closed => exact absurd hc hclosed
  | startSession generation =>
    refine canStep_of_client hlocks hsend (by rw [hc]; rfl) (by rw [hc]; rfl) fun hl => ?_
    exact ⟨.acquireStart, rfl, by simp only [step, hc, hl, Option.isSome_some]⟩
  | join =>
    have hlive := (halive (by rw [hc]; rfl)).2
    cases hw : s.worker with
    | done => exact absurd hw hlive
    | poll =>
      unfold Counted at hcount
      cases hq : s.audioQueue with
      | nil =>
        have hzero : s.unfinished = 0 := by
          rw [hcount, hq, hw]
          rfl
        exact ⟨.joined, rfl, by simp only [step, hc, hzero, Option.isSome_some]⟩
      | cons chunk rest => exact ⟨.take, rfl, by simp only [step, hw, hq, Option.isSome_some]⟩
    | _ => exact canStep_of_busy hlocks hsend (by rw [hw]; rfl) (by rw [hc]; rfl) (by rw [hc]; rfl)
  | stopSession =>
    refine canStep_of_client hlocks hsend (by rw [hc]; rfl) (by rw [hc]; rfl) fun hl => ?_
    exact ⟨.acquireStop, rfl, by simp only [step, hc, hl, Option.isSome_some]⟩
  | finishing => exact ⟨.finished none, rfl, by simp only [step, hc, Option.isSome_some]⟩
  | send event rest =>
    cases hl : s.sendLock with
    | none => exact ⟨.clientLock, rfl, by simp only [step, hc, hl, Option.isSome_some]⟩
    | some party =>
      cases party with
      | worker =>
        refine canStep_of_busy hlocks hsend ?_ (by rw [hc]; rfl) (by rw [hc]; rfl)
        have hsending := hsend.worker hl
        cases hw : s.worker with
        | poll | done =>
          rw [hw] at hsending
          cases hsending
        | _ => rfl
      | client =>
        have hsending := hsend.client hl
        rw [hc] at hsending
        cases hsending
  | sending event rest => exact ⟨.clientSent true, rfl, by simp only [step, hc, Option.isSome_some]⟩
  | closing =>
    cases hw : s.worker with
    | done => exact ⟨.workerAwaited, rfl, by simp only [step, hc, hw, Option.isSome_some]⟩
    | _ =>
      exact ⟨.cancelled, by simp only [State.waits, hw],
        by simp only [step, hc, Option.isSome_some]⟩

end Progress

end FunasrApi.Online.Stream
