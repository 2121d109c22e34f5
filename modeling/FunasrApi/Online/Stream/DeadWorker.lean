import FunasrApi.Online.Stream.Locks

/-!
# STOP and a dead worker

`stop_session` waits in `audio_queue.join()` for the worker to mark every chunk
done. The worker reports a failure of the session over the WebSocket, and this
send stands outside of any handler: when it raises, the worker's coroutine ends
and the chunks still queued are never marked done.
-/

namespace FunasrApi.Online.Stream

open FunasrApi.Core

variable {Audio : Type*}

/-- The step is not a failed send of the worker's error report. -/
def ReportSent (s : State Audio) (a : Action Audio) : Prop :=
  s.worker.isReporting = true → a ≠ .workerSent false

/-- Until `close()` the worker is not asked to stop and has not ended. -/
def Alive (s : State Audio) : Prop :=
  s.client.isClosing = false → s.stopWorker = false ∧ s.worker ≠ .done

/-- The iteration after the next test of `_stop_worker`, while the worker is not asked to stop. -/
private theorem alive_loop {stopWorker : Bool} (h : stopWorker = false) :
    (WorkerPc.loop stopWorker : WorkerPc Audio) ≠ .done := by
  rw [h]
  exact fun he => by cases he

/-- Only `close()` or a failed error report ends the worker. -/
theorem Alive.move {queueMaxChunks : Nat} {s t : State Audio} {a : Action Audio} (h : Alive s)
    (ha : ReportSent s a) (hm : Move queueMaxChunks s a t) : Alive t := by
  intro hopen
  cases hm with
  | idle => exact h hopen
  | start hc | stop hc | superseded generation hc | reset hc | joined hc | finish hc
    | finished content hc | clientLock event rest hc | clientSent event rest hc =>
    exact h (by rw [hc]; rfl)
  | reply event hc he =>
    rcases hc with hc | ⟨hc, -⟩
    · exact h (by rw [hc]; rfl)
    · exact h (by rw [hc]; rfl)
  | enqueue data hc => exact h hopen
  | disconnect hc | finishRaised hc | clientRaised event rest hc | closed hc => cases hopen
  | timeout hw | skip generation data hw | stale generation payload hw | noPayload generation hw
    | payloadSent payload hw | reported hw =>
    obtain ⟨hstop, -⟩ := h hopen
    exact ⟨hstop, alive_loop hstop⟩
  | take | addAudio | sessionRaised | decodePartial | payload | current | payloadLock
    | payloadRaised | reportLock =>
    obtain ⟨hstop, -⟩ := h hopen
    exact ⟨hstop, fun he => by cases he⟩
  | reportRaised hw hraised => exact absurd hraised (ha (by rw [hw]; rfl))
  | cancelled hc =>
    rw [s.cancelWorker_client, hc] at hopen
    cases hopen

/-- When every send of an error report returns, `STOP` never waits for a dead worker:
nothing is unfinished or the worker is still running. -/
theorem stop_waits_for_live_worker {queueMaxChunks : Nat} {s : State Audio}
    (h : (machine Audio queueMaxChunks).Reach ReportSent (State.initial Audio) s)
    (hjoin : s.client = .join) : s.unfinished = 0 ∨ s.worker ≠ .done := by
  have halive : Alive s := by
    refine h.invariant (fun _ => ⟨rfl, fun he => by cases he⟩) fun t a u ht ha hs => ?_
    exact ht.move ha (move_of_step hs)
  exact .inr (halive (by rw [hjoin]; rfl)).2

/-- The session raises on the first of two chunks, the worker reports it and goes on; then `STOP`
waits for the second chunk, with the worker alive. -/
theorem stop_waits_for_live_worker_chunk :
    ∃ s : State Nat, .sent internalErrorEvent ∈ s.trace ∧ s.client = .join ∧ s.unfinished = 1 ∧
      (s.unfinished = 0 ∨ s.worker ≠ .done) := by
  have hrun : (machine Nat 2).Reach ReportSent (State.initial Nat) _ :=
    Machine.Reach.of_run
      [.clientLock, .clientSent true, .receive .start true, .acquireStart, .clientLock,
        .clientSent true, .receive (.bytes 1) true, .receive (.bytes 2) true, .take,
        .acquireProcess, .audioAdded .raised, .workerLock, .workerSent true, .receive .stop true]
      (fun a ha s _ => by rintro rfl; simp at ha) rfl
  exact ⟨_, .head _, rfl, rfl, stop_waits_for_live_worker hrun rfl⟩

/-- Once `STOP` waits for a dead worker it waits for ever: no coroutine can take a step,
and the disconnect of the client is never read. -/
theorem dead_worker_deadlock {queueMaxChunks : Nat} {s : State Audio} (hc : s.client = .join)
    (hu : s.unfinished ≠ 0) (hw : s.worker = .done) (a : Action Audio) :
    step queueMaxChunks s a = none := by
  cases a with
  | joined =>
    obtain ⟨n, hn⟩ := Nat.exists_eq_succ_of_ne_zero hu
    simp [step, hc, hn]
  | _ => simp [step, State.endSend, hc, hw]

/-- Two chunks are queued, the session raises on the first one, and the client is gone
when the failure is reported; the client's `STOP` was already received. -/
def deadWorkerRun : List (Action Nat) :=
  [.clientLock, .clientSent true,
    .receive .start true, .acquireStart, .clientLock, .clientSent true,
    .receive (.bytes 1) true, .receive (.bytes 2) true, .take, .acquireProcess,
    .audioAdded .raised, .workerLock, .receive .stop true, .workerSent false]

/-- The run ends with `STOP` waiting for a chunk that nobody will process. -/
theorem stop_waits_for_dead_worker :
    ¬ ∀ s : State Nat, Reachable 2 s → s.client = .join → s.unfinished = 0 ∨ s.worker ≠ .done := by
  intro h
  have hrun : Reachable 2 _ :=
    Machine.Reach.of_run deadWorkerRun (fun _ _ _ => trivial) rfl
  rcases h _ hrun rfl with hu | hw
  · cases hu
  · exact hw rfl

end FunasrApi.Online.Stream
