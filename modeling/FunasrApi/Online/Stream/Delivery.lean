import FunasrApi.Online.Stream.GenerationSteps

/-!
# What the client of a stream can rely on

The invariant of the generations, read as guarantees about the trace of a run:
where a recognition result may come from, what the session receives and in which
order, and what the queue's unfinished count counts.
-/

namespace FunasrApi.Online.Stream

open FunasrApi.Core

variable {Audio : Type*}

/-- The guarantees of a stream, at any moment of its run. -/
structure Delivered (s : State Audio) : Prop where
  /-- A result sent after the `k`-th `started` and before the next one is computed from
  chunks accepted after the `k`-th `START`, in their order. -/
  recognition : ∀ later past payload,
    s.trace = later ++ .sent (.recognition payload) :: past →
      payload.source <+: acceptedIn (starteds past) past
  /-- The `k`-th `started` is sent after exactly `k` messages `START`. -/
  started : ∀ later past, s.trace = later ++ .sent .started :: past →
    starts past = starteds past + 1
  /-- Within a generation the session receives the accepted chunks, each once, in order. -/
  fed : ∀ k, fedIn k s.trace <+: acceptedIn k s.trace
  /-- `finish()` is called when the session has received all of them. -/
  finish : ∀ later past, s.trace = later ++ .finish :: past →
    fedIn (starts past) past = acceptedIn (starts past) past
  /-- The unfinished count is what is queued and the chunk the worker holds. -/
  unfinished : s.unfinished = s.audioQueue.length + if s.worker.holdsChunk then 1 else 0

/-- Every interleaving of the client with the worker delivers by generation, also when
calls of the session or of the WebSocket raise. -/
theorem reachable_delivered {queueMaxChunks : Nat} {s : State Audio}
    (h : Reachable queueMaxChunks s) : Delivered s := by
  obtain ⟨-, hcount, hgen⟩ := invariants h
  constructor
  · intro later past payload he
    exact hgen.lawful.at he
  · intro later past he
    exact hgen.lawful.at he
  · exact hgen.prefixes
  · intro later past he
    exact (hgen.lawful.at he).2
  · exact hcount

/-- A restart while the session still works on a chunk of the first generation. The worker
finds its chunk stale, and only the second generation's result is sent. -/
def restartRun : List (Action Nat) :=
  [.clientLock, .clientSent true,
    .receive .start true, .acquireStart, .clientLock, .clientSent true,
    .receive (.bytes 1) true, .receive (.bytes 2) true, .take, .acquireProcess,
    .receive .start true, .audioAdded (.locked true), .acquireStart, .clientLock, .clientSent true,
    .receive (.bytes 3) true, .take, .acquireProcess, .audioAdded (.locked true), .acquireSend,
    .workerLock, .workerSent true, .receive .stop true, .joined, .acquireStop]

/-- The guarantees at the end of the restart. -/
theorem restartRun_delivered :
    ∃ s, (machine Nat 2).run (State.initial Nat) restartRun = some s ∧ Delivered s := by
  refine ⟨_, rfl, ?_⟩
  have h : Reachable 2 _ := Machine.Reach.of_run restartRun (fun _ _ _ => trivial) rfl
  exact reachable_delivered h

/-- The session is used as its own contract asks: audio and partial decodes only after a
`reset()` that no `finish()` has followed, and one `finish()` for each `reset()`. -/
theorem reachable_session_contract {queueMaxChunks : Nat} {s : State Audio}
    (h : Reachable queueMaxChunks s) {later past : List (TraceEvent Audio)}
    {e : TraceEvent Audio} (he : s.trace = later ++ e :: past)
    (hcall : e = .finish ∨ e = .decodePartial ∨ ∃ data, e = .addAudio data) :
    sessionOpen past = true := by
  obtain ⟨-, -, hgen⟩ := invariants h
  have hlaw := hgen.lawful.at he
  rcases hcall with rfl | rfl | ⟨data, rfl⟩
  · exact hlaw.1
  · exact hlaw
  · exact hlaw

end FunasrApi.Online.Stream
