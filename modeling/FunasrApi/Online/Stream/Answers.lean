import FunasrApi.Online.Stream.Progress
import FunasrApi.Online.Stream.Serial

/-!
# Every command of a stream is answered

The `stopped` events that were sent and those that the controller owes are the `STOP` messages it
has dispatched. With the progress of the stream, every command comes to its answer.
-/

namespace FunasrApi.Online.Stream

open FunasrApi.Core

variable {Audio : Type*} {queueMaxChunks : ℕ} {s t : State Audio} {a : Action Audio}

section Answers

/-- The number of `stopped` events sent. -/
def stoppeds : List (TraceEvent Audio) → ℕ
  | [] => 0
  | .sent .stopped :: past => stoppeds past + 1
  | _ :: past => stoppeds past

def Event.isStopped : Event Audio → Bool
  | .stopped => true
  | _ => false

/-- The `stopped` events that the controller still has to send. -/
def ClientPc.owed : ClientPc Audio → ℕ
  | .join | .stopSession | .finishing => 1
  | .send event rest | .sending event rest => (event :: rest).countP Event.isStopped
  | _ => 0

/-- A `STOP` message is dispatched. -/
def Action.isStop : Action Audio → Bool
  | .receive .stop _ => true
  | _ => false

/-- A `START` message is dispatched. -/
def Action.isStart : Action Audio → Bool
  | .receive .start _ => true
  | _ => false

/-- What a step adds to the commands, to what was sent, and to what is owed. -/
structure Answers (s : State Audio) (a : Action Audio) (t : State Audio) : Prop where
  starts : starts t.trace = starts s.trace + if a.isStart then 1 else 0
  stops : t.client.isClosing = false →
    stoppeds t.trace + t.client.owed =
      stoppeds s.trace + s.client.owed + if a.isStop then 1 else 0

/-- A step that sends no `stopped` and leaves the client where it is. -/
theorem Answers.of_worker (hstart : a.isStart = false) (hstop : a.isStop = false)
    (hclient : t.client = s.client) (hstarts : Stream.starts t.trace = Stream.starts s.trace)
    (hstoppeds : stoppeds t.trace = stoppeds s.trace) : Answers s a t := by
  refine ⟨?_, fun _ => ?_⟩
  · rw [hstarts, hstart]
    rfl
  · rw [hstoppeds, hclient, hstop]
    rfl

theorem stoppeds_sent (event : Event Audio) (past : List (TraceEvent Audio)) :
    stoppeds (.sent event :: past) =
      stoppeds past + if event.isStopped then 1 else 0 := by
  cases event <;> rfl

theorem answers_dispatch (hc : s.client = .receive) (message : Message Audio) (notice : Bool) :
    Answers s (.receive message notice) (s.dispatch queueMaxChunks notice message) := by
  have howed : s.client.owed = 0 := by
    rw [hc]
    rfl
  cases message with
  | start | stop | unknown command => exact ⟨rfl, fun _ => (by rw [howed]; rfl)⟩
  | empty => exact ⟨rfl, fun _ => rfl⟩
  | disconnect => exact ⟨rfl, fun hopen => by cases hopen⟩
  | bytes data =>
    have hsame (client : ClientPc Audio) (hclient : client.owed = 0) :
        Answers s (.receive (.bytes data) notice) { s with client := client } :=
      ⟨rfl, fun _ => by rw [howed]; exact congrArg _ hclient⟩
    dsimp only [State.dispatch, State.enqueueAudio, State.handleBackpressure]
    split
    · exact hsame _ rfl
    · split
      · exact ⟨rfl, fun _ => rfl⟩
      · split
        · exact hsame _ rfl
        · exact ⟨rfl, fun _ => rfl⟩

theorem answers_clientSent (event : Event Audio) (rest : List (Event Audio))
    (hc : s.client = .sending event rest) :
    Answers s (.clientSent true) (s.sentNext event rest) := by
  refine ⟨rfl, fun _ => ?_⟩
  have hbefore : s.client.owed =
      rest.countP Event.isStopped + if event.isStopped then 1 else 0 := by
    rw [hc]
    exact List.countP_cons
  have hafter : (s.sentNext event rest).client.owed = rest.countP Event.isStopped := by
    cases rest <;> rfl
  have hsent : stoppeds (s.sentNext event rest).trace =
      stoppeds s.trace + if event.isStopped then 1 else 0 := stoppeds_sent event s.trace
  rw [hsent, hafter, hbefore]
  change _ = _ + 0
  omega

theorem answers (h : step queueMaxChunks s a = some t) : Answers s a t := by
  cases a with
  | receive message notice =>
    simp only [step] at h
    split at h
    · next hc =>
      obtain rfl := Option.some.inj h
      exact answers_dispatch hc message notice
    · cases h
  | acquireStart =>
    simp only [step] at h
    split at h
    · next generation hc hl =>
      obtain rfl := Option.some.inj h
      have howed : s.client.owed = 0 := by rw [hc]; rfl
      unfold State.resetSession
      split
      · exact ⟨rfl, fun _ => by rw [howed]; rfl⟩
      · exact ⟨rfl, fun _ => by rw [howed]; rfl⟩
    · cases h
  | joined =>
    simp only [step] at h
    split at h
    · next hc hu =>
      obtain rfl := Option.some.inj h
      exact ⟨rfl, fun _ => by rw [hc]; rfl⟩
    · cases h
  | acquireStop =>
    simp only [step] at h
    split at h
    · next hc hl =>
      obtain rfl := Option.some.inj h
      unfold State.finishSession
      split
      · exact ⟨rfl, fun _ => by rw [hc]; rfl⟩
      · exact ⟨rfl, fun _ => by rw [hc]; rfl⟩
    · cases h
  | finished content =>
    simp only [step] at h
    split at h
    · next content hc =>
      obtain rfl := Option.some.inj h
      refine ⟨rfl, fun _ => ?_⟩
      rw [hc]
      cases content <;> rfl
    · obtain rfl := Option.some.inj h
      exact ⟨rfl, fun hopen => by cases hopen⟩
    · cases h
  | clientLock =>
    simp only [step] at h
    split at h
    · next event rest hc hl =>
      obtain rfl := Option.some.inj h
      exact ⟨rfl, fun _ => by rw [hc]; rfl⟩
    · cases h
  | clientSent ok =>
    simp only [step] at h
    split at h
    · next event rest hc =>
      obtain rfl := Option.some.inj h
      cases ok with
      | true => exact answers_clientSent event rest hc
      | false => exact ⟨rfl, fun hopen => by cases hopen⟩
    · cases h
  | workerAwaited =>
    simp only [step] at h
    split at h
    · obtain rfl := Option.some.inj h
      exact ⟨rfl, fun hopen => by cases hopen⟩
    · cases h
  | cancelled =>
    simp only [step] at h
    split at h
    · obtain rfl := Option.some.inj h
      refine .of_worker rfl rfl s.cancelWorker_client ?_ ?_
      · rw [s.cancelWorker_trace]
      · rw [s.cancelWorker_trace]
    · cases h
  | timeout | take =>
    simp only [step] at h
    split at h
    · obtain rfl := Option.some.inj h
      exact .of_worker rfl rfl rfl rfl rfl
    · cases h
  | acquireProcess =>
    simp only [step] at h
    split at h
    · obtain rfl := Option.some.inj h
      unfold State.beginAudio
      split <;> exact .of_worker rfl rfl rfl rfl rfl
    · cases h
  | audioAdded result =>
    simp only [step] at h
    split at h
    · obtain rfl := Option.some.inj h
      cases result with
      | raised => exact .of_worker rfl rfl rfl rfl rfl
      | locked content =>
        dsimp only [State.endAudio, State.leaveProcess]
        split
        · exact .of_worker rfl rfl rfl rfl rfl
        · split <;> exact .of_worker rfl rfl rfl rfl rfl
      | unlocked decode =>
        dsimp only [State.endAudio]
        split <;> exact .of_worker rfl rfl rfl rfl rfl
    · cases h
  | partialDecoded content =>
    simp only [step] at h
    split at h
    · next generation content hw =>
      obtain rfl := Option.some.inj h
      cases content <;> exact .of_worker rfl rfl rfl rfl rfl
    · obtain rfl := Option.some.inj h
      exact .of_worker rfl rfl rfl rfl rfl
    · cases h
  | acquireSend =>
    simp only [step] at h
    split at h
    · obtain rfl := Option.some.inj h
      unfold State.beginSend
      split <;> exact .of_worker rfl rfl rfl rfl rfl
    · cases h
  | workerLock =>
    simp only [step] at h
    split at h
    · obtain rfl := Option.some.inj h
      exact .of_worker rfl rfl rfl rfl rfl
    · obtain rfl := Option.some.inj h
      exact .of_worker rfl rfl rfl rfl rfl
    · cases h
  | workerSent ok =>
    simp only [step, State.endSend] at h
    split at h
    · obtain rfl := Option.some.inj h
      cases ok <;> exact .of_worker rfl rfl rfl rfl rfl
    · obtain rfl := Option.some.inj h
      cases ok <;> exact .of_worker rfl rfl rfl rfl rfl
    · cases h

/-- A stream that is closing stays so. -/
theorem isClosing_of_step (h : step queueMaxChunks s a = some t)
    (hclosing : s.client.isClosing = true) : t.client.isClosing = true := by
  cases move_of_step h with
  | start hc | stop hc | enqueue data hc | disconnect hc | superseded generation hc | reset hc
    | joined hc | finish hc | finished content hc | finishRaised hc | clientLock event rest hc
    | clientSent event rest hc | clientRaised event rest hc =>
    rw [hc] at hclosing
    cases hclosing
  | reply event hc =>
    rcases hc with hc | ⟨hc, -⟩ <;> rw [hc] at hclosing <;> cases hclosing
  | closed => rfl
  | cancelled =>
    rw [s.cancelWorker_client]
    exact hclosing
  | _ => exact hclosing

theorem open_of_reach {ok : State Audio → Action Audio → Prop}
    (h : (machine Audio queueMaxChunks).Reach ok s t) (hopen : t.client.isClosing = false) :
    s.client.isClosing = false := by
  by_contra hclosing
  have hstill := h.invariant (I := fun s => s.client.isClosing = true) (by simpa using hclosing)
    fun _ _ _ hs _ hstep => isClosing_of_step hstep hs
  rw [hopen] at hstill
  cases hstill

/-- Over a run that does not close the stream, what was sent and what is owed are the commands. -/
theorem run_answers {ok : State Audio → Action Audio → Prop} [∀ s a, Decidable (ok s a)]
    {actions : List (Action Audio)}
    (hrun : (machine Audio queueMaxChunks).runIf ok s actions = some t)
    (hopen : t.client.isClosing = false) :
    starts t.trace = starts s.trace + actions.countP Action.isStart ∧
      stoppeds t.trace + t.client.owed =
        stoppeds s.trace + s.client.owed + actions.countP Action.isStop := by
  induction actions generalizing s with
  | nil =>
    obtain rfl := Option.some.inj hrun
    exact ⟨rfl, rfl⟩
  | cons a actions ih =>
    rw [Machine.runIf] at hrun
    split at hrun
    · obtain ⟨u, hstep, hrest⟩ := Option.bind_eq_some_iff.mp hrun
      have hanswers := answers hstep
      have hmiddle := open_of_reach (Machine.Reach.of_runIf hrest) hopen
      obtain ⟨hstarts, hstops⟩ := ih hrest
      have hfirst := hanswers.stops hmiddle
      rw [hstarts, hanswers.starts, hstops, hfirst, List.countP_cons, List.countP_cons]
      constructor <;> omega
    · cases hrun

end Answers

section Commands

instance (s : State Audio) (a : Action Audio) : Decidable (ReportSent s a) :=
  match a with
  | .workerSent false =>
    decidable_of_iff (¬ s.worker.isReporting = true)
      ⟨fun hout hin => absurd hin hout, fun hsent hin => hsent hin rfl⟩
  | .workerSent true | .receive .. | .acquireStart | .joined | .acquireStop | .finished _
  | .clientLock | .clientSent _ | .workerAwaited | .timeout | .take | .acquireProcess
  | .audioAdded _ | .partialDecoded _ | .acquireSend | .workerLock | .cancelled =>
    isTrue fun _ heq => by cases heq

theorem alive (h : (machine Audio queueMaxChunks).Reach ReportSent (State.initial Audio) s) :
    Alive s :=
  h.invariant (fun _ => ⟨rfl, fun heq => by cases heq⟩)
    fun _ _ _ hs hsent hstep => hs.move hsent (move_of_step hstep)

/-- In every run in which the worker's error reports can be sent, whatever the session answers and
wherever it raises: without a new message only a bounded number of steps is left; as long as the
controller neither waits for a message nor has ended, some coroutine can go on; and when it waits,
it has sent one `started` for each `START` and one `stopped` for each `STOP`. -/
theorem commands_answered {actions : List (Action Audio)}
    (hrun : (machine Audio queueMaxChunks).runIf ReportSent (State.initial Audio) actions =
      some t) :
    (∀ more u, (machine Audio queueMaxChunks).runIf (fun s a => s.waits a = false) t more = some u →
      more.length ≤ t.remaining) ∧
    (t.client ≠ .receive → t.client ≠ .closed →
      ∃ a, t.waits a = false ∧ (step queueMaxChunks t a).isSome = true) ∧
    (t.client = .receive →
      starteds t.trace = actions.countP Action.isStart ∧
        stoppeds t.trace = actions.countP Action.isStop) := by
  have hreach := Machine.Reach.of_runIf hrun
  have hanywhere : Reachable queueMaxChunks t :=
    hreach.invariant (I := Reachable queueMaxChunks) .refl
      fun _ a _ hs _ hstep => .tail a hs trivial hstep
  obtain ⟨hlocks, hcount, hgen⟩ := invariants hanywhere
  refine ⟨fun more u hmore => ?_, fun hreceive hclosed => ?_, fun hc => ?_⟩
  · exact Nat.le_trans (Nat.le_add_right ..) (length_le_remaining hmore)
  · exact canStep hlocks hcount (sendLocks hanywhere) (alive hreach) hreceive hclosed
  · obtain ⟨hstarts, hstops⟩ := run_answers hrun (by rw [hc]; rfl)
    have hclient := hgen.client
    rw [hc] at hclient hstops
    refine ⟨hclient.symm.trans (hstarts.trans (Nat.zero_add _)), ?_⟩
    exact hstops.trans (Nat.zero_add _)

/-- A session that raises in `add_audio` while `STOP` already waits for the queue. -/
def answeredRun : List (Action Nat) :=
  [.clientLock, .clientSent true, .receive .start true, .acquireStart, .clientLock,
    .clientSent true, .receive (.bytes 1) true, .take, .acquireProcess, .receive .stop true,
    .audioAdded .raised, .workerLock, .workerSent true, .joined, .acquireStop,
    .finished (some false), .clientLock, .clientSent true]

/-- Both of its commands are answered. -/
theorem answeredRun_answered :
    ∃ t, (machine Nat 2).runIf ReportSent (State.initial Nat) answeredRun = some t ∧
      starteds t.trace = 1 ∧ stoppeds t.trace = 1 := by
  have hreceiving : ((machine Nat 2).runIf ReportSent (State.initial Nat) answeredRun).any
      State.isReceiving = true := by
    decide +kernel
  cases hrun : (machine Nat 2).runIf ReportSent (State.initial Nat) answeredRun with
  | none =>
    rw [hrun] at hreceiving
    cases hreceiving
  | some t =>
    rw [hrun, Option.any_some] at hreceiving
    obtain ⟨-, -, hanswered⟩ := commands_answered hrun
    exact ⟨t, rfl, hanswered (State.of_isReceiving hreceiving)⟩

end Commands

end FunasrApi.Online.Stream
