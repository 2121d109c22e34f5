import FunasrApi.Online.Live.Runtime
import FunasrApi.Online.SessionIntake
import FunasrApi.Online.Stream.Serial

/-!
# What the client of a live stream has been told

The offline events that have been sent and those that the coroutines still hold report the locked
sentences up to the cursor, each once and in order. `Delivers` says so of a state, together with
what the session has received; the steps that leave the session alone keep it.
-/

namespace FunasrApi.Online

open FunasrApi.Core

namespace Transcript

/-- What a client has been told of a transcript: its first sentences, and all that are reported
when nothing has been lost. -/
def Told (t : Transcript) (lossless : Prop) (told : List LockedSentence) : Prop :=
  ∃ k ≤ t.emittedLockedCount, (lossless → k = t.emittedLockedCount) ∧
    List.Forall₂ LockedSentence.Remains told (t.lockedSentences.take k)

variable {t t' : Transcript} {lossless lossless' : Prop} {told told' : List LockedSentence}

theorem Told.mono (h : t.Told lossless told) (himp : lossless' → lossless) :
    t.Told lossless' told := by
  obtain ⟨k, hk, hall, htold⟩ := h
  exact ⟨k, hk, fun hlossless => hall (himp hlossless), htold⟩

/-- After a reset there is nothing to tell. -/
theorem told_empty : empty.Told lossless [] := ⟨0, le_rfl, fun _ => rfl, .nil⟩

/-- A lock takes nothing back of what has been told. -/
theorem Told.locks (h : t.Told lossless told)
    (hcursor : t.emittedLockedCount ≤ t.lockedSentences.length) (hlocks : t.Locks t') :
    t'.Told lossless told := by
  obtain ⟨k, hk, hall, htold⟩ := h
  have hlater := List.forall₂_take k hlocks.remains
  rw [List.take_take, min_eq_left (hk.trans hcursor)] at hlater
  rw [← hlocks.cursor] at hk hall
  exact ⟨k, hk, hall, remains_trans htold hlater⟩

/-- An event tells the rest. -/
theorem Told.consume (h : t.Told lossless told) (hlossless : lossless) :
    t.consumeLockedSentences.2.Told lossless' (told ++ t.consumeLockedSentences.1) := by
  obtain ⟨k, -, hall, htold⟩ := h
  obtain rfl := hall hlossless
  refine ⟨t.lockedSentences.length, le_rfl, fun _ => rfl, ?_⟩
  have hrest : List.Forall₂ LockedSentence.Remains (t.lockedSentences.drop t.emittedLockedCount)
      (t.lockedSentences.drop t.emittedLockedCount) :=
    List.forall₂_same.mpr fun sentence _ => .refl sentence
  have hwhole : List.Forall₂ LockedSentence.Remains
      (told ++ t.lockedSentences.drop t.emittedLockedCount)
      (t.lockedSentences.take t.emittedLockedCount ++
        t.lockedSentences.drop t.emittedLockedCount) := List.rel_append htold hrest
  rw [List.take_append_drop] at hwhole
  change List.Forall₂ _ _ (t.lockedSentences.take t.lockedSentences.length)
  rw [List.take_length]
  exact hwhole

/-- Of what was told, only the end may be lost. -/
theorem Told.of_prefix (h : t.Told lossless told) (hbefore : told' <+: told) :
    t.Told False told' := by
  obtain ⟨k, hk, -, htold⟩ := h
  obtain ⟨lost, rfl⟩ := hbefore
  have hlength := htold.length_eq
  rw [List.length_append, List.length_take] at hlength
  have hkept := List.forall₂_take told'.length htold
  rw [List.take_left, List.take_take, min_eq_left (by omega)] at hkept
  exact ⟨told'.length, by omega, False.elim, hkept⟩

end Transcript

namespace LiveStream

open Session

/-- The sentences of an event that a coroutine holds. -/
def sentencesOf (event : Option OfflineEvent) : List LockedSentence :=
  event.toList.flatMap OfflineEvent.sentences

/-- What the worker will still send: a payload of an older generation will be dropped. -/
def workerPending (generation : ℕ) (sentences : List LockedSentence) :
    Stream.WorkerPc (List UInt8) → List LockedSentence
  | .sendIfCurrent tag _ => if tag = generation then sentences else []
  | .sendPayload _ | .sendingPayload _ => sentences
  | _ => []

/-- What `stop_session` will still send. -/
def clientPending (sentences : List LockedSentence) :
    Stream.ClientPc (List UInt8) → List LockedSentence
  | .send (.recognition _) _ | .sending (.recognition _) _ => sentences
  | _ => []

/-- The sentences of the events that were sent or will be. -/
def told (l : LiveStream) : List LockedSentence :=
  l.received.flatMap OfflineEvent.sentences ++
    workerPending l.stream.generation (sentencesOf l.workerEvent) l.stream.worker ++
      clientPending (sentencesOf l.clientEvent) l.stream.client

/-- The audio of a running `add_audio`. -/
def inHand (chunk : List UInt8) : Stream.WorkerPc (List UInt8) → List Sample
  | .addAudio _ => samplesOf chunk
  | _ => []

/-- No restart and no `close()` is under way, which drop what an older generation has left. -/
def Lossless (client : Stream.ClientPc (List UInt8)) : Prop :=
  client.awaitsReset = false ∧ client.isClosing = false

variable {settings : SessionSettings} {models : Recognizers} {queueMaxChunks : ℕ}
  {l l' : LiveStream} {a : Stream.Action (List UInt8)}

/-- How the session, the stream and what has been sent agree. -/
structure Delivers (settings : SessionSettings) (models : Recognizers) (l : LiveStream) : Prop where
  session : Session.Reachable settings models l.session
  active : l.session.isActive = l.stream.isActive
  consumed : l.stream.isActive = false →
    l.session.transcript.emittedLockedCount = l.session.transcript.lockedSentences.length
  told : l.session.transcript.Told (Lossless l.stream.client) l.told
  audio : l.stream.client.isClosing = false →
    l.stream.fed.flatMap samplesOf = l.session.received ++ inHand l.chunk l.stream.worker

theorem delivers_initial : Delivers settings models initial :=
  ⟨.refl, rfl, fun _ => rfl, Transcript.told_empty, fun _ => rfl⟩

/-- A step that leaves the session alone. -/
theorem Delivers.same_session (h : Delivers settings models l) (hsession : l'.session = l.session)
    (hactive : l'.stream.isActive = l.stream.isActive)
    (htold : l.session.transcript.Told (Lossless l'.stream.client) l'.told)
    (haudio : l'.stream.client.isClosing = false →
      l'.stream.fed.flatMap samplesOf = l.session.received ++ inHand l'.chunk l'.stream.worker) :
    Delivers settings models l' where
  session := hsession ▸ h.session
  active := by rw [hsession, hactive, h.active]
  consumed := by
    rw [hsession, hactive]
    exact h.consumed
  told := hsession ▸ htold
  audio := hsession ▸ haudio

/-- A step of the client that leaves the session and its event alone. -/
theorem Delivers.client_step (h : Delivers settings models l) {stream : Stream.State (List UInt8)}
    (hworker : stream.worker = l.stream.worker)
    (hgeneration : stream.generation = l.stream.generation)
    (hfed : stream.fed = l.stream.fed) (hactive : stream.isActive = l.stream.isActive)
    (hpending : clientPending (sentencesOf l.clientEvent) stream.client =
      clientPending (sentencesOf l.clientEvent) l.stream.client)
    (hlossless : Lossless stream.client → Lossless l.stream.client)
    (hclosing : stream.client.isClosing = false → l.stream.client.isClosing = false) :
    Delivers settings models { l with stream := stream } := by
  refine h.same_session rfl hactive ?_ fun hopen => ?_
  · have htold : { l with stream := stream }.told = l.told := by
      simp only [LiveStream.told, hworker, hgeneration, hpending]
    exact htold ▸ h.told.mono hlossless
  · dsimp only
    rw [hfed, hworker]
    exact h.audio (hclosing hopen)

/-- A step of the worker that leaves the session and its event alone. -/
theorem Delivers.worker_step (h : Delivers settings models l) {stream : Stream.State (List UInt8)}
    {chunk : List UInt8} (hclient : stream.client = l.stream.client)
    (hgeneration : stream.generation = l.stream.generation)
    (hactive : stream.isActive = l.stream.isActive)
    (hpending : workerPending l.stream.generation (sentencesOf l.workerEvent) stream.worker =
      workerPending l.stream.generation (sentencesOf l.workerEvent) l.stream.worker)
    (haudio : l.stream.fed.flatMap samplesOf =
        l.session.received ++ inHand l.chunk l.stream.worker →
      stream.fed.flatMap samplesOf = l.session.received ++ inHand chunk stream.worker) :
    Delivers settings models { l with stream := stream, chunk := chunk } := by
  refine h.same_session rfl hactive ?_ fun hopen => ?_
  · have htold : { l with stream := stream, chunk := chunk }.told = l.told := by
      simp only [LiveStream.told, hclient, hgeneration, hpending]
    rw [htold]
    exact h.told.mono fun hlossless => hclient ▸ hlossless
  · exact haudio (h.audio (hclient ▸ hopen))

/-- A step into `close()`, which loses what is still on its way. -/
theorem Delivers.closing (h : Delivers settings models l) (hsession : l'.session = l.session)
    (hactive : l'.stream.isActive = l.stream.isActive)
    (hclient : l'.stream.client.isClosing = true) (htold : l'.told <+: l.told) :
    Delivers settings models l' := by
  refine h.same_session hsession hactive ?_ fun hopen => ?_
  · refine (h.told.of_prefix htold).mono fun hlossless => ?_
    have hopen := hlossless.2
    rw [hclient] at hopen
    cases hopen
  · rw [hclient] at hopen
    cases hopen

/-- A new generation makes the payload of the worker stale, unless it is being sent. -/
theorem workerPending_succ (hgen : Stream.Generations l.stream) (sentences : List LockedSentence) :
    workerPending (l.stream.generation + 1) sentences l.stream.worker <+:
      workerPending l.stream.generation sentences l.stream.worker := by
  have hworker := hgen.worker
  have hle := hgen.generation_eq
  cases hw : l.stream.worker with
  | sendIfCurrent tag payload =>
    rw [hw] at hworker
    have hstale : tag ≠ l.stream.generation + 1 := by
      have hold := hworker.1
      omega
    simp only [workerPending, if_neg hstale]
    exact List.nil_prefix
  | _ => exact List.prefix_refl _

/-- `START` and `close()` begin a new generation and leave the client nothing to send. -/
theorem told_next_generation (hgen : Stream.Generations l.stream)
    {stream : Stream.State (List UInt8)} (hworker : stream.worker = l.stream.worker)
    (hgeneration : stream.generation = l.stream.generation + 1)
    (hclient : clientPending (sentencesOf l.clientEvent) stream.client = []) :
    { l with stream := stream }.told <+: l.told := by
  have hsent := workerPending_succ hgen (sentencesOf l.workerEvent)
  have hpending := (List.prefix_append_right_inj
    (l.received.flatMap OfflineEvent.sentences)).mpr hsent
  simp only [LiveStream.told, hworker, hgeneration, hclient, List.append_nil]
  exact hpending.trans (List.prefix_append ..)

theorem Delivers.dispatch (h : Delivers settings models l) (hgen : Stream.Generations l.stream)
    (hc : l.stream.client = .receive) (notice : Bool) (message : Stream.Message (List UInt8)) :
    Delivers settings models
      { l with stream := l.stream.dispatch queueMaxChunks notice message } := by
  have hreply (client : Stream.ClientPc (List UInt8))
      (hpending : clientPending (sentencesOf l.clientEvent) client = []) :
      Delivers settings models { l with stream := { l.stream with client := client } } := by
    refine h.client_step rfl rfl rfl rfl ?_ ?_ ?_
    · rw [hc, hpending]
      rfl
    · rw [hc]
      exact fun _ => ⟨rfl, rfl⟩
    · rw [hc]
      exact fun _ => rfl
  cases message with
  | start =>
    have hprefix : { l with stream := l.stream.startSession }.told <+: l.told :=
      told_next_generation hgen rfl rfl rfl
    refine h.same_session rfl rfl ((h.told.of_prefix hprefix).mono fun hlossless => ?_) fun _ => ?_
    · cases hlossless.1
    · exact h.audio (by rw [hc]; rfl)
  | stop => exact hreply .join rfl
  | unknown command => exact hreply _ rfl
  | empty => exact h
  | disconnect => exact h.closing rfl rfl rfl (told_next_generation hgen rfl rfl rfl)
  | bytes data =>
    dsimp only [Stream.State.dispatch, Stream.State.enqueueAudio, Stream.State.handleBackpressure]
    split
    · exact hreply _ rfl
    · split
      · exact h.client_step rfl rfl rfl rfl rfl id id
      · split
        · exact hreply _ rfl
        · exact h

/-- Nothing has been fed to a session that waits for its reset. -/
theorem not_fed_of_awaitsReset (hgen : Stream.Generations l.stream)
    (hawaits : l.stream.client.awaitsReset = true) :
    Stream.fedIn (Stream.starts l.stream.trace) l.stream.trace = [] := by
  have hclient := hgen.client
  cases hc : l.stream.client with
  | startSession generation =>
    rw [hc] at hclient
    have hprefix := hgen.prefixes (Stream.starts l.stream.trace)
    rw [hclient.2.2] at hprefix
    exact List.prefix_nil.mp hprefix
  | _ =>
    rw [hc] at hawaits
    cases hawaits

/-- A worker that is at work with the current generation sees no restart and no `close()`. -/
theorem lossless_of_fed (hgen : Stream.Generations l.stream) {generation : ℕ}
    (hle : generation ≤ Stream.starts l.stream.trace) (hcurrent : generation = l.stream.generation)
    (hfed : Stream.fedIn (Stream.starts l.stream.trace) l.stream.trace ≠ []) :
    Lossless l.stream.client := by
  constructor
  · by_contra hawaits
    exact hfed (not_fed_of_awaitsReset hgen (by simpa using hawaits))
  · exact hgen.open_of_current (hcurrent ▸ hle)

/-- While the worker has a chunk, the client holds no event. -/
theorem clientPending_of_busy (hserial : Stream.Serial l.stream) (hcount : Stream.Counted l.stream)
    (hbusy : l.stream.worker.holdsChunk = true) (sentences : List LockedSentence) :
    clientPending sentences l.stream.client = [] := by
  have hnot : l.stream.client.isStopping = false := by
    by_contra hstopping
    rw [hserial.idle hcount (by simpa using hstopping)] at hbusy
    cases hbusy
  cases hc : l.stream.client with
  | send event rest | sending event rest =>
    rw [hc] at hnot
    cases event with
    | recognition payload => cases hnot
    | _ => rfl
  | _ => rfl

/-- A worker without a chunk holds no event. -/
theorem workerPending_of_idle {worker : Stream.WorkerPc (List UInt8)}
    (hidle : worker.holdsChunk = false) (generation : ℕ) (sentences : List LockedSentence) :
    workerPending generation sentences worker = [] := by
  cases worker with
  | poll | done => rfl
  | _ => cases hidle

theorem holdsChunk_loop (stopWorker : Bool) :
    (Stream.WorkerPc.loop stopWorker : Stream.WorkerPc (List UInt8)).holdsChunk = false := by
  cases stopWorker <;> rfl

/-- The worker goes on with the next chunk, if it may. -/
theorem workerPending_loop (stopWorker : Bool) (generation : ℕ) (sentences : List LockedSentence) :
    workerPending generation sentences (.loop stopWorker) = [] :=
  workerPending_of_idle (holdsChunk_loop stopWorker) generation sentences

theorem inHand_of_idle {worker : Stream.WorkerPc (List UInt8)}
    (hidle : worker.holdsChunk = false) (chunk : List UInt8) : inHand chunk worker = [] := by
  cases worker with
  | poll | done => rfl
  | _ => cases hidle

theorem inHand_loop (stopWorker : Bool) (chunk : List UInt8) :
    inHand chunk (.loop stopWorker) = [] :=
  inHand_of_idle (holdsChunk_loop stopWorker) chunk

end LiveStream

end FunasrApi.Online
