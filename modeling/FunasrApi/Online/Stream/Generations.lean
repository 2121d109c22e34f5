import FunasrApi.Online.Stream.Locks
import FunasrApi.Online.Stream.Trace

/-!
# Generations never mix

The invariant that keeps the audio of one `START` apart from that of the next.
It has three parts: what the suspension point of the client guarantees, what the
one of the worker guarantees, and how the queue, the session and the trace agree.
-/

namespace FunasrApi.Online.Stream

open FunasrApi.Core

variable {Audio : Type*}

/-- What is known about an event that is about to be sent to the client. -/
def EventInv (s : State Audio) : Event Audio → Prop
  | .started =>
    starts s.trace = starteds s.trace + 1 ∧ acceptedIn (starts s.trace) s.trace = [] ∧
      s.worker.inSession = false
  | .recognition payload =>
    starts s.trace = starteds s.trace ∧
      payload.source <+: acceptedIn (starteds s.trace) s.trace
  | _ => starts s.trace = starteds s.trace

/-- What the client's suspension point guarantees. -/
def ClientInv (s : State Audio) : ClientPc Audio → Prop
  | .receive | .join => starts s.trace = starteds s.trace
  | .startSession generation =>
    generation = s.generation ∧ starts s.trace = starteds s.trace + 1 ∧
      acceptedIn (starts s.trace) s.trace = []
  | .stopSession | .finishing => starts s.trace = starteds s.trace ∧ s.unfinished = 0
  | .send event rest | .sending event rest => EventInv s event ∧ ∀ e ∈ rest, e = .stopped
  | .closing | .closed => True

/-- What the worker's suspension point guarantees. A chunk or a payload of an older
generation carries no obligation: the comparison with `_generation` will drop it. -/
def WorkerInv (s : State Audio) : WorkerPc Audio → Prop
  | .processAudio generation _ =>
    generation ≤ starts s.trace ∧ (generation = s.generation → s.isActive = true)
  | .addAudio generation | .decodePartial generation =>
    generation ≤ starts s.trace ∧ sessionOpen s.trace = true ∧
      (generation = s.generation → fedIn (starts s.trace) s.trace ≠ [])
  | .sendIfCurrent generation payload =>
    generation ≤ starts s.trace ∧
      (generation = s.generation → fedIn (starts s.trace) s.trace ≠ [] ∧
        payload.source <+: acceptedIn (starts s.trace) s.trace)
  | .sendPayload payload | .sendingPayload payload =>
    payload.source <+: acceptedIn (starteds s.trace) s.trace
  | .poll | .report | .reporting | .done => True

/-- The chunk of generation `k` that the worker has taken and not yet given to the session. -/
def WorkerPc.pending (k : Nat) : WorkerPc Audio → List Audio
  | .processAudio generation data => if generation = k then [data] else []
  | _ => []

/-- The client waits for the session lock to reset the session. -/
def ClientPc.awaitsReset : ClientPc Audio → Bool
  | .startSession _ => true
  | _ => false

/-- How queue, session and trace agree as long as the stream is not closing. -/
structure Flow (s : State Audio) : Prop where
  /-- What was accepted was fed, is in the worker's hand, or is queued, in this order. -/
  conserved : fedIn (starts s.trace) s.trace ++ s.worker.pending (starts s.trace) ++
    s.audioQueue.map Prod.snd = acceptedIn (starts s.trace) s.trace
  queue_active : s.audioQueue ≠ [] → s.isActive = true
  fed_eq : s.client.awaitsReset = false → s.fed = fedIn (starts s.trace) s.trace
  session_open : s.isActive = true → s.client.inSession = false → sessionOpen s.trace = true

/-- The invariant of the generations. -/
structure Generations (s : State Audio) : Prop where
  lawful : AtEach Lawful s.trace
  prefixes : ∀ k, fedIn k s.trace <+: acceptedIn k s.trace
  generation_eq : s.generation = starts s.trace + if s.client.isClosing then 1 else 0
  tagged : ∀ x ∈ s.audioQueue, x.1 = starts s.trace
  client : ClientInv s s.client
  worker : WorkerInv s s.worker
  flow : s.client.isClosing = false → Flow s

/-- A stream that is not closing counts its generations by the `START`s. -/
theorem Generations.generation_open {s : State Audio} (h : Generations s)
    (hc : s.client.isClosing = false) : s.generation = starts s.trace := by
  rw [h.generation_eq, hc]
  rfl

/-- What is known where the client's coroutine does not close the stream. -/
theorem Generations.at_client {s : State Audio} {c : ClientPc Audio} (h : Generations s)
    (hc : s.client = c) (hopen : c.isClosing = false) :
    s.client.isClosing = false ∧ Flow s ∧ ClientInv s c := by
  subst hc
  exact ⟨hopen, h.flow hopen, h.client⟩

/-- Something of the current generation can only exist while the stream is not closing. -/
theorem Generations.open_of_current {s : State Audio} (h : Generations s)
    (hg : s.generation ≤ starts s.trace) : s.client.isClosing = false := by
  have := h.generation_eq
  by_contra hc
  rw [if_pos (by simpa using hc)] at this
  omega

/-- The worker's guarantee survives what only adds to the trace and keeps the generation;
inside the session, neither a reset nor a `started` may intervene. -/
theorem WorkerInv.mono {s t : State Audio} {w : WorkerPc Audio} (h : WorkerInv s w)
    (hs : starts t.trace = starts s.trace) (hg : t.generation = s.generation)
    (ha : s.isActive = true → t.isActive = true)
    (hf : fedIn (starts s.trace) s.trace <+: fedIn (starts s.trace) t.trace)
    (hp : ∀ k, acceptedIn k s.trace <+: acceptedIn k t.trace)
    (hin : w.inSession = true →
      sessionOpen t.trace = sessionOpen s.trace ∧ starteds t.trace = starteds s.trace) :
    WorkerInv t w := by
  have hfed : fedIn (starts s.trace) s.trace ≠ [] → fedIn (starts s.trace) t.trace ≠ [] := by
    intro hne he
    rw [he] at hf
    exact hne (List.prefix_nil.mp hf)
  cases w with
  | processAudio generation data =>
    obtain ⟨hle, hact⟩ := h
    simp only [WorkerInv, hs, hg]
    exact ⟨hle, fun he => ha (hact he)⟩
  | addAudio generation | decodePartial generation =>
    obtain ⟨hle, ho, hne⟩ := h
    simp only [WorkerInv, hs, hg, (hin rfl).1]
    exact ⟨hle, ho, fun he => hfed (hne he)⟩
  | sendIfCurrent generation payload =>
    obtain ⟨hle, hc⟩ := h
    simp only [WorkerInv, hs, hg]
    exact ⟨hle, fun he => ⟨hfed (hc he).1, (hc he).2.trans (hp _)⟩⟩
  | sendPayload payload | sendingPayload payload =>
    simp only [WorkerInv, (hin rfl).2]
    exact List.IsPrefix.trans h (hp _)
  | poll | report | reporting | done => trivial

/-- What the worker guarantees depends on the readings, the generation and the activity. -/
theorem WorkerInv.congr {s t : State Audio} {w : WorkerPc Audio} (h : WorkerInv s w)
    (ht : SameReadings s.trace t.trace) (hg : t.generation = s.generation)
    (ha : t.isActive = s.isActive) : WorkerInv t w := by
  refine h.mono ht.starts_eq hg (by rw [ha]; exact id) ?_ ?_ fun _ => ?_
  · exact ht.fed_eq _ ▸ List.prefix_rfl
  · exact fun k => ht.accepted_eq k ▸ List.prefix_rfl
  · exact ⟨ht.open_eq, ht.starteds_eq⟩

/-- Once the generation has moved on, nothing in the worker's hand is current. -/
theorem WorkerInv.stale {s t : State Audio} {w : WorkerPc Audio} (h : WorkerInv s w)
    (hs : starts s.trace ≤ starts t.trace) (hg : starts s.trace < t.generation)
    (hp : ∀ k, acceptedIn k t.trace = acceptedIn k s.trace)
    (hd : starteds t.trace = starteds s.trace) (ho : sessionOpen t.trace = sessionOpen s.trace) :
    WorkerInv t w := by
  cases w with
  | processAudio generation data | sendIfCurrent generation payload =>
    obtain ⟨hle, -⟩ := h
    exact ⟨Nat.le_trans hle hs, fun he => absurd he (by omega)⟩
  | addAudio generation | decodePartial generation =>
    obtain ⟨hle, hopen, -⟩ := h
    exact ⟨Nat.le_trans hle hs, ho.trans hopen, fun he => absurd he (by omega)⟩
  | sendPayload payload | sendingPayload payload =>
    simp only [WorkerInv, hp, hd]
    exact h
  | poll | report | reporting | done => trivial

/-- A worker without a chunk guarantees nothing. -/
theorem WorkerInv.of_idle {s : State Audio} {w : WorkerPc Audio} (hw : w.holdsChunk = false) :
    WorkerInv s w := by
  cases w with
  | poll | done => trivial
  | _ => cases hw

/-- A worker without a chunk has nothing pending. -/
theorem WorkerPc.pending_of_idle {w : WorkerPc Audio} (k : Nat) (hw : w.holdsChunk = false) :
    w.pending k = [] := by
  cases w with
  | processAudio => cases hw
  | _ => rfl

/-- Nothing in the worker's hand belongs to a generation still to come. -/
theorem WorkerInv.pending_of_lt {s : State Audio} {w : WorkerPc Audio} (h : WorkerInv s w)
    {k : Nat} (hk : starts s.trace < k) : w.pending k = [] := by
  cases w with
  | processAudio generation data =>
    have hne : generation ≠ k := by
      have := h.1
      omega
    exact if_neg hne
  | _ => rfl

/-- What the client guarantees survives a step of the worker. -/
theorem ClientInv.congr {s t : State Audio} {c : ClientPc Audio} (h : ClientInv s c)
    (hs : starts t.trace = starts s.trace) (hd : starteds t.trace = starteds s.trace)
    (hp : ∀ k, acceptedIn k t.trace = acceptedIn k s.trace) (hg : t.generation = s.generation)
    (hu : t.unfinished ≤ s.unfinished)
    (hw : t.worker.inSession = true → acceptedIn (starts s.trace) s.trace = [] →
      s.worker.inSession = true) : ClientInv t c := by
  have hevent : ∀ e, EventInv s e → EventInv t e := by
    intro e he
    cases e with
    | started =>
      obtain ⟨h1, h2, h3⟩ := he
      simp only [EventInv, hs, hd, hp]
      refine ⟨h1, h2, ?_⟩
      by_contra hin
      have := hw (by simpa using hin) h2
      simp [h3] at this
    | recognition payload =>
      simp only [EventInv, hs, hd, hp]
      exact he
    | ready | stopped | error | backpressure =>
      simp only [EventInv, hs, hd]
      exact he
  cases c with
  | receive | join =>
    simp only [ClientInv, hs, hd]
    exact h
  | startSession generation =>
    simp only [ClientInv, hs, hd, hp, hg]
    exact h
  | stopSession | finishing =>
    obtain ⟨h1, h2⟩ := h
    simp only [ClientInv, hs, hd]
    exact ⟨h1, by omega⟩
  | send event rest | sending event rest => exact ⟨hevent _ h.1, h.2⟩
  | closing | closed => trivial

/-- The initial state: nothing has happened. -/
theorem generations_initial : Generations (State.initial Audio) where
  lawful := trivial
  prefixes _ := List.prefix_rfl
  generation_eq := rfl
  tagged x hx := absurd hx List.not_mem_nil
  client := ⟨rfl, fun e he => absurd he List.not_mem_nil⟩
  worker := trivial
  flow _ := ⟨rfl, fun hq => absurd rfl hq, fun _ => rfl, fun ha => by cases ha⟩

/-- A step of the worker that leaves the queue and the session alone. -/
theorem Generations.worker_step {s t : State Audio} (h : Generations s)
    (hq : t.audioQueue = s.audioQueue) (hg : t.generation = s.generation)
    (ha : t.isActive = s.isActive) (hf : t.fed = s.fed) (hc : t.client = s.client)
    (ht : SameReadings s.trace t.trace) (hl : AtEach Lawful t.trace)
    (hu : t.unfinished ≤ s.unfinished)
    (hin : t.worker.inSession = true → acceptedIn (starts s.trace) s.trace = [] →
      s.worker.inSession = true)
    (hp : s.client.isClosing = false →
      t.worker.pending (starts s.trace) = s.worker.pending (starts s.trace))
    (hw : WorkerInv s t.worker) : Generations t where
  lawful := hl
  prefixes k := by
    rw [ht.fed_eq, ht.accepted_eq]
    exact h.prefixes k
  generation_eq := by
    rw [hg, ht.starts_eq, hc]
    exact h.generation_eq
  tagged := by
    rw [hq, ht.starts_eq]
    exact h.tagged
  client := by
    rw [hc]
    exact h.client.congr ht.starts_eq ht.starteds_eq ht.accepted_eq hg hu hin
  worker := hw.congr ht hg ha
  flow hopen := by
    rw [hc] at hopen
    have hflow := h.flow hopen
    constructor
    · rw [ht.starts_eq, ht.fed_eq, ht.accepted_eq, hq, hp hopen]
      exact hflow.conserved
    · rw [hq, ha]
      exact hflow.queue_active
    · rw [hc, hf, ht.starts_eq, ht.fed_eq]
      exact hflow.fed_eq
    · rw [ha, hc, ht.open_eq]
      exact hflow.session_open

/-- A step of the client that leaves queue, session, worker and trace alone. -/
theorem Generations.client_step {s t : State Audio} (h : Generations s)
    (hq : t.audioQueue = s.audioQueue) (hg : t.generation = s.generation)
    (ha : t.isActive = s.isActive) (hf : t.fed = s.fed) (hw : t.worker = s.worker)
    (ht : t.trace = s.trace) (hclosing : t.client.isClosing = s.client.isClosing)
    (hawait : s.client.awaitsReset = false) (hin : s.client.inSession = false)
    (hc : ClientInv t t.client) : Generations t where
  lawful := by
    rw [ht]
    exact h.lawful
  prefixes := by
    rw [ht]
    exact h.prefixes
  generation_eq := by
    rw [hg, ht, hclosing]
    exact h.generation_eq
  tagged := by
    rw [hq, ht]
    exact h.tagged
  client := hc
  worker := by
    rw [hw]
    refine h.worker.congr ?_ hg ha
    rw [ht]
    exact .refl _
  flow hopen := by
    rw [hclosing] at hopen
    have hflow := h.flow hopen
    constructor
    · rw [ht, hq, hw]
      exact hflow.conserved
    · rw [hq, ha]
      exact hflow.queue_active
    · rw [hf, ht]
      exact fun _ => hflow.fed_eq hawait
    · rw [ha, ht]
      exact fun hact _ => hflow.session_open hact hin

/-- `close()` makes everything in flight stale. -/
theorem Generations.close_step {s t : State Audio} (h : Generations s)
    (hopen : s.client.isClosing = false) (hq : t.audioQueue = s.audioQueue)
    (hg : t.generation = s.generation + 1) (hc : t.client = .closing)
    (hw : t.worker = s.worker) (ht : t.trace = s.trace) : Generations t where
  lawful := by
    rw [ht]
    exact h.lawful
  prefixes := by
    rw [ht]
    exact h.prefixes
  generation_eq := by
    rw [hg, ht, hc, h.generation_open hopen]
    rfl
  tagged := by
    rw [hq, ht]
    exact h.tagged
  client := by
    rw [hc]
    trivial
  worker := by
    have hlt : starts s.trace < t.generation := by
      rw [hg, h.generation_open hopen]
      exact Nat.lt_succ_self _
    rw [hw]
    refine h.worker.stale ?_ hlt ?_ ?_ ?_
    · exact Nat.le_of_eq (by rw [ht])
    · intro k
      rw [ht]
    · rw [ht]
    · rw [ht]
  flow hclosing := by
    rw [hc] at hclosing
    cases hclosing

end FunasrApi.Online.Stream
