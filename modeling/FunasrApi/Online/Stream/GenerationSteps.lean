import FunasrApi.Online.Stream.Generations

/-!
# Every move keeps the generations apart

The moves that write to the trace are treated one by one; the others follow from
the frame lemmas of the invariant. The last theorem is the invariant of every
run, whichever calls fail.
-/

namespace FunasrApi.Online.Stream

open FunasrApi.Core

variable {Audio : Type*} {queueMaxChunks : Nat} {s : State Audio}

/-- `START`: the queue is drained and the next generation begins. -/
theorem Generations.start (h : Generations s) (hc : s.client = .receive) :
    Generations s.startSession := by
  obtain ⟨hopen, hflow, hclient⟩ := h.at_client hc rfl
  have hgen := h.generation_open hopen
  have hnew : acceptedIn (starts s.trace + 1) s.trace = [] :=
    acceptedIn_of_lt (Nat.lt_succ_self _)
  have hlt : starts s.trace < s.generation + 1 := by omega
  constructor
  · exact ⟨trivial, h.lawful⟩
  · exact h.prefixes
  · show s.generation + 1 = starts s.trace + 1 + 0
    omega
  · exact fun x hx => absurd hx List.not_mem_nil
  · refine ⟨rfl, ?_, hnew⟩
    show starts s.trace + 1 = starteds s.trace + 1
    rw [show starts s.trace = starteds s.trace from hclient]
  · exact h.worker.stale (Nat.le_succ _) hlt (fun _ => rfl) rfl rfl
  · intro _
    constructor
    · have hfed : fedIn (starts s.trace + 1) s.trace = [] := fedIn_of_lt (Nat.lt_succ_self _)
      show fedIn (starts s.trace + 1) s.trace ++ s.worker.pending (starts s.trace + 1) ++ [] =
        acceptedIn (starts s.trace + 1) s.trace
      rw [hfed, hnew, h.worker.pending_of_lt (Nat.lt_succ_self _)]
      rfl
    · exact fun hq => absurd rfl hq
    · intro hawait
      cases hawait
    · intro ha _
      exact hflow.session_open ha (by rw [hc]; rfl)

/-- A chunk is accepted. -/
theorem Generations.enqueue (h : Generations s) (data : Audio) (hc : s.client = .receive)
    (ha : s.isActive = true) :
    Generations
      { s with
        audioQueue := s.audioQueue ++ [(s.generation, data)]
        unfinished := s.unfinished + 1
        trace := .accepted data :: s.trace } := by
  obtain ⟨hopen, hflow, hclient⟩ := h.at_client hc rfl
  have hmore := fun k => acceptedIn_prefix_cons k (.accepted data) s.trace
  constructor
  · exact ⟨trivial, h.lawful⟩
  · exact fun k => (h.prefixes k).trans (hmore k)
  · exact h.generation_eq
  · intro x hx
    rcases List.mem_append.mp hx with hx | hx
    · exact h.tagged x hx
    · rw [List.mem_singleton.mp hx]
      exact h.generation_open hopen
  · show ClientInv _ s.client
    rw [hc]
    exact hclient
  · exact h.worker.mono rfl rfl id List.prefix_rfl hmore fun _ => ⟨rfl, rfl⟩
  · intro _
    constructor
    · show fedIn (starts s.trace) s.trace ++ s.worker.pending (starts s.trace) ++
          (s.audioQueue ++ [(s.generation, data)]).map Prod.snd =
        acceptedIn (starts s.trace) (.accepted data :: s.trace)
      rw [acceptedIn_accepted, ← hflow.conserved, List.map_append, ← List.append_assoc]
      rfl
    · exact fun _ => ha
    · exact hflow.fed_eq
    · exact hflow.session_open

/-- The session is reset for the new generation. -/
theorem Generations.reset (h : Generations s) (hlocks : Locks s)
    (hc : s.client = .startSession s.generation) (hl : s.sessionLock = none) :
    Generations
      { s with
        isActive := true
        fed := []
        client := .send .started []
        trace := .reset :: s.trace } := by
  obtain ⟨hopen, hflow, -, hstarted, hnone⟩ := h.at_client hc rfl
  have hout := (hlocks.of_free hl).1
  constructor
  · exact ⟨trivial, h.lawful⟩
  · exact h.prefixes
  · have := h.generation_open hopen
    exact this
  · exact h.tagged
  · exact ⟨⟨hstarted, hnone, hout⟩, fun e he => absurd he List.not_mem_nil⟩
  · refine h.worker.mono rfl rfl (fun _ => rfl) List.prefix_rfl (fun _ => List.prefix_rfl) ?_
    intro hin
    rw [hout] at hin
    cases hin
  · intro _
    constructor
    · exact hflow.conserved
    · exact fun _ => rfl
    · intro _
      have hfed := h.prefixes (starts s.trace)
      rw [hnone] at hfed
      exact (List.prefix_nil.mp hfed).symm
    · exact fun _ _ => rfl

/-- `STOP` reaches `finish()`: the session has received everything. -/
theorem Generations.finish (h : Generations s) (hcount : Counted s)
    (hc : s.client = .stopSession) (ha : s.isActive = true) :
    Generations
      { s with
        sessionLock := some .client
        client := .finishing
        trace := .finish :: s.trace } := by
  obtain ⟨hopen, hflow, hstarted, hzero⟩ := h.at_client hc rfl
  obtain ⟨hqueue, hidle⟩ := hcount.of_zero hzero
  have hall : fedIn (starts s.trace) s.trace = acceptedIn (starts s.trace) s.trace := by
    have := hflow.conserved
    rw [hqueue, WorkerPc.pending_of_idle _ hidle] at this
    simpa using this
  constructor
  · exact ⟨⟨hflow.session_open ha (by rw [hc]; rfl), hall⟩, h.lawful⟩
  · exact h.prefixes
  · have := h.generation_open hopen
    exact this
  · exact h.tagged
  · exact ⟨hstarted, hzero⟩
  · exact .of_idle hidle
  · intro _
    constructor
    · exact hflow.conserved
    · exact hflow.queue_active
    · exact fun _ => hflow.fed_eq (by rw [hc]; rfl)
    · intro _ hin
      cases hin

/-- `finish()` has returned: its result and `stopped` are about to be sent. -/
theorem Generations.finished (h : Generations s) (hcount : Counted s) (content : Bool)
    (hc : s.client = .finishing) : Generations (s.stopSession content) := by
  obtain ⟨hopen, hflow, hstarted, hzero⟩ := h.at_client hc rfl
  obtain ⟨hqueue, hidle⟩ := hcount.of_zero hzero
  have hfed := hflow.fed_eq (by rw [hc]; rfl)
  have hstopped : ∀ e ∈ [(.stopped : Event Audio)], e = .stopped :=
    fun e he => List.mem_singleton.mp he
  have hclosing : (s.stopSession content).client.isClosing = false := by
    cases content <;> rfl
  constructor
  · exact h.lawful
  · exact h.prefixes
  · rw [hclosing]
    exact h.generation_open hopen
  · exact h.tagged
  · cases content with
    | true =>
      refine ⟨⟨hstarted, ?_⟩, hstopped⟩
      show s.fed <+: acceptedIn (starteds s.trace) s.trace
      rw [hfed, ← hstarted]
      exact h.prefixes _
    | false => exact ⟨hstarted, fun e he => absurd he List.not_mem_nil⟩
  · exact .of_idle hidle
  · intro _
    constructor
    · exact hflow.conserved
    · exact fun hq => absurd hqueue hq
    · exact fun _ => hfed
    · intro ha
      cases ha

/-- What is known of an event about to be sent is what its sending needs. -/
private theorem EventInv.sent {event : Event Audio} (h : EventInv s event) :
    Lawful (.sent event) s.trace ∧ starts s.trace = starteds (.sent event :: s.trace) ∧
      (s.worker.inSession = true → starteds (.sent event :: s.trace) = starteds s.trace) := by
  cases event with
  | started =>
    obtain ⟨hstarted, -, hout⟩ := h
    exact ⟨hstarted, hstarted, fun hin => by simp [hout] at hin⟩
  | recognition payload => exact ⟨h.2, h.1, fun _ => rfl⟩
  | ready | stopped | error | backpressure => exact ⟨trivial, h, fun _ => rfl⟩

/-- An event of the client's coroutine has been sent. -/
theorem Generations.clientSent (h : Generations s) (event : Event Audio)
    (rest : List (Event Audio)) (hc : s.client = .sending event rest) :
    Generations (s.sentNext event rest) := by
  obtain ⟨hopen, hflow, hevent, hrest⟩ := h.at_client hc rfl
  obtain ⟨hlawful, hstarted, hin⟩ := hevent.sent
  have hnext : (s.sentNext event rest).client.isClosing = false ∧
      ClientInv (s.sentNext event rest) (s.sentNext event rest).client := by
    cases rest with
    | nil => exact ⟨rfl, hstarted⟩
    | cons next more =>
      obtain rfl := hrest next (List.mem_cons_self ..)
      exact ⟨rfl, hstarted, fun e he => hrest e (List.mem_cons_of_mem _ he)⟩
  constructor
  · exact ⟨hlawful, h.lawful⟩
  · exact h.prefixes
  · rw [hnext.1]
    exact h.generation_open hopen
  · exact h.tagged
  · exact hnext.2
  · exact h.worker.mono rfl rfl id List.prefix_rfl (fun _ => List.prefix_rfl)
      fun hw => ⟨rfl, hin hw⟩
  · intro _
    constructor
    · exact hflow.conserved
    · exact hflow.queue_active
    · exact fun _ => hflow.fed_eq (by rw [hc]; rfl)
    · exact fun ha _ => hflow.session_open ha (by rw [hc]; rfl)

/-- The worker gives its chunk to the session. -/
theorem Generations.addAudio (h : Generations s) (hlocks : Locks s) (data : Audio)
    (hw : s.worker = .processAudio s.generation data) (hl : s.sessionLock = none)
    (ha : s.isActive = true) :
    Generations
      { s with
        sessionLock := some .worker
        fed := s.fed ++ [data]
        worker := .addAudio s.generation
        trace := .addAudio data :: s.trace } := by
  have hworker := h.worker
  rw [hw] at hworker
  have hopen := h.open_of_current hworker.1
  have hgen := h.generation_open hopen
  have hflow := h.flow hopen
  have hso := hflow.session_open ha (hlocks.of_free hl).2
  have hconserved := hflow.conserved
  have hpending : s.worker.pending (starts s.trace) = [data] := by
    rw [hw]
    exact if_pos hgen
  rw [hpending] at hconserved
  have hne : acceptedIn (starts s.trace) s.trace ≠ [] := by
    rw [← hconserved]
    simp
  constructor
  · exact ⟨hso, h.lawful⟩
  · intro k
    simp only [fedIn]
    split
    · rename_i hk
      subst hk
      show fedIn (starts s.trace) s.trace ++ [data] <+: acceptedIn (starts s.trace) s.trace
      rw [← hconserved]
      exact List.prefix_append ..
    · exact h.prefixes k
  · exact h.generation_eq
  · exact h.tagged
  · refine ClientInv.congr h.client rfl rfl (fun _ => rfl) rfl (Nat.le_refl _) ?_
    exact fun _ hnone => absurd hnone hne
  · refine ⟨hworker.1, hso, fun _ => ?_⟩
    show fedIn (starts s.trace) (.addAudio data :: s.trace) ≠ []
    rw [fedIn_addAudio]
    simp
  · intro _
    constructor
    · show fedIn (starts s.trace) (.addAudio data :: s.trace) ++ [] ++
          s.audioQueue.map Prod.snd = acceptedIn (starts s.trace) s.trace
      rw [fedIn_addAudio, List.append_nil]
      exact hconserved
    · exact hflow.queue_active
    · intro hawait
      show s.fed ++ [data] = fedIn (starts s.trace) (.addAudio data :: s.trace)
      rw [fedIn_addAudio, hflow.fed_eq hawait]
    · exact hflow.session_open

/-- The worker takes the oldest chunk. -/
theorem Generations.take (h : Generations s) (generation : Nat) (data : Audio)
    (rest : List (Nat × Audio)) (hw : s.worker = .poll)
    (hq : s.audioQueue = (generation, data) :: rest) :
    Generations { s with audioQueue := rest, worker := .processAudio generation data } := by
  have hmem : ∀ x ∈ rest, x ∈ s.audioQueue := by
    intro x hx
    rw [hq]
    exact List.mem_cons_of_mem _ hx
  have htag : generation = starts s.trace :=
    h.tagged (generation, data) (by rw [hq]; exact List.mem_cons_self ..)
  have hne : s.audioQueue ≠ [] := by
    rw [hq]
    exact List.cons_ne_nil _ _
  constructor
  · exact h.lawful
  · exact h.prefixes
  · exact h.generation_eq
  · exact fun x hx => h.tagged x (hmem x hx)
  · refine ClientInv.congr h.client rfl rfl (fun _ => rfl) rfl (Nat.le_refl _) ?_
    intro hin
    cases hin
  · refine ⟨Nat.le_of_eq htag, fun hg => ?_⟩
    have hopen := h.open_of_current (Nat.le_of_eq (hg.symm.trans htag))
    exact (h.flow hopen).queue_active hne
  · intro hopen
    have hflow := h.flow hopen
    constructor
    · have hconserved := hflow.conserved
      rw [hw, hq] at hconserved
      show fedIn (starts s.trace) s.trace ++
          (if generation = starts s.trace then [data] else []) ++ rest.map Prod.snd =
        acceptedIn (starts s.trace) s.trace
      rw [if_pos htag, ← hconserved]
      simp [WorkerPc.pending]
    · exact fun _ => hflow.queue_active hne
    · exact hflow.fed_eq
    · exact hflow.session_open

/-- A client that moves between two replies keeps what it guarantees. -/
private theorem Generations.reply (h : Generations s) (event : Event Audio)
    (hc : s.client = .receive ∨ s.client = .stopSession) (he : event.isNotice = true) :
    Generations { s with client := .send event [] } := by
  have hstarted : starts s.trace = starteds s.trace := by
    have hclient := h.client
    rcases hc with hc | hc
    · rw [hc] at hclient
      exact hclient
    · rw [hc] at hclient
      exact hclient.1
  have hevent : EventInv s event := by
    cases event with
    | started | recognition => cases he
    | ready | stopped | error | backpressure => exact hstarted
  have hpc : s.client.isClosing = false ∧ s.client.awaitsReset = false ∧
      s.client.inSession = false := by
    rcases hc with hc | hc
    · rw [hc]
      exact ⟨rfl, rfl, rfl⟩
    · rw [hc]
      exact ⟨rfl, rfl, rfl⟩
  exact h.client_step rfl rfl rfl rfl rfl rfl hpc.1.symm hpc.2.1 hpc.2.2
    ⟨hevent, fun e he => absurd he List.not_mem_nil⟩

/-- What the session received is of the current generation, once that has any. -/
private theorem Generations.fed_current (h : Generations s) (hopen : s.client.isClosing = false)
    (hne : fedIn (starts s.trace) s.trace ≠ []) : s.fed = fedIn (starts s.trace) s.trace := by
  apply (h.flow hopen).fed_eq
  by_contra hawait
  have hclient := h.client
  cases hc : s.client with
  | startSession generation =>
    rw [hc] at hclient
    have hfed := h.prefixes (starts s.trace)
    rw [hclient.2.2] at hfed
    exact hne (List.prefix_nil.mp hfed)
  | _ => simp [hc, ClientPc.awaitsReset] at hawait

/-- A worker inside the session has fed its chunk already. -/
private theorem pending_of_or {generation : Nat}
    (hw : s.worker = .addAudio generation ∨ s.worker = .decodePartial generation) (k : Nat) :
    s.worker.pending k = [] := by
  rcases hw with hw | hw
  · rw [hw]
    rfl
  · rw [hw]
    rfl

/-- A worker that has just left a chunk behind, or is about to report a failure. -/
private theorem Generations.worker_leave {t : State Audio} (h : Generations s)
    (hq : t.audioQueue = s.audioQueue) (hg : t.generation = s.generation)
    (ha : t.isActive = s.isActive) (hf : t.fed = s.fed) (hc : t.client = s.client)
    (ht : SameReadings s.trace t.trace) (hl : AtEach Lawful t.trace)
    (hu : t.unfinished ≤ s.unfinished)
    (hp : s.client.isClosing = false → s.worker.pending (starts s.trace) = [])
    (hw : t.worker = .poll ∨ t.worker = .done ∨ t.worker = .report ∨ t.worker = .reporting) :
    Generations t := by
  have hout : t.worker.inSession = false ∧ t.worker.pending (starts s.trace) = [] ∧
      WorkerInv s t.worker := by
    rcases hw with hw | hw | hw | hw
    all_goals
      rw [hw]
      exact ⟨rfl, rfl, trivial⟩
  refine h.worker_step hq hg ha hf hc ht hl hu ?_ ?_ hout.2.2
  · intro hin
    simp [hout.1] at hin
  · intro hopen
    rw [hout.2.1, hp hopen]

/-- The loop's next await is one of the two that hold no chunk. -/
private theorem WorkerPc.loop_cases (b : Bool) :
    (WorkerPc.loop b : WorkerPc Audio) = .poll ∨ (WorkerPc.loop b : WorkerPc Audio) = .done := by
  cases b
  · exact .inl rfl
  · exact .inr rfl

/-- `task_done()` at the end of an iteration, whose trace may have grown by a send. -/
private theorem Generations.iterate {t : State Audio} (h : Generations s)
    (hq : t.audioQueue = s.audioQueue) (hg : t.generation = s.generation)
    (ha : t.isActive = s.isActive) (hf : t.fed = s.fed) (hc : t.client = s.client)
    (ht : SameReadings s.trace t.trace) (hl : AtEach Lawful t.trace)
    (hu : t.unfinished ≤ s.unfinished)
    (hp : s.client.isClosing = false → s.worker.pending (starts s.trace) = []) :
    Generations t.taskDone := by
  refine h.worker_leave hq hg ha hf hc ht hl (Nat.le_trans (Nat.sub_le _ _) hu) hp ?_
  rcases WorkerPc.loop_cases t.stopWorker with hw | hw
  · exact .inl hw
  · exact .inr (.inl hw)

/-- A generation that has accepted audio has been announced by its `started`. -/
private theorem Generations.started_of_accepted (h : Generations s)
    (hopen : s.client.isClosing = false) (hne : acceptedIn (starts s.trace) s.trace ≠ []) :
    starts s.trace = starteds s.trace := by
  have hclient := h.client
  cases hc : s.client with
  | receive | join =>
    rw [hc] at hclient
    exact hclient
  | startSession generation =>
    rw [hc] at hclient
    exact absurd hclient.2.2 hne
  | stopSession | finishing =>
    rw [hc] at hclient
    exact hclient.1
  | send event rest | sending event rest =>
    rw [hc] at hclient
    cases event with
    | started => exact absurd hclient.1.2.1 hne
    | recognition payload => exact hclient.1.1
    | ready | stopped | error | backpressure => exact hclient.1
  | closing | closed => simp [hc, ClientPc.isClosing] at hopen

/-- A chunk of an older generation, or of a stopped session, is not given to the session. -/
theorem Generations.skip (h : Generations s) (generation : Nat) (data : Audio)
    (hw : s.worker = .processAudio generation data)
    (hg : generation ≠ s.generation ∨ s.isActive = false) : Generations s.taskDone := by
  have hworker := h.worker
  refine h.iterate rfl rfl rfl rfl rfl (.refl _) h.lawful (Nat.le_refl _) fun hopen => ?_
  rw [hw] at hworker ⊢
  have hgen := h.generation_open hopen
  apply if_neg
  intro he
  rcases hg with hg | hg
  · exact hg (he.trans hgen.symm)
  · have hactive := hworker.2 (he.trans hgen.symm)
    simp [hg] at hactive

/-- A payload is computed from the chunks the session has been given. -/
theorem Generations.payload (h : Generations s) (generation : Nat) (mode : PayloadMode)
    (hw : s.worker = .addAudio generation ∨ s.worker = .decodePartial generation) :
    Generations
      { s with
        sessionLock := none
        worker := .sendIfCurrent generation ⟨mode, s.fed⟩ } := by
  have hworker := h.worker
  have hinv : WorkerInv s (.addAudio generation) := by
    rcases hw with hw | hw
    · rw [hw] at hworker
      exact hworker
    · rw [hw] at hworker
      exact hworker
  refine h.worker_step rfl rfl rfl rfl rfl (.refl _) h.lawful (Nat.le_refl _) ?_ ?_ ?_
  · intro hin
    cases hin
  · rcases hw with hw | hw
    · rw [hw]
      exact fun _ => rfl
    · rw [hw]
      exact fun _ => rfl
  · refine ⟨hinv.1, fun hg => ?_⟩
    have hne := hinv.2.2 hg
    have hopen := h.open_of_current (by rw [← hg]; exact hinv.1)
    refine ⟨hne, ?_⟩
    show s.fed <+: acceptedIn (starts s.trace) s.trace
    rw [h.fed_current hopen hne]
    exact h.prefixes _

/-- A payload of the present generation may be sent: its `started` has been. -/
theorem Generations.current (h : Generations s) (payload : Payload Audio)
    (hw : s.worker = .sendIfCurrent s.generation payload) :
    Generations { s with sessionLock := some .worker, worker := .sendPayload payload } := by
  have hworker := h.worker
  rw [hw] at hworker
  obtain ⟨hle, hcur⟩ := hworker
  obtain ⟨hne, hsource⟩ := hcur rfl
  have hopen := h.open_of_current hle
  have haccepted : acceptedIn (starts s.trace) s.trace ≠ [] := by
    intro hnone
    have hfed := h.prefixes (starts s.trace)
    rw [hnone] at hfed
    exact hne (List.prefix_nil.mp hfed)
  refine h.worker_step rfl rfl rfl rfl rfl (.refl _) h.lawful (Nat.le_refl _) ?_ ?_ ?_
  · exact fun _ hnone => absurd hnone haccepted
  · rw [hw]
    exact fun _ => rfl
  · show payload.source <+: acceptedIn (starteds s.trace) s.trace
    rw [← h.started_of_accepted hopen haccepted]
    exact hsource

/-- The invariant of the generations is kept by every move. -/
theorem Generations.move (h : Generations s) (hlocks : Locks s) (hcount : Counted s)
    {t : State Audio} {a : Action Audio} (hm : Move queueMaxChunks s a t) : Generations t := by
  have hclient := h.client
  have hworker := h.worker
  cases hm with
  | idle => exact h
  | start hc => exact h.start hc
  | stop hc =>
    rw [hc] at hclient
    exact h.client_step rfl rfl rfl rfl rfl rfl (by rw [hc]; rfl) (by rw [hc]; rfl)
      (by rw [hc]; rfl) hclient
  | reply event hc he => exact h.reply event (hc.imp_right And.left) he
  | enqueue data hc ha hq => exact h.enqueue data hc ha
  | disconnect hc => exact h.close_step (by rw [hc]; rfl) rfl rfl rfl rfl rfl
  | superseded generation hc hl hg =>
    rw [hc] at hclient
    exact absurd hclient.1 hg
  | reset hc hl => exact h.reset hlocks hc hl
  | joined hc hu =>
    rw [hc] at hclient
    exact h.client_step rfl rfl rfl rfl rfl rfl (by rw [hc]; rfl) (by rw [hc]; rfl)
      (by rw [hc]; rfl) ⟨hclient, hu⟩
  | finish hc hl ha => exact h.finish hcount hc ha
  | finished content hc => exact h.finished hcount content hc
  | finishRaised hc => exact h.close_step (by rw [hc]; rfl) rfl rfl rfl rfl rfl
  | clientLock event rest hc hl =>
    rw [hc] at hclient
    exact h.client_step rfl rfl rfl rfl rfl rfl (by rw [hc]; rfl) (by rw [hc]; rfl)
      (by rw [hc]; rfl) hclient
  | clientSent event rest hc => exact h.clientSent event rest hc
  | clientRaised event rest hc => exact h.close_step (by rw [hc]; rfl) rfl rfl rfl rfl rfl
  | closed hc hw =>
    exact h.client_step rfl rfl rfl rfl rfl rfl (by rw [hc]; rfl) (by rw [hc]; rfl)
      (by rw [hc]; rfl) trivial
  | timeout hw =>
    refine h.worker_leave rfl rfl rfl rfl rfl (.refl _) h.lawful (Nat.le_refl _) ?_ ?_
    · rw [hw]
      exact fun _ => rfl
    · rcases WorkerPc.loop_cases s.stopWorker with hr | hr
      · exact .inl hr
      · exact .inr (.inl hr)
  | take generation data rest hw hq => exact h.take generation data rest hw hq
  | skip generation data hw hl hg => exact h.skip generation data hw hg
  | addAudio data hw hl ha => exact h.addAudio hlocks data hw hl ha
  | sessionRaised generation hw =>
    exact h.worker_leave rfl rfl rfl rfl rfl (.refl _) h.lawful (Nat.le_refl _)
      (fun _ => pending_of_or hw _) (.inr (.inr (.inl rfl)))
  | noPayload generation hw =>
    exact h.iterate (t := { s with sessionLock := none }) rfl rfl rfl rfl rfl (.refl _) h.lawful
      (Nat.le_refl _) fun _ => pending_of_or hw _
  | decodePartial hw =>
    rw [hw] at hworker
    refine h.worker_step rfl rfl rfl rfl rfl (.decodePartial _) ⟨hworker.2.1, h.lawful⟩
      (Nat.le_refl _) ?_ ?_ hworker
    · intro _ _
      rw [hw]
      rfl
    · rw [hw]
      exact fun _ => rfl
  | payload generation mode hw => exact h.payload generation mode hw
  | stale generation payload hw hl hg =>
    refine h.iterate rfl rfl rfl rfl rfl (.refl _) h.lawful (Nat.le_refl _) fun _ => ?_
    rw [hw]
    rfl
  | current payload hw hl => exact h.current payload hw
  | payloadLock payload hw hl =>
    rw [hw] at hworker
    refine h.worker_step rfl rfl rfl rfl rfl (.refl _) h.lawful (Nat.le_refl _) ?_ ?_ hworker
    · intro _ _
      rw [hw]
      rfl
    · rw [hw]
      exact fun _ => rfl
  | payloadSent payload hw =>
    rw [hw] at hworker
    refine h.iterate (t := { s with
        sessionLock := none
        sendLock := none
        trace := .sent (.recognition payload) :: s.trace }) rfl rfl rfl rfl rfl
      (.sent (by simp) _) ⟨hworker, h.lawful⟩ (Nat.le_refl _) fun _ => ?_
    rw [hw]
    rfl
  | payloadRaised payload hw =>
    refine h.worker_leave rfl rfl rfl rfl rfl (.refl _) h.lawful (Nat.le_refl _) (fun _ => ?_)
      (.inr (.inr (.inl rfl)))
    rw [hw]
    rfl
  | reportLock hw hl =>
    refine h.worker_leave rfl rfl rfl rfl rfl (.refl _) h.lawful (Nat.le_refl _) (fun _ => ?_)
      (.inr (.inr (.inr rfl)))
    rw [hw]
    rfl
  | reported hw =>
    refine h.iterate (t := { s with
        sendLock := none
        trace := .sent internalErrorEvent :: s.trace }) rfl rfl rfl rfl rfl
      (.sent (by simp [internalErrorEvent]) _) ⟨trivial, h.lawful⟩ (Nat.le_refl _) fun _ => ?_
    rw [hw]
    rfl
  | reportRaised hw =>
    refine h.worker_leave rfl rfl rfl rfl rfl (.refl _) h.lawful (Nat.sub_le _ _) (fun _ => ?_)
      (.inr (.inl rfl))
    rw [hw]
    rfl
  | cancelled hc =>
    have hclosing : s.client.isClosing = true := by rw [hc]; rfl
    refine h.worker_leave (by simp) (by simp) (by simp) (by simp) (by simp) ?_ ?_ ?_ ?_
      (.inr (.inl (by simp)))
    · rw [s.cancelWorker_trace]
      exact .refl _
    · rw [s.cancelWorker_trace]
      exact h.lawful
    · rw [s.cancelWorker_unfinished]
      exact Nat.sub_le _ _
    · intro hopen
      simp [hclosing] at hopen

/-- Locks, count and generations hold together in every reachable state. -/
theorem invariants {queueMaxChunks : Nat} {s : State Audio} (h : Reachable queueMaxChunks s) :
    Locks s ∧ Counted s ∧ Generations s := by
  refine Machine.Reach.invariant (I := fun s => Locks s ∧ Counted s ∧ Generations s) h ?_
    fun t a u ht _ hs => ?_
  · exact ⟨.release rfl rfl rfl, rfl, generations_initial⟩
  · have hm := move_of_step hs
    obtain ⟨hlocks, hcount, hgen⟩ := ht
    exact ⟨hlocks.move hm, hcount.move hm, hgen.move hlocks hcount hm⟩

end FunasrApi.Online.Stream
