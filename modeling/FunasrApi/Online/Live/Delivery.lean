import FunasrApi.Online.Live.Told

/-!
# What the client of a live stream receives

Over every interleaving, every step of the stream and the session together keeps `Delivers`. When
`STOP` has been answered nothing is on its way any more, so the client has received the whole
transcript, and the session all audio that was accepted.
-/

namespace FunasrApi.Online.LiveStream

open FunasrApi.Core Session

variable {settings : SessionSettings} {models : Recognizers} {queueMaxChunks : ℕ}
  {l l' : LiveStream} {a : Stream.Action (List UInt8)}

/-- The reset of the session: the payload of an older generation is stale by now. -/
theorem Delivers.reset (h : Delivers settings models l) (hlocks : Stream.Locks l.stream)
    (hgen : Stream.Generations l.stream) {generation : ℕ}
    (hc : l.stream.client = .startSession generation) (hl : l.stream.sessionLock = none) :
    Delivers settings models
      { l.resetSession generation with stream := l.stream.resetSession generation } := by
  have hclient := hgen.client
  rw [hc] at hclient
  obtain ⟨hcurrent, -, -⟩ := hclient
  have hout := (hlocks.of_free hl).1
  have hpending : ∀ sentences,
      workerPending l.stream.generation sentences l.stream.worker = [] := by
    intro sentences
    have hworker := hgen.worker
    cases hw : l.stream.worker with
    | sendIfCurrent tag payload =>
      rw [hw] at hworker
      refine if_neg fun htag => (hworker.2 htag).1 ?_
      exact not_fed_of_awaitsReset hgen (by rw [hc]; rfl)
    | sendPayload | sendingPayload =>
      rw [hw] at hout
      cases hout
    | _ => rfl
  have hhand : inHand l.chunk l.stream.worker = [] := by
    cases hw : l.stream.worker with
    | addAudio generation =>
      rw [hw] at hout
      cases hout
    | _ => rfl
  unfold resetSession Stream.State.resetSession
  rw [if_neg (not_not.mpr hcurrent), if_neg (not_not.mpr hcurrent)]
  refine ⟨.tail .start h.session trivial rfl, rfl, fun hinactive => ?_, ?_, fun _ => ?_⟩
  · cases hinactive
  · simp only [LiveStream.told, hpending, clientPending]
    exact Transcript.told_empty
  · exact hhand.symm

/-- What is left when `add_audio` has returned and the worker holds no event. -/
theorem Delivers.added (h : Delivers settings models l) (hserial : Stream.Serial l.stream)
    {generation : ℕ} (hw : l.stream.worker = .addAudio generation)
    {stream : Stream.State (List UInt8)} (hclient : stream.client = l.stream.client)
    (hactive : stream.isActive = l.stream.isActive) (hfed : stream.fed = l.stream.fed)
    (hpending : ∀ sentences, workerPending stream.generation sentences stream.worker = [])
    (hhand : ∀ chunk, inHand chunk stream.worker = []) :
    Delivers settings models { (l.addAudio settings models).1 with stream := stream } := by
  have hlive : l.stream.isActive = true := hserial.recognizing (by rw [hw]; rfl)
  obtain ⟨hreceived, hsame⟩ := addAudio_intake settings models l.chunk l.session
  have hcursor := cursor_le h.session
  refine ⟨?_, ?_, fun hinactive => ?_, ?_, fun hopen => ?_⟩
  · exact .tail (.addAudio l.chunk) h.session trivial (if_pos (h.active.trans hlive))
  · exact hsame.trans (h.active.trans hactive.symm)
  · rw [hactive, hlive] at hinactive
    cases hinactive
  · have hnothing : workerPending l.stream.generation (sentencesOf l.workerEvent)
        l.stream.worker = [] := by
      rw [hw]
      rfl
    have htold : { (l.addAudio settings models).1 with stream := stream }.told = l.told := by
      simp only [LiveStream.told, LiveStream.addAudio, hpending, hclient, hnothing]
    rw [htold]
    dsimp only
    rw [hclient]
    exact h.told.locks hcursor (addAudio_locks l.chunk l.session)
  · have haudio := h.audio (hclient ▸ hopen)
    dsimp only
    rw [hfed, haudio, hw, hhand, List.append_nil]
    exact hreceived.symm

/-- An event without sentences has no text either. -/
theorem sentences_of_hasContent {sentences : List LockedSentence} {durationMs : ℤ} {isFinal : Bool}
    (h : (offlineEvent sentences durationMs isFinal).hasContent = false) : sentences = [] := by
  have hempty := (Bool.or_eq_false_iff.mp h).1
  simpa [offlineEvent] using hempty

/-- The worker's event takes over all sentences that are not reported yet. -/
theorem Delivers.built (h : Delivers settings models l) (hlossless : Lossless l.stream.client)
    (hclient : clientPending (sentencesOf l.clientEvent) l.stream.client = [])
    (hworker : workerPending l.stream.generation (sentencesOf l.workerEvent) l.stream.worker = [])
    {stream : Stream.State (List UInt8)} (hsame : stream.client = l.stream.client)
    (hstill : stream.isActive = l.stream.isActive) (hfed : stream.fed = l.stream.fed)
    (hhand : inHand l.chunk stream.worker = inHand l.chunk l.stream.worker)
    (hpending : workerPending stream.generation (l.session.transcript.consumeLockedSentences.1)
      stream.worker = l.session.transcript.consumeLockedSentences.1) :
    Delivers settings models { l.buildPayload settings with stream := stream } := by
  refine ⟨?_, h.active.trans hstill.symm, fun hinactive => rfl, ?_, fun hopen => ?_⟩
  · exact .tail .buildOfflineEvent h.session trivial rfl
  · have htold : { l.buildPayload settings with stream := stream }.told =
        l.told ++ l.session.transcript.consumeLockedSentences.1 := by
      have hevent : sentencesOf (l.buildPayload settings).workerEvent =
          l.session.transcript.consumeLockedSentences.1 := List.append_nil _
      simp only [LiveStream.told, hclient, hworker, hsame, List.append_nil]
      rw [hevent, hpending]
      exact (congrArg (_ ++ ·) hclient).trans (List.append_nil _)
    rw [htold]
    exact h.told.consume hlossless
  · dsimp only
    rw [hfed]
    exact (h.audio (hsame ▸ hopen)).trans (congrArg _ hhand.symm)

theorem Delivers.endAudio (h : Delivers settings models l) (hserial : Stream.Serial l.stream)
    (hcount : Stream.Counted l.stream) (hgen : Stream.Generations l.stream) {generation : ℕ}
    (hw : l.stream.worker = .addAudio generation) {result : Stream.AddResult}
    {performed : LiveStream}
    (hperformed : l.endAudio settings models generation result = some performed) :
    Delivers settings models
      { performed with stream := l.stream.endAudio generation result } := by
  have hadded {stream : Stream.State (List UInt8)} (hclient : stream.client = l.stream.client)
      (hactive : stream.isActive = l.stream.isActive) (hfed : stream.fed = l.stream.fed)
      (hpending : ∀ sentences, workerPending stream.generation sentences stream.worker = [])
      (hhand : ∀ chunk, inHand chunk stream.worker = []) :=
    h.added hserial hw hclient hactive hfed hpending hhand
  have hdone : Delivers settings models { (l.addAudio settings models).1 with
      stream := { l.stream with sessionLock := none }.taskDone } :=
    hadded rfl rfl rfl (fun sentences => workerPending_loop ..) (fun chunk => inHand_loop ..)
  unfold LiveStream.endAudio at hperformed
  dsimp only at hperformed
  split at hperformed
  · obtain rfl := Option.some.inj hperformed
    exact hadded rfl rfl rfl (fun _ => rfl) (fun _ => rfl)
  · next content _ =>
    dsimp only [Stream.State.endAudio]
    split at hperformed
    · next hstale =>
      obtain rfl := Option.some.inj hperformed
      rw [if_pos hstale]
      exact hdone
    · next hcurrent =>
      rw [if_neg hcurrent]
      obtain ⟨hcontent, hperformed⟩ := Option.ite_none_right_eq_some.mp hperformed
      obtain rfl := Option.some.inj hperformed
      have hworker := hgen.worker
      rw [hw] at hworker
      obtain rfl : generation = l.stream.generation := not_not.mp hcurrent
      have hlossless : Lossless l.stream.client :=
        lossless_of_fed hgen hworker.1 rfl (hworker.2.2 rfl)
      have hclient := clientPending_of_busy hserial hcount (by rw [hw]; rfl)
        (sentencesOf l.clientEvent)
      have hpolling : Delivers settings models { (l.addAudio settings models).1 with
          stream := { l.stream with worker := .poll } } :=
        hadded rfl rfl rfl (fun _ => rfl) (fun _ => rfl)
      unfold Stream.State.leaveProcess
      cases content with
      | true =>
        exact hpolling.built hlossless hclient rfl rfl rfl rfl rfl (if_pos rfl)
      | false =>
        have hnothing := sentences_of_hasContent hcontent.symm
        refine hpolling.built hlossless hclient rfl rfl rfl rfl (inHand_loop ..) ?_
        exact (workerPending_loop ..).trans hnothing.symm
  · next decode _ =>
    obtain ⟨-, hperformed⟩ := Option.ite_none_left_eq_some.mp hperformed
    obtain rfl := Option.some.inj hperformed
    dsimp only [Stream.State.endAudio]
    split
    · exact hdone
    · exact hadded rfl rfl rfl (fun _ => rfl) (fun _ => rfl)
  · cases hperformed

theorem Delivers.endPartial (h : Delivers settings models l) (hserial : Stream.Serial l.stream)
    {generation : ℕ} (hw : l.stream.worker = .decodePartial generation) {content : Option Bool}
    {performed : LiveStream}
    (hperformed : l.endPartial settings models content = some performed)
    {stream : Stream.State (List UInt8)} (hclient : stream.client = l.stream.client)
    (hactive : stream.isActive = l.stream.isActive) (hfed : stream.fed = l.stream.fed)
    (hpending : workerPending stream.generation [] stream.worker = [])
    (hhand : ∀ chunk, inHand chunk stream.worker = []) :
    Delivers settings models { performed with stream := stream } := by
  obtain ⟨-, hperformed⟩ := Option.ite_none_right_eq_some.mp hperformed
  obtain rfl := Option.some.inj hperformed
  have hlive : l.stream.isActive = true := hserial.recognizing (by rw [hw]; rfl)
  obtain ⟨hreceived, hsame⟩ := decodePartial_intake settings models l.session
  have htranscript : (l.session.decodePartial settings models).transcript =
      l.session.transcript := decodePartial_transcript l.session
  refine ⟨?_, ?_, fun hinactive => ?_, ?_, fun hopen => ?_⟩
  · exact .tail .decodePartial h.session trivial (if_pos (h.active.trans hlive))
  · exact hsame.trans (h.active.trans hactive.symm)
  · rw [hactive, hlive] at hinactive
    cases hinactive
  · have hnothing : workerPending l.stream.generation (sentencesOf l.workerEvent)
        l.stream.worker = [] := by
      rw [hw]
      rfl
    have htold := h.told
    simp only [LiveStream.told, hnothing] at htold
    dsimp only
    rw [htranscript, hclient]
    simp only [LiveStream.told, sentencesOf, Option.toList_none, List.flatMap_nil, hpending,
      hclient]
    exact htold
  · have haudio := h.audio (hclient ▸ hopen)
    rw [hw] at haudio
    dsimp only
    rw [hfed, haudio, hhand, hreceived]
    rfl

/-- The event of `stop_session` is sent if it has any sentence, and nothing else is on its way. -/
theorem told_stopSession (hidle : l.stream.worker.holdsChunk = false) (session : Session)
    (sentences : List LockedSentence) (durationMs : ℤ) (isFinal : Bool) :
    { l with
      session := session
      clientEvent := some (offlineEvent sentences durationMs isFinal)
      stream := l.stream.stopSession (offlineEvent sentences durationMs isFinal).hasContent }.told =
      l.received.flatMap OfflineEvent.sentences ++ sentences := by
  have hnothing := workerPending_of_idle hidle
  have hevent : sentencesOf (some (offlineEvent sentences durationMs isFinal)) = sentences :=
    List.append_nil _
  simp only [LiveStream.told, Stream.State.stopSession, hnothing, hevent, List.append_nil]
  cases hcontent : (offlineEvent sentences durationMs isFinal).hasContent with
  | true => rfl
  | false => rw [sentences_of_hasContent hcontent]; rfl

theorem Delivers.endFinish (h : Delivers settings models l) (hserial : Stream.Serial l.stream)
    (hcount : Stream.Counted l.stream) (hc : l.stream.client = .finishing)
    {content : Option Bool} {performed : LiveStream}
    (hperformed : l.endFinish settings models content = some performed) :
    (∃ event, content = some event ∧ Delivers settings models
      { performed with stream := l.stream.stopSession event }) ∨
    content = none ∧ Delivers settings models
      { performed with stream := { l.stream with sessionLock := none }.close } := by
  have hlive : l.session.isActive = true := h.active.trans (hserial.finishing (by rw [hc]; rfl))
  have hidle := hserial.idle hcount (by rw [hc]; rfl)
  have hnothing := workerPending_of_idle hidle
  obtain ⟨hreceived, hsame⟩ := finish_intake settings models l.session
  have hlocks : l.session.transcript.Locks (l.session.finish settings models).1.transcript :=
    finish_locks l.session
  have hcursor := cursor_le h.session
  have hlocked := h.told.locks hcursor hlocks
  have hfinished : Session.Reachable settings models
      { (l.session.finish settings models).1 with
        isActive := (l.session.finish settings models).1.isActive &&
          !(l.session.finish settings models).2 } :=
    .tail .finish h.session trivial (if_pos hlive)
  have haudio := h.audio (by rw [hc]; rfl)
  have hsent : l.told = l.received.flatMap OfflineEvent.sentences := by
    simp only [LiveStream.told, hnothing, hc, clientPending, List.append_nil]
  rw [hc, hsent] at hlocked
  rw [inHand_of_idle hidle, List.append_nil] at haudio
  unfold LiveStream.endFinish at hperformed
  dsimp only at hperformed
  split at hperformed
  · next hreturned =>
    left
    obtain ⟨hcontent, hperformed⟩ := Option.ite_none_right_eq_some.mp hperformed
    obtain rfl := Option.some.inj hperformed
    rw [hreturned, Bool.not_true, Bool.and_false] at hfinished
    refine ⟨_, hcontent, ?_, rfl, fun _ => rfl, ?_, fun _ => ?_⟩
    · exact .tail .buildOfflineEvent hfinished trivial rfl
    · have htold := told_stopSession hidle
      unfold buildOfflineEvent
      dsimp only
      rw [htold]
      exact hlocked.consume ⟨rfl, rfl⟩
    · dsimp only [Stream.State.stopSession]
      rw [inHand_of_idle hidle, List.append_nil, haudio]
      exact hreceived.symm
  · next hraised =>
    right
    obtain ⟨hcontent, hperformed⟩ := Option.ite_none_right_eq_some.mp hperformed
    obtain rfl := Option.some.inj hperformed
    rw [Bool.not_eq_true] at hraised
    rw [hraised, Bool.not_false, Bool.and_true] at hfinished
    refine ⟨hcontent, hfinished, hsame.trans h.active, fun hinactive => ?_, ?_, fun hopen => ?_⟩
    · cases (h.active.symm.trans hlive).symm.trans hinactive
    · have hclosed : (finish settings models l.session).1.transcript.Told (Lossless .closing)
          (l.received.flatMap OfflineEvent.sentences) :=
        hlocked.mono fun hopen => by cases hopen.2
      have htold : { l with
          session := (finish settings models l.session).1
          stream := { l.stream with sessionLock := none }.close }.told =
            l.received.flatMap OfflineEvent.sentences := by
        simp only [LiveStream.told, Stream.State.close, hnothing, clientPending, List.append_nil]
      exact htold ▸ hclosed
    · cases hopen

/-- The client has sent an event; after a recognition event only `stopped` is left. -/
theorem Delivers.clientSent (h : Delivers settings models l) (hserial : Stream.Serial l.stream)
    (hcount : Stream.Counted l.stream) (hgen : Stream.Generations l.stream)
    {event : Stream.Event (List UInt8)} {rest : List (Stream.Event (List UInt8))}
    (hc : l.stream.client = .sending event rest) {performed : LiveStream}
    (hperformed : l.perform settings models (.clientSent true) = some performed) :
    Delivers settings models { performed with stream := l.stream.sentNext event rest } := by
  have hclient := hgen.client
  rw [hc] at hclient
  have hnext :
      clientPending (sentencesOf l.clientEvent) (l.stream.sentNext event rest).client = [] ∧
        Lossless (l.stream.sentNext event rest).client := by
    rcases l.stream.sentNext_client event rest with ⟨hnext, -⟩ | ⟨next, more, hcons, hnext⟩
    · rw [hnext]
      exact ⟨rfl, ⟨rfl, rfl⟩⟩
    · rw [hnext, hclient.2 next (hcons ▸ List.mem_cons_self ..)]
      exact ⟨rfl, ⟨rfl, rfl⟩⟩
  have hopen : l.stream.client.isClosing = false := by
    rw [hc]
    rfl
  have hlossless : Lossless l.stream.client := by
    rw [hc]
    exact ⟨rfl, rfl⟩
  unfold perform at hperformed
  rw [hc] at hperformed
  cases event with
  | recognition payload =>
    obtain rfl := Option.some.inj hperformed
    have hidle := hserial.idle hcount (by rw [hc]; rfl)
    have hnothing := workerPending_of_idle hidle
    refine h.same_session rfl rfl ?_ fun _ => h.audio hopen
    have htold : { l.receive l.clientEvent with
        stream := l.stream.sentNext (.recognition payload) rest }.told = l.told := by
      have hnow : clientPending (sentencesOf l.clientEvent) l.stream.client =
          sentencesOf l.clientEvent := by rw [hc]; rfl
      have hafter : workerPending (l.stream.sentNext (.recognition payload) rest).generation
          (sentencesOf l.workerEvent) (l.stream.sentNext (.recognition payload) rest).worker = [] :=
        hnothing _ _
      simp only [LiveStream.told, receive, hnow, hnext.1, hafter, hnothing, List.flatMap_append,
        List.append_nil]
      rfl
    rw [htold]
    exact h.told.mono fun _ => hlossless
  | _ =>
    obtain rfl := Option.some.inj hperformed
    refine h.client_step rfl rfl rfl rfl ?_ (fun _ => hlossless) fun _ => hopen
    rw [hnext.1, hc]
    rfl

/-- The worker has sent its payload. -/
theorem Delivers.payloadSent (h : Delivers settings models l) (hserial : Stream.Serial l.stream)
    (hcount : Stream.Counted l.stream) {payload : Stream.Payload (List UInt8)}
    (hw : l.stream.worker = .sendingPayload payload) {stream : Stream.State (List UInt8)}
    (hclient : stream.client = l.stream.client) (hactive : stream.isActive = l.stream.isActive)
    (hfed : stream.fed = l.stream.fed) (hidle : stream.worker.holdsChunk = false) :
    Delivers settings models { l.receive l.workerEvent with stream := stream } := by
  have hpending := clientPending_of_busy hserial hcount (by rw [hw]; rfl)
  have hnothing := workerPending_of_idle hidle
  refine h.same_session rfl hactive ?_ fun hopen => ?_
  · have hnow : workerPending l.stream.generation (sentencesOf l.workerEvent) l.stream.worker =
        sentencesOf l.workerEvent := by
      rw [hw]
      rfl
    have htold : { l.receive l.workerEvent with stream := stream }.told = l.told := by
      simp only [LiveStream.told, receive, hnow, hclient, hpending, hnothing, List.flatMap_append,
        List.append_nil]
      rfl
    rw [htold]
    exact h.told.mono fun hlossless => hclient ▸ hlossless
  · have haudio := h.audio (hclient ▸ hopen)
    rw [hw] at haudio
    dsimp only [receive]
    rw [hfed, haudio, inHand_of_idle hidle]
    rfl

/-- The worker has done with a chunk and holds no event of the current generation. -/
theorem Delivers.worker_done (h : Delivers settings models l)
    (hnothing : workerPending l.stream.generation (sentencesOf l.workerEvent) l.stream.worker = [])
    (hhand : inHand l.chunk l.stream.worker = []) {stream : Stream.State (List UInt8)}
    (hclient : stream.client = l.stream.client)
    (hgeneration : stream.generation = l.stream.generation)
    (hactive : stream.isActive = l.stream.isActive) (hfed : stream.fed = l.stream.fed)
    (hidle : stream.worker.holdsChunk = false) :
    Delivers settings models { l with stream := stream } := by
  refine h.worker_step hclient hgeneration hactive ?_ fun haudio => ?_
  · rw [workerPending_of_idle hidle, hnothing]
  · rw [hfed, haudio, hhand, inHand_of_idle hidle]

theorem Delivers.beginAudio (h : Delivers settings models l) {generation : ℕ} {data : List UInt8}
    (hw : l.stream.worker = .processAudio generation data) :
    Delivers settings models
      { l.beginAudio generation data with stream := l.stream.beginAudio generation data } := by
  unfold LiveStream.beginAudio Stream.State.beginAudio
  rw [h.active]
  split
  · exact h.worker_done (by rw [hw]; rfl) (by rw [hw]; rfl) rfl rfl rfl rfl (holdsChunk_loop _)
  · refine h.worker_step rfl rfl rfl (by rw [hw]; rfl) fun haudio => ?_
    rw [hw] at haudio
    have hfed : l.stream.fed.flatMap samplesOf = l.session.received :=
      haudio.trans (List.append_nil _)
    simp only [List.flatMap_append, hfed, List.flatMap_cons, List.flatMap_nil, List.append_nil,
      inHand]

theorem Delivers.beginSend (h : Delivers settings models l) {generation : ℕ}
    {payload : Stream.Payload (List UInt8)}
    (hw : l.stream.worker = .sendIfCurrent generation payload) :
    Delivers settings models { l with stream := l.stream.beginSend generation payload } := by
  unfold Stream.State.beginSend
  split
  · next hstale =>
    exact h.worker_done (by rw [hw]; exact if_neg hstale) (by rw [hw]; rfl) rfl rfl rfl rfl
      (holdsChunk_loop _)
  · next hcurrent =>
    refine h.worker_step rfl rfl rfl ?_ fun haudio => ?_
    · rw [hw]
      exact (if_pos (not_not.mp hcurrent)).symm
    · rw [hw] at haudio
      exact haudio

/-- One step of a stream with its session, when the worker's payloads can be sent. -/
theorem Delivers.step (h : Delivers settings models l)
    (hreach : Stream.Reachable queueMaxChunks l.stream) (hsent : PayloadSent l a)
    (hstep : LiveStream.step settings models queueMaxChunks l a = some l') :
    Delivers settings models l' := by
  obtain ⟨hlocks, hcount, hgen⟩ := Stream.invariants hreach
  have hserial := Stream.serial hreach
  obtain ⟨stream, performed, hstream, hperformed, rfl⟩ := step_cases hstep
  cases a with
  | receive message notice =>
    obtain rfl := Option.some.inj hperformed
    simp only [Stream.step] at hstream
    split at hstream
    · next hc =>
      obtain rfl := Option.some.inj hstream
      exact h.dispatch hgen hc notice message
    · cases hstream
  | acquireStart =>
    simp only [Stream.step] at hstream
    split at hstream
    · next generation hc hl =>
      obtain rfl := Option.some.inj hstream
      simp only [perform, hc] at hperformed
      obtain rfl := Option.some.inj hperformed
      exact h.reset hlocks hgen hc hl
    · cases hstream
  | joined =>
    obtain rfl := Option.some.inj hperformed
    simp only [Stream.step] at hstream
    split at hstream
    · next hc hu =>
      obtain rfl := Option.some.inj hstream
      exact h.client_step rfl rfl rfl rfl (by rw [hc]; rfl) (fun _ => by rw [hc]; exact ⟨rfl, rfl⟩)
        (fun _ => by rw [hc]; rfl)
    · cases hstream
  | acquireStop =>
    obtain rfl := Option.some.inj hperformed
    simp only [Stream.step] at hstream
    split at hstream
    · next hc hl =>
      obtain rfl := Option.some.inj hstream
      unfold Stream.State.finishSession
      split
      · exact h.client_step rfl rfl rfl rfl (by rw [hc]; rfl)
          (fun _ => by rw [hc]; exact ⟨rfl, rfl⟩) (fun _ => by rw [hc]; rfl)
      · exact h.client_step rfl rfl rfl rfl (by rw [hc]; rfl)
          (fun _ => by rw [hc]; exact ⟨rfl, rfl⟩) (fun _ => by rw [hc]; rfl)
    · cases hstream
  | finished content =>
    simp only [Stream.step] at hstream
    split at hstream
    · next content hc =>
      obtain rfl := Option.some.inj hstream
      rcases h.endFinish hserial hcount hc hperformed with ⟨event, heq, hdelivers⟩ | ⟨hnone, -⟩
      · obtain rfl := Option.some.inj heq
        exact hdelivers
      · cases hnone
    · next hc =>
      obtain rfl := Option.some.inj hstream
      rcases h.endFinish hserial hcount hc hperformed with ⟨event, hsome, -⟩ | ⟨-, hdelivers⟩
      · cases hsome
      · exact hdelivers
    · cases hstream
  | clientLock =>
    obtain rfl := Option.some.inj hperformed
    simp only [Stream.step] at hstream
    split at hstream
    · next event rest hc hl =>
      obtain rfl := Option.some.inj hstream
      refine h.client_step rfl rfl rfl rfl ?_ (fun _ => by rw [hc]; exact ⟨rfl, rfl⟩)
        (fun _ => by rw [hc]; rfl)
      rw [hc]
      cases event <;> rfl
    · cases hstream
  | clientSent ok =>
    simp only [Stream.step] at hstream
    split at hstream
    · next event rest hc =>
      obtain rfl := Option.some.inj hstream
      cases ok with
      | true => exact h.clientSent hserial hcount hgen hc hperformed
      | false =>
        obtain rfl := Option.some.inj hperformed
        exact h.closing rfl rfl rfl (told_next_generation hgen rfl rfl rfl)
    · cases hstream
  | workerAwaited =>
    obtain rfl := Option.some.inj hperformed
    simp only [Stream.step] at hstream
    split at hstream
    · next hc hw =>
      obtain rfl := Option.some.inj hstream
      refine h.closing rfl rfl rfl ?_
      simp only [LiveStream.told, hc, clientPending]
      exact List.prefix_refl _
    · cases hstream
  | timeout =>
    obtain rfl := Option.some.inj hperformed
    simp only [Stream.step] at hstream
    split at hstream
    · next hw =>
      obtain rfl := Option.some.inj hstream
      exact h.worker_done (by rw [hw]; rfl) (by rw [hw]; rfl) rfl rfl rfl rfl (holdsChunk_loop _)
    · cases hstream
  | take =>
    obtain rfl := Option.some.inj hperformed
    simp only [Stream.step] at hstream
    split at hstream
    · next generation data rest hw hq =>
      obtain rfl := Option.some.inj hstream
      refine h.worker_step rfl rfl rfl (by rw [hw]; rfl) fun haudio => ?_
      rw [hw] at haudio
      exact haudio
    · cases hstream
  | acquireProcess =>
    simp only [Stream.step] at hstream
    split at hstream
    · next generation data hw hl =>
      obtain rfl := Option.some.inj hstream
      simp only [perform, hw] at hperformed
      obtain rfl := Option.some.inj hperformed
      exact h.beginAudio hw
    · cases hstream
  | audioAdded result =>
    simp only [Stream.step] at hstream
    split at hstream
    · next generation hw =>
      obtain rfl := Option.some.inj hstream
      simp only [perform, hw] at hperformed
      exact h.endAudio hserial hcount hgen hw hperformed
    · cases hstream
  | partialDecoded content =>
    simp only [Stream.step] at hstream
    split at hstream
    · next generation content hw =>
      obtain rfl := Option.some.inj hstream
      unfold Stream.State.leaveProcess
      cases content with
      | true => exact h.endPartial hserial hw hperformed rfl rfl rfl (ite_self _) fun _ => rfl
      | false =>
        exact h.endPartial hserial hw hperformed rfl rfl rfl (workerPending_loop ..)
          fun _ => inHand_loop ..
    · next generation hw =>
      obtain rfl := Option.some.inj hstream
      exact h.endPartial hserial hw hperformed rfl rfl rfl rfl fun _ => rfl
    · cases hstream
  | acquireSend =>
    obtain rfl := Option.some.inj hperformed
    simp only [Stream.step] at hstream
    split at hstream
    · next generation payload hw hl =>
      obtain rfl := Option.some.inj hstream
      exact h.beginSend hw
    · cases hstream
  | workerLock =>
    obtain rfl := Option.some.inj hperformed
    simp only [Stream.step] at hstream
    split at hstream
    · next payload hw hl =>
      obtain rfl := Option.some.inj hstream
      refine h.worker_step rfl rfl rfl (by rw [hw]; rfl) fun haudio => ?_
      rw [hw] at haudio
      exact haudio
    · next hw hl =>
      obtain rfl := Option.some.inj hstream
      refine h.worker_step rfl rfl rfl (by rw [hw]; rfl) fun haudio => ?_
      rw [hw] at haudio
      exact haudio
    · cases hstream
  | workerSent ok =>
    simp only [Stream.step, Stream.State.endSend] at hstream
    split at hstream
    · next payload hw =>
      obtain rfl := Option.some.inj hstream
      cases ok with
      | true =>
        simp only [perform, hw] at hperformed
        obtain rfl := Option.some.inj hperformed
        exact h.payloadSent hserial hcount hw rfl rfl rfl (holdsChunk_loop _)
      | false => exact absurd rfl (hsent payload hw)
    · next hw =>
      obtain rfl := Option.some.inj hstream
      cases ok with
      | true =>
        simp only [perform, hw] at hperformed
        obtain rfl := Option.some.inj hperformed
        exact h.worker_done (by rw [hw]; rfl) (by rw [hw]; rfl) rfl rfl rfl rfl (holdsChunk_loop _)
      | false =>
        obtain rfl := Option.some.inj hperformed
        exact h.worker_done (by rw [hw]; rfl) (by rw [hw]; rfl) rfl rfl rfl rfl rfl
    · cases hstream
  | cancelled =>
    obtain rfl := Option.some.inj hperformed
    simp only [Stream.step] at hstream
    split at hstream
    · next hc =>
      obtain rfl := Option.some.inj hstream
      refine h.closing rfl l.stream.cancelWorker_isActive ?_ ?_
      · dsimp only
        rw [l.stream.cancelWorker_client, hc]
        rfl
      · simp only [LiveStream.told, l.stream.cancelWorker_worker, l.stream.cancelWorker_client, hc,
          workerPending, clientPending, List.append_nil]
        exact List.prefix_append ..
    · cases hstream

theorem Reachable.delivers (h : Reachable settings models queueMaxChunks l) :
    Delivers settings models l := by
  refine (Machine.Reach.invariant (I := fun l => Reachable settings models queueMaxChunks l ∧
    Delivers settings models l) h ⟨.refl, delivers_initial⟩ ?_).2
  rintro l a l' ⟨hreach, hdelivers⟩ hsent hstep
  exact ⟨.tail a hreach hsent hstep, hdelivers.step hreach.stream hsent hstep⟩

/-- Over every interleaving of the client with the worker, whatever the VAD and the models answer
and wherever they raise: when the controller waits for the next message and the session is not
active, that is, when the last `STOP` has been answered, the client has received every locked
sentence once and in order, with its times and with all that the transcript says in its place; and
the session has received the audio of every chunk that was accepted since the last `START`, once
and in order. -/
theorem stopped_delivers (h : Reachable settings models queueMaxChunks l)
    (hc : l.stream.client = .receive) (hinactive : l.stream.isActive = false) :
    List.Forall₂ LockedSentence.Remains (l.received.flatMap OfflineEvent.sentences)
        l.session.transcript.lockedSentences ∧
      l.session.received =
        (Stream.acceptedIn (Stream.starts l.stream.trace) l.stream.trace).flatMap samplesOf := by
  have hdelivers := h.delivers
  obtain ⟨-, hcount, hgen⟩ := Stream.invariants h.stream
  obtain ⟨hqueue, hidle⟩ := hcount.of_zero ((Stream.serial h.stream).inactive hinactive)
  constructor
  · obtain ⟨k, -, hall, htold⟩ := hdelivers.told
    have hlossless : Lossless l.stream.client := by
      rw [hc]
      exact ⟨rfl, rfl⟩
    rw [hall hlossless, hdelivers.consumed hinactive, List.take_length] at htold
    simp only [LiveStream.told, workerPending_of_idle hidle, hc, clientPending,
      List.append_nil] at htold
    exact htold
  · obtain ⟨hopen, hflow, -⟩ := hgen.at_client hc rfl
    have hfed := hflow.fed_eq (by rw [hc]; rfl)
    have hconserved := hflow.conserved
    have haudio := hdelivers.audio hopen
    rw [Stream.WorkerPc.pending_of_idle _ hidle, hqueue, List.map_nil, List.append_nil,
      List.append_nil] at hconserved
    rw [inHand_of_idle hidle, List.append_nil, hfed, hconserved] at haudio
    exact haudio.symm

/-- Two chunks of one second: the first closes a segment, the second only yields a partial result,
and `STOP` arrives while it is being recognized. -/
def twoChunkRun : List (Stream.Action (List UInt8)) :=
  [.clientLock, .clientSent true, .receive .start true, .acquireStart, .clientLock,
    .clientSent true, .receive (.bytes (List.replicate 20 1)) true, .take, .acquireProcess,
    .audioAdded (.locked true), .acquireSend, .workerLock, .workerSent true,
    .receive (.bytes (List.replicate 20 2)) true, .take, .acquireProcess, .receive .stop true,
    .audioAdded (.unlocked true), .partialDecoded (some true), .acquireSend, .workerLock,
    .workerSent true, .joined, .acquireStop, .finished (some true), .clientLock, .clientSent true,
    .clientLock, .clientSent true]

/-- The client receives the sentence of the first segment and that of the rest. -/
theorem twoChunkRun_delivers :
    ∃ l, (machine slowSettings scriptedModels 2).run initial twoChunkRun = some l ∧
      (l.received.flatMap OfflineEvent.sentences).map (fun s => (s.startMs, s.endMs)) =
        [(200, 700), (1200, 2000)] ∧
      List.Forall₂ LockedSentence.Remains (l.received.flatMap OfflineEvent.sentences)
        l.session.transcript.lockedSentences := by
  have hsome : ((machine slowSettings scriptedModels 2).run initial twoChunkRun).any (fun l =>
      decide ((l.received.flatMap OfflineEvent.sentences).map (fun s => (s.startMs, s.endMs)) =
        [(200, 700), (1200, 2000)]) && !l.stream.isActive && l.stream.isReceiving) = true := by
    decide +kernel
  cases hrun : (machine slowSettings scriptedModels 2).run initial twoChunkRun with
  | none =>
    rw [hrun] at hsome
    cases hsome
  | some l =>
    rw [hrun, Option.any_some, Bool.and_eq_true, Bool.and_eq_true] at hsome
    obtain ⟨⟨htimes, hinactive⟩, hclient⟩ := hsome
    have hreach : Reachable slowSettings scriptedModels 2 l :=
      Machine.Reach.of_run twoChunkRun
        (fun a ha t payload _ hfailed => by simp [hfailed, twoChunkRun] at ha) hrun
    refine ⟨l, rfl, of_decide_eq_true htimes, ?_⟩
    have hc := Stream.State.of_isReceiving hclient
    exact (stopped_delivers hreach hc (by simpa using hinactive)).1

end FunasrApi.Online.LiveStream
