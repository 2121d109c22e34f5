import FunasrApi.Online.Stream.GenerationSteps

/-!
# When the session of a stream is used

The client speaks one message at a time, and `stop_session` waits for the queue before it ends the
session. So no chunk is on its way while the session is ended or not active, and the worker calls
an active session only.
-/

namespace FunasrApi.Online.Stream

open FunasrApi.Core

variable {Audio : Type*} {queueMaxChunks : ℕ} {s t : State Audio} {a : Action Audio}

/-- `stop_session` between `join()` and the send of its offline event. -/
def ClientPc.isStopping : ClientPc Audio → Bool
  | .stopSession | .finishing | .send (.recognition _) _ | .sending (.recognition _) _ => true
  | _ => false

/-- The worker is in a call of the session. -/
def WorkerPc.isRecognizing : WorkerPc Audio → Bool
  | .addAudio _ | .decodePartial _ => true
  | _ => false

/-- The route waits for the next frame. -/
def State.isReceiving (s : State Audio) : Bool :=
  match s.client with
  | .receive => true
  | _ => false

theorem State.of_isReceiving (h : s.isReceiving = true) : s.client = .receive := by
  unfold State.isReceiving at h
  split at h
  · assumption
  · cases h

/-- Without an active session, and while the client ends it, no chunk is on its way; and calls of
the session are made while it is active. -/
structure Serial (s : State Audio) : Prop where
  quiet : s.client.isStopping = true → s.unfinished = 0
  inactive : s.isActive = false → s.unfinished = 0
  recognizing : s.worker.isRecognizing = true → s.isActive = true
  finishing : s.client.inSession = true → s.isActive = true

theorem WorkerPc.isRecognizing_loop (stopWorker : Bool) :
    (WorkerPc.loop stopWorker : WorkerPc Audio).isRecognizing = false := by
  cases stopWorker <;> rfl

/-- A step of the worker that only marks chunks as done. -/
theorem Serial.worker_step (h : Serial s) (hclient : t.client = s.client)
    (hactive : t.isActive = s.isActive) (hunfinished : t.unfinished ≤ s.unfinished)
    (hworker : t.worker.isRecognizing = true → s.worker.isRecognizing = true) : Serial t := by
  refine ⟨fun hstopping => ?_, fun hidle => ?_,
    fun hbusy => hactive ▸ h.recognizing (hworker hbusy),
    fun hin => hactive ▸ h.finishing (hclient ▸ hin)⟩
  · have := h.quiet (hclient ▸ hstopping)
    omega
  · have := h.inactive (hactive ▸ hidle)
    omega

/-- A step of the client outside of the session. -/
theorem Serial.client_step (h : Serial s) (hworker : t.worker = s.worker)
    (hactive : s.isActive = true → t.isActive = true)
    (hunfinished : t.unfinished ≤ s.unfinished ∨ t.isActive = true)
    (hstopping : t.client.isStopping = true → t.unfinished = 0)
    (hin : t.client.inSession = true → t.isActive = true) : Serial t := by
  refine ⟨hstopping, fun hidle => ?_, fun hbusy => hactive (h.recognizing (hworker ▸ hbusy)), hin⟩
  rcases hunfinished with hle | hlive
  · have hbefore : s.isActive = false := by
      by_contra hlive
      rw [hactive (by simpa using hlive)] at hidle
      cases hidle
    have := h.inactive hbefore
    omega
  · rw [hlive] at hidle
    cases hidle

theorem Serial.move (h : Serial s) (hlocks : Locks s) (hgen : Generations s)
    (hm : Move queueMaxChunks s a t) : Serial t := by
  cases hm with
  | idle => exact h
  | start =>
    exact h.client_step rfl id (.inl (Nat.sub_le ..)) (fun hc => by cases hc)
      (fun hc => by cases hc)
  | stop | disconnect | superseded | finishRaised | clientRaised | closed =>
    exact h.client_step rfl id (.inl (Nat.le_refl _)) (fun hc => by cases hc)
      (fun hc => by cases hc)
  | reset =>
    exact h.client_step rfl (fun _ => rfl) (.inr rfl) (fun hc => by cases hc)
      (fun hc => by cases hc)
  | reply event hc he =>
    refine h.client_step rfl id (.inl (Nat.le_refl _)) (fun hstopping => ?_)
      (fun hin => by cases hin)
    cases event with
    | recognition payload => cases he
    | _ => cases hstopping
  | enqueue data hc ha =>
    have hout : s.client.isStopping = false ∧ s.client.inSession = false := by
      rw [hc]
      exact ⟨rfl, rfl⟩
    refine h.client_step rfl id (.inr ha) (fun hstopping => ?_) (fun hin => ?_)
    · exact absurd hstopping (by rw [hout.1]; decide)
    · exact absurd hin (by rw [hout.2]; decide)
  | joined hc hu =>
    exact h.client_step rfl id (.inl (Nat.le_refl _)) (fun _ => hu) (fun hin => by cases hin)
  | finish hc hl ha =>
    exact h.client_step rfl id (.inl (Nat.le_refl _)) (fun _ => h.quiet (by rw [hc]; rfl))
      (fun _ => ha)
  | finished content hc =>
    have hidle := hlocks.exclusive (by rw [hc]; rfl)
    have hzero : s.unfinished = 0 := h.quiet (by rw [hc]; rfl)
    refine ⟨fun _ => hzero, fun _ => hzero, fun hbusy => ?_, fun hin => ?_⟩
    · have hworker : s.worker.inSession = true := by
        change s.worker.isRecognizing = true at hbusy
        cases hw : s.worker <;> rw [hw] at hbusy <;> first | rfl | cases hbusy
      rw [hidle] at hworker
      cases hworker
    · unfold State.stopSession at hin
      cases content <;> cases hin
  | clientLock event rest hc =>
    refine h.client_step rfl id (.inl (Nat.le_refl _)) (fun hstopping => h.quiet ?_)
      (fun hin => by cases hin)
    rw [hc]
    cases event <;> exact hstopping
  | clientSent event rest hc =>
    have hrest : ∀ e ∈ rest, e = .stopped := by
      have hclient := hgen.client
      rw [hc] at hclient
      exact hclient.2
    have hout : (s.sentNext event rest).client.isStopping = false ∧
        (s.sentNext event rest).client.inSession = false := by
      rcases s.sentNext_client event rest with ⟨hnext, -⟩ | ⟨next, more, hcons, hnext⟩
      · rw [hnext]
        exact ⟨rfl, rfl⟩
      · rw [hnext, hrest next (hcons ▸ List.mem_cons_self ..)]
        exact ⟨rfl, rfl⟩
    refine h.client_step rfl id (.inl (Nat.le_refl _)) (fun hstopping => ?_) (fun hin => ?_)
    · exact absurd hstopping (by rw [hout.1]; decide)
    · exact absurd hin (by rw [hout.2]; decide)
  | take | sessionRaised | payload | current | payloadLock | payloadRaised | reportLock =>
    exact h.worker_step rfl rfl (Nat.le_refl _) (fun hbusy => by cases hbusy)
  | addAudio data hw hl ha => exact ⟨h.quiet, h.inactive, fun _ => ha, h.finishing⟩
  | decodePartial hw => exact h.worker_step rfl rfl (Nat.le_refl _) (fun _ => by rw [hw]; rfl)
  | timeout =>
    exact h.worker_step rfl rfl (Nat.le_refl _) fun hbusy => by
      rw [WorkerPc.isRecognizing_loop] at hbusy
      cases hbusy
  | skip | noPayload | stale | payloadSent | reported =>
    exact h.worker_step rfl rfl (Nat.sub_le ..) fun hbusy => by
      change (WorkerPc.loop s.stopWorker : WorkerPc Audio).isRecognizing = true at hbusy
      rw [WorkerPc.isRecognizing_loop] at hbusy
      cases hbusy
  | reportRaised => exact h.worker_step rfl rfl (Nat.sub_le ..) (fun hbusy => by cases hbusy)
  | cancelled hc =>
    refine h.worker_step s.cancelWorker_client s.cancelWorker_isActive ?_ fun hbusy => ?_
    · rw [s.cancelWorker_unfinished]
      exact Nat.sub_le ..
    · rw [s.cancelWorker_worker] at hbusy
      cases hbusy

/-- While the client ends the session, the worker holds nothing. -/
theorem Serial.idle (h : Serial s) (hcount : Counted s) (hstopping : s.client.isStopping = true) :
    s.worker.holdsChunk = false :=
  (hcount.of_zero (h.quiet hstopping)).2

theorem serial (h : Reachable queueMaxChunks s) : Serial s := by
  refine (Machine.Reach.invariant (I := fun s => Reachable queueMaxChunks s ∧ Serial s) h ?_ ?_).2
  · exact ⟨.refl, (fun hc => by cases hc), (fun _ => rfl), (fun hc => by cases hc),
      (fun hc => by cases hc)⟩
  · rintro s a t ⟨hreach, hserial⟩ - hstep
    obtain ⟨hlocks, -, hgen⟩ := invariants hreach
    exact ⟨.tail a hreach trivial hstep, hserial.move hlocks hgen (move_of_step hstep)⟩

end FunasrApi.Online.Stream
