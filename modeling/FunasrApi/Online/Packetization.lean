import FunasrApi.Online.VadBlocks

/-!
# The VAD does not see the packets

Two clients that send the same audio in different messages make the session feed
its VAD the same blocks. The blocks fed so far and the audio that waits for the
next feed are a cut of the audio received, whatever a finalization trims from
the buffer meanwhile: the trimming never passes the position of the VAD.
-/

namespace FunasrApi.Online.Session

open FunasrApi.Core

variable {settings : SessionSettings} {models : Recognizers} {s s' : Session}
  {blocks : List VadBlock}

/-- The blocks are what the VAD has been fed, each of the full size, and the audio that waits
for the next feed is still in the buffer. -/
structure Fed (settings : SessionSettings) (blocks : List VadBlock) (s : Session) : Prop where
  holds : s.audio.Holds s.received
  start_le : s.audio.startSample ≤ s.vadFedSamples
  vad_le : s.vadFedSamples ≤ s.audio.totalSamples
  not_final : ∀ block ∈ blocks, block.isFinal = false
  cut : CutInto settings.vadChunkSamples.toNat s.received (blocks.map VadBlock.audio)
    (s.received.drop s.vadFedSamples.toNat)

/-- A new session has fed nothing. -/
theorem fed_fresh (calls : ℕ) (isActive : Bool) :
    Fed settings [] { fresh calls with isActive := isActive } :=
  ⟨ChunkedAudioBuffer.holds_empty, le_rfl, le_rfl, fun _ hb => absurd hb List.not_mem_nil,
    .nil _ _⟩

/-- Only the audio and the position of the VAD matter. -/
theorem Fed.congr (h : Fed settings blocks s) (haudio : s'.audio = s.audio)
    (hreceived : s'.received = s.received) (hfed : s'.vadFedSamples = s.vadFedSamples) :
    Fed settings blocks s' := by
  constructor
  · rw [haudio, hreceived]
    exact h.holds
  · rw [haudio, hfed]
    exact h.start_le
  · rw [haudio, hfed]
    exact h.vad_le
  · exact h.not_final
  · rw [hreceived, hfed]
    exact h.cut

/-- A finalization trims the buffer up to the position of the VAD at most. -/
theorem Fed.finalized (h : Fed settings blocks s) {segment : Segment}
    (hf : Finalized settings s segment s') : Fed settings blocks s' := by
  obtain ⟨keep, haudio, hkeep⟩ := hf.audio
  have hdrop := s.audio.dropBefore_startSample_le keep
  have hstart0 := h.holds.startSample_nonneg
  have hstart := h.start_le
  have hvad := hf.vadFedSamples
  constructor
  · rw [haudio, hf.received]
    exact h.holds.dropBefore keep
  · rw [haudio]
    omega
  · rw [haudio, ChunkedAudioBuffer.dropBefore_totalSamples, hvad]
    exact h.vad_le
  · exact h.not_final
  · rw [hf.received, hvad]
    exact h.cut

/-- Nothing that happens to the queue changes what the VAD has been fed, or loses audio that it
is still to be fed. The last three fields of the law are those that stay the same. -/
theorem fedLaw (settings : SessionSettings) (blocks : List VadBlock) (fedSamples : ℤ)
    (received : List Sample) :
    QueueLaw settings fun _ s =>
      Fed settings blocks s ∧ s.vadFedSamples = fedSamples ∧ s.received = received where
  coalesced h _ := h
  finalized h hf :=
    ⟨h.1.finalized hf, hf.vadFedSamples.trans h.2.1, hf.received.trans h.2.2⟩
  afterFlush _ h := ⟨h.1.congr rfl rfl rfl, h.2.1, h.2.2⟩

/-- New audio waits for the next feed. -/
theorem Fed.appendAudioChunk (h : Fed settings blocks s) (audio : List Sample) :
    Fed settings blocks (s.appendAudioChunk audio) := by
  obtain ⟨hholds, hstart⟩ := h.holds.append audio
  have htotal := h.holds.totalSamples_eq
  have hle := h.vad_le
  refine ⟨hholds, ?_, ?_, h.not_final, ?_⟩
  · show (s.audio.append audio).startSample ≤ s.vadFedSamples
    rw [hstart]
    exact h.start_le
  · show s.vadFedSamples ≤ (s.audio.append audio).totalSamples
    rw [hholds.totalSamples_eq, List.length_append]
    omega
  · show CutInto _ (s.received ++ audio) _ ((s.received ++ audio).drop s.vadFedSamples.toNat)
    rw [List.drop_append_of_le_length (by omega)]
    exact h.cut.append audio

/-- The next block is what comes after the position of the VAD. -/
theorem Fed.slice_eq (h : Fed settings blocks s) (stop : ℤ) (hstop : s.vadFedSamples ≤ stop) :
    s.audio.slice s.vadFedSamples stop =
      (s.received.drop s.vadFedSamples.toNat).take (stop - s.vadFedSamples).toNat := by
  have hstart := h.start_le
  have h0 := h.holds.startSample_nonneg
  rw [h.holds.slice_eq (by omega), samplesBetween, List.drop_take]
  congr 1
  omega

/-- A round of the loop feeds one more full block. -/
theorem Fed.round (h : Fed settings blocks s) (models : Recognizers)
    (hmore : settings.vadChunkSamples ≤ s.audio.totalSamples - s.vadFedSamples) :
    Fed settings (blocks ++
        [⟨s.audio.slice s.vadFedSamples (s.vadFedSamples + settings.vadChunkSamples), false⟩])
      { (s.feedVad models (s.audio.slice s.vadFedSamples
          (s.vadFedSamples + settings.vadChunkSamples)) false
          (s.vadFedSamples + settings.vadChunkSamples)).2 with
        vadFedSamples := s.vadFedSamples + settings.vadChunkSamples } := by
  have hpos := settings.vadChunkSamples_pos
  have hstart := h.start_le
  have h0 := h.holds.startSample_nonneg
  have htotal := h.holds.totalSamples_eq
  have hblock := h.slice_eq (s.vadFedSamples + settings.vadChunkSamples) (by omega)
  refine ⟨h.holds, ?_, ?_, ?_, ?_⟩
  · show s.audio.startSample ≤ s.vadFedSamples + settings.vadChunkSamples
    omega
  · show s.vadFedSamples + settings.vadChunkSamples ≤ s.audio.totalSamples
    omega
  · intro block hb
    rcases List.mem_append.mp hb with hold | hnew
    · exact h.not_final block hold
    · rw [List.mem_singleton.mp hnew]
  · show CutInto _ s.received _
      (s.received.drop (s.vadFedSamples + settings.vadChunkSamples).toNat)
    rw [List.map_append, List.map_singleton]
    have hsplit : s.audio.slice s.vadFedSamples (s.vadFedSamples + settings.vadChunkSamples) ++
        s.received.drop (s.vadFedSamples + settings.vadChunkSamples).toNat =
          s.received.drop s.vadFedSamples.toNat := by
      have hnext : (s.vadFedSamples + settings.vadChunkSamples).toNat =
          s.vadFedSamples.toNat +
            (s.vadFedSamples + settings.vadChunkSamples - s.vadFedSamples).toNat := by omega
      rw [hblock, hnext, ← List.drop_drop, List.take_append_drop]
    refine CutInto.next ?_ ?_
    · rw [hsplit]
      exact h.cut
    · rw [hblock, List.length_take, List.length_drop]
      omega

/-- The loop of `add_audio` feeds all full blocks that there are, if the VAD does not raise. -/
theorem Fed.feedLoop (h : Fed settings blocks s) (hm : models.VadReturns) (rounds : ℕ)
    (hrounds : s.audio.totalSamples - s.vadFedSamples ≤ rounds) (confirmed : List (List ℚ)) :
    ∃ segments,
      (Session.feedLoop settings models rounds confirmed s).1 = some segments ∧
      Fed settings (blocks ++ feedLoopBlocks settings models rounds s)
        (Session.feedLoop settings models rounds confirmed s).2 ∧
      (Session.feedLoop settings models rounds confirmed s).2.audio = s.audio ∧
      (Session.feedLoop settings models rounds confirmed s).2.received = s.received ∧
      s.audio.totalSamples -
        (Session.feedLoop settings models rounds confirmed s).2.vadFedSamples <
          settings.vadChunkSamples := by
  have hpos := settings.vadChunkSamples_pos
  induction rounds generalizing confirmed s blocks with
  | zero =>
    refine ⟨confirmed, rfl, ?_, rfl, rfl, ?_⟩
    · rw [feedLoopBlocks, List.append_nil]
      exact h
    · show s.audio.totalSamples - s.vadFedSamples < _
      omega
  | succ rounds ih =>
    rw [Session.feedLoop, feedLoopBlocks]
    by_cases hmore : settings.vadChunkSamples ≤ s.audio.totalSamples - s.vadFedSamples
    · rw [if_pos hmore, if_pos hmore]
      obtain ⟨segments, hreply⟩ := Option.isSome_iff_exists.mp (hm s.calls
        (s.audio.slice s.vadFedSamples (s.vadFedSamples + settings.vadChunkSamples)) false)
      have hfed := h.round models hmore
      obtain ⟨all, hall, hfed', haudio, hreceived, hshort⟩ :=
        ih hfed (by show s.audio.totalSamples - (s.vadFedSamples + _) ≤ _; omega)
          (confirmed ++ segments)
      rw [List.append_assoc] at hfed'
      simp only [feedVad, hreply] at hall hfed' haudio hreceived hshort ⊢
      exact ⟨all, hall, hfed', haudio, hreceived, hshort⟩
    · rw [if_neg hmore, if_neg hmore, List.append_nil]
      exact ⟨confirmed, rfl, h, rfl, rfl, by dsimp only; omega⟩

section Active

variable (settings models)

/-- Finalizing a segment does not end the session. -/
theorem finalizePendingSegment_isActive (segment : Segment) (rest : List Segment) (s : Session) :
    (finalizePendingSegment settings models segment rest s).1.isActive = s.isActive := by
  obtain ⟨n, hdecoded⟩ := decodeFinalSegment_state settings models
    { s with pendingFinalSegments := rest } segment.start segment.stop
  obtain ⟨t, hlocked, -⟩ := lockText_state settings _
    (.record (decodeFinalSegment settings models { s with pendingFinalSegments := rest }
      segment.start segment.stop).1) segment.start segment.stop none
  change (restartPartial settings (lockText settings _ _ _ _ _) _).isActive = _
  rw [hlocked, hdecoded]
  rfl

theorem flushReadyPendingSegments_isActive (pending : List Segment) (s : Session) :
    (Online.flushReadyPendingSegments (shouldFlush settings)
      (finalizePendingSegment settings models) pending s).state.isActive = s.isActive := by
  refine flushReadyPendingSegments_invariant
    (I := fun _ (t : Session) => t.isActive = s.isActive) ?_ rfl
  intro segment rest t ht
  exact (finalizePendingSegment_isActive settings models segment rest t).trans ht

theorem feedLoop_isActive (rounds : ℕ) (confirmed : List (List ℚ)) (s : Session) :
    (feedLoop settings models rounds confirmed s).2.isActive = s.isActive := by
  induction rounds generalizing confirmed s with
  | zero => rfl
  | succ rounds ih =>
    unfold feedLoop
    split
    · dsimp only
      split
      · rfl
      · exact ih _ _
    · rfl

/-- `add_audio` does not end the session. -/
theorem addAudio_isActive (pcmBytes : List UInt8) (s : Session) :
    (s.addAudio settings models pcmBytes).1.isActive = s.isActive := by
  unfold addAudio
  split
  · rfl
  · split
    · rfl
    · next audio _ =>
      split
      · rfl
      · dsimp only
        split
        · exact flushReadyPendingSegments_isActive settings models _ (s.appendAudioChunk audio)
        · split
          · exact feedLoop_isActive settings models _ _ (s.appendAudioChunk audio)
          · exact (flushReadyPendingSegments_isActive settings models _ _).trans
              (feedLoop_isActive settings models _ _ (s.appendAudioChunk audio))

end Active

/-- Less than a block waits for the next feed. -/
structure Waiting (settings : SessionSettings) (blocks : List VadBlock) (s : Session) : Prop
    extends Fed settings blocks s where
  short : s.received.length - s.vadFedSamples < settings.vadChunkSamples

/-- `add_audio` feeds the full blocks of what it receives, and leaves a part of a block. -/
theorem Waiting.addAudio (h : Waiting settings blocks s) (hm : models.VadReturns)
    {pcmBytes : List UInt8} {audio : List Sample} (hbytes : frombuffer pcmBytes = some audio) :
    Waiting settings (blocks ++ s.addAudioBlocks settings models pcmBytes)
        (s.addAudio settings models pcmBytes).1 ∧
      (s.addAudio settings models pcmBytes).1.received = s.received ++ audio := by
  have hfed := h.toFed.appendAudioChunk audio
  have htotal := hfed.holds.totalSamples_eq
  unfold Session.addAudio addAudioBlocks
  by_cases hempty : pcmBytes.isEmpty = true
  · rw [List.isEmpty_iff.mp hempty] at hbytes ⊢
    obtain rfl : [] = audio := Option.some.inj hbytes
    simp only [List.isEmpty_nil, if_true, frombuffer, List.append_nil]
    exact ⟨h, trivial⟩
  rw [if_neg hempty, hbytes]
  dsimp only
  by_cases hsilent : audio.isEmpty = true
  · obtain rfl := List.isEmpty_iff.mp hsilent
    simp only [List.isEmpty_nil, if_true, List.append_nil]
    exact ⟨h, trivial⟩
  rw [if_neg hsilent, if_neg hsilent]
  by_cases hshort : (s.appendAudioChunk audio).audio.totalSamples -
      (s.appendAudioChunk audio).vadFedSamples < settings.vadChunkSamples
  · rw [if_pos hshort, feedLoopBlocks_short hshort, List.append_nil]
    obtain ⟨hfed', hvad, hreceived⟩ := (fedLaw settings blocks _ _).flushReadyPendingSegments models
      ⟨hfed, rfl, rfl⟩
    refine ⟨⟨hfed', ?_⟩, hreceived⟩
    rw [hvad, hreceived, ← htotal]
    exact hshort
  · rw [if_neg hshort]
    obtain ⟨confirmed, hreply, hfed', haudio, hreceived, hrest⟩ := hfed.feedLoop hm
      ((s.appendAudioChunk audio).audio.totalSamples -
        (s.appendAudioChunk audio).vadFedSamples).toNat (by omega) []
    rw [hreply]
    obtain ⟨hlocked, hvad, hreceived'⟩ := (fedLaw settings _ _ _).lockConfirmedSegments models
      confirmed ⟨hfed', rfl, rfl⟩
    refine ⟨⟨hlocked, ?_⟩, hreceived'.trans hreceived⟩
    rw [hvad, hreceived', hreceived, ← htotal]
    exact hrest

/-- A partial decode feeds the VAD nothing. -/
theorem Waiting.decodePartial (h : Waiting settings blocks s) (models : Recognizers) :
    Waiting settings blocks (s.decodePartial settings models) ∧
      (s.decodePartial settings models).received = s.received ∧
      (s.decodePartial settings models).isActive = s.isActive := by
  unfold Session.decodePartial
  dsimp only
  split
  · exact ⟨h, rfl, rfl⟩
  · split
    · exact ⟨⟨h.toFed.congr rfl rfl rfl, h.short⟩, rfl, rfl⟩
    · exact ⟨⟨h.toFed.congr rfl rfl rfl, h.short⟩, rfl, rfl⟩
    · exact ⟨⟨h.toFed.congr rfl rfl rfl, h.short⟩, rfl, rfl⟩

/-- `finish` feeds what waits, if there is any, and the empty block. -/
theorem Waiting.finishBlocks (h : Waiting settings blocks s) (hm : models.VadReturns) :
    s.finishBlocks models =
      (if (s.received.drop s.vadFedSamples.toNat).isEmpty then []
        else [⟨s.received.drop s.vadFedSamples.toNat, true⟩]) ++ [⟨[], true⟩] := by
  have hrest : s.audio.slice s.vadFedSamples s.audio.totalSamples =
      s.received.drop s.vadFedSamples.toNat := by
    have htotal := h.holds.totalSamples_eq
    have hstart := h.start_le
    have h0 := h.holds.startSample_nonneg
    rw [h.toFed.slice_eq _ h.vad_le, List.take_of_length_le]
    rw [List.length_drop]
    omega
  have hreturned : ∃ confirmed, (s.feedRemaining models).1 = some confirmed := by
    unfold feedRemaining
    dsimp only
    split
    · exact ⟨[], rfl⟩
    · obtain ⟨segments, hreply⟩ := Option.isSome_iff_exists.mp (hm s.calls
        (s.audio.slice s.vadFedSamples s.audio.totalSamples) true)
      simp only [feedVad, hreply]
      exact ⟨segments, rfl⟩
  obtain ⟨confirmed, hconfirmed⟩ := hreturned
  unfold Session.finishBlocks
  rw [hrest, hconfirmed]

/-- The calls between the start and the end of a stream. -/
def Call.IsIntake : Call → Prop
  | .addAudio _ | .decodePartial | .buildOfflineEvent => True
  | .start | .finish => False

/-- A call between the start and the end keeps the cut of what has been received. -/
theorem Waiting.step (h : Waiting settings blocks s) (hm : models.VadReturns)
    (hactive : s.isActive = true) {call : Call} (hcall : call.IsIntake)
    (heven : Even call.message.length) :
    ∃ s' samples, s.step settings models call = some s' ∧
      frombuffer call.message = some samples ∧
      Waiting settings (blocks ++ s.callBlocks settings models call) s' ∧
      s'.received = s.received ++ samples ∧ s'.isActive = true := by
  cases call with
  | start => exact hcall.elim
  | finish => exact hcall.elim
  | addAudio pcmBytes =>
    obtain ⟨audio, hbytes⟩ := exists_frombuffer heven
    obtain ⟨hwaiting, hreceived⟩ := h.addAudio hm hbytes
    refine ⟨_, audio, if_pos hactive, hbytes, ?_, hreceived, ?_⟩
    · rw [callBlocks, if_pos hactive]
      exact hwaiting
    · rw [addAudio_isActive]
      exact hactive
  | decodePartial =>
    obtain ⟨hwaiting, hreceived, hstill⟩ := h.decodePartial models
    refine ⟨_, [], if_pos hactive, rfl, ?_, ?_, hstill.trans hactive⟩
    · show Waiting settings (blocks ++ []) _
      rw [List.append_nil]
      exact hwaiting
    · rw [List.append_nil]
      exact hreceived
  | buildOfflineEvent =>
    refine ⟨_, [], rfl, rfl, ?_, (List.append_nil _).symm, hactive⟩
    show Waiting settings (blocks ++ []) _
    rw [List.append_nil]
    exact ⟨h.toFed.congr rfl rfl rfl, h.short⟩

/-- The blocks of a whole stream are the cut of its audio, a rest, and the empty block. -/
theorem Waiting.runBlocks (h : Waiting settings blocks s) (hm : models.VadReturns)
    (hactive : s.isActive = true) {calls : List Call} (hcalls : ∀ call ∈ calls, call.IsIntake)
    (heven : ∀ call ∈ calls, Even call.message.length) :
    ∃ (samples : List Sample) (full : List VadBlock) (rest : List Sample),
      frombuffer (calls.flatMap Call.message) = some samples ∧
      CutInto settings.vadChunkSamples.toNat (s.received ++ samples)
        ((blocks ++ full).map VadBlock.audio) rest ∧
      rest.length < settings.vadChunkSamples.toNat ∧
      (∀ block ∈ blocks ++ full, block.isFinal = false) ∧
      Session.runBlocks settings models (calls ++ [.finish]) s =
        full ++ ((if rest.isEmpty then [] else [⟨rest, true⟩]) ++ [⟨[], true⟩]) := by
  induction calls generalizing s blocks with
  | nil =>
    refine ⟨[], [], s.received.drop s.vadFedSamples.toNat, rfl, ?_, ?_, ?_, ?_⟩
    · rw [List.append_nil, List.append_nil]
      exact h.cut
    · have hshort := h.short
      have hle := h.vad_le
      have htotal := h.holds.totalSamples_eq
      rw [List.length_drop]
      omega
    · rw [List.append_nil]
      exact h.not_final
    · rw [List.nil_append, runBlocks_singleton, callBlocks, if_pos hactive, h.finishBlocks hm,
        List.nil_append]
  | cons call calls ih =>
    obtain ⟨s', samples, hstep, hbytes, hwaiting, hreceived, hstill⟩ := h.step hm hactive
      (hcalls call (List.mem_cons_self ..)) (heven call (List.mem_cons_self ..))
    obtain ⟨samples', full, rest, hbytes', hcut, hrest, hfinal, hblocks⟩ := ih hwaiting hstill
      (fun c hc => hcalls c (List.mem_cons_of_mem _ hc))
      (fun c hc => heven c (List.mem_cons_of_mem _ hc))
    refine ⟨samples ++ samples', s.callBlocks settings models call ++ full, rest, ?_, ?_, hrest,
      ?_, ?_⟩
    · rw [List.flatMap_cons]
      exact frombuffer_append hbytes hbytes'
    · rw [hreceived, List.append_assoc, List.append_assoc] at hcut
      exact hcut
    · rw [List.append_assoc] at hfinal
      exact hfinal
    · rw [List.cons_append, Session.runBlocks, hstep, List.append_assoc]
      dsimp only
      rw [hblocks]

/-- The calls of a stream and its end are accepted. -/
theorem Waiting.run (h : Waiting settings blocks s) (hm : models.VadReturns)
    (hactive : s.isActive = true) {calls : List Call} (hcalls : ∀ call ∈ calls, call.IsIntake)
    (heven : ∀ call ∈ calls, Even call.message.length) :
    ∃ t, (machine settings models).run s (calls ++ [.finish]) = some t := by
  induction calls generalizing s blocks with
  | nil =>
    have hstep : s.step settings models .finish = some _ := if_pos hactive
    exact ⟨_, congrArg (Option.bind · some) hstep⟩
  | cons call calls ih =>
    obtain ⟨s', -, hstep, -, hwaiting, -, hstill⟩ := h.step hm hactive
      (hcalls call (List.mem_cons_self ..)) (heven call (List.mem_cons_self ..))
    obtain ⟨t, hrun⟩ := ih hwaiting hstill (fun c hc => hcalls c (List.mem_cons_of_mem _ hc))
      (fun c hc => heven c (List.mem_cons_of_mem _ hc))
    refine ⟨t, ?_⟩
    change (s.step settings models call).bind _ = _
    rw [hstep]
    exact hrun

/-- What the VAD has been fed in a whole stream, from its start: what is received, cut into the
blocks of the VAD, a rest, and the empty block. -/
theorem run_start (settings : SessionSettings) (s : Session) (hm : models.VadReturns)
    {calls : List Call} (hcalls : ∀ call ∈ calls, call.IsIntake)
    (heven : ∀ call ∈ calls, Even call.message.length) :
    ∃ (t : Session) (samples : List Sample) (full : List VadBlock) (rest : List Sample),
      (machine settings models).run s (.start :: (calls ++ [.finish])) = some t ∧
      (∀ feed ∈ t.feeds, feed.Answered models) ∧
      frombuffer (calls.flatMap Call.message) = some samples ∧
      CutInto settings.vadChunkSamples.toNat samples (full.map VadBlock.audio) rest ∧
      rest.length < settings.vadChunkSamples.toNat ∧
      (∀ block ∈ full, block.isFinal = false) ∧
      t.blocks = full ++ ((if rest.isEmpty then [] else [⟨rest, true⟩]) ++ [⟨[], true⟩]) := by
  have hfresh : Waiting settings [] { s.reset with isActive := true } := by
    refine ⟨fed_fresh s.calls true, ?_⟩
    have hpos := settings.vadChunkSamples_pos
    show (([] : List Sample).length : ℤ) - 0 < settings.vadChunkSamples
    rw [List.length_nil]
    omega
  obtain ⟨t, hrun⟩ := hfresh.run hm rfl hcalls heven
  obtain ⟨samples, full, rest, hbytes, hcut, hrest, hfinal, hblocks⟩ :=
    hfresh.runBlocks hm rfl hcalls heven
  have hnew : ∀ call ∈ calls ++ [.finish], call ≠ Call.start := by
    intro call hcall hstart
    subst hstart
    rcases List.mem_append.mp hcall with hmem | hmem
    · exact hcalls _ hmem
    · cases List.mem_singleton.mp hmem
  obtain ⟨hfed, hanswered⟩ := run_fed hrun hnew
  refine ⟨t, samples, full, rest, hrun, hanswered fun feed hfeed => ?_, hbytes, hcut, hrest,
    hfinal, ?_⟩
  · exact absurd hfeed List.not_mem_nil
  · exact hfed.trans hblocks

/-- The VAD does not depend on how the client cuts its audio into messages, nor on the partial
decodes between them and on what the models answer: two streams of the same bytes, each from its
start to its end, feed it the same blocks, of which all but the final ones have exactly
`vad_chunk_samples` samples, and which together are the whole audio; in the history of each
session every block stands with the answer of the VAD to it. -/
theorem vadBlocks_packetization (settings : SessionSettings) {models models' : Recognizers}
    (hm : models.VadReturns) (hm' : models'.VadReturns) (s s' : Session) {calls calls' : List Call}
    (hcalls : ∀ call ∈ calls, call.IsIntake) (hcalls' : ∀ call ∈ calls', call.IsIntake)
    (heven : ∀ call ∈ calls, Even call.message.length)
    (heven' : ∀ call ∈ calls', Even call.message.length)
    (hsame : calls.flatMap Call.message = calls'.flatMap Call.message) :
    ∃ t t', (machine settings models).run s (.start :: (calls ++ [.finish])) = some t ∧
      (machine settings models').run s' (.start :: (calls' ++ [.finish])) = some t' ∧
      t.blocks = t'.blocks ∧
      (∀ block ∈ t.blocks, block.isFinal = false →
        block.audio.length = settings.vadChunkSamples) ∧
      frombuffer (calls.flatMap Call.message) = some (t.blocks.map VadBlock.audio).flatten ∧
      (∀ feed ∈ t.feeds, feed.Answered models) ∧ ∀ feed ∈ t'.feeds, feed.Answered models' := by
  obtain ⟨t, samples, full, rest, hrun, hanswered, hbytes, hcut, hrest, hfinal, hblocks⟩ :=
    run_start settings s hm hcalls heven
  obtain ⟨t', samples', full', rest', hrun', hanswered', hbytes', hcut', hrest', hfinal',
    hblocks'⟩ := run_start settings s' hm' hcalls' heven'
  have hpos := settings.vadChunkSamples_pos
  obtain rfl : samples = samples' := by
    rw [hsame, hbytes'] at hbytes
    exact (Option.some.inj hbytes).symm
  obtain ⟨hfull, rfl⟩ := hcut.unique hcut' hrest hrest'
  have heq : full = full' := by
    have hmk {l : List VadBlock} (hl : ∀ block ∈ l, block.isFinal = false) :
        (l.map VadBlock.audio).map (fun audio => (⟨audio, false⟩ : VadBlock)) = l := by
      rw [List.map_map]
      refine (List.map_congr_left fun block hb => ?_).trans (List.map_id l)
      simp only [Function.comp_apply, id, ← hl block hb]
    rw [← hmk hfinal, hfull, hmk hfinal']
  refine ⟨t, t', hrun, hrun', ?_, ?_, ?_, hanswered, hanswered'⟩
  · rw [hblocks, hblocks', heq]
  · intro block hb hopen
    rw [hblocks] at hb
    rcases List.mem_append.mp hb with hblock | hlast
    · have hsize := hcut.size block.audio (List.mem_map_of_mem hblock)
      omega
    · -- the rest and the empty block are final
      have hlast' : block.isFinal = true := by
        split at hlast
        · rw [List.mem_singleton.mp hlast]
        · rcases List.mem_cons.mp hlast with rfl | hlast
          · rfl
          · rw [List.mem_singleton.mp hlast]
      rw [hopen] at hlast'
      cases hlast'
  · rw [hbytes, hblocks, ← hcut.join, List.map_append, List.flatten_append]
    split
    · next hnone =>
      rw [List.isEmpty_iff.mp hnone]
      rfl
    · simp

/-- A session at 30 samples per second, whose VAD is fed three samples at a time. -/
def coarseSettings : SessionSettings :=
  .init 30 240 240 100 100 0 1 1 (by decide) (by decide) (by decide)

/-- The scripted VAD never raises. -/
theorem scriptedModels_vadReturns : scriptedModels.VadReturns := by
  intro n _ _
  show ((if n = 9 then _ else if 14 ≤ n then _ else _ : VadReply)).segments.isSome = true
  split
  · rfl
  · split <;> rfl

/-- 40 samples in one message. -/
def oneMessage : List Call := [.addAudio (List.replicate 80 1)]

/-- The same bytes in three messages, with a partial decode between them. -/
def threeMessages : List Call :=
  [.addAudio (List.replicate 2 1), .addAudio (List.replicate 62 1), .decodePartial,
    .addAudio (List.replicate 16 1)]

/-- In the second stream a segment is finalized, and the buffer trimmed, after the second
message. -/
theorem vadBlocks_packetization_coarse :
    ∃ t t', (machine coarseSettings scriptedModels).run (fresh 0)
        (.start :: (oneMessage ++ [.finish])) = some t ∧
      (machine coarseSettings scriptedModels).run (fresh 0)
        (.start :: (threeMessages ++ [.finish])) = some t' ∧
      t.blocks = t'.blocks ∧
      t.blocks.map (fun block => (block.audio.length, block.isFinal)) =
        List.replicate 13 (3, false) ++ [(1, true), (0, true)] := by
  have hone : ∀ call ∈ oneMessage, call.IsIntake := by simp [oneMessage, Call.IsIntake]
  have hthree : ∀ call ∈ threeMessages, call.IsIntake := by simp [threeMessages, Call.IsIntake]
  obtain ⟨t, t', hrun, hrun', hblocks, -⟩ := vadBlocks_packetization coarseSettings
    scriptedModels_vadReturns scriptedModels_vadReturns (fresh 0) (fresh 0) hone hthree
    (by decide) (by decide) (by decide +kernel)
  refine ⟨t, t', hrun, hrun', hblocks, ?_⟩
  have hlengths : ((machine coarseSettings scriptedModels).run (fresh 0)
      (.start :: (oneMessage ++ [.finish]))).map
        (fun t => t.blocks.map fun block => (block.audio.length, block.isFinal)) =
          some (List.replicate 13 (3, false) ++ [(1, true), (0, true)]) := by
    decide +kernel
  rw [hrun] at hlengths
  exact Option.some.inj hlengths

end FunasrApi.Online.Session
