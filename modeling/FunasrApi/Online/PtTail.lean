import FunasrApi.Online.PtSession

/-!
# The streaming tail of a PT session

`finish` of the PT session may lock the text of the streaming tail. The sentence
spans the audio from the last finalized segment to the end, as long as nothing
that matters for the duration has been trimmed from the buffer: its end is
computed from what the buffer still has, not from what was received.
-/

namespace FunasrApi.Online.PtSession

open FunasrApi.Core Session

/-- The end of the segment that was finalized last. -/
def lastFinalizedMs (s : Session) : ℤ :=
  match s.decodes with
  | [] => 0
  | d :: _ => d.endMs

/-- The sentence of the streaming tail comes last, begins where the last finalized segment ends,
and ends with the audio. -/
def TailSpansAudio (settings : SessionSettings) (s : Session) : Prop :=
  ∀ l ∈ s.transcript.lockedSentences, l.source = some .streamingFinalFlush →
    l.endMs = s.currentDurationMs settings ∧ l.startMs = lastFinalizedMs s ∧
    l.startMs ≤ l.endMs ∧
    ∃ earlier, s.transcript.lockedSentences = earlier ++ [l] ∧
      ∀ p ∈ earlier, p.endMs ≤ l.startMs

/-- If this is a `finish` that locks the streaming tail, then what has been trimmed from the
buffer does not change its duration in whole milliseconds. -/
def TailUntrimmed (settings : SessionSettings) (models : Recognizers) (s : Session) :
    Call → Prop
  | .finish =>
    let segments := finishSegments settings models s
    let flushed := flushStreamingTail models segments.1
    segments.2 = true → collapseAdjacentRepeatedPhrases (Text.strip flushed.1) ≠ [] →
      flushed.2.transcript.lockedSentences.length = s.transcript.lockedSentences.length →
      sampleToMs settings.sampleRate
          (segments.1.audio.totalSamples - segments.1.audio.startSample) =
        sampleToMs settings.sampleRate segments.1.audio.totalSamples
  | .start | .addAudio _ | .decodePartial | .buildOfflineEvent => True

instance (settings : SessionSettings) (models : Recognizers) (s : Session) :
    DecidablePred (TailUntrimmed settings models s)
  | .finish => by unfold TailUntrimmed; infer_instance
  | .start | .addAudio _ | .decodePartial | .buildOfflineEvent => isTrue trivial

/-- No sentence is that of a streaming tail. -/
def TailFree (s : Session) : Prop :=
  ∀ l ∈ s.transcript.lockedSentences, l.source ≠ some .streamingFinalFlush

/-- The partial text begins where the last finalized segment ends, within the audio. -/
structure PartialAt (settings : SessionSettings) (s : Session) : Prop where
  start_eq : s.partialStartMs = lastFinalizedMs s
  start_le : s.partialStartMs ≤ s.currentDurationMs settings

variable {settings : SessionSettings} {models : Recognizers} {s s' : Session}
  {segment : Segment} {queue rest : List Segment}

section PartialStart

theorem PartialAt.congr (h : PartialAt settings s) (hpart : s'.partialStartMs = s.partialStartMs)
    (hdecodes : s'.decodes = s.decodes)
    (hduration : s.currentDurationMs settings ≤ s'.currentDurationMs settings) :
    PartialAt settings s' := by
  constructor
  · rw [hpart, h.start_eq, lastFinalizedMs, lastFinalizedMs, hdecodes]
  · rw [hpart]
    exact h.start_le.trans hduration

/-- A finalization does not change the duration. -/
theorem finalized_currentDurationMs (hf : Finalized settings s segment s') :
    s'.currentDurationMs settings = s.currentDurationMs settings := by
  obtain ⟨keep, haudio, -⟩ := hf.audio
  rw [currentDurationMs, haudio, ChunkedAudioBuffer.dropBefore_totalSamples, currentDurationMs]

/-- The partial text begins again after a finalized segment. -/
theorem partialAt_finalized (hf : Finalized settings s segment s')
    (hstop : segment.stop ≤ s.currentDurationMs settings) : PartialAt settings s' := by
  constructor
  · rw [hf.partialStartMs, lastFinalizedMs, hf.decodes]
  · rw [hf.partialStartMs, finalized_currentDurationMs hf]
    exact hstop

/-- The promises about the queue, with the begin of the partial text. -/
theorem soundPartialLaw (settings : SessionSettings) :
    QueueLaw settings fun queue s => Sound settings queue s ∧ PartialAt settings s where
  coalesced h hq := ⟨h.1.coalesced hq, h.2⟩
  finalized h hf := ⟨h.1.finalized hf,
    partialAt_finalized hf (h.1.queue_stop _ (List.mem_cons_self ..)).2⟩
  afterFlush _ h := ⟨h.1.congr rfl rfl, h.2.congr rfl rfl le_rfl⟩

/-- What holds of an active session, as long as the VAD keeps its promise. -/
def Steady (settings : SessionSettings) (queue : List Segment) (s : Session) : Prop :=
  Kept settings queue s ∧ (LawfulVad settings s.feeds → PartialAt settings s)

theorem steadyLaw (settings : SessionSettings) : QueueLaw settings (Steady settings) where
  coalesced h hq := ⟨(keptLaw settings).coalesced h.1 hq, h.2⟩
  finalized h hf := by
    refine ⟨(keptLaw settings).finalized h.1 hf, fun hvad => ?_⟩
    rw [hf.feeds] at hvad
    exact partialAt_finalized hf ((h.1 hvad).1.queue_stop _ (List.mem_cons_self ..)).2
  afterFlush _ h := ⟨(keptLaw settings).afterFlush _ h.1,
    fun hvad => (h.2 hvad).congr rfl rfl le_rfl⟩

theorem steady_fresh (calls : ℕ) (isActive : Bool) :
    Steady settings [] { fresh calls with isActive := isActive } := by
  refine ⟨kept_fresh calls isActive, fun _ => ⟨rfl, ?_⟩⟩
  show (0 : ℤ) ≤ sampleToMs settings.sampleRate 0
  rw [sampleToMs, zero_mul, Int.zero_tdiv]

theorem Steady.feedVad (h : Steady settings queue s) (models : Recognizers) (audio : List Sample)
    (isFinal : Bool) {fedSamples : ℤ} (hfed : fedSamples ≤ s.audio.totalSamples) :
    Steady settings (queue ++ ((s.feedVad models audio isFinal fedSamples).1.getD []).filterMap
      normalizeVadSegment) (s.feedVad models audio isFinal fedSamples).2 :=
  ⟨h.1.feedVad models audio isFinal hfed, fun hvad => (h.2 hvad.2).congr rfl rfl le_rfl⟩

theorem Steady.advance (h : Steady settings queue s) (vad : ℤ)
    (hvad : Safe settings s → s.vadFedSamples ≤ vad ∧ vad ≤ s.audio.totalSamples) :
    Steady settings queue { s with vadFedSamples := vad } :=
  ⟨h.1.advance s.lastStreamSamples vad (fun hsafe => ⟨le_rfl, hsafe.stream_le⟩) hvad,
    fun hlaw => (h.2 hlaw).congr rfl rfl le_rfl⟩

theorem Steady.of_append {front back : List Segment} (h : Steady settings (front ++ back) s) :
    Steady settings front s :=
  ⟨h.1.of_append, h.2⟩

end PartialStart

section Sources

/-- The seam repair keeps everything but the text of the sentence that it shortens. -/
theorem repairPrevious_source (segmentMergeGapMs : ℤ) (currentText : Text) (startMs : ℤ)
    (previous : LockedSentence) :
    (repairPrevious segmentMergeGapMs currentText startMs previous).source = previous.source := by
  unfold repairPrevious
  dsimp only
  split
  · rfl
  · rfl

/-- A sentence of a final result names the source that it was locked with. -/
theorem buildLockedSentence_source {finalResult : FinalResult} {startMs endMs : ℤ}
    {source : Option LockSource} {sentence : LockedSentence}
    (h : buildLockedSentence finalResult startMs endMs source = some sentence) :
    sentence.source = source := by
  unfold buildLockedSentence at h
  dsimp only at h
  split at h
  · cases h
  · cases finalResult with
    | record r =>
      obtain rfl := Option.some.inj h
      rfl
    | plain _ =>
      obtain rfl := Option.some.inj h
      rfl

theorem buildLockedSentence_eq_none_iff (finalResult : FinalResult) (startMs endMs : ℤ)
    (source : Option LockSource) :
    buildLockedSentence finalResult startMs endMs source = none ↔
      collapseAdjacentRepeatedPhrases (Text.strip (finalTextFromResult finalResult)) = [] := by
  unfold buildLockedSentence
  dsimp only
  split
  · next hempty => exact iff_of_true rfl hempty
  · next hne => cases finalResult <;> exact iff_of_false (by simp) hne

/-- An append without a text changes nothing, and any other one repairs the last sentence and adds
its own. -/
theorem appendLockedSentence_cases (segmentMergeGapMs : ℤ) (t : Transcript)
    (finalResult : FinalResult) (startMs endMs : ℤ) (source : Option LockSource) :
    (collapseAdjacentRepeatedPhrases (Text.strip (finalTextFromResult finalResult)) = [] ∧
      (t.appendLockedSentence segmentMergeGapMs finalResult startMs endMs source).1 = t) ∨
    ∃ (repair : LockedSentence → LockedSentence) (sentence : LockedSentence),
      collapseAdjacentRepeatedPhrases (Text.strip (finalTextFromResult finalResult)) ≠ [] ∧
      (∀ l, (repair l).source = l.source ∧ (repair l).endMs = l.endMs) ∧
      sentence.startMs = startMs ∧ sentence.endMs = endMs ∧ sentence.source = source ∧
      (t.appendLockedSentence segmentMergeGapMs finalResult startMs endMs
        source).1.lockedSentences = t.lockedSentences.modifyLast repair ++ [sentence] := by
  unfold Transcript.appendLockedSentence
  cases hbuild : buildLockedSentence finalResult startMs endMs source with
  | none => exact .inl ⟨(buildLockedSentence_eq_none_iff ..).mp hbuild, rfl⟩
  | some sentence =>
    obtain ⟨hstrip, hne, hstart, hend⟩ := buildLockedSentence_text hbuild
    have htext : collapseAdjacentRepeatedPhrases
        (Text.strip (finalTextFromResult finalResult)) ≠ [] := by
      intro hempty
      rw [(buildLockedSentence_eq_none_iff ..).mpr hempty] at hbuild
      cases hbuild
    refine .inr ⟨repairPrevious segmentMergeGapMs sentence.text startMs,
      { sentence with text := Text.strip sentence.text }, htext, fun l => ?_, hstart, hend, ?_, ?_⟩
    · exact ⟨repairPrevious_source _ _ _ _, (repairPrevious_times _ _ _ _).2⟩
    · show sentence.source = source
      exact buildLockedSentence_source hbuild
    · simp only [hstrip, if_neg hne]

/-- The sources and ends of the sentences survive a repair of the last one. -/
theorem mem_modifyLast {repair : LockedSentence → LockedSentence}
    (hrepair : ∀ l, (repair l).source = l.source ∧ (repair l).endMs = l.endMs)
    {l : List LockedSentence} {p : LockedSentence} (hp : p ∈ l.modifyLast repair) :
    ∃ q ∈ l, q.source = p.source ∧ q.endMs = p.endMs := by
  have hmap := map_modifyLast repair (fun l => (l.source, l.endMs))
    (fun l => Prod.ext (hrepair l).1 (hrepair l).2) l
  have hmem : (p.source, p.endMs) ∈ l.map fun l => (l.source, l.endMs) := by
    rw [← hmap]
    exact List.mem_map_of_mem hp
  obtain ⟨q, hq, heq⟩ := List.mem_map.mp hmem
  exact ⟨q, hq, congrArg Prod.fst heq, congrArg Prod.snd heq⟩

/-- An append with another source adds no sentence of a streaming tail. -/
theorem appendLockedSentence_tailFree (segmentMergeGapMs : ℤ) {s : Session} (h : TailFree s)
    (finalResult : FinalResult) (startMs endMs : ℤ) {source : Option LockSource}
    (hsource : source ≠ some .streamingFinalFlush) :
    ∀ l ∈ (s.transcript.appendLockedSentence segmentMergeGapMs finalResult startMs endMs
      source).1.lockedSentences, l.source ≠ some .streamingFinalFlush := by
  rcases appendLockedSentence_cases segmentMergeGapMs s.transcript finalResult startMs endMs
    source with ⟨-, heq⟩ | ⟨repair, sentence, -, hrepair, -, -, hnew, heq⟩
  · rw [heq]
    exact h
  · rw [heq]
    intro l hl
    rcases List.mem_append.mp hl with hold | hlast
    · obtain ⟨q, hq, hsame, -⟩ := mem_modifyLast hrepair hold
      rw [← hsame]
      exact h q hq
    · rw [List.mem_singleton.mp hlast, hnew]
      exact hsource

/-- A lock with another source keeps the transcript free of streaming tails. -/
theorem TailFree.lockText (h : TailFree s) (settings : SessionSettings)
    (finalResult : FinalResult) (startMs endMs : ℤ) {source : Option LockSource}
    (hsource : source ≠ some .streamingFinalFlush) :
    TailFree (s.lockText settings finalResult startMs endMs source) := by
  unfold Session.lockText
  split
  · exact h
  · unfold TailFree Session.appendLockedSentence
    dsimp only
    exact appendLockedSentence_tailFree settings.segmentMergeGapMs h finalResult startMs endMs
      hsource

theorem TailFree.finalized (h : TailFree s) (models : Recognizers) (segment : Segment)
    (rest : List Segment) :
    TailFree (finalizePendingSegment settings models segment rest s).1 := by
  obtain ⟨n, hdecoded⟩ := decodeFinalSegment_state settings models
    { s with pendingFinalSegments := rest } segment.start segment.stop
  change TailFree (restartPartial settings (Session.lockText settings _ _ _ _ _) _)
  rw [hdecoded]
  exact TailFree.lockText (s := { s with
    pendingFinalSegments := rest
    calls := n
    decodes := ⟨segment.start, segment.stop, s.audio, s.received⟩ :: s.decodes }) h settings _ _ _
    (by simp)

theorem TailFree.lockConfirmedSegments (h : TailFree s) (models : Recognizers)
    (segments : List (List ℚ)) :
    TailFree (s.lockConfirmedSegments settings models segments).1 :=
  flushReadyPendingSegments_invariant (I := fun _ (t : Session) => TailFree t)
    (fun segment rest _ ht => ht.finalized models segment rest) h

theorem TailFree.forcedFlush (h : TailFree s) (models : Recognizers) :
    TailFree (s.forcedFlush settings models) :=
  flushPendingFinalSegments_invariant (I := fun _ (t : Session) => TailFree t)
    (fun segment rest _ ht => ht.finalized models segment rest) h

theorem TailFree.lockOpenSpeech (h : TailFree s) (models : Recognizers) :
    TailFree (s.lockOpenSpeech settings models) := by
  unfold Session.lockOpenSpeech
  split
  · exact h
  · exact h.lockConfirmedSegments models _

theorem TailFree.forceLockTail (h : TailFree s) (models : Recognizers) :
    TailFree (s.forceLockTail settings models) := by
  unfold Session.forceLockTail
  dsimp only
  split
  · exact h
  · obtain ⟨n, hdecoded⟩ := decodeFinalSegment_state settings models s
      (min s.partialStartMs (s.currentDurationMs settings)) (s.currentDurationMs settings)
    rw [hdecoded]
    exact TailFree.lockText (s := { s with
      calls := n
      decodes := ⟨_, _, s.audio, s.received⟩ :: s.decodes }) h settings _ _ _ (by simp)

end Sources

section Calls

/-- The open speech joins the segments before the partial text begins again. -/
theorem lockOpenSpeech_sound (h : Sound settings s.pendingFinalSegments s)
    (hs : Settled settings s.pendingFinalSegments s) (hp : PartialAt settings s)
    (models : Recognizers) :
    Sound settings (s.lockOpenSpeech settings models).pendingFinalSegments
        (s.lockOpenSpeech settings models) ∧
      PartialAt settings (s.lockOpenSpeech settings models) := by
  unfold Session.lockOpenSpeech
  split
  · exact ⟨h, hp⟩
  · next c hc =>
    obtain ⟨hsound, hpart⟩ := (soundPartialLaw settings).lockConfirmedSegments models _
      ⟨h.openSpeech hs hc, hp⟩
    exact ⟨hsound.congr rfl rfl, hpart.congr rfl rfl le_rfl⟩

theorem Steady.appendAudioChunk (h : Steady settings queue s) (audio : List Sample) :
    Steady settings queue (s.appendAudioChunk audio) := by
  refine ⟨h.1.appendAudioChunk audio, fun hvad => (h.2 hvad).congr rfl rfl ?_⟩
  have htotal : s.audio.totalSamples ≤ (s.audio.append audio).totalSamples := by
    unfold ChunkedAudioBuffer.append
    split
    · dsimp only
      omega
    · exact le_rfl
  exact sampleToMs_mono settings.sampleRate_pos htotal

/-- `add_audio` keeps the session steady, whether it returns or raises. -/
theorem addAudio_steady (pcmBytes : List UInt8) (h : Steady settings s.pendingFinalSegments s) :
    Steady settings (addAudio settings models pcmBytes s).1.pendingFinalSegments
      (addAudio settings models pcmBytes s).1 := by
  unfold addAudio
  split
  · exact h
  · split
    · exact h
    · next audio _ =>
      split
      · exact h
      · have hnew : Steady settings (s.appendAudioChunk audio).pendingFinalSegments
            (s.appendAudioChunk audio) := h.appendAudioChunk audio
        dsimp only
        split
        · exact hnew
        · have hfed := hnew.feedVad models ((s.appendAudioChunk audio).audio.slice
            (s.appendAudioChunk audio).vadFedSamples (s.appendAudioChunk audio).audio.totalSamples)
            false le_rfl
          split
          · exact hfed.of_append
          · next segments hreply =>
            rw [hreply] at hfed
            exact (steadyLaw settings).lockConfirmedSegments models segments
              (hfed.advance _ fun hsafe => ⟨hsafe.vad_le, le_rfl⟩)

theorem TailFree.addAudio (h : TailFree s) (models : Recognizers) (pcmBytes : List UInt8) :
    TailFree (addAudio settings models pcmBytes s).1 := by
  unfold PtSession.addAudio
  split
  · exact h
  · split
    · exact h
    · split
      · exact h
      · dsimp only
        split
        · exact h
        · split
          · exact h
          · refine TailFree.lockConfirmedSegments ?_ models _
            exact h

/-- A partial decode moves neither the begin of the partial text nor the segments. -/
theorem decodePartial_steady (models : Recognizers) (h : Steady settings queue s) :
    Steady settings queue (s.decodePartial settings models) := by
  refine ⟨decodePartial_kept models h.1, ?_⟩
  unfold Session.decodePartial
  dsimp only
  split
  · exact h.2
  · split
    · exact fun hvad => (h.2 hvad).congr rfl rfl le_rfl
    · exact fun hvad => (h.2 hvad).congr rfl rfl le_rfl
    · exact fun hvad => (h.2 hvad).congr rfl rfl le_rfl

theorem TailFree.decodePartial (h : TailFree s) (settings : SessionSettings)
    (models : Recognizers) : TailFree (s.decodePartial settings models) := by
  unfold Session.decodePartial
  dsimp only
  split
  · exact h
  · split <;> exact h

theorem feedRemaining_steady (models : Recognizers)
    (h : Steady settings s.pendingFinalSegments s) :
    Steady settings ((s.feedRemaining models).2.pendingFinalSegments ++
      ((s.feedRemaining models).1.getD []).filterMap normalizeVadSegment)
      (s.feedRemaining models).2 := by
  refine ⟨feedRemaining_kept models h.1, ?_⟩
  unfold Session.feedRemaining
  dsimp only
  split
  · exact h.2
  · split
    · exact fun hvad => (h.2 hvad.2).congr rfl rfl le_rfl
    · exact fun hvad => (h.2 hvad.2).congr rfl rfl le_rfl

theorem TailFree.feedRemaining (h : TailFree s) (models : Recognizers) :
    TailFree (s.feedRemaining models).2 := by
  unfold Session.feedRemaining
  dsimp only
  split
  · exact h
  · split <;> exact h

theorem TailFree.finishSegments (h : TailFree s) (models : Recognizers) :
    TailFree (finishSegments settings models s).1 := by
  have hfed := h.feedRemaining models
  unfold PtSession.finishSegments
  dsimp only
  split
  · exact hfed
  · next confirmed _ =>
    split
    · exact hfed
    · next segments _ =>
      have hlocked : TailFree ((((s.feedRemaining models).2.feedVad models [] true
          (s.feedRemaining models).2.audio.totalSamples).2.lockConfirmedSegments settings models
            (confirmed ++ segments)).1) := by
        refine TailFree.lockConfirmedSegments ?_ models _
        exact hfed
      exact (hlocked.lockOpenSpeech models).forcedFlush models

/-- `finish` leaves the session steady when a feed raises, and else no segment waits any more. -/
theorem finishSegments_sound (models : Recognizers)
    (h : Steady settings s.pendingFinalSegments s) :
    ((finishSegments settings models s).2 = false →
      Steady settings (finishSegments settings models s).1.pendingFinalSegments
        (finishSegments settings models s).1) ∧
    ((finishSegments settings models s).2 = true →
      LawfulVad settings (finishSegments settings models s).1.feeds →
      Sound settings [] (finishSegments settings models s).1 ∧
        PartialAt settings (finishSegments settings models s).1) := by
  have hfed := feedRemaining_steady models h
  unfold finishSegments
  dsimp only
  split
  · exact ⟨fun _ => hfed.of_append, fun hreturned => Bool.noConfusion hreturned⟩
  · next confirmed hreply =>
    rw [hreply] at hfed
    have hlast := hfed.feedVad models [] true le_rfl
    split
    · exact ⟨fun _ => hlast.of_append.of_append, fun hreturned => Bool.noConfusion hreturned⟩
    · next segments hsegments =>
      rw [hsegments, Option.getD_some, Option.getD_some, List.append_assoc,
        ← List.filterMap_append] at hlast
      refine ⟨fun hraised => Bool.noConfusion hraised, fun _ hvad => ?_⟩
      rw [lockSpeech_feeds] at hvad
      have hlocked := (steadyLaw settings).lockConfirmedSegments models _ hlast
      have hfeeds := (feedsLaw settings ((s.feedRemaining models).2.feedVad models [] true
        (s.feedRemaining models).2.audio.totalSamples).2.feeds).lockConfirmedSegments models
          (confirmed ++ segments) rfl
      rw [← hfeeds] at hvad
      obtain ⟨hkept, hpart⟩ := hlocked
      exact (soundPartialLaw settings).forcedFlush models
        (lockOpenSpeech_sound (hkept hvad).1 (hkept hvad).2 (hpart hvad) models)

end Calls

section Finish

/-- The flush of the streaming tail moves the streaming position and nothing else. -/
theorem flushStreamingTail_state (models : Recognizers) (s : Session) :
    ∃ n stream, (flushStreamingTail models s).2 =
      { s with calls := n, lastStreamSamples := stream } := by
  unfold flushStreamingTail
  dsimp only
  split
  · exact ⟨s.calls, s.lastStreamSamples, rfl⟩
  · split
    · exact ⟨s.calls, _, rfl⟩
    · split
      · exact ⟨s.calls + 1, s.lastStreamSamples, rfl⟩
      · split
        · exact ⟨s.calls + 1, s.lastStreamSamples, rfl⟩
        · exact ⟨s.calls + 1, _, rfl⟩

theorem TailFree.tailSpansAudio (h : TailFree s) (settings : SessionSettings) :
    TailSpansAudio settings s :=
  fun l hl hsource => absurd hsource (h l hl)

theorem TailSpansAudio.congr (h : TailSpansAudio settings s)
    (htranscript : s'.transcript.lockedSentences = s.transcript.lockedSentences)
    (haudio : s'.audio = s.audio) (hdecodes : s'.decodes = s.decodes) :
    TailSpansAudio settings s' := by
  unfold TailSpansAudio currentDurationMs lastFinalizedMs
  rw [htranscript, haudio, hdecodes]
  exact h

/-- The buffer is as long as the received audio without what has been trimmed. -/
theorem length_audioBuffer (h : s.audio.Holds s.received) :
    ((audioBuffer s).length : ℤ) = s.audio.totalSamples - s.audio.startSample := by
  have hle := h.startSample_le
  have htotal := h.totalSamples_eq
  have hstart := h.startSample_nonneg
  rw [audioBuffer, h.slice, samplesBetween, List.length_drop, List.length_take]
  omega

/-- The locked text of the streaming tail spans the audio if and only if the trimming does not
matter for its duration. -/
theorem lockStreamingTail_spans_iff (hholds : s.audio.Holds s.received)
    (hclear : ∀ p ∈ s.transcript.times, p.2 ≤ s.partialStartMs) (hp : PartialAt settings s)
    (hfree : TailFree s) (flushText : Text) :
    TailSpansAudio settings (lockStreamingTail settings flushText s) ↔
      (collapseAdjacentRepeatedPhrases (Text.strip flushText) ≠ [] →
        sampleToMs settings.sampleRate (s.audio.totalSamples - s.audio.startSample) =
          sampleToMs settings.sampleRate s.audio.totalSamples) := by
  have hcases := appendLockedSentence_cases settings.segmentMergeGapMs s.transcript
    (.plain flushText)
    (min s.partialStartMs (sampleToMs settings.sampleRate (audioBuffer s).length))
    (sampleToMs settings.sampleRate (audioBuffer s).length) (some .streamingFinalFlush)
  rw [← length_audioBuffer hholds]
  unfold lockStreamingTail Session.appendLockedSentence
  dsimp only
  generalize sampleToMs settings.sampleRate (audioBuffer s).length = durationMs at hcases ⊢
  generalize (s.transcript.appendLockedSentence settings.segmentMergeGapMs (.plain flushText)
    (min s.partialStartMs durationMs) durationMs (some .streamingFinalFlush)).1 = t at hcases ⊢
  change _ ∨ _ at hcases
  rcases hcases with ⟨hempty, rfl⟩ |
    ⟨repair, sentence, htext, hrepair, hstartMs, hendMs, hsource, heq⟩
  · exact iff_of_true (hfree.tailSpansAudio settings) fun hne => absurd hempty hne
  · constructor
    · intro hspans _
      have hlast : sentence ∈ t.lockedSentences := by
        rw [heq]
        exact List.mem_append_right _ (List.mem_singleton_self _)
      exact hendMs.symm.trans (hspans sentence hlast hsource).1
    · intro hsame l hl hl'
      have hduration : durationMs = s.currentDurationMs settings := hsame htext
      have hstart : min s.partialStartMs durationMs = s.partialStartMs := by
        rw [hduration]
        exact min_eq_left hp.start_le
      dsimp only at hl ⊢
      rw [heq] at hl ⊢
      rcases List.mem_append.mp hl with hold | hlast
      · obtain ⟨q, hq, hq', -⟩ := mem_modifyLast hrepair hold
        exact absurd (hq'.trans hl') (hfree q hq)
      · obtain rfl := List.mem_singleton.mp hlast
        rw [hstart] at hstartMs
        refine ⟨hendMs.trans hduration, hstartMs.trans hp.start_eq, ?_, _, rfl, fun p hpmem => ?_⟩
        · rw [hstartMs, hendMs, hduration]
          exact hp.start_le
        · -- the partial text begins after every locked sentence
          obtain ⟨q, hq, -, hq'⟩ := mem_modifyLast hrepair hpmem
          rw [← hq', hstartMs]
          exact hclear _ (List.mem_map_of_mem hq)

/-- The tail of `finish` asks the VAD nothing. -/
theorem finishTail_feeds (models : Recognizers) (n : ℕ) (s : Session) :
    (finishTail settings models n s).feeds = s.feeds := by
  obtain ⟨calls, stream, hflushed⟩ := flushStreamingTail_state models s
  unfold finishTail
  dsimp only
  split
  · unfold lockStreamingTail Session.appendLockedSentence
    dsimp only
    rw [hflushed]
  · split
    · rw [hflushed]
      exact forceLockTail_feeds models _
    · rw [hflushed]

theorem finishTail_spans (h : Sound settings [] s) (hp : PartialAt settings s)
    (hfree : TailFree s) (models : Recognizers) (n : ℕ)
    (huntrimmed :
      collapseAdjacentRepeatedPhrases (Text.strip (flushStreamingTail models s).1) ≠ [] →
      (flushStreamingTail models s).2.transcript.lockedSentences.length = n →
      sampleToMs settings.sampleRate (s.audio.totalSamples - s.audio.startSample) =
        sampleToMs settings.sampleRate s.audio.totalSamples) :
    TailSpansAudio settings (finishTail settings models n s) := by
  obtain ⟨calls, stream, hflushed⟩ := flushStreamingTail_state models s
  have hcleared (t : Session) (ht : TailSpansAudio settings t) :
      TailSpansAudio settings { t with partialText := [], partialStartMs := 0 } :=
    ht.congr rfl rfl rfl
  unfold finishTail
  refine hcleared _ ?_
  split
  · next hlock =>
    have hsame := fun htext => huntrimmed htext hlock.2
    rw [hflushed]
    exact (lockStreamingTail_spans_iff (s := { s with
      calls := calls
      lastStreamSamples := stream }) h.holds h.partial_clear.1 (hp.congr rfl rfl le_rfl) hfree
      _).mpr hsame
  · split
    · rw [hflushed]
      exact (TailFree.forceLockTail (s := { s with calls := calls, lastStreamSamples := stream })
        hfree models).tailSpansAudio settings
    · rw [hflushed]
      exact hfree.tailSpansAudio settings

/-- What holds between two calls: the tail spans the audio, and an active session is steady and has
no tail yet. -/
def TailInvariant (settings : SessionSettings) (s : Session) : Prop :=
  (LawfulVad settings s.feeds → TailSpansAudio settings s) ∧
    (s.isActive = true → Steady settings s.pendingFinalSegments s ∧ TailFree s)

theorem TailInvariant.of_steady (h : Steady settings s.pendingFinalSegments s)
    (hfree : TailFree s) : TailInvariant settings s :=
  ⟨fun _ => hfree.tailSpansAudio settings, fun _ => ⟨h, hfree⟩⟩

/-- `finish` keeps the invariant, whether it returns or raises. -/
theorem finish_tailInvariant (h : Steady settings s.pendingFinalSegments s) (hfree : TailFree s)
    (huntrimmed : TailUntrimmed settings models s .finish) :
    TailInvariant settings { (finish settings models s).1 with
      isActive := (finish settings models s).1.isActive && !(finish settings models s).2 } := by
  obtain ⟨hraised, hreturned⟩ := finishSegments_sound models h
  have hstill := @TailFree.finishSegments settings s hfree models
  unfold finish
  dsimp only
  split
  · next htrue =>
    refine ⟨fun hvad => ?_, fun hactive => by simp at hactive⟩
    dsimp only at hvad
    rw [finishTail_feeds] at hvad
    obtain ⟨hsound, hpart⟩ := hreturned htrue hvad
    exact (finishTail_spans hsound hpart hstill models _ (huntrimmed htrue)).congr rfl rfl rfl
  · next hfalse =>
    have hsteady := hraised (Bool.not_eq_true _ ▸ hfalse)
    refine .of_steady ⟨?_, ?_⟩ hstill
    · exact hsteady.1.congr rfl rfl rfl rfl
    · exact fun hvad => (hsteady.2 hvad).congr rfl rfl le_rfl

/-- Every call keeps it, if `finish` locks no streaming tail after a trim that matters. -/
theorem step_tailInvariant {call : Call} (h : TailInvariant settings s)
    (huntrimmed : TailUntrimmed settings models s call)
    (hstep : step settings models s call = some s') : TailInvariant settings s' := by
  cases call with
  | start =>
    obtain rfl := Option.some.inj hstep
    exact .of_steady (steady_fresh s.calls true) fun _ hl => absurd hl List.not_mem_nil
  | addAudio pcmBytes =>
    simp only [step, Option.ite_none_right_eq_some, Option.some.injEq] at hstep
    obtain ⟨hactive, rfl⟩ := hstep
    obtain ⟨hsteady, hfree⟩ := h.2 hactive
    exact .of_steady (addAudio_steady pcmBytes hsteady) (hfree.addAudio models pcmBytes)
  | decodePartial =>
    simp only [step, Option.ite_none_right_eq_some, Option.some.injEq] at hstep
    obtain ⟨hactive, rfl⟩ := hstep
    obtain ⟨hsteady, hfree⟩ := h.2 hactive
    have hdecoded := decodePartial_steady models hsteady
    rw [← decodePartial_pendingFinalSegments settings models s] at hdecoded
    exact .of_steady hdecoded (hfree.decodePartial settings models)
  | buildOfflineEvent =>
    obtain rfl := Option.some.inj hstep
    refine ⟨fun hvad => (h.1 hvad).congr rfl rfl rfl, fun hactive => ?_⟩
    obtain ⟨hsteady, hfree⟩ := h.2 hactive
    exact ⟨⟨hsteady.1.congr rfl rfl rfl rfl,
      fun hvad => (hsteady.2 hvad).congr rfl rfl le_rfl⟩, hfree⟩
  | finish =>
    simp only [step, Option.ite_none_right_eq_some, Option.some.injEq] at hstep
    obtain ⟨hactive, rfl⟩ := hstep
    obtain ⟨hsteady, hfree⟩ := h.2 hactive
    exact finish_tailInvariant hsteady hfree huntrimmed

/-- In every run in which no `finish` locks a streaming tail after a trim that changes the duration
of the buffer, the sentence of the tail spans the audio from the last finalized segment to the
end. -/
theorem reachable_tailSpansAudio {calls : ℕ}
    (h : (machine settings models).Reach (TailUntrimmed settings models) (fresh calls) s)
    (hvad : LawfulVad settings s.feeds) : TailSpansAudio settings s := by
  have hinv : TailInvariant settings s :=
    Machine.Reach.invariant h
      (.of_steady (steady_fresh calls false) fun _ hl => absurd hl List.not_mem_nil)
      fun _ _ _ ht hok hstep => step_tailInvariant ht hok hstep
  exact hinv.1 hvad

end Finish

/-- A VAD that closes [200, 700] in every feed of one second. -/
def closingModels : Recognizers :=
  { scriptedModels with
    vadFeed := fun _ audio _ =>
      if audio.length = 10 then ⟨some [[200, 700]], none⟩ else ⟨some [], none⟩ }

/-- Half a second without a segment, and then the tail. -/
theorem closingModels_tailSpansAudio :
    ∃ s, (machine slowSettings closingModels).runIf (TailUntrimmed slowSettings closingModels)
        (fresh 0) [.start, .addAudio (List.replicate 10 1), .finish] = some s ∧
      s.transcript.lockedSentences.map (fun l => (l.startMs, l.endMs)) = [(0, 500)] ∧
      TailSpansAudio slowSettings s := by
  have hrun : ((machine slowSettings closingModels).runIf (TailUntrimmed slowSettings closingModels)
      (fresh 0) [.start, .addAudio (List.replicate 10 1), .finish]).any (fun s =>
        decide (s.transcript.lockedSentences.map (fun l => (l.startMs, l.endMs)) = [(0, 500)] ∧
          LawfulVad slowSettings s.feeds)) = true := by
    decide +kernel
  obtain ⟨s, hs, hfacts⟩ := (Option.any_eq_true _ _).mp hrun
  obtain ⟨htimes, hvad⟩ := of_decide_eq_true hfacts
  exact ⟨s, hs, htimes, reachable_tailSpansAudio (Machine.Reach.of_runIf hs) hvad⟩

/-- One second of which the VAD closes [200, 700], and then `finish`: the tail lies from 300 to
300, before the end of the sentence before it. -/
theorem closingModels_tail_not_spansAudio :
    ∃ s, (machine slowSettings closingModels).run (fresh 0)
        [.start, .addAudio (List.replicate 20 1), .finish] = some s ∧
      LawfulVad slowSettings s.feeds ∧ s.currentDurationMs slowSettings = 1000 ∧
      s.transcript.lockedSentences.map (fun l => (l.startMs, l.endMs)) = [(200, 700), (300, 300)] ∧
      ¬ TailSpansAudio slowSettings s := by
  have hrun : ((machine slowSettings closingModels).run (fresh 0)
      [.start, .addAudio (List.replicate 20 1), .finish]).any (fun s =>
        decide (LawfulVad slowSettings s.feeds ∧ s.currentDurationMs slowSettings = 1000 ∧
          s.transcript.lockedSentences.map (fun l => (l.startMs, l.endMs)) =
            [(200, 700), (300, 300)] ∧
          ∃ l ∈ s.transcript.lockedSentences, l.source = some .streamingFinalFlush ∧
            l.endMs ≠ s.currentDurationMs slowSettings)) = true := by
    decide +kernel
  obtain ⟨s, hs, hfacts⟩ := (Option.any_eq_true _ _).mp hrun
  obtain ⟨hvad, hduration, htimes, l, hl, hsource, hend⟩ := of_decide_eq_true hfacts
  exact ⟨s, hs, hvad, hduration, htimes, fun hspans => hend (hspans l hl hsource).1⟩

end FunasrApi.Online.PtSession
