import FunasrApi.Online.Session

/-!
# Audio positions and sentence times of a session

What holds in every state of a realtime session whose VAD answers in the order
of time: the buffer begins no later than the streaming and the VAD position, the
final model is given every sample of its segment, and the locked sentences follow
one another. The invariant is about a time being clear: all locked sentences end
before it, and the buffer reaches back to it.
-/

namespace FunasrApi.Online

open FunasrApi.Core

/-- The begin and the end of every locked sentence. -/
def Transcript.times (t : Transcript) : List (ℤ × ℤ) :=
  t.lockedSentences.map fun l => (l.startMs, l.endMs)

/-- The seam repair keeps the times of the sentence that it shortens. -/
theorem repairPrevious_times (segmentMergeGapMs : ℤ) (currentText : Text) (startMs : ℤ)
    (previous : LockedSentence) :
    (repairPrevious segmentMergeGapMs currentText startMs previous).startMs = previous.startMs ∧
      (repairPrevious segmentMergeGapMs currentText startMs previous).endMs = previous.endMs := by
  unfold repairPrevious
  dsimp only
  split
  · exact ⟨rfl, rfl⟩
  · exact ⟨rfl, rfl⟩

theorem map_modifyLast {α β : Type*} (f : α → α) (g : α → β) (h : ∀ a, g (f a) = g a)
    (l : List α) : (l.modifyLast f).map g = l.map g := by
  induction l using List.reverseRecOn with
  | nil => rfl
  | append_singleton l a _ =>
    rw [List.modifyLast_concat, List.map_append, List.map_append, List.map_singleton,
      List.map_singleton, h]

/-- An append keeps the times of all sentences, and adds its own or nothing. -/
theorem appendLockedSentence_times (segmentMergeGapMs : ℤ) (t : Transcript)
    (finalResult : FinalResult) (startMs endMs : ℤ) (source : Option LockSource) :
    (t.appendLockedSentence segmentMergeGapMs finalResult startMs endMs source).1.times = t.times ∨
    (t.appendLockedSentence segmentMergeGapMs finalResult startMs endMs source).1.times =
      t.times ++ [(startMs, endMs)] := by
  unfold Transcript.appendLockedSentence
  generalize hbuild : buildLockedSentence finalResult startMs endMs source = built
  cases built with
  | none => exact .inl rfl
  | some sentence =>
    obtain ⟨hstrip, hne, hstart, hend⟩ := buildLockedSentence_text hbuild
    right
    have hkept := map_modifyLast (repairPrevious segmentMergeGapMs sentence.text startMs)
      (fun l => (l.startMs, l.endMs))
      (fun l => by
        obtain ⟨h1, h2⟩ := repairPrevious_times segmentMergeGapMs sentence.text startMs l
        rw [h1, h2])
      t.lockedSentences
    simp only [hstrip, if_neg hne, Transcript.times, List.map_append, List.map_singleton, hkept,
      hstart, hend]

/-- The buffer gives a final decode every received sample of its segment. -/
def FinalDecode.Held (settings : SessionSettings) (d : FinalDecode) : Prop :=
  d.buffer.slice (msToSample settings.sampleRate d.startMs)
      (msToSample settings.sampleRate d.endMs) =
    samplesBetween d.received (msToSample settings.sampleRate d.startMs)
      (msToSample settings.sampleRate d.endMs)

/-- The closed segments of a feed, as pairs of numbers. -/
def VadFeed.intervals (feed : VadFeed) : List (ℚ × ℚ) := feed.closed.filterMap vadInterval

/-- What a VAD promises of each feed, given the feeds before it: the closed segments follow one
another and those closed before, they end within the audio fed, and an open speech does not
begin before the last closed end. -/
structure VadLaw (settings : SessionSettings) (feed : VadFeed) (past : List VadFeed) : Prop where
  ordered : feed.intervals.Pairwise fun a b => a.2 ≤ b.1
  after_past : ∀ p ∈ feed.intervals, ∀ earlier ∈ past, ∀ q ∈ earlier.intervals, q.2 ≤ p.1
  proper : ∀ p ∈ feed.intervals, 0 ≤ p.1 ∧ p.1 < p.2
  fed : ∀ p ∈ feed.intervals, p.2 * settings.sampleRate ≤ feed.fedSamples * 1000
  opened : ∀ c ∈ feed.currentSpeechStart,
    ∀ earlier ∈ feed :: past, ∀ q ∈ earlier.intervals, q.2 ≤ c

instance (settings : SessionSettings) (feed : VadFeed) (past : List VadFeed) :
    Decidable (VadLaw settings feed past) :=
  decidable_of_iff (feed.intervals.Pairwise (fun a b => a.2 ≤ b.1) ∧
      (∀ p ∈ feed.intervals, ∀ earlier ∈ past, ∀ q ∈ earlier.intervals, q.2 ≤ p.1) ∧
      (∀ p ∈ feed.intervals, 0 ≤ p.1 ∧ p.1 < p.2) ∧
      (∀ p ∈ feed.intervals, p.2 * settings.sampleRate ≤ feed.fedSamples * 1000) ∧
      ∀ c ∈ feed.currentSpeechStart, ∀ earlier ∈ feed :: past, ∀ q ∈ earlier.intervals, q.2 ≤ c)
    ⟨fun ⟨h1, h2, h3, h4, h5⟩ => ⟨h1, h2, h3, h4, h5⟩,
      fun ⟨h1, h2, h3, h4, h5⟩ => ⟨h1, h2, h3, h4, h5⟩⟩

/-- The VAD has kept its promise in all feeds. -/
def LawfulVad (settings : SessionSettings) (feeds : List VadFeed) : Prop :=
  AtEach (VadLaw settings) feeds

instance (settings : SessionSettings) (feeds : List VadFeed) :
    Decidable (LawfulVad settings feeds) :=
  inferInstanceAs (Decidable (AtEach (VadLaw settings) feeds))

/-- The instant is not before the end of a closed segment, in whole milliseconds. -/
def AfterClosed (feeds : List VadFeed) (t : ℤ) : Prop :=
  ∀ feed ∈ feeds, ∀ q ∈ feed.intervals, truncate q.2 ≤ t

namespace Session

/-- All locked sentences end before the instant, and the buffer reaches back to it. -/
def Clear (settings : SessionSettings) (s : Session) (t : ℤ) : Prop :=
  (∀ p ∈ s.transcript.times, p.2 ≤ t) ∧
    s.audio.startSample ≤ max 0 (msToSample settings.sampleRate t)

/-- What is promised of every state of a session. -/
structure Safe (settings : SessionSettings) (s : Session) : Prop where
  holds : s.audio.Holds s.received
  start_le_stream : s.audio.startSample ≤ s.lastStreamSamples
  start_le_vad : s.audio.startSample ≤ s.vadFedSamples
  stream_le : s.lastStreamSamples ≤ s.audio.totalSamples
  vad_le : s.vadFedSamples ≤ s.audio.totalSamples
  decodes : ∀ d ∈ s.decodes, d.Held settings
  times : ∀ p ∈ s.transcript.times, p.1 < p.2 ∧ p.2 ≤ s.currentDurationMs settings
  times_ordered : s.transcript.times.Pairwise fun a b => a.2 ≤ b.1

/-- While the session is active, the segments that wait for their final decode are in order and
within the audio, and every one begins at a clear time; so does the partial text. -/
structure Sound (settings : SessionSettings) (queue : List Segment) (s : Session) : Prop
    extends Safe settings s where
  queue_ordered : queue.Pairwise Span.Before
  queue_clear : ∀ x ∈ queue, Clear settings s x.start
  queue_stop : ∀ x ∈ queue, 0 ≤ x.stop ∧ x.stop ≤ s.currentDurationMs settings
  partial_clear : Clear settings s s.partialStartMs

/-- Every instant after the closed segments is clear, and after the waiting ones. -/
structure Settled (settings : SessionSettings) (queue : List Segment) (s : Session) : Prop where
  clear : ∀ t, AfterClosed s.feeds t → Clear settings s t
  queue : ∀ t, AfterClosed s.feeds t → ∀ x ∈ queue, x.stop ≤ t
  opened : ∀ c, s.currentSpeechStart = some c → AfterClosed s.feeds (truncate c)

section Effects

variable (settings : SessionSettings) (models : Recognizers)

/-- A final decode changes the history and nothing else, whatever it answers. -/
theorem decodeFinalSegment_state (s : Session) (startMs endMs : ℤ) :
    ∃ n, (s.decodeFinalSegment settings models startMs endMs).2 = { s with
      calls := n
      decodes := ⟨startMs, endMs, s.audio, s.received⟩ :: s.decodes } := by
  unfold decodeFinalSegment
  dsimp only
  split
  · exact ⟨s.calls, rfl⟩
  · split
    · exact ⟨s.calls, rfl⟩
    · split
      · exact ⟨s.calls + 1, rfl⟩
      · split
        · exact ⟨s.calls + 1, rfl⟩
        · exact ⟨s.calls + 1, rfl⟩

/-- Locking a text changes the transcript and nothing else, and adds at most one sentence. -/
theorem lockText_state (s : Session) (finalResult : FinalResult) (startMs endMs : ℤ)
    (source : Option LockSource) :
    ∃ t, s.lockText settings finalResult startMs endMs source = { s with transcript := t } ∧
      (t.times = s.transcript.times ∨ t.times = s.transcript.times ++ [(startMs, endMs)]) := by
  unfold lockText
  split
  · exact ⟨s.transcript, rfl, .inl rfl⟩
  · exact ⟨_, rfl, appendLockedSentence_times _ _ _ _ _ _⟩

/-- What finalizing a segment does to a session, whatever the models answer. -/
structure Finalized (s : Session) (segment : Segment) (s' : Session) : Prop where
  audio : ∃ keep, s'.audio = s.audio.dropBefore keep ∧
    keep ≤ max 0 (min s'.lastStreamSamples s.vadFedSamples)
  lastStreamSamples : s'.lastStreamSamples =
    min (msToSample settings.sampleRate segment.stop) s.audio.totalSamples
  partialStartMs : s'.partialStartMs = segment.stop
  times : s'.transcript.times = s.transcript.times ∨
    s'.transcript.times = s.transcript.times ++ [(segment.start, segment.stop)]
  decodes : s'.decodes = ⟨segment.start, segment.stop, s.audio, s.received⟩ :: s.decodes
  vadFedSamples : s'.vadFedSamples = s.vadFedSamples
  received : s'.received = s.received
  feeds : s'.feeds = s.feeds
  currentSpeechStart : s'.currentSpeechStart = s.currentSpeechStart

theorem finalizePendingSegment_finalized (segment : Segment) (rest : List Segment) (s : Session) :
    Finalized settings s segment (finalizePendingSegment settings models segment rest s).1 := by
  obtain ⟨n, hdecoded⟩ := decodeFinalSegment_state settings models
    { s with pendingFinalSegments := rest } segment.start segment.stop
  obtain ⟨t, hlocked, htimes⟩ := lockText_state settings _
    (.record (decodeFinalSegment settings models { s with pendingFinalSegments := rest }
      segment.start segment.stop).1) segment.start segment.stop none
  change Finalized settings s segment (restartPartial settings (lockText settings _ _ _ _ _) _)
  rw [hlocked, hdecoded]
  rw [hdecoded] at htimes
  exact ⟨⟨_, rfl, audioTrimKeepFromSample_le _ _ _ _ _ _⟩, rfl, rfl, htimes, rfl, rfl, rfl, rfl,
    rfl⟩

end Effects

section Flush

variable {settings : SessionSettings} {s s' : Session} {segment : Segment}
  {rest queue queue' : List Segment}

/-- What comes after a clear instant is clear. -/
theorem Clear.mono {t t' : ℤ} (h : Clear settings s t) (htt : t ≤ t') : Clear settings s t' := by
  refine ⟨fun p hp => (h.1 p hp).trans htt, h.2.trans ?_⟩
  exact max_le_max le_rfl (msToSample_mono settings.sampleRate_pos htt)

/-- The sentences after a finalization are those before, and at most the segment itself. -/
theorem Finalized.mem_times (hf : Finalized settings s segment s') {p : ℤ × ℤ}
    (hp : p ∈ s'.transcript.times) :
    p ∈ s.transcript.times ∨ p = (segment.start, segment.stop) := by
  rcases hf.times with heq | heq
  · rw [heq] at hp
    exact .inl hp
  · rw [heq] at hp
    rcases List.mem_append.mp hp with hold | hnew
    · exact .inl hold
    · exact .inr (List.mem_singleton.mp hnew)

/-- The end of a finalized segment is clear. -/
theorem Finalized.clear (hf : Finalized settings s segment s')
    (h : Sound settings (segment :: rest) s) : Clear settings s' segment.stop := by
  obtain ⟨hended, hreach⟩ := h.queue_clear segment (List.mem_cons_self ..)
  have hlen := segment.start_lt_stop
  constructor
  · intro p hp
    rcases hf.mem_times hp with hold | rfl
    · exact (hended p hold).trans hlen.le
    · exact le_rfl
  · obtain ⟨keep, haudio, hkeep⟩ := hf.audio
    have hdrop := s.audio.dropBefore_startSample_le keep
    have hmono := msToSample_mono settings.sampleRate_pos hlen.le
    have hstream := hf.lastStreamSamples
    rw [haudio]
    omega

/-- A sentence that begins after all the others have ended, within the audio, may be locked. -/
theorem Safe.times_lock (h : Safe settings s) {startMs endMs : ℤ} {times : List (ℤ × ℤ)}
    (htimes : times = s.transcript.times ∨ times = s.transcript.times ++ [(startMs, endMs)])
    (hended : ∀ p ∈ s.transcript.times, p.2 ≤ startMs) (hlt : startMs < endMs)
    (hstop : endMs ≤ s.currentDurationMs settings) :
    (∀ p ∈ times, p.1 < p.2 ∧ p.2 ≤ s.currentDurationMs settings) ∧
      times.Pairwise fun a b => a.2 ≤ b.1 := by
  rcases htimes with rfl | rfl
  · exact ⟨h.times, h.times_ordered⟩
  · constructor
    · intro p hp
      rcases List.mem_append.mp hp with hold | hnew
      · exact h.times p hold
      · rw [List.mem_singleton.mp hnew]
        exact ⟨hlt, hstop⟩
    · refine List.pairwise_append.mpr ⟨h.times_ordered, List.pairwise_singleton _ _, ?_⟩
      intro p hp q hq
      rw [List.mem_singleton.mp hq]
      exact hended p hp

/-- Finalizing the first waiting segment keeps the promises. -/
theorem Sound.finalized (h : Sound settings (segment :: rest) s)
    (hf : Finalized settings s segment s') : Sound settings rest s' := by
  obtain ⟨hended, hreach⟩ := h.queue_clear segment (List.mem_cons_self ..)
  obtain ⟨hstop0, hstop⟩ := h.queue_stop segment (List.mem_cons_self ..)
  obtain ⟨hbefore, hordered⟩ := List.pairwise_cons.mp h.queue_ordered
  have hclear := hf.clear h
  obtain ⟨keep, haudio, hkeep⟩ := hf.audio
  have htotal : s'.audio.totalSamples = s.audio.totalSamples := by
    rw [haudio, ChunkedAudioBuffer.dropBefore_totalSamples]
  have hduration : s'.currentDurationMs settings = s.currentDurationMs settings := by
    rw [currentDurationMs, htotal, currentDurationMs]
  have hdrop := s.audio.dropBefore_startSample_le keep
  rw [← haudio] at hdrop
  have hmono := msToSample_mono settings.sampleRate_pos segment.start_lt_stop.le
  have hnonneg := msToSample_nonneg settings.sampleRate_pos hstop0
  have hstart0 := h.holds.startSample_nonneg
  have hstartle := h.holds.startSample_le
  have hvad := h.start_le_vad
  have hvadle := h.vad_le
  have hstream := hf.lastStreamSamples
  have hvadfed := hf.vadFedSamples
  obtain ⟨htimes, htimesOrdered⟩ :=
    h.times_lock hf.times hended segment.start_lt_stop hstop
  rw [← hduration] at htimes
  refine ⟨⟨?_, ?_, ?_, ?_, ?_, ?_, htimes, htimesOrdered⟩, hordered, ?_, ?_, ?_⟩
  · rw [haudio, hf.received]
    exact h.holds.dropBefore keep
  · omega
  · omega
  · omega
  · omega
  · intro d hd
    rw [hf.decodes] at hd
    rcases List.mem_cons.mp hd with rfl | hold
    · exact h.holds.slice_eq hreach _
    · exact h.decodes d hold
  · intro x hx
    exact hclear.mono (hbefore x hx)
  · intro x hx
    rw [hduration]
    exact h.queue_stop x (List.mem_cons_of_mem _ hx)
  · rw [hf.partialStartMs]
    exact hclear

theorem Settled.finalized (hs : Settled settings (segment :: rest) s)
    (h : Sound settings (segment :: rest) s) (hf : Finalized settings s segment s') :
    Settled settings rest s' := by
  constructor
  · intro t ht
    rw [hf.feeds] at ht
    exact (hf.clear h).mono (hs.queue t ht segment (List.mem_cons_self ..))
  · intro t ht x hx
    rw [hf.feeds] at ht
    exact hs.queue t ht x (List.mem_cons_of_mem _ hx)
  · intro c hc
    rw [hf.currentSpeechStart] at hc
    rw [hf.feeds]
    exact hs.opened c hc

/-- Merging the waiting segments keeps the promises about them. -/
theorem Sound.coalesced (h : Sound settings queue s) (hq : Coalesced queue queue') :
    Sound settings queue' s := by
  refine ⟨h.toSafe, hq.ordered h.queue_ordered, ?_, ?_, h.partial_clear⟩
  · intro o ho
    obtain ⟨x, hx, hstart⟩ := hq.exists_start_eq ho
    rw [← hstart]
    exact h.queue_clear x hx
  · intro o ho
    obtain ⟨x, hx, hstop⟩ := hq.exists_stop_eq ho
    rw [← hstop]
    exact h.queue_stop x hx

theorem Settled.coalesced (hs : Settled settings queue s) (hq : Coalesced queue queue') :
    Settled settings queue' s := by
  refine ⟨hs.clear, fun t ht o ho => ?_, hs.opened⟩
  obtain ⟨x, hx, hstop⟩ := hq.exists_stop_eq ho
  rw [← hstop]
  exact hs.queue t ht x hx

/-- A law of the waiting segments and the session that merging and finalizing keep. -/
structure QueueLaw (settings : SessionSettings) (I : List Segment → Session → Prop) : Prop where
  coalesced : ∀ {queue queue' s}, I queue s → Coalesced queue queue' → I queue' s
  finalized : ∀ {segment rest s s'}, I (segment :: rest) s → Finalized settings s segment s' →
    I rest s'
  afterFlush : ∀ {queue s} pending, I queue s →
    I queue { s with pendingFinalSegments := pending }

variable {I : List Segment → Session → Prop}

/-- Locking confirmed segments keeps a law of the queue that they extend. -/
theorem QueueLaw.lockConfirmedSegments (hI : QueueLaw settings I) (models : Recognizers)
    (segments : List (List ℚ))
    (h : I (s.pendingFinalSegments ++ segments.filterMap normalizeVadSegment) s) :
    I (s.lockConfirmedSegments settings models segments).1.pendingFinalSegments
      (s.lockConfirmedSegments settings models segments).1 := by
  have hq : Coalesced (s.pendingFinalSegments ++ segments.filterMap normalizeVadSegment)
      ([] ++ enqueueConfirmedSegments settings.segmentMergeGapMs segments
        s.pendingFinalSegments) :=
    enqueueConfirmedSegments_coalesced settings.segmentMergeGapMs segments
      (Coalesced.refl s.pendingFinalSegments)
  refine hI.afterFlush _ (flushReadyPendingSegments_invariant ?_ (hI.coalesced h hq))
  intro segment rest t ht
  exact hI.finalized ht (finalizePendingSegment_finalized settings models segment rest t)

theorem QueueLaw.flushReadyPendingSegments (hI : QueueLaw settings I) (models : Recognizers)
    (h : I s.pendingFinalSegments s) :
    I (s.flushReadyPendingSegments settings models).1.pendingFinalSegments
      (s.flushReadyPendingSegments settings models).1 := by
  refine hI.afterFlush _ (flushReadyPendingSegments_invariant ?_ h)
  intro segment rest t ht
  exact hI.finalized ht (finalizePendingSegment_finalized settings models segment rest t)

/-- The forced flush keeps it too, and leaves nothing waiting. -/
theorem QueueLaw.forcedFlush (hI : QueueLaw settings I) (models : Recognizers)
    (h : I s.pendingFinalSegments s) :
    I [] (s.forcedFlush settings models) := by
  let flushed := flushPendingFinalSegments (shouldFlush settings)
    (finalizePendingSegment settings models) true s.pendingFinalSegments s
  have hflush : I flushed.pendingFinalSegments (s.forcedFlush settings models) := by
    refine hI.afterFlush _ (flushPendingFinalSegments_invariant ?_ h)
    intro segment rest t ht
    exact hI.finalized ht (finalizePendingSegment_finalized settings models segment rest t)
  have hempty : flushed.pendingFinalSegments = [] := flushLoop_eq_nil (fun _ _ => rfl) _ _ _
  rwa [hempty] at hflush

end Flush

section Laws

variable {settings : SessionSettings} {s s' : Session}
  {queue : List Segment}

/-- The fields that the promises are about. -/
def promised (s : Session) :
    ChunkedAudioBuffer Sample × List Sample × ℤ × ℤ × List FinalDecode × List (ℤ × ℤ) :=
  (s.audio, s.received, s.lastStreamSamples, s.vadFedSamples, s.decodes, s.transcript.times)

theorem Clear.congr {t : ℤ} (h : Clear settings s t) (hp : s'.promised = s.promised) :
    Clear settings s' t := by
  simp only [promised, Prod.mk.injEq] at hp
  obtain ⟨haudio, -, -, -, -, htimes⟩ := hp
  rw [Clear, haudio, htimes]
  exact h

theorem Safe.congr (h : Safe settings s) (hp : s'.promised = s.promised) : Safe settings s' := by
  simp only [promised, Prod.mk.injEq] at hp
  obtain ⟨haudio, hreceived, hstream, hvad, hdecodes, htimes⟩ := hp
  have hduration : s'.currentDurationMs settings = s.currentDurationMs settings := by
    rw [currentDurationMs, haudio, currentDurationMs]
  constructor
  · rw [haudio, hreceived]
    exact h.holds
  · rw [haudio, hstream]
    exact h.start_le_stream
  · rw [haudio, hvad]
    exact h.start_le_vad
  · rw [haudio, hstream]
    exact h.stream_le
  · rw [haudio, hvad]
    exact h.vad_le
  · rw [hdecodes]
    exact h.decodes
  · rw [htimes, hduration]
    exact h.times
  · rw [htimes]
    exact h.times_ordered

theorem Sound.congr (h : Sound settings queue s) (hp : s'.promised = s.promised)
    (hpart : s'.partialStartMs = s.partialStartMs) : Sound settings queue s' := by
  have haudio : s'.audio = s.audio := congrArg Prod.fst hp
  refine ⟨h.toSafe.congr hp, h.queue_ordered, fun x hx => (h.queue_clear x hx).congr hp, ?_, ?_⟩
  · rw [currentDurationMs, haudio]
    exact h.queue_stop
  · rw [hpart]
    exact h.partial_clear.congr hp

theorem Settled.congr (hs : Settled settings queue s) (hp : s'.promised = s.promised)
    (hfeeds : s'.feeds = s.feeds) (hopen : s'.currentSpeechStart = s.currentSpeechStart) :
    Settled settings queue s' := by
  constructor
  · rw [hfeeds]
    exact fun t ht => (hs.clear t ht).congr hp
  · rw [hfeeds]
    exact hs.queue
  · rw [hfeeds, hopen]
    exact hs.opened

theorem soundLaw (settings : SessionSettings) : QueueLaw settings (Sound settings) where
  coalesced h hq := h.coalesced hq
  finalized h hf := h.finalized hf
  afterFlush _ h := h.congr rfl rfl

/-- The queue does not touch what the VAD has answered. -/
theorem feedsLaw (settings : SessionSettings) (feeds : List VadFeed) :
    QueueLaw settings fun _ s => s.feeds = feeds where
  coalesced h _ := h
  finalized h hf := hf.feeds.trans h
  afterFlush _ h := h

/-- As long as the VAD keeps its promise, the session keeps its own. -/
def Kept (settings : SessionSettings) (queue : List Segment) (s : Session) : Prop :=
  LawfulVad settings s.feeds → Sound settings queue s ∧ Settled settings queue s

theorem keptLaw (settings : SessionSettings) : QueueLaw settings (Kept settings) where
  coalesced h hq hvad := ⟨(h hvad).1.coalesced hq, (h hvad).2.coalesced hq⟩
  finalized h hf hvad := by
    rw [hf.feeds] at hvad
    exact ⟨(h hvad).1.finalized hf, (h hvad).2.finalized (h hvad).1 hf⟩
  afterFlush _ h hvad := ⟨(h hvad).1.congr rfl rfl, (h hvad).2.congr rfl rfl rfl⟩

/-- A fresh session has nothing to promise yet. -/
theorem kept_fresh (calls : ℕ) (isActive : Bool) :
    Kept settings [] { fresh calls with isActive := isActive } := by
  intro _
  have hclear (t : ℤ) : Clear settings { fresh calls with isActive := isActive } t :=
    ⟨fun _ hp => absurd hp List.not_mem_nil, le_max_left _ _⟩
  constructor
  · exact ⟨⟨ChunkedAudioBuffer.holds_empty, le_rfl, le_rfl, le_rfl, le_rfl,
      fun _ hd => absurd hd List.not_mem_nil, fun _ hp => absurd hp List.not_mem_nil, .nil⟩,
      .nil, fun _ hx => absurd hx List.not_mem_nil, fun _ hx => absurd hx List.not_mem_nil,
      hclear 0⟩
  · exact ⟨fun t _ => hclear t, fun _ _ _ hx => absurd hx List.not_mem_nil,
      fun _ hc => absurd hc (by simp [fresh])⟩

/-- New audio moves no position. -/
theorem Kept.appendAudioChunk (h : Kept settings queue s) (audio : List Sample) :
    Kept settings queue (s.appendAudioChunk audio) := by
  intro hvad
  obtain ⟨hsound, hsettled⟩ := h hvad
  obtain ⟨hholds, hstart⟩ := hsound.holds.append audio
  have htotal : s.audio.totalSamples ≤ (s.audio.append audio).totalSamples := by
    rw [hholds.totalSamples_eq, hsound.holds.totalSamples_eq, List.length_append]
    omega
  have hduration : s.currentDurationMs settings ≤
      (s.appendAudioChunk audio).currentDurationMs settings :=
    sampleToMs_mono settings.sampleRate_pos htotal
  have hclear {t : ℤ} (ht : Clear settings s t) : Clear settings (s.appendAudioChunk audio) t := by
    refine ⟨ht.1, ?_⟩
    rw [Session.appendAudioChunk, hstart]
    exact ht.2
  refine ⟨⟨⟨hholds, ?_, ?_, ?_, ?_, hsound.decodes, ?_, hsound.times_ordered⟩,
    hsound.queue_ordered, fun x hx => hclear (hsound.queue_clear x hx), ?_,
    hclear hsound.partial_clear⟩,
    fun t ht => hclear (hsettled.clear t ht), hsettled.queue, hsettled.opened⟩
  · rw [Session.appendAudioChunk, hstart]
    exact hsound.start_le_stream
  · rw [Session.appendAudioChunk, hstart]
    exact hsound.start_le_vad
  · exact hsound.stream_le.trans htotal
  · exact hsound.vad_le.trans htotal
  · exact fun p hp => ⟨(hsound.times p hp).1, (hsound.times p hp).2.trans hduration⟩
  · exact fun x hx => ⟨(hsound.queue_stop x hx).1, (hsound.queue_stop x hx).2.trans hduration⟩

/-- The positions of the VAD and of the streaming model may move on within the audio. -/
theorem Kept.advance (h : Kept settings queue s) (stream vad : ℤ)
    (hstream : Safe settings s → s.lastStreamSamples ≤ stream ∧ stream ≤ s.audio.totalSamples)
    (hvad : Safe settings s → s.vadFedSamples ≤ vad ∧ vad ≤ s.audio.totalSamples) :
    Kept settings queue { s with lastStreamSamples := stream, vadFedSamples := vad } := by
  intro hlaw
  obtain ⟨hsound, hsettled⟩ := h hlaw
  obtain ⟨hstream0, hstream1⟩ := hstream hsound.toSafe
  obtain ⟨hvad0, hvad1⟩ := hvad hsound.toSafe
  exact ⟨⟨⟨hsound.holds, hsound.start_le_stream.trans hstream0, hsound.start_le_vad.trans hvad0,
    hstream1, hvad1, hsound.decodes, hsound.times, hsound.times_ordered⟩, hsound.queue_ordered,
    hsound.queue_clear, hsound.queue_stop, hsound.partial_clear⟩, hsettled.clear, hsettled.queue,
    hsettled.opened⟩

/-- A normalized segment is a closed interval of the VAD, cut to whole milliseconds. -/
theorem exists_interval (feed : VadFeed) {x : Segment}
    (hx : x ∈ feed.closed.filterMap normalizeVadSegment) :
    ∃ p ∈ feed.intervals, x.start = truncate p.1 ∧ x.stop = truncate p.2 := by
  obtain ⟨segment, hsegment, hsome⟩ := List.mem_filterMap.mp hx
  obtain ⟨p, hp, hstart, hstop⟩ := normalizeVadSegment_eq_some hsome
  exact ⟨p, List.mem_filterMap.mpr ⟨segment, hsegment, hp⟩, hstart, hstop⟩

/-- The closed segments of a feed may join the waiting ones. -/
theorem Kept.feedVad (h : Kept settings queue s) (models : Recognizers) (audio : List Sample)
    (isFinal : Bool) {fedSamples : ℤ} (hfed : fedSamples ≤ s.audio.totalSamples) :
    Kept settings (queue ++ ((s.feedVad models audio isFinal fedSamples).1.getD []).filterMap
      normalizeVadSegment) (s.feedVad models audio isFinal fedSamples).2 := by
  rintro ⟨hlaw, hpast⟩
  obtain ⟨hsound, hsettled⟩ := h hpast
  have hsound' : Sound settings queue (s.feedVad models audio isFinal fedSamples).2 :=
    hsound.congr rfl rfl
  let feed : VadFeed := ⟨⟨audio, isFinal⟩, fedSamples,
    (s.feedVad models audio isFinal fedSamples).1.getD [],
    (s.feedVad models audio isFinal fedSamples).2.currentSpeechStart⟩
  -- a new segment begins after everything that was closed before
  have hafter (x : Segment) (hx : x ∈ ((s.feedVad models audio isFinal fedSamples).1.getD
      []).filterMap normalizeVadSegment) : AfterClosed s.feeds x.start := by
    obtain ⟨p, hp, hstart, -⟩ := exists_interval feed hx
    intro feed hfeed q hq
    rw [hstart]
    exact truncate_mono (hlaw.after_past p hp feed hfeed q hq)
  refine ⟨⟨hsound'.toSafe, ?_, ?_, ?_, hsound'.partial_clear⟩, ?_, ?_, ?_⟩
  · refine List.pairwise_append.mpr ⟨hsound.queue_ordered, ?_, fun y hy x hx => ?_⟩
    · exact Chronological.normalized hlaw.ordered
    · exact hsettled.queue x.start (hafter x hx) y hy
  · intro x hx
    rcases List.mem_append.mp hx with hold | hnew
    · exact hsound'.queue_clear x hold
    · exact (hsettled.clear x.start (hafter x hnew)).congr rfl
  · intro x hx
    rcases List.mem_append.mp hx with hold | hnew
    · exact hsound'.queue_stop x hold
    · obtain ⟨p, hp, -, hstop⟩ := exists_interval feed hnew
      obtain ⟨h0, h1⟩ := hlaw.proper p hp
      rw [hstop]
      constructor
      · exact le_truncate_of_le (by exact_mod_cast h0.trans h1.le)
      · exact (truncate_le_sampleToMs settings.sampleRate_pos (h0.trans h1.le)
          (hlaw.fed p hp)).trans (sampleToMs_mono settings.sampleRate_pos hfed)
  · intro t ht
    have hold : AfterClosed s.feeds t := fun feed hfeed => ht feed (List.mem_cons_of_mem _ hfeed)
    exact (hsettled.clear t hold).congr rfl
  · intro t ht x hx
    rcases List.mem_append.mp hx with hold | hnew
    · exact hsettled.queue t (fun feed hfeed => ht feed (List.mem_cons_of_mem _ hfeed)) x hold
    · obtain ⟨p, hp, -, hstop⟩ := exists_interval feed hnew
      rw [hstop]
      exact ht _ (List.mem_cons_self ..) p hp
  · intro c hc feed hfeed q hq
    exact truncate_mono (hlaw.opened c hc feed hfeed q hq)

end Laws

end Session

end FunasrApi.Online
