import FunasrApi.Online.SessionInvariant

/-!
# Every state of a session

Each call keeps the promises of the session, also when the VAD or a model raises
in the middle of it, so they hold in every reachable state. After `finish` the
session only keeps what it has; its next call is a `reset`.
-/

namespace FunasrApi.Online.Session

open FunasrApi.Core

variable {settings : SessionSettings} {models : Recognizers} {s s' : Session}
  {queue : List Segment}

/-- Changes of other fields keep the promises. -/
theorem Kept.congr (h : Kept settings queue s) (hp : s'.promised = s.promised)
    (hpart : s'.partialStartMs = s.partialStartMs) (hfeeds : s'.feeds = s.feeds)
    (hopen : s'.currentSpeechStart = s.currentSpeechStart) : Kept settings queue s' := by
  intro hvad
  rw [hfeeds] at hvad
  exact ⟨(h hvad).1.congr hp hpart, (h hvad).2.congr hp hfeeds hopen⟩

/-- Fewer waiting segments wait in order as well. -/
theorem Kept.of_append {front back : List Segment} (h : Kept settings (front ++ back) s) :
    Kept settings front s := by
  intro hvad
  obtain ⟨hsound, hsettled⟩ := h hvad
  have hmem {x : Segment} (hx : x ∈ front) : x ∈ front ++ back := List.mem_append_left _ hx
  exact ⟨⟨hsound.toSafe, (List.pairwise_append.mp hsound.queue_ordered).1,
    fun x hx => hsound.queue_clear x (hmem hx), fun x hx => hsound.queue_stop x (hmem hx),
    hsound.partial_clear⟩,
    hsettled.clear, fun t ht x hx => hsettled.queue t ht x (hmem hx), hsettled.opened⟩

/-- The segments that the feeding loop collects wait after the pending ones; when a feed has
raised, none are left to wait. -/
theorem feedLoop_kept (models : Recognizers) (rounds : ℕ) (confirmed : List (List ℚ))
    (h : Kept settings (s.pendingFinalSegments ++ confirmed.filterMap normalizeVadSegment) s) :
    Kept settings ((feedLoop settings models rounds confirmed s).2.pendingFinalSegments ++
      ((feedLoop settings models rounds confirmed s).1.getD []).filterMap normalizeVadSegment)
      (feedLoop settings models rounds confirmed s).2 := by
  induction rounds generalizing confirmed s with
  | zero => exact h
  | succ rounds ih =>
    unfold feedLoop
    by_cases hmore : settings.vadChunkSamples ≤ s.audio.totalSamples - s.vadFedSamples
    · have hpos := settings.vadChunkSamples_pos
      have hend : s.vadFedSamples + settings.vadChunkSamples ≤ s.audio.totalSamples := by omega
      have hfed := h.feedVad models (s.audio.slice s.vadFedSamples
        (s.vadFedSamples + settings.vadChunkSamples)) false hend
      rw [if_pos hmore]
      dsimp only
      split
      · rw [Option.getD_none, List.filterMap_nil, List.append_nil]
        exact hfed.of_append.of_append
      · next segments hreply =>
        rw [hreply, Option.getD_some, List.append_assoc, ← List.filterMap_append] at hfed
        apply ih
        exact hfed.advance _ _ (fun hsafe => ⟨le_rfl, hsafe.stream_le⟩)
          (fun _ => ⟨by show s.vadFedSamples ≤ _; omega, hend⟩)
    · rw [if_neg hmore]
      exact h

/-- `add_audio` keeps a law of the queue that new audio and its feeding loop keep, whether it
returns or raises. -/
theorem QueueLaw.addAudio {I : List Segment → Session → Prop} (hI : QueueLaw settings I)
    (models : Recognizers) {pcmBytes : List UInt8} (h : I s.pendingFinalSegments s)
    (hchunk : ∀ audio, I s.pendingFinalSegments (s.appendAudioChunk audio))
    (hloop : ∀ audio, frombuffer pcmBytes = some audio → ¬audio.isEmpty = true →
      let t := s.appendAudioChunk audio
      let fed := feedLoop settings models (t.audio.totalSamples - t.vadFedSamples).toNat [] t
      I (fed.2.pendingFinalSegments ++ (fed.1.getD []).filterMap normalizeVadSegment) fed.2) :
    I (s.addAudio settings models pcmBytes).1.pendingFinalSegments
      (s.addAudio settings models pcmBytes).1 := by
  unfold Session.addAudio
  split
  · exact h
  · split
    · exact h
    · next audio haudio =>
      split
      · exact h
      · next hsound =>
        have hfed := hloop audio haudio hsound
        dsimp only at hfed ⊢
        split
        · exact hI.flushReadyPendingSegments models (hchunk audio)
        · split
          · next hraised =>
            rw [hraised] at hfed
            simpa using hfed
          · next confirmed hreply =>
            rw [hreply] at hfed
            exact hI.lockConfirmedSegments models confirmed hfed

/-- `add_audio` keeps the promises, whether it returns or raises. -/
theorem addAudio_kept (pcmBytes : List UInt8) (h : Kept settings s.pendingFinalSegments s) :
    Kept settings (s.addAudio settings models pcmBytes).1.pendingFinalSegments
      (s.addAudio settings models pcmBytes).1 := by
  refine (keptLaw settings).addAudio models h h.appendAudioChunk fun audio _ _ => ?_
  have hnew : Kept settings (s.appendAudioChunk audio).pendingFinalSegments
      (s.appendAudioChunk audio) := h.appendAudioChunk audio
  exact feedLoop_kept models _ [] (by simpa using hnew)

/-- `decode_partial` keeps the promises, whether it returns or raises. -/
theorem decodePartial_kept (models : Recognizers) (h : Kept settings queue s) :
    Kept settings queue (s.decodePartial settings models) := by
  have hnonneg : 0 ≤ s.decodeThreshold settings := by
    unfold decodeThreshold
    split
    · exact settings.chunkSamples_nonneg
    · exact settings.firstDecodeSamples_nonneg
  have hmoved := h.advance
    (min (s.lastStreamSamples + s.decodeThreshold settings) s.audio.totalSamples) s.vadFedSamples
    (fun hsafe => ⟨by have := hsafe.stream_le; omega, min_le_right _ _⟩)
    (fun hsafe => ⟨le_rfl, hsafe.vad_le⟩)
  unfold decodePartial
  dsimp only
  split
  · exact h
  · split
    · exact h.congr rfl rfl rfl rfl
    · exact hmoved.congr rfl rfl rfl rfl
    · exact hmoved.congr rfl rfl rfl rfl

theorem decodePartial_pendingFinalSegments (settings : SessionSettings) (models : Recognizers)
    (s : Session) :
    (s.decodePartial settings models).pendingFinalSegments = s.pendingFinalSegments := by
  unfold decodePartial
  dsimp only
  split
  · rfl
  · split <;> rfl

/-- The open speech may join the waiting segments when no feed is to come. -/
theorem Sound.openSpeech (h : Sound settings s.pendingFinalSegments s)
    (hs : Settled settings s.pendingFinalSegments s) {c : ℚ} (hc : s.currentSpeechStart = some c) :
    Sound settings (s.pendingFinalSegments ++
      [[c, (s.currentDurationMs settings : ℚ)]].filterMap normalizeVadSegment) s := by
  have hafter := hs.opened c hc
  have hduration : 0 ≤ s.currentDurationMs settings := by
    have h0 := h.holds.startSample_nonneg.trans h.holds.startSample_le
    exact Int.tdiv_nonneg (by omega) settings.sampleRate_pos.le
  by_cases hlt : truncate c < s.currentDurationMs settings
  · have hnorm : [[c, (s.currentDurationMs settings : ℚ)]].filterMap normalizeVadSegment =
        [⟨truncate c, s.currentDurationMs settings, hlt⟩] := by
      simp [normalizeVadSegment, hlt]
    rw [hnorm]
    refine ⟨h.toSafe, ?_, ?_, ?_, h.partial_clear⟩
    · refine List.pairwise_append.mpr ⟨h.queue_ordered, List.pairwise_singleton _ _, ?_⟩
      intro x hx y hy
      rw [List.mem_singleton.mp hy]
      exact hs.queue _ hafter x hx
    · intro x hx
      rcases List.mem_append.mp hx with hold | hnew
      · exact h.queue_clear x hold
      · rw [List.mem_singleton.mp hnew]
        exact hs.clear _ hafter
    · intro x hx
      rcases List.mem_append.mp hx with hold | hnew
      · exact h.queue_stop x hold
      · rw [List.mem_singleton.mp hnew]
        exact ⟨hduration, le_rfl⟩
  · have hnorm : [[c, (s.currentDurationMs settings : ℚ)]].filterMap normalizeVadSegment = [] := by
      simp [normalizeVadSegment, hlt]
    rw [hnorm, List.append_nil]
    exact h

/-- The forced tail begins where the partial text begins, which is a clear time. -/
theorem Sound.forceLockTail (h : Sound settings queue s) (models : Recognizers) :
    Safe settings (s.forceLockTail settings models) := by
  unfold Session.forceLockTail
  dsimp only
  split
  · exact h.toSafe
  · next hlong =>
    have hstart : min s.partialStartMs (s.currentDurationMs settings) = s.partialStartMs := by omega
    have hlt : s.partialStartMs < s.currentDurationMs settings := by omega
    rw [hstart]
    obtain ⟨n, hdecoded⟩ := decodeFinalSegment_state settings models s s.partialStartMs
      (s.currentDurationMs settings)
    obtain ⟨t, hlocked, htimes⟩ := lockText_state settings _
      (.record (s.decodeFinalSegment settings models s.partialStartMs
        (s.currentDurationMs settings)).1) s.partialStartMs (s.currentDurationMs settings)
      (some .forcedFinalTail)
    rw [hlocked, hdecoded]
    rw [hdecoded] at htimes
    obtain ⟨hinside, hordered⟩ := h.times_lock htimes h.partial_clear.1 hlt le_rfl
    refine ⟨h.holds, h.start_le_stream, h.start_le_vad, h.stream_le, h.vad_le, ?_, hinside,
      hordered⟩
    intro d hd
    rcases List.mem_cons.mp hd with rfl | hold
    · exact h.holds.slice_eq h.partial_clear.2 _
    · exact h.decodes d hold

theorem Sound.lockOpenSpeech (h : Sound settings s.pendingFinalSegments s)
    (hs : Settled settings s.pendingFinalSegments s) (models : Recognizers) :
    Sound settings (s.lockOpenSpeech settings models).pendingFinalSegments
      (s.lockOpenSpeech settings models) := by
  unfold Session.lockOpenSpeech
  split
  · exact h
  · next c hc =>
    have hlocked := (soundLaw settings).lockConfirmedSegments models _ (h.openSpeech hs hc)
    exact hlocked.congr rfl rfl

theorem forceLockTail_feeds (models : Recognizers) (s : Session) :
    (s.forceLockTail settings models).feeds = s.feeds := by
  unfold Session.forceLockTail
  dsimp only
  split
  · rfl
  · obtain ⟨n, hdecoded⟩ := decodeFinalSegment_state settings models s
      (min s.partialStartMs (s.currentDurationMs settings)) (s.currentDurationMs settings)
    obtain ⟨_, hlocked, -⟩ := lockText_state settings _
      (.record (s.decodeFinalSegment settings models (min s.partialStartMs
        (s.currentDurationMs settings)) (s.currentDurationMs settings)).1)
      (min s.partialStartMs (s.currentDurationMs settings)) (s.currentDurationMs settings)
      (some .forcedFinalTail)
    rw [hlocked, hdecoded]

/-- The locking of confirmed and open speech asks the VAD nothing, nor does the forced flush. -/
theorem lockSpeech_feeds (models : Recognizers) (confirmed : List (List ℚ)) (s : Session) :
    (((s.lockConfirmedSegments settings models confirmed).1.lockOpenSpeech settings
      models).forcedFlush settings models).feeds = s.feeds := by
  have hopen (t : Session) : (t.lockOpenSpeech settings models).feeds = t.feeds := by
    unfold Session.lockOpenSpeech
    split
    · rfl
    · exact (feedsLaw settings t.feeds).lockConfirmedSegments models _ rfl
  have hlocked : (s.lockConfirmedSegments settings models confirmed).1.feeds = s.feeds :=
    (feedsLaw settings s.feeds).lockConfirmedSegments models confirmed rfl
  have hflushed (t : Session) : (t.forcedFlush settings models).feeds = t.feeds :=
    (feedsLaw settings t.feeds).forcedFlush models rfl
  rw [hflushed, hopen, hlocked]

/-- The locking part of `finish` asks the VAD nothing. -/
theorem finishLocking_feeds (models : Recognizers) (confirmed : List (List ℚ)) (n : ℕ)
    (s : Session) : (s.finishLocking settings models confirmed n).feeds = s.feeds := by
  have hspeech := @lockSpeech_feeds settings models confirmed s
  unfold finishLocking
  dsimp only
  split
  · rw [forceLockTail_feeds, hspeech]
  · exact hspeech

/-- After the last feed, `finish` may also leave the order of the segments to come. -/
theorem finishLocking_safe (models : Recognizers) {confirmed : List (List ℚ)} (n : ℕ)
    (h : Kept settings (s.pendingFinalSegments ++ confirmed.filterMap normalizeVadSegment) s)
    (hvad : LawfulVad settings s.feeds) :
    Safe settings (s.finishLocking settings models confirmed n) := by
  have hfeeds : (s.lockConfirmedSegments settings models confirmed).1.feeds = s.feeds :=
    (feedsLaw settings s.feeds).lockConfirmedSegments models confirmed rfl
  have hkept := (keptLaw settings).lockConfirmedSegments models confirmed h
  rw [← hfeeds] at hvad
  obtain ⟨hsound, hsettled⟩ := hkept hvad
  have hflushed := (soundLaw settings).forcedFlush models (hsound.lockOpenSpeech hsettled models)
  unfold finishLocking
  dsimp only
  split
  · exact (hflushed.forceLockTail models).congr rfl
  · exact hflushed.toSafe.congr rfl

/-- The segments of the first feed of `finish` wait after the pending ones. -/
theorem feedRemaining_kept (models : Recognizers) (h : Kept settings s.pendingFinalSegments s) :
    Kept settings ((s.feedRemaining models).2.pendingFinalSegments ++
      ((s.feedRemaining models).1.getD []).filterMap normalizeVadSegment)
      (s.feedRemaining models).2 := by
  unfold feedRemaining
  dsimp only
  split
  · simpa using h
  · have hfed := h.feedVad models (s.audio.slice s.vadFedSamples s.audio.totalSamples) true le_rfl
    split
    · rw [Option.getD_none, List.filterMap_nil, List.append_nil]
      exact hfed.of_append
    · next segments hreply =>
      rw [hreply] at hfed
      exact hfed.advance _ _ (fun hsafe => ⟨le_rfl, hsafe.stream_le⟩)
        (fun hsafe => ⟨hsafe.vad_le, le_rfl⟩)

/-- `finish` keeps every promise when a feed raises, and else those about what there is. -/
theorem finish_kept (models : Recognizers) (h : Kept settings s.pendingFinalSegments s) :
    ((s.finish settings models).2 = false →
      Kept settings (s.finish settings models).1.pendingFinalSegments
        (s.finish settings models).1) ∧
    (LawfulVad settings (s.finish settings models).1.feeds →
      Safe settings (s.finish settings models).1) := by
  have hfed := feedRemaining_kept models h
  unfold finish
  dsimp only
  split
  · have hraised := hfed.of_append
    exact ⟨fun _ => hraised, fun hvad => (hraised hvad).1.toSafe⟩
  · next confirmed hreply =>
    rw [hreply] at hfed
    have hlast := hfed.feedVad models [] true le_rfl
    split
    · have hraised := hlast.of_append.of_append
      exact ⟨fun _ => hraised, fun hvad => (hraised hvad).1.toSafe⟩
    · next segments hsegments =>
      rw [hsegments, Option.getD_some, Option.getD_some, List.append_assoc,
        ← List.filterMap_append] at hlast
      refine ⟨fun hfalse => Bool.noConfusion hfalse, fun hvad => ?_⟩
      rw [finishLocking_feeds] at hvad
      exact finishLocking_safe models _ hlast hvad

/-- What holds between two calls: the promises, and for an active session also the order of the
segments to come. -/
def Invariant (settings : SessionSettings) (s : Session) : Prop :=
  (LawfulVad settings s.feeds → Safe settings s) ∧
    (s.isActive = true → Kept settings s.pendingFinalSegments s)

theorem Kept.invariant (h : Kept settings s.pendingFinalSegments s) : Invariant settings s :=
  ⟨fun hvad => (h hvad).1.toSafe, fun _ => h⟩

/-- Every call keeps the invariant. -/
theorem step_invariant {call : Call} (h : Invariant settings s)
    (hstep : s.step settings models call = some s') : Invariant settings s' := by
  cases call with
  | start =>
    obtain rfl := Option.some.inj hstep
    exact (kept_fresh s.calls true).invariant
  | addAudio pcmBytes =>
    simp only [step, Option.ite_none_right_eq_some, Option.some.injEq] at hstep
    obtain ⟨hactive, rfl⟩ := hstep
    exact (addAudio_kept pcmBytes (h.2 hactive)).invariant
  | decodePartial =>
    simp only [step, Option.ite_none_right_eq_some, Option.some.injEq] at hstep
    obtain ⟨hactive, rfl⟩ := hstep
    have hkept := decodePartial_kept models (h.2 hactive)
    rw [← decodePartial_pendingFinalSegments settings models s] at hkept
    exact hkept.invariant
  | buildOfflineEvent =>
    obtain rfl := Option.some.inj hstep
    exact ⟨fun hvad => (h.1 hvad).congr rfl, fun hactive => (h.2 hactive).congr rfl rfl rfl rfl⟩
  | finish =>
    simp only [step, Option.ite_none_right_eq_some, Option.some.injEq] at hstep
    obtain ⟨hactive, rfl⟩ := hstep
    obtain ⟨hraised, hsafe⟩ := finish_kept models (h.2 hactive)
    refine ⟨fun hvad => (hsafe hvad).congr rfl, fun hstill => ?_⟩
    have hfalse : (s.finish settings models).2 = false := by
      simpa using (Bool.and_eq_true_iff.mp hstill).2
    exact (hraised hfalse).congr rfl rfl rfl rfl

/-- In every reachable state of a session whose VAD keeps its promise, the buffer begins no later
than the streaming and the VAD position, which are within the audio; every final decode was given
all received samples of its segment; and the locked sentences have a positive length within the
audio, and follow one another. -/
theorem reachable_safe (h : Reachable settings models s) (hvad : LawfulVad settings s.feeds) :
    (s.audio.startSample ≤ min s.lastStreamSamples s.vadFedSamples ∧
      s.lastStreamSamples ≤ s.audio.totalSamples ∧ s.vadFedSamples ≤ s.audio.totalSamples) ∧
    (∀ d ∈ s.decodes, d.Held settings) ∧
    (∀ l ∈ s.transcript.lockedSentences,
      l.startMs < l.endMs ∧ l.endMs ≤ s.currentDurationMs settings) ∧
    s.transcript.lockedSentences.Pairwise fun a b => a.endMs ≤ b.startMs := by
  have hinv : Invariant settings s :=
    Machine.Reach.invariant h (kept_fresh 0 false).invariant
      fun _ _ _ hs _ hstep => step_invariant hs hstep
  have hsafe := hinv.1 hvad
  refine ⟨⟨le_min hsafe.start_le_stream hsafe.start_le_vad, hsafe.stream_le, hsafe.vad_le⟩,
    hsafe.decodes, fun l hl => hsafe.times _ (List.mem_map_of_mem hl), ?_⟩
  exact List.pairwise_map.mp hsafe.times_ordered

/-- A session at 10 samples per second, so that one sample is 100 ms. -/
def slowSettings : SessionSettings :=
  .init 10 500 500 100 100 0 1 1 (by decide) (by decide) (by decide)

/-- A VAD that closes [200, 700] in its tenth feed and opens speech at 1200 in its fifteenth, with
models that recognize the same text in everything. -/
def scriptedModels : Recognizers where
  vadFeed n _ _ :=
    if n = 9 then ⟨some [[200, 700]], none⟩
    else if 14 ≤ n then ⟨some [], some 1200⟩
    else ⟨some [], none⟩
  finalDecode _ _ := some ⟨['好'], ['好', '。'], []⟩
  streamingDecode _ _ _ := some ['好']
  hasEffectiveSpeechAudio _ := true
  hasAcceptableFinalText _ := true
  mergeOnlinePartialText _ current := current

/-- Two chunks of one second, with a partial decode between them. -/
def twoChunkCalls : List Call :=
  [.start, .addAudio (List.replicate 20 1), .decodePartial, .addAudio (List.replicate 20 2),
    .buildOfflineEvent, .finish]

/-- The run locks the closed and the open speech, and keeps its promises. -/
theorem twoChunkCalls_safe :
    ∃ s, (machine slowSettings scriptedModels).run (fresh 0) twoChunkCalls = some s ∧
      s.transcript.lockedSentences.map (fun l => (l.startMs, l.endMs)) =
        [(200, 700), (1200, 2000)] ∧
      s.audio.startSample ≤ min s.lastStreamSamples s.vadFedSamples := by
  have hrun : ((machine slowSettings scriptedModels).run (fresh 0) twoChunkCalls).any (fun s =>
      decide (s.transcript.lockedSentences.map (fun l => (l.startMs, l.endMs)) =
        [(200, 700), (1200, 2000)]) && decide (LawfulVad slowSettings s.feeds)) = true := by
    decide +kernel
  cases hs : (machine slowSettings scriptedModels).run (fresh 0) twoChunkCalls with
  | none =>
    rw [hs] at hrun
    cases hrun
  | some s =>
    rw [hs, Option.any_some] at hrun
    obtain ⟨htimes, hvad⟩ := Bool.and_eq_true_iff.mp hrun
    have hreach : Reachable slowSettings scriptedModels s :=
      Machine.Reach.of_run twoChunkCalls (fun _ _ _ => trivial) hs
    exact ⟨s, rfl, of_decide_eq_true htimes, (reachable_safe hreach (of_decide_eq_true hvad)).1.1⟩

end FunasrApi.Online.Session
