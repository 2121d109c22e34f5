import FunasrApi.Core.Chunking
import FunasrApi.Online.SessionSafety

/-!
# What the VAD of a session is fed

The blocks that a call on a session is going to pass to `vad.feed`, in their
order, told from the state before the call. The history of the session has these
blocks, each with what the VAD has answered to it.
-/

namespace FunasrApi.Online

open FunasrApi.Core

/-- The VAD never raises. -/
def Recognizers.VadReturns (models : Recognizers) : Prop :=
  ∀ n audio isFinal, ((models.vadFeed n audio isFinal).segments).isSome

/-- The replies of the VAD to blocks that it is fed one after the other. -/
def Recognizers.vadReplies (models : Recognizers) : ℕ → List VadBlock → List VadReply
  | _, [] => []
  | n, block :: blocks =>
    models.vadFeed n block.audio block.isFinal :: models.vadReplies (n + 1) blocks

namespace Session

variable (settings : SessionSettings) (models : Recognizers)

/-- The blocks of the loop of `add_audio`. -/
def feedLoopBlocks : ℕ → Session → List VadBlock
  | 0, _ => []
  | rounds + 1, s =>
    if settings.vadChunkSamples ≤ s.audio.totalSamples - s.vadFedSamples then
      let chunkEnd := s.vadFedSamples + settings.vadChunkSamples
      let vadChunk := s.audio.slice s.vadFedSamples chunkEnd
      let fed := s.feedVad models vadChunk false chunkEnd
      ⟨vadChunk, false⟩ :: match fed.1 with
        | none => []
        | some _ => feedLoopBlocks rounds { fed.2 with vadFedSamples := chunkEnd }
    else []

/-- The blocks of `add_audio`. -/
def addAudioBlocks (pcmBytes : List UInt8) (s : Session) : List VadBlock :=
  match frombuffer pcmBytes with
  | none => []
  | some audio =>
    if audio.isEmpty then []
    else
      let s := s.appendAudioChunk audio
      feedLoopBlocks settings models (s.audio.totalSamples - s.vadFedSamples).toNat s

/-- The blocks of `finish`. -/
def finishBlocks (s : Session) : List VadBlock :=
  let remaining := s.audio.slice s.vadFedSamples s.audio.totalSamples
  (if remaining.isEmpty then [] else [⟨remaining, true⟩]) ++
    match (s.feedRemaining models).1 with
    | none => []
    | some _ => [⟨[], true⟩]

/-- The blocks of one call. -/
def callBlocks (s : Session) : Call → List VadBlock
  | .addAudio pcmBytes => if s.isActive then s.addAudioBlocks settings models pcmBytes else []
  | .finish => if s.isActive then s.finishBlocks models else []
  | .start | .decodePartial | .buildOfflineEvent => []

/-- The blocks of the calls of a run, up to one that is rejected. -/
def runBlocks : List Call → Session → List VadBlock
  | [], _ => []
  | call :: calls, s =>
    s.callBlocks settings models call ++ match s.step settings models call with
      | none => []
      | some s' => runBlocks calls s'

end Session

/-- The audio that a call brings. -/
def Session.Call.message : Session.Call → List UInt8
  | .addAudio pcmBytes => pcmBytes
  | .start | .decodePartial | .buildOfflineEvent | .finish => []

section Frombuffer

/-- An even number of bytes are whole samples. -/
theorem exists_frombuffer {bytes : List UInt8} (h : Even bytes.length) :
    ∃ samples, frombuffer bytes = some samples := by
  induction bytes using frombuffer.induct with
  | case1 => exact ⟨[], rfl⟩
  | case2 => exact absurd h (by simp)
  | case3 low high rest ih =>
    have hrest : Even rest.length := by
      rw [List.length_cons, List.length_cons, add_assoc] at h
      exact (Nat.even_add.mp h).mpr even_two
    obtain ⟨samples, hsamples⟩ := ih hrest
    exact ⟨_, by rw [frombuffer, hsamples, Option.map_some]⟩

/-- Whole samples are read as if they had arrived alone. -/
theorem frombuffer_append {bytes more : List UInt8} {samples samples' : List Sample}
    (h : frombuffer bytes = some samples) (h' : frombuffer more = some samples') :
    frombuffer (bytes ++ more) = some (samples ++ samples') := by
  induction bytes using frombuffer.induct generalizing samples with
  | case1 =>
    obtain rfl : [] = samples := Option.some.inj h
    exact h'
  | case2 => cases h
  | case3 low high rest ih =>
    rw [frombuffer] at h
    obtain ⟨tail, htail, rfl⟩ := Option.map_eq_some_iff.mp h
    rw [List.cons_append, List.cons_append, frombuffer, ih htail]
    rfl

end Frombuffer

/-- What a feed has noted of the answer of the VAD. -/
def VadFeed.answer (feed : VadFeed) : List (List ℚ) × Option ℚ :=
  (feed.closed, feed.currentSpeechStart)

/-- What a reply of the VAD says, also when it raises. -/
def VadReply.answer (reply : VadReply) : List (List ℚ) × Option ℚ :=
  (reply.segments.getD [], reply.currentSpeechStart)

/-- A feed with its block and the answer to it. -/
def VadFeed.entry (feed : VadFeed) : VadBlock × List (List ℚ) × Option ℚ :=
  (feed.block, feed.answer)

/-- The blocks that the VAD is fed one after the other, with its answers. -/
def Recognizers.vadEntries (models : Recognizers) (n : ℕ) (blocks : List VadBlock) :
    List (VadBlock × List (List ℚ) × Option ℚ) :=
  blocks.zip ((models.vadReplies n blocks).map VadReply.answer)

/-- A feed has noted what the VAD, asked with its block, has answered. -/
def VadFeed.Answered (models : Recognizers) (feed : VadFeed) : Prop :=
  ∃ n, feed.answer = (models.vadFeed n feed.block.audio feed.block.isFinal).answer

section Entries

variable (models : Recognizers) (n : ℕ) (blocks : List VadBlock)

theorem Recognizers.vadReplies_length : (models.vadReplies n blocks).length = blocks.length := by
  induction blocks generalizing n with
  | nil => rfl
  | cons block blocks ih => rw [Recognizers.vadReplies, List.length_cons, List.length_cons, ih]

theorem Recognizers.vadEntries_fst : (models.vadEntries n blocks).map Prod.fst = blocks :=
  List.map_fst_zip (by rw [List.length_map, models.vadReplies_length])

/-- Every block comes with the answer to it. -/
theorem Recognizers.mem_vadEntries {entry : VadBlock × List (List ℚ) × Option ℚ}
    (h : entry ∈ models.vadEntries n blocks) :
    ∃ k, entry.2 = (models.vadFeed k entry.1.audio entry.1.isFinal).answer := by
  induction blocks generalizing n with
  | nil => exact absurd h List.not_mem_nil
  | cons block blocks ih =>
    rcases List.mem_cons.mp h with rfl | hlater
    · exact ⟨n, rfl⟩
    · exact ih (n + 1) hlater

end Entries

namespace Session

variable {settings : SessionSettings} {models : Recognizers} {s s' : Session}

section Answers

/-- The history after the loop of `add_audio` has the blocks of the loop, and the answers. -/
theorem feedLoop_entries (settings : SessionSettings) (models : Recognizers) (rounds : ℕ)
    (confirmed : List (List ℚ)) (s : Session) :
    (feedLoop settings models rounds confirmed s).2.feeds.map VadFeed.entry =
      (models.vadEntries s.calls (feedLoopBlocks settings models rounds s)).reverse ++
        s.feeds.map VadFeed.entry := by
  induction rounds generalizing confirmed s with
  | zero => rfl
  | succ rounds ih =>
    rw [feedLoop, feedLoopBlocks]
    by_cases hmore : settings.vadChunkSamples ≤ s.audio.totalSamples - s.vadFedSamples
    · rw [if_pos hmore, if_pos hmore]
      dsimp only
      rw [Recognizers.vadEntries, Recognizers.vadReplies, List.map_cons, List.zip_cons_cons,
        List.reverse_cons, List.append_assoc]
      cases (feedVad models s
        (s.audio.slice s.vadFedSamples (s.vadFedSamples + settings.vadChunkSamples)) false
        (s.vadFedSamples + settings.vadChunkSamples)).1 with
      | none => rfl
      | some segments =>
        dsimp only
        rw [ih]
        rfl
    · rw [if_neg hmore, if_neg hmore]
      rfl

/-- The loop does nothing when less than a block is left. -/
theorem feedLoopBlocks_short
    (h : s.audio.totalSamples - s.vadFedSamples < settings.vadChunkSamples) (rounds : ℕ) :
    feedLoopBlocks settings models rounds s = [] := by
  cases rounds with
  | zero => rfl
  | succ rounds => rw [feedLoopBlocks, if_neg (by omega)]

/-- So has the history after `add_audio`. -/
theorem addAudio_entries (pcmBytes : List UInt8) (s : Session) :
    (s.addAudio settings models pcmBytes).1.feeds.map VadFeed.entry =
      (models.vadEntries s.calls (s.addAudioBlocks settings models pcmBytes)).reverse ++
        s.feeds.map VadFeed.entry := by
  unfold addAudio addAudioBlocks
  by_cases hempty : pcmBytes.isEmpty = true
  · rw [if_pos hempty, List.isEmpty_iff.mp hempty]
    rfl
  rw [if_neg hempty]
  cases frombuffer pcmBytes with
  | none => rfl
  | some audio =>
    dsimp only
    by_cases hsilent : audio.isEmpty = true
    · rw [if_pos hsilent, if_pos hsilent]
      rfl
    rw [if_neg hsilent, if_neg hsilent]
    by_cases hshort : (s.appendAudioChunk audio).audio.totalSamples -
        (s.appendAudioChunk audio).vadFedSamples < settings.vadChunkSamples
    · rw [if_pos hshort, feedLoopBlocks_short hshort]
      have hflush : ((s.appendAudioChunk audio).flushReadyPendingSegments settings models).1.feeds =
          s.feeds := (feedsLaw settings s.feeds).flushReadyPendingSegments models rfl
      exact congrArg (List.map VadFeed.entry) hflush
    · rw [if_neg hshort]
      have hloop := feedLoop_entries settings models
        ((s.appendAudioChunk audio).audio.totalSamples -
          (s.appendAudioChunk audio).vadFedSamples).toNat [] (s.appendAudioChunk audio)
      split
      · exact hloop
      · rw [(feedsLaw settings _).lockConfirmedSegments models _ rfl]
        exact hloop

/-- `finish` feeds the VAD the blocks of `finish`. -/
theorem finish_entries (s : Session) :
    (s.finish settings models).1.feeds.map VadFeed.entry =
      (models.vadEntries s.calls (s.finishBlocks models)).reverse ++ s.feeds.map VadFeed.entry := by
  -- the history after the first feed, and the number of the last one
  have hlast (t : Session) : (t.feedVad models [] true t.audio.totalSamples).2.feeds.map
      VadFeed.entry = (⟨[], true⟩, (models.vadFeed t.calls [] true).answer) ::
        t.feeds.map VadFeed.entry := rfl
  have hend (t : Session) (confirmed : List (List ℚ)) (n : ℕ) :
      (t.finishLocking settings models confirmed n).feeds.map VadFeed.entry =
        t.feeds.map VadFeed.entry := by
    rw [finishLocking_feeds]
  unfold finish finishBlocks feedRemaining
  dsimp only
  by_cases hrest : (s.audio.slice s.vadFedSamples s.audio.totalSamples).isEmpty = true
  · rw [if_pos hrest, if_pos hrest]
    dsimp only
    split
    · exact hlast s
    · exact (hend _ _ _).trans (hlast s)
  · rw [if_neg hrest, if_neg hrest]
    cases hreply : (s.feedVad models (s.audio.slice s.vadFedSamples s.audio.totalSamples) true
      s.audio.totalSamples).1 with
    | none => rfl
    | some confirmed =>
      dsimp only
      split
      · rfl
      · rw [hend]
        rfl

/-- The history after a call has the blocks of the call, and the answers, newest first. -/
theorem step_entries {call : Call} (h : s.step settings models call = some s')
    (hcall : call ≠ .start) :
    s'.feeds.map VadFeed.entry =
      (models.vadEntries s.calls (s.callBlocks settings models call)).reverse ++
        s.feeds.map VadFeed.entry := by
  cases call with
  | start => exact absurd rfl hcall
  | addAudio pcmBytes =>
    simp only [step, Option.ite_none_right_eq_some, Option.some.injEq] at h
    obtain ⟨hactive, rfl⟩ := h
    rw [callBlocks, if_pos hactive]
    exact addAudio_entries pcmBytes s
  | decodePartial =>
    simp only [step, Option.ite_none_right_eq_some, Option.some.injEq] at h
    obtain ⟨hactive, rfl⟩ := h
    unfold decodePartial
    dsimp only
    split
    · rfl
    · split <;> rfl
  | buildOfflineEvent =>
    obtain rfl := Option.some.inj h
    rfl
  | finish =>
    simp only [step, Option.ite_none_right_eq_some, Option.some.injEq] at h
    obtain ⟨hactive, rfl⟩ := h
    rw [callBlocks, if_pos hactive]
    exact finish_entries s

/-- A run of one call feeds the blocks of the call, accepted or not. -/
theorem runBlocks_singleton (call : Call) (s : Session) :
    s.runBlocks settings models [call] = s.callBlocks settings models call := by
  rw [runBlocks]
  cases s.step settings models call <;> exact List.append_nil _

/-- The blocks that the VAD has been fed since the last `reset`, oldest first. -/
def blocks (s : Session) : List VadBlock := (s.feeds.map VadFeed.block).reverse

/-- A call feeds its blocks, and what the VAD answers to each is noted with it. -/
theorem step_fed {call : Call} (h : s.step settings models call = some s')
    (hcall : call ≠ .start) :
    s'.blocks = s.blocks ++ s.callBlocks settings models call ∧
      ((∀ feed ∈ s.feeds, feed.Answered models) → ∀ feed ∈ s'.feeds, feed.Answered models) := by
  have hentries := step_entries h hcall
  constructor
  · have hfst := congrArg (List.map Prod.fst) hentries
    rw [List.map_append, List.map_map, List.map_map, List.map_reverse,
      models.vadEntries_fst] at hfst
    unfold blocks
    rw [show s'.feeds.map VadFeed.block = _ from hfst, List.reverse_append, List.reverse_reverse]
    rfl
  · intro hanswered feed hfeed
    have hentry : feed.entry ∈ s'.feeds.map VadFeed.entry := List.mem_map_of_mem hfeed
    rw [hentries, List.mem_append, List.mem_reverse] at hentry
    rcases hentry with hnew | hold
    · exact models.mem_vadEntries _ _ hnew
    · obtain ⟨old, hmem, hsame⟩ := List.mem_map.mp hold
      obtain ⟨n, hn⟩ := hanswered old hmem
      obtain ⟨hblock, hanswer⟩ := Prod.mk.inj hsame
      exact ⟨n, by rw [← hanswer, ← hblock, hn]⟩

/-- So does a run without a `reset`. -/
theorem run_fed {calls : List Call} (h : (machine settings models).run s calls = some s')
    (hcalls : ∀ call ∈ calls, call ≠ .start) :
    s'.blocks = s.blocks ++ s.runBlocks settings models calls ∧
      ((∀ feed ∈ s.feeds, feed.Answered models) → ∀ feed ∈ s'.feeds, feed.Answered models) := by
  induction calls generalizing s with
  | nil =>
    obtain rfl := Option.some.inj h
    exact ⟨(List.append_nil _).symm, fun hanswered => hanswered⟩
  | cons call calls ih =>
    obtain ⟨t, hstep, hrun⟩ := Option.bind_eq_some_iff.mp h
    obtain ⟨hblocks, hanswered⟩ := step_fed hstep (hcalls call List.mem_cons_self)
    obtain ⟨hblocks', hanswered'⟩ := ih hrun fun c hc => hcalls c (List.mem_cons_of_mem _ hc)
    refine ⟨?_, fun hold => hanswered' (hanswered hold)⟩
    rw [hblocks', hblocks, List.append_assoc, runBlocks,
      show s.step settings models call = some t from hstep]

end Answers

end Session

end FunasrApi.Online
