import FunasrApi.Online.VadBlocks

/-!
# Confirmed speech when the VAD raises

What the VAD has confirmed is either waiting for its final decode or has been
given to it. The law breaks in one place: the segments that the loop of
`add_audio` has collected are dropped when a later feed of the same call raises.
-/

namespace FunasrApi.Online

open FunasrApi.Core

instance (a b : Segment) : Decidable (a.Within b) :=
  inferInstanceAs (Decidable (b.start ≤ a.start ∧ a.stop ≤ b.stop))

/-- The positive closed segments of a feed. -/
def VadFeed.confirmed (feed : VadFeed) : List Segment := feed.closed.filterMap normalizeVadSegment

/-- The positive closed segments of a reply. -/
def VadReply.confirmed (reply : VadReply) : List Segment :=
  (reply.segments.getD []).filterMap normalizeVadSegment

/-- The interval of a final decode. -/
def FinalDecode.Covers (d : FinalDecode) (x : Segment) : Prop :=
  d.startMs ≤ x.start ∧ x.stop ≤ d.endMs

instance (d : FinalDecode) (x : Segment) : Decidable (d.Covers x) :=
  inferInstanceAs (Decidable (d.startMs ≤ x.start ∧ x.stop ≤ d.endMs))

namespace Session

/-- Every segment confirmed so far lies in a waiting one, or in one that has been finalized. -/
def Covered (queue : List Segment) (s : Session) : Prop :=
  ∀ feed ∈ s.feeds, ∀ x ∈ feed.confirmed,
    (∃ o ∈ queue, x.Within o) ∨ ∃ d ∈ s.decodes, d.Covers x

instance (queue : List Segment) (s : Session) : Decidable (Covered queue s) :=
  inferInstanceAs (Decidable (∀ feed ∈ s.feeds, ∀ x ∈ feed.confirmed,
    (∃ o ∈ queue, x.Within o) ∨ ∃ d ∈ s.decodes, d.Covers x))

/-- If the VAD raises in the call, it has confirmed nothing in the feeds before. -/
def RaisesFirst (settings : SessionSettings) (models : Recognizers) (s : Session) (call : Call) :
    Prop :=
  (∃ reply ∈ models.vadReplies s.calls (s.callBlocks settings models call),
      reply.segments = none) →
    ∀ reply ∈ models.vadReplies s.calls (s.callBlocks settings models call), reply.confirmed = []

instance : (call : Call) → Decidable (call ≠ .finish)
  | .finish => .isFalse fun h => h rfl
  | .start | .addAudio _ | .decodePartial | .buildOfflineEvent => .isTrue Call.noConfusion

instance (settings : SessionSettings) (models : Recognizers) (s : Session) (call : Call) :
    Decidable (RaisesFirst settings models s call) :=
  inferInstanceAs (Decidable ((∃ reply ∈ models.vadReplies s.calls
      (s.callBlocks settings models call), reply.segments = none) →
    ∀ reply ∈ models.vadReplies s.calls (s.callBlocks settings models call),
      reply.confirmed = []))

variable {settings : SessionSettings} {models : Recognizers} {s s' : Session}
  {queue queue' : List Segment}

/-- Merging and finalizing keep every confirmed segment covered. -/
theorem coveredLaw (settings : SessionSettings) : QueueLaw settings Covered where
  coalesced h hq := by
    intro feed hfeed x hx
    rcases h feed hfeed x hx with ⟨o, ho, hxo⟩ | hdecoded
    · obtain ⟨o', ho', hoo⟩ := hq.exists_within ho
      exact .inl ⟨o', ho', hxo.trans hoo⟩
    · exact .inr hdecoded
  finalized h hf := by
    intro feed hfeed x hx
    rw [hf.feeds] at hfeed
    rw [hf.decodes]
    rcases h feed hfeed x hx with ⟨o, ho, hxo⟩ | ⟨d, hd, hdx⟩
    · rcases List.mem_cons.mp ho with rfl | hrest
      · exact .inr ⟨_, List.mem_cons_self .., hxo⟩
      · exact .inl ⟨o, hrest, hxo⟩
    · exact .inr ⟨d, List.mem_cons_of_mem _ hd, hdx⟩
  afterFlush _ h := h

/-- What a feed confirms is covered if it joins the waiting segments. -/
theorem Covered.feedVad (h : Covered queue s) (models : Recognizers) (audio : List Sample)
    (isFinal : Bool) (fedSamples : ℤ) :
    Covered (queue ++ (models.vadFeed s.calls audio isFinal).confirmed)
      (s.feedVad models audio isFinal fedSamples).2 := by
  intro feed hfeed x hx
  rcases List.mem_cons.mp hfeed with rfl | hold
  · exact .inl ⟨x, List.mem_append_right _ hx, le_rfl, le_rfl⟩
  · rcases h feed hold x hx with ⟨o, ho, hxo⟩ | hdecoded
    · exact .inl ⟨o, List.mem_append_left _ ho, hxo⟩
    · exact .inr hdecoded

/-- The loop of `add_audio` keeps every confirmed segment, if it has nothing to lose when the VAD
raises. -/
theorem feedLoop_covered (rounds : ℕ) (confirmed : List (List ℚ))
    (h : Covered (s.pendingFinalSegments ++ confirmed.filterMap normalizeVadSegment) s)
    (hraises : (∃ reply ∈ models.vadReplies s.calls (feedLoopBlocks settings models rounds s),
        reply.segments = none) →
      confirmed.filterMap normalizeVadSegment = [] ∧
        ∀ reply ∈ models.vadReplies s.calls (feedLoopBlocks settings models rounds s),
          reply.confirmed = []) :
    Covered ((feedLoop settings models rounds confirmed s).2.pendingFinalSegments ++
      ((feedLoop settings models rounds confirmed s).1.getD []).filterMap normalizeVadSegment)
      (feedLoop settings models rounds confirmed s).2 := by
  induction rounds generalizing confirmed s with
  | zero => exact h
  | succ rounds ih =>
    rw [feedLoopBlocks] at hraises
    unfold feedLoop
    by_cases hmore : settings.vadChunkSamples ≤ s.audio.totalSamples - s.vadFedSamples
    · have hfed := h.feedVad models (s.audio.slice s.vadFedSamples
        (s.vadFedSamples + settings.vadChunkSamples)) false
        (s.vadFedSamples + settings.vadChunkSamples)
      rw [if_pos hmore] at hraises ⊢
      dsimp only at hraises ⊢
      rw [Recognizers.vadReplies] at hraises
      cases hreply : (s.feedVad models (s.audio.slice s.vadFedSamples
          (s.vadFedSamples + settings.vadChunkSamples)) false
          (s.vadFedSamples + settings.vadChunkSamples)).1 with
      | none =>
        obtain ⟨hconfirmed, hreplies⟩ := hraises ⟨_, List.mem_cons_self .., hreply⟩
        rw [hconfirmed, hreplies _ (List.mem_cons_self ..), List.append_nil,
          List.append_nil] at hfed
        dsimp only
        rw [Option.getD_none, List.filterMap_nil, List.append_nil]
        exact hfed
      | some segments =>
        have hsegments : (models.vadFeed s.calls (s.audio.slice s.vadFedSamples
            (s.vadFedSamples + settings.vadChunkSamples)) false).confirmed =
              segments.filterMap normalizeVadSegment :=
          congrArg (fun reply => (reply.getD []).filterMap normalizeVadSegment) hreply
        rw [hreply] at hraises
        rw [hsegments, List.append_assoc, ← List.filterMap_append] at hfed
        refine ih (confirmed ++ segments) hfed ?_
        rintro ⟨reply, hmem, hnone⟩
        obtain ⟨hconfirmed, hreplies⟩ := hraises ⟨reply, List.mem_cons_of_mem _ hmem, hnone⟩
        have hfirst := hreplies _ (List.mem_cons_self ..)
        rw [hsegments] at hfirst
        refine ⟨?_, fun r hr => hreplies r (List.mem_cons_of_mem _ hr)⟩
        rw [List.filterMap_append, hconfirmed, hfirst, List.append_nil]
    · rw [if_neg hmore]
      exact h

/-- `add_audio` keeps every confirmed segment covered, if the VAD only raises first. -/
theorem addAudio_covered {pcmBytes : List UInt8} (hactive : s.isActive = true)
    (h : Covered s.pendingFinalSegments s)
    (hraises : RaisesFirst settings models s (.addAudio pcmBytes)) :
    Covered (s.addAudio settings models pcmBytes).1.pendingFinalSegments
      (s.addAudio settings models pcmBytes).1 := by
  rw [RaisesFirst, callBlocks, if_pos hactive] at hraises
  unfold addAudioBlocks at hraises
  refine (coveredLaw settings).addAudio models h (fun _ => h) fun audio haudio hsound => ?_
  rw [haudio] at hraises
  dsimp only at hraises ⊢
  rw [if_neg hsound] at hraises
  have hnew : Covered (s.appendAudioChunk audio).pendingFinalSegments
      (s.appendAudioChunk audio) := h
  exact feedLoop_covered _ [] (by simpa using hnew) fun hnone => ⟨rfl, hraises hnone⟩

/-- Every call but `finish` keeps it. -/
theorem step_covered {call : Call} (h : Covered s.pendingFinalSegments s) (hcall : call ≠ .finish)
    (hraises : RaisesFirst settings models s call)
    (hstep : s.step settings models call = some s') : Covered s'.pendingFinalSegments s' := by
  cases call with
  | start =>
    obtain rfl := Option.some.inj hstep
    exact fun _ hfeed => absurd hfeed List.not_mem_nil
  | addAudio pcmBytes =>
    simp only [step, Option.ite_none_right_eq_some, Option.some.injEq] at hstep
    obtain ⟨hactive, rfl⟩ := hstep
    exact addAudio_covered hactive h hraises
  | decodePartial =>
    simp only [step, Option.ite_none_right_eq_some, Option.some.injEq] at hstep
    obtain ⟨-, rfl⟩ := hstep
    unfold decodePartial
    dsimp only
    split
    · exact h
    · split <;> exact h
  | buildOfflineEvent =>
    obtain rfl := Option.some.inj hstep
    exact h
  | finish => exact absurd rfl hcall

/-- In every run of audio messages (and of other calls before `finish`) in which the VAD, if it
raises in a message, has confirmed nothing in the feeds of that message before, every segment that
the VAD has confirmed waits for its final decode or has been finalized. -/
theorem reachable_covered {calls : ℕ}
    (h : (machine settings models).Reach
      (fun s call => call ≠ .finish ∧ RaisesFirst settings models s call) (fresh calls) s) :
    Covered s.pendingFinalSegments s :=
  Machine.Reach.invariant h (I := fun s => Covered s.pendingFinalSegments s)
    (fun _ hfeed => absurd hfeed List.not_mem_nil)
    fun _ _ _ ht hok hstep => step_covered ht hok.1 hok.2 hstep

/-- A VAD that confirms the first 100 ms in its first feed, and raises in the second. -/
def failingModels : Recognizers :=
  { scriptedModels with
    vadFeed := fun n _ _ =>
      if n = 0 then ⟨some [[0, 100]], none⟩ else if n = 1 then ⟨none, none⟩ else ⟨some [], none⟩ }

/-- The VAD raises in the second message, and the segment of the first one is kept. -/
theorem failingModels_covered :
    ∃ s, (machine slowSettings failingModels).runIf
        (fun s call => call ≠ Call.finish ∧ RaisesFirst slowSettings failingModels s call) (fresh 0)
        [.start, .addAudio [0, 0], .addAudio [0, 0]] = some s ∧
      s.feeds.flatMap VadFeed.confirmed = [⟨0, 100, by decide⟩] ∧
      Covered s.pendingFinalSegments s := by
  have hrun : ((machine slowSettings failingModels).runIf
      (fun s call => call ≠ Call.finish ∧ RaisesFirst slowSettings failingModels s call) (fresh 0)
      [.start, .addAudio [0, 0], .addAudio [0, 0]]).any (fun s =>
        decide (s.feeds.flatMap VadFeed.confirmed = [⟨0, 100, by decide⟩])) = true := by
    decide +kernel
  obtain ⟨s, hs, hfeeds⟩ := (Option.any_eq_true _ _).mp hrun
  exact ⟨s, hs, of_decide_eq_true hfeeds, reachable_covered (Machine.Reach.of_runIf hs)⟩

/-- The VAD raises in the second feed of one message: the segment that it has confirmed in the
first feed does not wait, and has not been finalized either. -/
theorem failingModels_lost :
    ∃ s, (machine slowSettings failingModels).run (fresh 0) [.start, .addAudio [0, 0, 0, 0]] =
        some s ∧
      s.feeds.flatMap VadFeed.confirmed = [⟨0, 100, by decide⟩] ∧
      s.pendingFinalSegments = [] ∧ s.decodes.length = 0 ∧
      ¬ Covered s.pendingFinalSegments s := by
  have hrun : ((machine slowSettings failingModels).run (fresh 0)
      [.start, .addAudio [0, 0, 0, 0]]).any (fun s =>
        decide (s.feeds.flatMap VadFeed.confirmed = [⟨0, 100, by decide⟩] ∧
          s.pendingFinalSegments = [] ∧ s.decodes.length = 0 ∧
            ¬ Covered s.pendingFinalSegments s)) = true := by
    decide +kernel
  obtain ⟨s, hs, hfacts⟩ := (Option.any_eq_true _ _).mp hrun
  exact ⟨s, hs, of_decide_eq_true hfacts⟩

end Session

end FunasrApi.Online
