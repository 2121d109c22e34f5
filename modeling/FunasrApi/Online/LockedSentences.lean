import FunasrApi.Core.EmissionLog
import FunasrApi.Online.TextBoundary

/-!
# Locked sentences and the events that report them

A locked sentence is appended to the transcript of the session; before that, the
seam repair may shorten the sentence that was last. Offline events hand out the
sentences beyond the emission cursor. The transcript with its events is an
emission log, so the events add up to the transcript exactly when no repair cuts
a sentence that an event has already reported.
-/

namespace FunasrApi.Online

open FunasrApi.Core Text

/-- A recognized token with its time on the clock of the session. -/
structure TimedToken where
  text : Text
  startMs : ℤ
  endMs : ℤ
deriving DecidableEq

/-- The dictionary that `build_final_result` and `empty_final_result` return. -/
structure FinalRecord where
  text : Text
  finalText : Text
  rawText : Text
  timestamp : List TimedToken
  tokens : List TimedToken
  startMs : ℤ
  endMs : ℤ
  asrStart : ℤ
  asrEnd : ℤ

/-- A final result: a dictionary, or the plain text of the streaming flush. -/
inductive FinalResult
  | record (r : FinalRecord)
  | plain (text : Text)

/-- `empty_final_result`. -/
def emptyFinalResult (startMs endMs paddedStartMs paddedEndMs : ℤ) : FinalRecord where
  text := []
  finalText := []
  rawText := []
  timestamp := []
  tokens := []
  startMs := startMs
  endMs := endMs
  asrStart := paddedStartMs
  asrEnd := paddedEndMs

/-- `build_final_result`, for the timestamps found in the raw payload. -/
def buildFinalResult (finalText rawText : Text) (timestamps : List TimedToken)
    (startMs endMs paddedStartMs paddedEndMs : ℤ) : FinalRecord where
  text := finalText
  finalText := finalText
  rawText := rawText
  timestamp := timestamps
  tokens := timestamps
  startMs := startMs
  endMs := endMs
  asrStart := paddedStartMs
  asrEnd := paddedEndMs

/-- `final_text_from_result`. -/
def finalTextFromResult : FinalResult → Text
  | .record r => if r.text ≠ [] then r.text else r.finalText
  | .plain text => text

/-- The two sources that a sentence can name. -/
inductive LockSource
  | streamingFinalFlush
  | forcedFinalTail
deriving DecidableEq

/-- A locked sentence. An empty list or `none` is a key that the dictionary does not have. -/
structure LockedSentence where
  text : Text
  startMs : ℤ
  endMs : ℤ
  rawText : Text
  timestamp : List TimedToken
  tokens : List TimedToken
  asrStart : Option ℤ
  asrEnd : Option ℤ
  source : Option LockSource
deriving DecidableEq

/-- `build_locked_sentence`. -/
def buildLockedSentence (finalResult : FinalResult) (startMs endMs : ℤ)
    (source : Option LockSource) : Option LockedSentence :=
  let text := collapseAdjacentRepeatedPhrases (strip (finalTextFromResult finalResult))
  if text = [] then none
  else
    match finalResult with
    | .record r => some ⟨text, startMs, endMs, r.rawText, r.timestamp, r.tokens, some r.asrStart,
        some r.asrEnd, source⟩
    | .plain _ => some ⟨text, startMs, endMs, [], [], [], none, none, source⟩

/-- The locked sentences of a session, and how many of them events have reported. -/
structure Transcript where
  lockedSentences : List LockedSentence
  emittedLockedCount : ℕ

/-- The rewrite of the previous sentence in `_repair_previous_boundary_overlap`. -/
def repairPrevious (segmentMergeGapMs : ℤ) (currentText : Text) (startMs : ℤ)
    (previous : LockedSentence) : LockedSentence :=
  let repaired := (repairPreviousBoundaryOverlap previous.text previous.endMs currentText startMs
    segmentMergeGapMs).1
  if repaired ≠ [] ∧ repaired ≠ previous.text then { previous with text := repaired } else previous

namespace Transcript

/-- The transcript after `reset`. -/
def empty : Transcript := ⟨[], 0⟩

/-- `_append_locked_sentence`, and whether it has locked a sentence. -/
def appendLockedSentence (segmentMergeGapMs : ℤ) (t : Transcript) (finalResult : FinalResult)
    (startMs endMs : ℤ) (source : Option LockSource) : Transcript × Bool :=
  match buildLockedSentence finalResult startMs endMs source with
  | none => (t, false)
  | some sentence =>
    let correctedText := strip sentence.text
    -- without a text the repair returns before it looks at the previous sentence
    if correctedText = [] then (t, false)
    else
      let repaired := t.lockedSentences.modifyLast
        (repairPrevious segmentMergeGapMs correctedText startMs)
      ({ t with lockedSentences := repaired ++ [{ sentence with text := correctedText }] }, true)

/-- `consume_locked_sentences`; its `flush_all` changes nothing. -/
def consumeLockedSentences (t : Transcript) : List LockedSentence × Transcript :=
  (t.lockedSentences.drop t.emittedLockedCount,
    { t with emittedLockedCount := t.lockedSentences.length })

end Transcript

/-- The payload of an offline event, without the metrics. -/
structure OfflineEvent where
  text : Text
  sentences : List LockedSentence
  durationMs : ℤ
  isFinal : Bool

/-- `offline_event`. -/
def offlineEvent (sentences : List LockedSentence) (durationMs : ℤ) (isFinal : Bool) :
    OfflineEvent :=
  ⟨sentences.flatMap LockedSentence.text, sentences, durationMs, isFinal⟩

section Runs

/-- What a session does with its transcript. -/
inductive TranscriptCall
  /-- `_append_locked_sentence`. -/
  | lock (finalResult : FinalResult) (startMs endMs : ℤ) (source : Option LockSource)
  /-- `build_offline_event`. -/
  | buildOfflineEvent (durationMs : ℤ) (isFinal : Bool)

/-- A transcript with the events built so far, each as it was when it was built. -/
structure TranscriptRun where
  transcript : Transcript
  events : List OfflineEvent

namespace TranscriptRun

/-- The run after `reset`. -/
def start : TranscriptRun := ⟨Transcript.empty, []⟩

/-- Perform one call. -/
def perform (segmentMergeGapMs : ℤ) (run : TranscriptRun) : TranscriptCall → TranscriptRun
  | .lock finalResult startMs endMs source =>
    { run with transcript := (run.transcript.appendLockedSentence segmentMergeGapMs finalResult
        startMs endMs source).1 }
  | .buildOfflineEvent durationMs isFinal =>
    let consumed := run.transcript.consumeLockedSentences
    ⟨consumed.2, run.events ++ [offlineEvent consumed.1 durationMs isFinal]⟩

/-- The sentences of all events, in the order in which the client receives them. -/
def reported (run : TranscriptRun) : List LockedSentence :=
  run.events.flatMap OfflineEvent.sentences

/-- A run as an emission log. -/
def toLog (run : TranscriptRun) : EmissionLog LockedSentence :=
  ⟨run.transcript.lockedSentences, run.transcript.emittedLockedCount, run.reported⟩

end TranscriptRun

/-- The move of the emission log that a call makes, if it makes one. -/
def TranscriptCall.move? (segmentMergeGapMs : ℤ) :
    TranscriptCall → Option (EmissionLog.Move LockedSentence)
  | .lock finalResult startMs endMs source =>
    (buildLockedSentence finalResult startMs endMs source).bind fun sentence =>
      if strip sentence.text = [] then none
      else some (.push (repairPrevious segmentMergeGapMs (strip sentence.text) startMs)
        { sentence with text := strip sentence.text })
  | .buildOfflineEvent _ _ => some .emit

/-- A lock cuts the text of a sentence that an event has already reported: every sentence has
been reported, the new segment begins within the merge gap after the last one, and a piece of
the last text, not the whole of it, is repeated at the start of the new one. -/
def CutsReported (segmentMergeGapMs : ℤ) (t : Transcript) : TranscriptCall → Prop
  | .lock finalResult startMs endMs source =>
    ∃ sentence previous, buildLockedSentence finalResult startMs endMs source = some sentence ∧
      t.lockedSentences.getLast? = some previous ∧
      t.emittedLockedCount = t.lockedSentences.length ∧
      0 ≤ startMs - previous.endMs ∧ startMs - previous.endMs ≤ segmentMergeGapMs ∧
      RepeatsAtSeam previous.text sentence.text (startMs - previous.endMs) segmentMergeGapMs
  | .buildOfflineEvent _ _ => False

/-- The text of a new sentence is stripped, and there is one. -/
theorem buildLockedSentence_text {finalResult : FinalResult} {startMs endMs : ℤ}
    {source : Option LockSource} {sentence : LockedSentence}
    (h : buildLockedSentence finalResult startMs endMs source = some sentence) :
    strip sentence.text = sentence.text ∧ sentence.text ≠ [] ∧ sentence.startMs = startMs ∧
      sentence.endMs = endMs := by
  have hstrip := strip_strip
    (repeatSeparators.foldl collapseSeparator (strip (finalTextFromResult finalResult)))
  rw [← collapseAdjacentRepeatedPhrases] at hstrip
  unfold buildLockedSentence at h
  generalize collapseAdjacentRepeatedPhrases (strip (finalTextFromResult finalResult)) = text
    at h hstrip
  by_cases hne : text = []
  · rw [if_pos hne] at h
    cases h
  · rw [if_neg hne] at h
    cases finalResult with
    | record r =>
      obtain rfl := Option.some.inj h
      exact ⟨hstrip, hne, rfl, rfl⟩
    | plain _ =>
      obtain rfl := Option.some.inj h
      exact ⟨hstrip, hne, rfl, rfl⟩

/-- The previous sentence is rewritten exactly when a piece of it is repeated across a gap that
the repair looks at. -/
theorem repairPrevious_ne_iff {segmentMergeGapMs : ℤ} {currentText : Text}
    (hstrip : strip currentText = currentText) (hne : currentText ≠ []) (startMs : ℤ)
    (previous : LockedSentence) :
    repairPrevious segmentMergeGapMs currentText startMs previous ≠ previous ↔
      0 ≤ startMs - previous.endMs ∧ startMs - previous.endMs ≤ segmentMergeGapMs ∧
      RepeatsAtSeam previous.text currentText (startMs - previous.endMs) segmentMergeGapMs := by
  have hrepair := repairPreviousBoundaryOverlap_fst previous.text previous.endMs currentText startMs
    segmentMergeGapMs
  rw [hstrip] at hrepair
  simp only [hne, false_or] at hrepair
  rw [← removeRepeatedPreviousSuffix_ne_iff, repairPrevious, hrepair]
  by_cases hgap : startMs - previous.endMs < 0 ∨ segmentMergeGapMs < startMs - previous.endMs
  · simp only [if_pos hgap, ne_eq, not_true_eq_false, and_false, if_false, false_iff]
    rintro ⟨h0, h1, -⟩
    omega
  · simp only [if_neg hgap]
    have h0 : 0 ≤ startMs - previous.endMs := by omega
    have h1 : startMs - previous.endMs ≤ segmentMergeGapMs := by omega
    constructor
    · intro h
      refine ⟨h0, h1, fun hsame => h ?_⟩
      exact if_neg fun hc => hc.2 hsame
    · rintro ⟨-, -, hcut⟩ hsame
      rw [if_pos ⟨removeRepeatedPreviousSuffix_ne_nil hcut, hcut⟩] at hsame
      exact hcut (congrArg LockedSentence.text hsame)

/-- A call is a move of the emission log, or leaves it as it is. -/
theorem toLog_perform (segmentMergeGapMs : ℤ) (run : TranscriptRun) (call : TranscriptCall) :
    (run.perform segmentMergeGapMs call).toLog =
      (call.move? segmentMergeGapMs).elim run.toLog run.toLog.move := by
  cases call with
  | lock finalResult startMs endMs source =>
    simp only [TranscriptRun.perform, TranscriptCall.move?, Transcript.appendLockedSentence]
    cases buildLockedSentence finalResult startMs endMs source with
    | none => rfl
    | some sentence =>
      simp only [Option.bind_some]
      split <;> rfl
  | buildOfflineEvent durationMs isFinal =>
    simp only [TranscriptRun.perform, TranscriptCall.move?, Option.elim_some, TranscriptRun.toLog,
      EmissionLog.move, TranscriptRun.reported, List.flatMap_append, List.flatMap_singleton]
    rfl

/-- The moves that keep what has been handed out are the calls that cut nothing reported. -/
theorem keepsSent_iff (segmentMergeGapMs : ℤ) (run : TranscriptRun) (call : TranscriptCall) :
    (∀ m, call.move? segmentMergeGapMs = some m → run.toLog.KeepsSent m) ↔
      ¬ CutsReported segmentMergeGapMs run.transcript call := by
  cases call with
  | lock finalResult startMs endMs source =>
    simp only [TranscriptCall.move?, CutsReported]
    cases hbuild : buildLockedSentence finalResult startMs endMs source with
    | none => simp
    | some sentence =>
      obtain ⟨hstrip, hne, -, -⟩ := buildLockedSentence_text hbuild
      simp only [Option.bind_some, hstrip, if_neg hne, Option.some.injEq, forall_eq']
      constructor
      · rintro hkeep ⟨_, previous, rfl, hlast, hemitted, h0, h1, hseam⟩
        have hsame := hkeep previous hlast hemitted
        exact (repairPrevious_ne_iff hstrip hne startMs previous).mpr ⟨h0, h1, hseam⟩ hsame
      · intro hcut last hlast hemitted
        by_contra hrewrite
        obtain ⟨h0, h1, hseam⟩ := (repairPrevious_ne_iff hstrip hne startMs last).mp hrewrite
        exact hcut ⟨sentence, last, rfl, hlast, hemitted, h0, h1, hseam⟩
  | buildOfflineEvent durationMs isFinal =>
    simp only [TranscriptCall.move?, CutsReported, Option.some.injEq, forall_eq', not_false_iff,
      iff_true]
    trivial

/-- A run of calls is the run of their moves. -/
theorem toLog_foldl_perform (segmentMergeGapMs : ℤ) (run : TranscriptRun)
    (calls : List TranscriptCall) :
    (calls.foldl (TranscriptRun.perform segmentMergeGapMs) run).toLog =
      (calls.filterMap (TranscriptCall.move? segmentMergeGapMs)).foldl EmissionLog.move
        run.toLog := by
  induction calls generalizing run with
  | nil => rfl
  | cons call calls ih =>
    rw [List.foldl_cons, ih, toLog_perform, List.filterMap_cons]
    cases call.move? segmentMergeGapMs with
    | none => rfl
    | some m => rfl

/-- No call of a run cuts what is reported, said of the moves. -/
theorem along_moves_iff (segmentMergeGapMs : ℤ) (run : TranscriptRun)
    (calls : List TranscriptCall) :
    Along EmissionLog.move EmissionLog.KeepsSent run.toLog
        (calls.filterMap (TranscriptCall.move? segmentMergeGapMs)) ↔
      Along (TranscriptRun.perform segmentMergeGapMs)
        (fun run call => ¬ CutsReported segmentMergeGapMs run.transcript call) run calls := by
  induction calls generalizing run with
  | nil => rfl
  | cons call calls ih =>
    have hmove := keepsSent_iff segmentMergeGapMs run call
    rw [Along, ← ih, toLog_perform, List.filterMap_cons, ← hmove]
    cases call.move? segmentMergeGapMs with
    | none => simp
    | some m => simp [Along]

/-- What the client was told stays true exactly as long as no lock cuts a reported sentence:
with one more event at the end, the sentences of all events are the locked sentences, each
once, in order and with the same text, if and only if no call of the run is such a cut. -/
theorem reported_eq_lockedSentences_iff (segmentMergeGapMs : ℤ) (calls : List TranscriptCall)
    (durationMs : ℤ) :
    let run := (calls ++ [TranscriptCall.buildOfflineEvent durationMs true]).foldl
      (TranscriptRun.perform segmentMergeGapMs) TranscriptRun.start
    run.reported = run.transcript.lockedSentences ↔
      ∀ before call after, calls = before ++ call :: after →
        ¬ CutsReported segmentMergeGapMs
          (before.foldl (TranscriptRun.perform segmentMergeGapMs) TranscriptRun.start).transcript
          call := by
  intro run
  have hlog : run.toLog = ((calls.filterMap (TranscriptCall.move? segmentMergeGapMs)).foldl
      EmissionLog.move EmissionLog.empty).move .emit := by
    have h := toLog_foldl_perform segmentMergeGapMs TranscriptRun.start
      (calls ++ [.buildOfflineEvent durationMs true])
    rw [List.filterMap_append, List.foldl_append (f := EmissionLog.move)] at h
    exact h
  have hiff := EmissionLog.sent_eq_entries_iff
    (calls.filterMap (TranscriptCall.move? segmentMergeGapMs))
  rw [← hlog] at hiff
  exact hiff.trans ((along_moves_iff segmentMergeGapMs TranscriptRun.start calls).trans along_iff)

/-- "你好世界", reported, and then "世界和平" from the next segment. -/
def repeatedSeamCalls : List TranscriptCall :=
  [.lock (.record (buildFinalResult ['你', '好', '世', '界'] [] [] 0 1000 0 1800)) 0 1000 none,
    .buildOfflineEvent 1200 false,
    .lock (.record (buildFinalResult ['世', '界', '和', '平'] [] [] 1200 2200 850 3000)) 1200 2200
      none]

/-- The event reported "你好世界"; the transcript ends with "你好" in its place. -/
theorem repeatedSeamCalls_reported :
    ¬ ∀ (segmentMergeGapMs : ℤ) (calls : List TranscriptCall) (durationMs : ℤ),
      let run := (calls ++ [TranscriptCall.buildOfflineEvent durationMs true]).foldl
        (TranscriptRun.perform segmentMergeGapMs) TranscriptRun.start
      run.reported = run.transcript.lockedSentences := by
  intro h
  have hbad := h 2000 repeatedSeamCalls 2200
  revert hbad
  decide

end Runs

end FunasrApi.Online
