import FunasrApi.Offline.Speakers

/-!
# What a merged sentence covers

Merging goes through the units in the order of their times and groups neighbours of
the same speaker. The start of a sentence is that of its first unit and the end that
of its last one, so a sentence covers its units exactly when none of them ends after
the last.
-/

namespace FunasrApi.Offline

open FunasrApi.Core Text

section Merge

variable {κ : Type*} [DecidableEq κ] [Zero κ] (segments : List (SpeakerSegment κ))

/-- `merge_timed_units_by_speaker`, with the units that each sentence is merged from. -/
def mergeWithUnits (units : List TimedUnit) : List (SpokenSentence κ × List TimedUnit) :=
  mergeRuns (fun current unit => current.1.spk = unit.speaker segments)
    (fun unit => (unit.payload segments, [unit]))
    (fun current unit => (current.1.extend unit, current.2 ++ [unit]))
    (fun current => strip current.1.text ≠ [])
    (sortedBy TimedUnit.key units)

/-- The runs of units with the same speaker, in the order of their times. -/
def speakerRuns (units : List TimedUnit) : List (List TimedUnit) :=
  (sortedBy TimedUnit.key units).splitBy fun a b => a.speaker segments = b.speaker segments

/-- Each sentence covers its units and has a positive length, the sentences are in the order of
their starts, and every unit that is not blank is in one of them, as often as it is there. -/
structure Covers (units : List TimedUnit) (merged : List (SpokenSentence κ × List TimedUnit)) :
    Prop where
  covers : ∀ p ∈ merged, ∀ unit ∈ p.2, p.1.startMs ≤ unit.startMs ∧ unit.endMs ≤ p.1.endMs
  ordered : ∀ p ∈ merged, p.1.startMs ≤ p.1.endMs
  starts : (merged.map fun p => p.1.startMs).Pairwise (· ≤ ·)
  once : ((merged.flatMap Prod.snd).filter fun unit => strip unit.text ≠ []).Perm
    (units.filter fun unit => strip unit.text ≠ [])

/-- In every run with a unit that is not blank, no unit ends after the last one. -/
def LastEndsLast (units : List TimedUnit) : Prop :=
  ∀ run ∈ speakerRuns segments units, (∃ unit ∈ run, strip unit.text ≠ []) →
    ∀ unit ∈ run, ∀ last ∈ run.getLast?, unit.endMs ≤ last.endMs

variable {segments}

/-- The sentences are those of `merge_timed_units_by_speaker`. -/
theorem mergeWithUnits_fst (units : List TimedUnit) :
    (mergeWithUnits segments units).map Prod.fst = mergeTimedUnitsBySpeaker segments units := by
  unfold mergeWithUnits mergeTimedUnitsBySpeaker
  apply mergeRuns_map Prod.fst
  · intro current unit
    rfl
  · intro unit
    rfl
  · intro current unit
    rfl
  · intro current
    rfl

variable (segments) in
/-- What the sentence of a run is. -/
structure SentenceOf (run : List TimedUnit) (p : SpokenSentence κ × List TimedUnit) : Prop where
  units : p.2 = run
  text : p.1.text = run.flatMap TimedUnit.text
  start : run.head?.map TimedUnit.startMs = some p.1.startMs
  spk : run.head?.map (TimedUnit.speaker segments) = some p.1.spk
  stop : run.getLast?.map TimedUnit.endMs = some p.1.endMs

variable {run : List TimedUnit} {p : SpokenSentence κ × List TimedUnit}

theorem SentenceOf.extend (h : SentenceOf segments run p) (unit : TimedUnit) :
    SentenceOf segments (run ++ [unit]) (p.1.extend unit, p.2 ++ [unit]) := by
  obtain ⟨hunits, htext, hstart, hspk, -⟩ := h
  obtain ⟨first, hfirst, -⟩ := Option.map_eq_some_iff.mp hstart
  refine ⟨by rw [hunits], ?_, ?_, ?_, ?_⟩
  · simp [SpokenSentence.extend, htext]
  · rw [List.head?_append, hfirst, Option.some_or, ← hfirst, hstart]
    rfl
  · rw [List.head?_append, hfirst, Option.some_or, ← hfirst, hspk]
    rfl
  · rw [List.getLast?_concat]
    rfl

/-- What the loop builds from a run is its sentence, together with the run. -/
theorem sentenceOf_runValue
    (h : runValue (fun unit : TimedUnit => (unit.payload segments, [unit]))
      (fun current unit => (current.1.extend unit, current.2 ++ [unit])) run = some p) :
    SentenceOf segments run p :=
  runValue_induction (fun _ => ⟨rfl, (List.append_nil _).symm, rfl, rfl, rfl⟩)
    (fun _ _ h unit => h.extend unit) h

/-- In a run of one speaker, the last unit is its speaker's as well. -/
theorem SentenceOf.spk_last (h : SentenceOf segments run p)
    (hchain : run.IsChain fun a b => a.speaker segments = b.speaker segments) :
    ∀ last ∈ run.getLast?, p.1.spk = last.speaker segments := by
  intro last hlast
  obtain ⟨first, hfirst, hspk⟩ := Option.map_eq_some_iff.mp h.spk
  have htrans : run.Pairwise fun a b => a.speaker segments = b.speaker segments :=
    List.isChain_iff_pairwise.mp hchain
  rw [← hspk]
  cases run with
  | nil => cases hlast
  | cons head rest =>
    obtain rfl : head = first := by simpa using hfirst
    rcases List.mem_cons.mp (List.mem_of_getLast? hlast) with rfl | hmem
    · rfl
    · exact (List.pairwise_cons.mp htrans).1 last hmem

/-- The sentences are those of the runs, without the blank ones. -/
theorem mergeWithUnits_eq (units : List TimedUnit) :
    mergeWithUnits segments units =
      ((speakerRuns segments units).filterMap
        (runValue (fun unit : TimedUnit => (unit.payload segments, [unit]))
          (fun current unit => (current.1.extend unit, current.2 ++ [unit])))).filter
        fun current => strip current.1.text ≠ [] := by
  apply mergeRuns_eq_splitBy
  intro run current hcurrent hchain last hlast unit
  have hsame : run.IsChain fun a b => a.speaker segments = b.speaker segments :=
    hchain.imp fun _ _ h => of_decide_eq_true h
  rw [(sentenceOf_runValue hcurrent).spk_last hsame last hlast]

/-- Every sentence is that of a run, and not all of its units are blank. -/
theorem sentenceOf_of_mem {units : List TimedUnit} (h : p ∈ mergeWithUnits segments units) :
    p.2 ∈ speakerRuns segments units ∧ SentenceOf segments p.2 p ∧
      ∃ unit ∈ p.2, strip unit.text ≠ [] := by
  rw [mergeWithUnits_eq] at h
  obtain ⟨hmem, htext⟩ := List.mem_filter.mp h
  obtain ⟨run, hrun, hvalue⟩ := List.mem_filterMap.mp hmem
  have hsentence := sentenceOf_runValue hvalue
  obtain rfl := hsentence.units
  refine ⟨hrun, hsentence, ?_⟩
  by_contra hblank
  push Not at hblank
  apply of_decide_eq_true htext
  rw [hsentence.text, strip_eq_nil_iff]
  intro c hc
  obtain ⟨unit, hunit, hin⟩ := List.mem_flatMap.mp hc
  exact strip_eq_nil_iff.mp (hblank unit hunit) c hin

/-- Every run with a unit that is not blank has its sentence. -/
theorem exists_sentenceOf {units : List TimedUnit} (h : run ∈ speakerRuns segments units)
    (hvisible : ∃ unit ∈ run, strip unit.text ≠ []) :
    ∃ p ∈ mergeWithUnits segments units, SentenceOf segments run p := by
  obtain ⟨unit, hunit, htext⟩ := hvisible
  cases run with
  | nil => cases hunit
  | cons first rest =>
    have hsentence : SentenceOf segments (first :: rest) _ := sentenceOf_runValue rfl
    refine ⟨_, ?_, hsentence⟩
    rw [mergeWithUnits_eq]
    refine List.mem_filter.mpr ⟨List.mem_filterMap.mpr ⟨_, h, rfl⟩, decide_eq_true ?_⟩
    rw [hsentence.text]
    intro hnil
    apply htext
    rw [strip_eq_nil_iff] at hnil ⊢
    exact fun c hc => hnil c (List.mem_flatMap.mpr ⟨unit, hunit, hc⟩)

/-- The units of the runs, one run after the other, are in the order of their starts. -/
theorem speakerRuns_starts (segments : List (SpeakerSegment κ)) (units : List TimedUnit) :
    (∀ run ∈ speakerRuns segments units, run.Pairwise fun a b => a.startMs ≤ b.startMs) ∧
      (speakerRuns segments units).Pairwise fun earlier later =>
        ∀ a ∈ earlier, ∀ b ∈ later, a.startMs ≤ b.startMs := by
  rw [← List.pairwise_flatten, speakerRuns, List.flatten_splitBy]
  refine (sortedBy_pairwise TimedUnit.key units).imp fun {a b} hle => ?_
  rcases Prod.Lex.le_iff.mp hle with hlt | ⟨heq, -⟩
  · exact hlt.le
  · exact heq.le

theorem SentenceOf.start_le (h : SentenceOf segments run p)
    (hsorted : run.Pairwise fun a b => a.startMs ≤ b.startMs) :
    ∀ unit ∈ run, p.1.startMs ≤ unit.startMs := by
  intro unit hunit
  obtain ⟨first, hfirst, hstart⟩ := Option.map_eq_some_iff.mp h.start
  rw [← hstart]
  cases run with
  | nil => cases hunit
  | cons head rest =>
    obtain rfl : head = first := by simpa using hfirst
    rcases List.mem_cons.mp hunit with rfl | hmem
    · exact le_rfl
    · exact (List.pairwise_cons.mp hsorted).1 unit hmem

/-- The starts of the sentences do not decrease. -/
theorem mergeWithUnits_starts (units : List TimedUnit) :
    ((mergeWithUnits segments units).map fun p => p.1.startMs).Pairwise (· ≤ ·) := by
  rw [mergeWithUnits_eq, List.pairwise_map]
  apply List.Pairwise.filter
  rw [List.pairwise_filterMap]
  refine (speakerRuns_starts segments units).2.imp ?_
  intro earlier later hle p hp q hq
  obtain ⟨first, hfirst, hstart⟩ := Option.map_eq_some_iff.mp (sentenceOf_runValue hp).start
  obtain ⟨second, hsecond, hstart'⟩ := Option.map_eq_some_iff.mp (sentenceOf_runValue hq).start
  rw [← hstart, ← hstart']
  exact hle first (List.mem_of_mem_head? hfirst) second (List.mem_of_mem_head? hsecond)

/-- The units that are not blank, sentence by sentence, are those in the order of their times. -/
theorem mergeWithUnits_snd (units : List TimedUnit) :
    ((mergeWithUnits segments units).flatMap Prod.snd).filter (fun unit => strip unit.text ≠ []) =
      (sortedBy TimedUnit.key units).filter fun unit => strip unit.text ≠ [] := by
  rw [← List.flatMap_singleton' (sortedBy TimedUnit.key units), List.filter_flatMap,
    List.filter_flatMap]
  refine mergeRuns_flatMap (fun b => b.1.text = b.2.flatMap TimedUnit.text) ?_ ?_ ?_
  · intro unit _
    exact ⟨(List.append_nil _).symm, rfl⟩
  · intro unit _ b hb
    refine ⟨?_, List.filter_append _ _⟩
    rw [List.flatMap_append, ← hb]
    exact congrArg (b.1.text ++ ·) (List.append_nil _).symm
  · intro b hb
    by_cases hblank : strip b.1.text = []
    · refine .inr (List.filter_eq_nil_iff.mpr fun unit hunit htext => ?_)
      rw [hb, strip_eq_nil_iff] at hblank
      exact of_decide_eq_true htext
        (strip_eq_nil_iff.mpr fun c hc => hblank c (List.mem_flatMap.mpr ⟨unit, hunit, hc⟩))
    · exact .inl (decide_eq_true hblank)

/-- The sentences cover their units exactly when in every run the last unit ends last. -/
theorem mergeWithUnits_covers_iff {units : List TimedUnit}
    (h : ∀ unit ∈ units, unit.startMs ≤ unit.endMs) :
    Covers units (mergeWithUnits segments units) ↔ LastEndsLast segments units := by
  have hwithin := (speakerRuns_starts segments units).1
  constructor
  · intro hcovers run hrun hvisible unit hunit last hlast
    obtain ⟨p, hp, hsentence⟩ := exists_sentenceOf hrun hvisible
    have hstop := hsentence.stop
    rw [hlast, Option.map_some, Option.some_inj] at hstop
    rw [hstop]
    exact (hcovers.covers p hp unit (by rwa [hsentence.units])).2
  · intro hlast
    have hcover : ∀ p ∈ mergeWithUnits segments units, ∀ unit ∈ p.2,
        p.1.startMs ≤ unit.startMs ∧ unit.endMs ≤ p.1.endMs := by
      intro p hp unit hunit
      obtain ⟨hrun, hsentence, hvisible⟩ := sentenceOf_of_mem hp
      obtain ⟨last, hmem, hstop⟩ := Option.map_eq_some_iff.mp hsentence.stop
      rw [← hstop]
      exact ⟨hsentence.start_le (hwithin _ hrun) unit hunit,
        hlast _ hrun hvisible unit hunit last hmem⟩
    refine ⟨hcover, ?_, mergeWithUnits_starts units, ?_⟩
    · intro p hp
      obtain ⟨hrun, -, unit, hunit, -⟩ := sentenceOf_of_mem hp
      have hin : unit ∈ units := by
        have hflat : unit ∈ (speakerRuns segments units).flatten :=
          List.mem_flatten_of_mem hrun hunit
        rwa [speakerRuns, List.flatten_splitBy, mem_sortedBy] at hflat
      obtain ⟨hstart, hstop⟩ := hcover p hp unit hunit
      exact hstart.trans ((h unit hin).trans hstop)
    · rw [mergeWithUnits_snd]
      exact (sortedBy_perm TimedUnit.key units).filter _

instance (units : List TimedUnit) : Decidable (LastEndsLast segments units) :=
  inferInstanceAs (Decidable (∀ run ∈ speakerRuns segments units, _ → _))

instance (units : List TimedUnit) (merged : List (SpokenSentence κ × List TimedUnit)) :
    Decidable (Covers units merged) :=
  decidable_of_iff
    ((∀ p ∈ merged, ∀ unit ∈ p.2, p.1.startMs ≤ unit.startMs ∧ unit.endMs ≤ p.1.endMs) ∧
      (∀ p ∈ merged, p.1.startMs ≤ p.1.endMs) ∧
      (merged.map fun p => p.1.startMs).Pairwise (· ≤ ·) ∧
      ((merged.flatMap Prod.snd).filter fun unit => strip unit.text ≠ []).Perm
        (units.filter fun unit => strip unit.text ≠ []))
    ⟨fun ⟨hcovers, hordered, hstarts, honce⟩ => ⟨hcovers, hordered, hstarts, honce⟩,
      fun h => ⟨h.covers, h.ordered, h.starts, h.once⟩⟩

end Merge

/-- Two units of two speakers that overlap. -/
def overlappingUnits : List TimedUnit :=
  [⟨"ab".toList, 0, 900, none⟩, ⟨"甲".toList, 400, 1000, none⟩, ⟨"乙".toList, 3000, 3400, none⟩]

/-- A short unit inside a long one. -/
def nestedUnits : List TimedUnit := [⟨"甲".toList, 0, 1000, none⟩, ⟨"乙".toList, 100, 200, none⟩]

/-- Two speakers that take turns at two seconds. -/
def twoTurns : List (SpeakerSegment ℕ) := [⟨1, 0, 2000⟩, ⟨2, 2000, 4000⟩]

end FunasrApi.Offline
