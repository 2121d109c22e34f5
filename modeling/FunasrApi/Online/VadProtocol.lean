import FunasrApi.Core.Numeric

/-!
# The segments of the ONNX VAD

`ONNXVADSession.feed` reads the result of the VAD model: it takes all opened
segments of a result before the closed ones, and a closed segment clears the
open start. The reference reads the segments one by one. The two agree on a
sequence of results exactly as long as every result closes an open speech before
anything else and leaves nothing open once it has closed something.
-/

namespace FunasrApi.Online

open FunasrApi.Core

/-- The value that the model returns, as far as `extract_vad_segments` looks into it. -/
inductive VadOutput
  /-- `None`, or a value of any other type. -/
  | nothing
  /-- An `int` or a `float`. -/
  | number (value : ℚ)
  /-- A list or a tuple. -/
  | items (elements : List VadOutput)
  /-- A dictionary, with its entries under the keys that are looked up. -/
  | entries (value segments timestamp : Option VadOutput)

/-- A list of exactly two numbers. -/
def VadOutput.pair? : List VadOutput → Option (ℚ × ℚ)
  | [.number start, .number stop] => some (start, stop)
  | _ => none

mutual

/-- `extract_vad_segments`. -/
def extractVadSegments : VadOutput → List (List ℚ)
  | .nothing => []
  | .number _ => []
  | .items elements =>
    match VadOutput.pair? elements with
    | some (start, stop) => if start < 0 ∧ stop < 0 then [] else [[start, stop]]
    | none => extractAllSegments elements
  | .entries (some value) _ _ => extractVadSegments value
  | .entries none (some segments) _ => extractVadSegments segments
  | .entries none none (some timestamp) => extractVadSegments timestamp
  | .entries none none none => []

/-- The segments of all elements of a list. -/
def extractAllSegments : List VadOutput → List (List ℚ)
  | [] => []
  | element :: elements => extractVadSegments element ++ extractAllSegments elements

end

namespace VadSession

/-- An opened segment: `[start, -1]`. -/
def isOpened : List ℚ → Bool
  | [start, stop] => stop < 0 && 0 ≤ start
  | _ => false

/-- The `current_speech_start` after the opened segments of a result. -/
def openSpeech (segments : List (List ℚ)) (currentSpeechStart : Option ℤ) : Option ℤ :=
  match (segments.filter isOpened).getLast? with
  | some (start :: _) => some (truncate start)
  | _ => currentSpeechStart

/-- The loop over the closed segments of a result. -/
def closeLoop : List (List ℚ) → Option ℤ → List (List ℚ) × Option ℤ
  | [], currentSpeechStart => ([], currentSpeechStart)
  | [start, stop] :: segments, currentSpeechStart =>
    if stop < 0 then closeLoop segments currentSpeechStart
    else
      let begin : ℚ := match currentSpeechStart with
        | some opened => if start < 0 then opened else start
        | none => start
      let rest := closeLoop segments none
      ([begin, stop] :: rest.1, rest.2)
  | _ :: segments, currentSpeechStart => closeLoop segments currentSpeechStart

/-- `feed`, once the model has returned: the closed segments, and the `current_speech_start`. -/
def feed (currentSpeechStart : Option ℤ) (result : VadOutput) : List (List ℚ) × Option ℤ :=
  let segments := extractVadSegments result
  if segments.isEmpty then ([], currentSpeechStart)
  else closeLoop segments (openSpeech segments currentSpeechStart)

/-- What the successive calls of `feed` return, with the `current_speech_start` after each. -/
def feeds : Option ℤ → List VadOutput → List (List (List ℚ) × Option ℤ)
  | _, [] => []
  | currentSpeechStart, result :: results =>
    let fed := feed currentSpeechStart result
    fed :: feeds fed.2 results

end VadSession

/-- A segment of the VAD protocol. -/
inductive VadEvent
  /-- `[start, stop]`. -/
  | whole (start stop : ℚ)
  /-- `[start, -1]`. -/
  | opened (start : ℚ)
  /-- `[-1, stop]`. -/
  | closed (stop : ℚ)
  deriving DecidableEq

namespace VadEvent

/-- The two numbers of the segment. -/
def segment : VadEvent → List ℚ
  | whole start stop => [start, stop]
  | opened start => [start, -1]
  | closed stop => [-1, stop]

/-- The value that the model returns for some segments. -/
def output (events : List VadEvent) : VadOutput :=
  .items (events.map fun event => .items (event.segment.map .number))

/-- The reading of the protocol: the segments one by one. -/
def read : List VadEvent → Option ℤ → List (List ℚ) × Option ℤ
  | [], openStart => ([], openStart)
  | .whole start stop :: events, openStart =>
    let rest := read events openStart
    ([start, stop] :: rest.1, rest.2)
  | .opened start :: events, _ => read events (some (truncate start))
  | .closed stop :: events, openStart =>
    let rest := read events none
    match openStart with
    | some start => ([(start : ℚ), stop] :: rest.1, rest.2)
    | none => rest

/-- The readings of successive results. -/
def readings : Option ℤ → List (List VadEvent) → List (List (List ℚ) × Option ℤ)
  | _, [] => []
  | openStart, events :: results =>
    let done := read events openStart
    done :: readings done.2 results

/-- Whether speech is open after some segments. -/
def openAfter : Bool → List VadEvent → Bool
  | isOpen, [] => isOpen
  | isOpen, .whole _ _ :: events => openAfter isOpen events
  | _, .opened _ :: events => openAfter true events
  | _, .closed _ :: events => openAfter false events

/-- Opens and closes alternate, and no instant is negative. -/
def Alternates : Bool → List VadEvent → Prop
  | _, [] => True
  | isOpen, .whole start stop :: events => 0 ≤ start ∧ 0 ≤ stop ∧ Alternates isOpen events
  | isOpen, .opened start :: events => isOpen = false ∧ 0 ≤ start ∧ Alternates true events
  | isOpen, .closed stop :: events => isOpen = true ∧ 0 ≤ stop ∧ Alternates false events

/-- The segment is closed by its own result. -/
def isClosing : VadEvent → Bool
  | opened _ => false
  | _ => true

/-- The segment begins and ends in the same result. -/
def isWhole : VadEvent → Bool
  | whole _ _ => true
  | _ => false

/-- The result closes nothing, or it closes an open speech before anything else and leaves
nothing open. -/
def ClosesFirst (isOpen : Bool) (events : List VadEvent) : Prop :=
  events.filter isClosing = [] ∨
    (∀ event ∈ (events.filter isClosing).tail, event.isWhole = true) ∧
      openAfter isOpen events = false

/-- All results of a sequence are of that kind. -/
def AllCloseFirst : Bool → List (List VadEvent) → Prop
  | _, [] => True
  | isOpen, events :: results =>
    ClosesFirst isOpen events ∧ AllCloseFirst (openAfter isOpen events) results

section Extraction

/-- The elements of the result are lists, so the result is not taken for one segment. -/
theorem pair?_items (l : List (List VadOutput)) : VadOutput.pair? (l.map .items) = none := by
  match l with
  | [] | [_] | [_, _] | _ :: _ :: _ :: _ => rfl

/-- A segment is extracted as it is: its two numbers are not both negative. -/
theorem extractAllSegments_events {isOpen : Bool} {events : List VadEvent}
    (h : Alternates isOpen events) :
    extractAllSegments (events.map fun event => .items (event.segment.map .number)) =
      events.map segment := by
  induction events generalizing isOpen with
  | nil => rfl
  | cons event events ih =>
    have hsegment (start stop : ℚ) (hne : ¬(start < 0 ∧ stop < 0)) :
        extractVadSegments (.items [.number start, .number stop]) = [[start, stop]] := by
      rw [extractVadSegments]
      exact if_neg hne
    rw [List.map_cons, List.map_cons, extractAllSegments]
    cases event with
    | whole start stop =>
      obtain ⟨hstart, -, hrest⟩ := h
      rw [ih hrest]
      exact congrArg (· ++ _) (hsegment start stop fun hneg => absurd hneg.1 hstart.not_gt)
    | opened start =>
      obtain ⟨-, hstart, hrest⟩ := h
      rw [ih hrest]
      exact congrArg (· ++ _) (hsegment start (-1) fun hneg => absurd hneg.1 hstart.not_gt)
    | closed stop =>
      obtain ⟨-, hstop, hrest⟩ := h
      rw [ih hrest]
      exact congrArg (· ++ _) (hsegment (-1) stop fun hneg => absurd hneg.2 hstop.not_gt)

theorem extractVadSegments_output {isOpen : Bool} {events : List VadEvent}
    (h : Alternates isOpen events) : extractVadSegments (output events) = events.map segment := by
  have hpair : VadOutput.pair? (events.map fun event => .items (event.segment.map .number)) =
      none := by
    have hitems := pair?_items (events.map fun event => event.segment.map .number)
    rwa [List.map_map] at hitems
  rw [output, extractVadSegments, hpair]
  exact extractAllSegments_events h

end Extraction

section Code

/-- The last open start of a result, else the one from before. -/
def lastOpen : Option ℤ → List VadEvent → Option ℤ
  | openStart, [] => openStart
  | _, .opened start :: events => lastOpen (some (truncate start)) events
  | openStart, .whole _ _ :: events => lastOpen openStart events
  | openStart, .closed _ :: events => lastOpen openStart events

/-- What the loop over the closed segments returns for one of them. -/
def emit : Option ℤ → VadEvent → List ℚ
  | some start, .closed stop => [start, stop]
  | _, event => event.segment

theorem openSpeech_cons_opened {start : ℚ} (hstart : 0 ≤ start) (segments : List (List ℚ))
    (openStart : Option ℤ) :
    VadSession.openSpeech ([start, -1] :: segments) openStart =
      VadSession.openSpeech segments (some (truncate start)) := by
  have hopened : VadSession.isOpened [start, -1] = true := by
    simp [VadSession.isOpened, hstart]
  unfold VadSession.openSpeech
  rw [List.filter_cons_of_pos hopened, List.getLast?_cons]
  cases hlast : (segments.filter VadSession.isOpened).getLast? with
  | none => rfl
  | some segment =>
    have hmem := (List.mem_filter.mp (List.mem_of_getLast? hlast)).2
    cases segment with
    | nil => cases hmem
    | cons _ _ => rfl

theorem openSpeech_cons_closed {start stop : ℚ} (hstop : 0 ≤ stop) (segments : List (List ℚ))
    (openStart : Option ℤ) :
    VadSession.openSpeech ([start, stop] :: segments) openStart =
      VadSession.openSpeech segments openStart := by
  have hclosed : ¬ VadSession.isOpened [start, stop] = true := by
    simp [VadSession.isOpened, hstop.not_gt]
  unfold VadSession.openSpeech
  rw [List.filter_cons_of_neg hclosed]

/-- The opened segments of a result leave the last one. -/
theorem openSpeech_events {isOpen : Bool} {events : List VadEvent} (h : Alternates isOpen events)
    (openStart : Option ℤ) :
    VadSession.openSpeech (events.map segment) openStart = lastOpen openStart events := by
  induction events generalizing isOpen openStart with
  | nil => rfl
  | cons event events ih =>
    cases event with
    | whole start stop =>
      obtain ⟨-, hstop, hrest⟩ := h
      exact (openSpeech_cons_closed hstop _ _).trans (ih hrest openStart)
    | opened start =>
      obtain ⟨-, hstart, hrest⟩ := h
      exact (openSpeech_cons_opened hstart _ _).trans (ih hrest _)
    | closed stop =>
      obtain ⟨-, hstop, hrest⟩ := h
      exact (openSpeech_cons_closed hstop _ _).trans (ih hrest openStart)

theorem closeLoop_cons_opened {start stop : ℚ} (hstop : stop < 0) (segments : List (List ℚ))
    (openStart : Option ℤ) :
    VadSession.closeLoop ([start, stop] :: segments) openStart =
      VadSession.closeLoop segments openStart :=
  if_pos hstop

/-- A closed segment takes the open start in place of a negative one, and clears it. -/
theorem closeLoop_cons_closed {event : VadEvent} (hclosing : event.isClosing = true)
    {isOpen : Bool} {events : List VadEvent} (h : Alternates isOpen (event :: events))
    (segments : List (List ℚ)) (openStart : Option ℤ) :
    VadSession.closeLoop (event.segment :: segments) openStart =
      (emit openStart event :: (VadSession.closeLoop segments none).1,
        (VadSession.closeLoop segments none).2) := by
  cases event with
  | whole start stop =>
    obtain ⟨hstart, hstop, -⟩ := h
    cases openStart with
    | none => exact if_neg hstop.not_gt
    | some opened =>
      refine (if_neg hstop.not_gt).trans ?_
      dsimp only
      rw [if_neg hstart.not_gt]
      rfl
  | opened start => cases hclosing
  | closed stop =>
    obtain ⟨-, hstop, -⟩ := h
    cases openStart with
    | none => exact if_neg hstop.not_gt
    | some opened =>
      refine (if_neg hstop.not_gt).trans ?_
      dsimp only
      rw [if_pos (by norm_num)]
      rfl

/-- Without an open start every closed segment is returned as it is. -/
theorem closeLoop_none {isOpen : Bool} {events : List VadEvent} (h : Alternates isOpen events) :
    VadSession.closeLoop (events.map segment) none =
      ((events.filter isClosing).map (emit none), none) := by
  induction events generalizing isOpen with
  | nil => rfl
  | cons event events ih =>
    rw [List.map_cons]
    cases event with
    | whole start stop =>
      rw [closeLoop_cons_closed rfl h, ih h.2.2]
      rfl
    | opened start =>
      exact (closeLoop_cons_opened (by norm_num) _ _).trans (ih h.2.2)
    | closed stop =>
      rw [closeLoop_cons_closed rfl h, ih h.2.2]
      rfl

/-- A result that closes nothing leaves the open start. -/
theorem closeLoop_of_filter_nil {isOpen : Bool} {events : List VadEvent}
    (h : Alternates isOpen events) (hnone : events.filter isClosing = []) (openStart : Option ℤ) :
    VadSession.closeLoop (events.map segment) openStart = ([], openStart) := by
  induction events generalizing isOpen with
  | nil => rfl
  | cons event events ih =>
    cases event with
    | whole start stop => cases hnone
    | opened start =>
      exact (closeLoop_cons_opened (by norm_num) _ _).trans (ih h.2.2 hnone)
    | closed stop => cases hnone

/-- The loop over the closed segments knows the open start at the first one only. -/
theorem closeLoop_of_filter_cons {isOpen : Bool} {events others : List VadEvent}
    {first : VadEvent} (h : Alternates isOpen events)
    (hclosing : events.filter isClosing = first :: others) (openStart : Option ℤ) :
    VadSession.closeLoop (events.map segment) openStart =
      (emit openStart first :: others.map (emit none), none) := by
  induction events generalizing isOpen with
  | nil => cases hclosing
  | cons event events ih =>
    rw [List.map_cons]
    cases event with
    | whole start stop =>
      obtain ⟨rfl, rfl⟩ := List.cons.inj hclosing
      rw [closeLoop_cons_closed rfl h, closeLoop_none h.2.2]
    | opened start =>
      exact (closeLoop_cons_opened (by norm_num) _ _).trans (ih h.2.2 hclosing)
    | closed stop =>
      obtain ⟨rfl, rfl⟩ := List.cons.inj hclosing
      rw [closeLoop_cons_closed rfl h, closeLoop_none h.2.2]

/-- `feed` on a result of the protocol. -/
theorem feed_output {isOpen : Bool} {events : List VadEvent} (h : Alternates isOpen events)
    (openStart : Option ℤ) :
    VadSession.feed openStart (output events) =
      VadSession.closeLoop (events.map segment) (lastOpen openStart events) := by
  unfold VadSession.feed
  rw [extractVadSegments_output h]
  cases events with
  | nil => rfl
  | cons event events => exact congrArg _ (openSpeech_events h openStart)

end Code

section Reading

/-- Speech is open after the reading exactly when the last segment about it opened it. -/
theorem read_open (events : List VadEvent) (openStart : Option ℤ) :
    (read events openStart).2.isSome = openAfter openStart.isSome events := by
  induction events generalizing openStart with
  | nil => rfl
  | cons event events ih =>
    cases event with
    | whole start stop => exact ih openStart
    | opened start => exact ih _
    | closed stop =>
      cases openStart with
      | none => exact ih none
      | some opened => exact ih none

/-- No instant of the reading is negative. -/
theorem read_nonneg {isOpen : Bool} {events : List VadEvent} (h : Alternates isOpen events)
    {openStart : Option ℤ} (h0 : ∀ start ∈ openStart, 0 ≤ start) :
    (∀ segment ∈ (read events openStart).1, ∃ start stop, segment = [start, stop] ∧ 0 ≤ start) ∧
      ∀ start ∈ (read events openStart).2, 0 ≤ start := by
  induction events generalizing isOpen openStart with
  | nil => exact ⟨fun _ hs => absurd hs List.not_mem_nil, h0⟩
  | cons event events ih =>
    cases event with
    | whole start stop =>
      obtain ⟨hstart, -, hrest⟩ := h
      obtain ⟨hsegments, hopen⟩ := ih hrest h0
      refine ⟨fun segment hs => ?_, hopen⟩
      rcases List.mem_cons.mp hs with rfl | hs
      · exact ⟨start, stop, rfl, hstart⟩
      · exact hsegments segment hs
    | opened start =>
      obtain ⟨-, hstart, hrest⟩ := h
      refine ih hrest fun opened ho => ?_
      obtain rfl := Option.mem_some_iff.mp ho
      exact le_truncate_of_le (by exact_mod_cast hstart)
    | closed stop =>
      obtain ⟨-, -, hrest⟩ := h
      have hnone : ∀ start ∈ (none : Option ℤ), 0 ≤ start := fun _ hn => by cases hn
      obtain ⟨hsegments, hopen⟩ := ih hrest hnone
      cases openStart with
      | none => exact ⟨hsegments, hopen⟩
      | some opened =>
        refine ⟨fun segment hs => ?_, hopen⟩
        rcases List.mem_cons.mp hs with rfl | hs
        · exact ⟨opened, stop, rfl, by exact_mod_cast h0 opened rfl⟩
        · exact hsegments segment hs

/-- A result that closes nothing is read as the last open start. -/
theorem read_of_filter_nil {events : List VadEvent} (hnone : events.filter isClosing = [])
    {openStart : Option ℤ} : read events openStart = ([], lastOpen openStart events) := by
  induction events generalizing openStart with
  | nil => rfl
  | cons event events ih =>
    cases event with
    | whole start stop => cases hnone
    | opened start => exact ih hnone
    | closed stop => cases hnone

/-- Segments that begin and end in the result, with nothing open before and after. -/
theorem read_of_whole {isOpen : Bool} {events : List VadEvent} (h : Alternates isOpen events)
    (hwhole : ∀ event ∈ events.filter isClosing, event.isWhole = true)
    (hafter : openAfter isOpen events = false) :
    isOpen = false ∧ (∀ openStart, lastOpen openStart events = openStart) ∧
      read events none = ((events.filter isClosing).map (emit none), none) := by
  induction events generalizing isOpen with
  | nil => exact ⟨hafter, fun _ => rfl, rfl⟩
  | cons event events ih =>
    cases event with
    | whole start stop =>
      obtain ⟨hclosed, hlast, hread⟩ := ih h.2.2
        (fun event he => hwhole event (List.mem_cons_of_mem _ he)) hafter
      refine ⟨hclosed, hlast, ?_⟩
      rw [read, hread]
      rfl
    | opened start =>
      -- the speech that opens here would stay open
      obtain ⟨hclosed, -, -⟩ := ih h.2.2 hwhole hafter
      cases hclosed
    | closed stop => cases hwhole (.closed stop) (List.mem_cons_self ..)

/-- A result that closes an open speech before anything else is read as the code reads it. -/
theorem read_of_filter_cons {isOpen : Bool} {events others : List VadEvent} {first : VadEvent}
    (h : Alternates isOpen events) (hclosing : events.filter isClosing = first :: others)
    (hwhole : ∀ event ∈ others, event.isWhole = true) (hafter : openAfter isOpen events = false)
    {openStart : Option ℤ} (hopen : openStart.isSome = isOpen) :
    read events openStart =
      (emit (lastOpen openStart events) first :: others.map (emit none), none) := by
  induction events generalizing isOpen openStart with
  | nil => cases hclosing
  | cons event events ih =>
    cases event with
    | whole start stop =>
      obtain ⟨rfl, rfl⟩ := List.cons.inj hclosing
      obtain ⟨rfl, hlast, hread⟩ := read_of_whole h.2.2 hwhole hafter
      obtain rfl : openStart = none := Option.isNone_iff_eq_none.mp (by simpa using hopen)
      rw [read, hread, lastOpen, hlast]
      rfl
    | opened start => exact ih h.2.2 hclosing hafter rfl
    | closed stop =>
      obtain ⟨rfl, rfl⟩ := List.cons.inj hclosing
      obtain ⟨rfl, hstop, hrest⟩ := h
      obtain ⟨opened, rfl⟩ := Option.isSome_iff_exists.mp hopen
      obtain ⟨-, hlast, hread⟩ := read_of_whole hrest hwhole hafter
      rw [read, hread, lastOpen, hlast]
      rfl

end Reading

section Agreement

theorem alternates_append {isOpen : Bool} {events more : List VadEvent} :
    Alternates isOpen (events ++ more) ↔
      Alternates isOpen events ∧ Alternates (openAfter isOpen events) more := by
  induction events generalizing isOpen with
  | nil => exact ⟨fun h => ⟨trivial, h⟩, fun h => h.2⟩
  | cons event events ih =>
    cases event with
    | whole start stop => simp only [List.cons_append, Alternates, openAfter, ih, and_assoc]
    | opened start => simp only [List.cons_append, Alternates, openAfter, ih, and_assoc]
    | closed stop => simp only [List.cons_append, Alternates, openAfter, ih, and_assoc]

/-- One call of `feed` agrees with the reading exactly when the result closes an open speech
before anything else, and then leaves nothing open. -/
theorem feed_eq_read_iff {isOpen : Bool} {events : List VadEvent} (h : Alternates isOpen events)
    {openStart : Option ℤ} (hopen : openStart.isSome = isOpen)
    (h0 : ∀ start ∈ openStart, 0 ≤ start) :
    VadSession.feed openStart (output events) = read events openStart ↔
      ClosesFirst isOpen events := by
  rw [feed_output h]
  cases hclosing : events.filter isClosing with
  | nil =>
    refine ⟨fun _ => .inl hclosing, fun _ => ?_⟩
    rw [closeLoop_of_filter_nil h hclosing, read_of_filter_nil hclosing]
  | cons first others =>
    rw [closeLoop_of_filter_cons h hclosing]
    constructor
    · intro heq
      have hafter : openAfter isOpen events = false := by
        rw [← hopen, ← read_open, ← heq]
        rfl
      refine .inr ⟨fun event he => ?_, hafter⟩
      rw [hclosing, List.tail_cons] at he
      cases event with
      | whole start stop => rfl
      | opened start =>
        -- an opened segment closes nothing
        have hmem : VadEvent.opened start ∈ events.filter isClosing := by
          rw [hclosing]
          exact List.mem_cons_of_mem _ he
        cases (List.mem_filter.mp hmem).2
      | closed stop =>
        -- the code has forgotten the open start by then
        have hmem : [(-1 : ℚ), stop] ∈ (read events openStart).1 := by
          rw [← heq]
          exact List.mem_cons_of_mem _ (List.mem_map_of_mem he)
        obtain ⟨start, stop', hpair, hstart⟩ := (read_nonneg h h0).1 _ hmem
        obtain ⟨rfl, -⟩ := List.cons.inj hpair
        exact absurd hstart (by norm_num)
    · rintro (hnone | ⟨hwhole, hafter⟩)
      · rw [hnone] at hclosing
        cases hclosing
      · rw [hclosing, List.tail_cons] at hwhole
        exact (read_of_filter_cons h hclosing hwhole hafter hopen).symm

/-- The agreement over a sequence of calls, from any open start. -/
theorem feeds_eq_readings_from {isOpen : Bool} {results : List (List VadEvent)}
    (h : Alternates isOpen results.flatten) {openStart : Option ℤ}
    (hopen : openStart.isSome = isOpen) (h0 : ∀ start ∈ openStart, 0 ≤ start) :
    VadSession.feeds openStart (results.map output) = readings openStart results ↔
      AllCloseFirst isOpen results := by
  induction results generalizing openStart isOpen with
  | nil => exact ⟨fun _ => trivial, fun _ => rfl⟩
  | cons events results ih =>
    rw [List.flatten_cons, alternates_append] at h
    obtain ⟨hevents, hresults⟩ := h
    have hfirst := feed_eq_read_iff hevents hopen h0
    have hstill : (read events openStart).2.isSome = openAfter isOpen events := by
      rw [read_open, hopen]
    have hrest := ih hresults hstill (read_nonneg hevents h0).2
    rw [List.map_cons, VadSession.feeds, readings, AllCloseFirst, List.cons.injEq, ← hfirst]
    constructor
    · rintro ⟨heq, htail⟩
      rw [heq] at htail
      exact ⟨heq, hrest.mp htail⟩
    · rintro ⟨heq, htail⟩
      rw [heq]
      exact ⟨rfl, hrest.mpr htail⟩

/-- The closed segments that the successive calls of `feed` return, and the start of the open
speech after each, are those of the reading exactly as long as every result closes an open speech
before anything else and leaves nothing open once it has closed something. -/
theorem feeds_eq_readings_iff {results : List (List VadEvent)}
    (h : Alternates false results.flatten) :
    VadSession.feeds none (results.map output) = readings none results ↔
      AllCloseFirst false results :=
  feeds_eq_readings_from h rfl fun _ hn => by cases hn

/-- Speech that opens in one result and closes in the next, after which a whole segment comes. -/
theorem feeds_eq_readings_utterances :
    VadSession.feeds none ([[.opened 100], [.closed 900], [.whole 1500 2000]].map output) =
      [([], some 100), ([[100, 900]], none), ([[1500, 2000]], none)] ∧
    AllCloseFirst false [[.opened 100], [.closed 900], [.whole 1500 2000]] :=
  ⟨by decide +kernel,
    (feeds_eq_readings_iff (by norm_num [Alternates])).mp (by decide +kernel)⟩

/-- The instants of a segment. -/
def instants : VadEvent → List ℚ
  | whole start stop => [start, stop]
  | opened start => [start]
  | closed stop => [stop]

/-- A result that closes one utterance and opens the next: the code closes the first one with the
start of the second, which is after its end, and forgets that the second is open. -/
theorem feeds_ne_readings :
    ∃ results : List (List VadEvent), Alternates false results.flatten ∧
      (results.flatten.flatMap instants).Pairwise (· ≤ ·) ∧
      VadSession.feeds none (results.map output) ≠ readings none results ∧
      VadSession.feeds none (results.map output) = [([], some 0), ([[1500, 1000]], none)] ∧
      readings none results = [([], some 0), ([[0, 1000]], some 1500)] :=
  ⟨[[.opened 0], [.closed 1000, .opened 1500]], by norm_num [Alternates], by decide +kernel,
    by decide +kernel, by decide +kernel, by decide +kernel⟩

end Agreement

end VadEvent

end FunasrApi.Online
