import FunasrApi.Core.History
import FunasrApi.Online.Stream.Moves

/-!
# What a trace says about the generations

Every `START` opens a generation. The trace tells which chunks were accepted in a
generation, which of them the session was given, and how many `started` events
the client has received; the laws of the stream are stated on these readings.
-/

namespace FunasrApi.Online.Stream

open FunasrApi.Core

variable {Audio : Type*}

/-- The number of `START` messages dispatched. -/
def starts : List (TraceEvent Audio) → Nat
  | [] => 0
  | .start :: past => starts past + 1
  | _ :: past => starts past

/-- The number of `started` events sent. -/
def starteds : List (TraceEvent Audio) → Nat
  | [] => 0
  | .sent .started :: past => starteds past + 1
  | _ :: past => starteds past

/-- The chunks accepted after the `k`-th `START` and before the next one, in order. -/
def acceptedIn (k : Nat) : List (TraceEvent Audio) → List Audio
  | [] => []
  | .accepted data :: past =>
    if starts past = k then acceptedIn k past ++ [data] else acceptedIn k past
  | _ :: past => acceptedIn k past

/-- The chunks given to `session.add_audio` in that time, in order. -/
def fedIn (k : Nat) : List (TraceEvent Audio) → List Audio
  | [] => []
  | .addAudio data :: past =>
    if starts past = k then fedIn k past ++ [data] else fedIn k past
  | _ :: past => fedIn k past

/-- The session has been reset and not been finished since. -/
def sessionOpen : List (TraceEvent Audio) → Bool
  | [] => false
  | .reset :: _ => true
  | .finish :: _ => false
  | _ :: past => sessionOpen past

/-- Nothing was accepted in a generation still to come. -/
theorem acceptedIn_of_lt {k : Nat} {past : List (TraceEvent Audio)} (h : starts past < k) :
    acceptedIn k past = [] := by
  induction past with
  | nil => rfl
  | cons e past ih =>
    cases e with
    | start => exact ih (Nat.lt_of_succ_lt h)
    | accepted data =>
      have hne : starts past ≠ k := Nat.ne_of_lt h
      simp only [acceptedIn, hne, if_false]
      exact ih h
    | reset | addAudio | decodePartial | finish | sent => exact ih h

/-- Nothing was given to the session in a generation still to come. -/
theorem fedIn_of_lt {k : Nat} {past : List (TraceEvent Audio)} (h : starts past < k) :
    fedIn k past = [] := by
  induction past with
  | nil => rfl
  | cons e past ih =>
    cases e with
    | start => exact ih (Nat.lt_of_succ_lt h)
    | addAudio data =>
      have hne : starts past ≠ k := Nat.ne_of_lt h
      simp only [fedIn, hne, if_false]
      exact ih h
    | reset | accepted | decodePartial | finish | sent => exact ih h

/-- A chunk accepted now extends the current generation. -/
theorem acceptedIn_accepted (data : Audio) (past : List (TraceEvent Audio)) :
    acceptedIn (starts past) (.accepted data :: past) = acceptedIn (starts past) past ++ [data] :=
  if_pos rfl

/-- A chunk given to the session now extends the current generation. -/
theorem fedIn_addAudio (data : Audio) (past : List (TraceEvent Audio)) :
    fedIn (starts past) (.addAudio data :: past) = fedIn (starts past) past ++ [data] :=
  if_pos rfl

/-- More is accepted with every event. -/
theorem acceptedIn_prefix_cons (k : Nat) (e : TraceEvent Audio) (past : List (TraceEvent Audio)) :
    acceptedIn k past <+: acceptedIn k (e :: past) := by
  cases e with
  | accepted data =>
    simp only [acceptedIn]
    split
    · exact List.prefix_append ..
    · exact List.prefix_rfl
  | start | reset | addAudio | decodePartial | finish | sent => exact List.prefix_rfl

/-- Two pasts that read the same: nothing that a generation is judged by has changed. -/
structure SameReadings (past past' : List (TraceEvent Audio)) : Prop where
  starts_eq : starts past' = starts past
  starteds_eq : starteds past' = starteds past
  accepted_eq : ∀ k, acceptedIn k past' = acceptedIn k past
  fed_eq : ∀ k, fedIn k past' = fedIn k past
  open_eq : sessionOpen past' = sessionOpen past

theorem SameReadings.refl (past : List (TraceEvent Audio)) : SameReadings past past :=
  ⟨rfl, rfl, fun _ => rfl, fun _ => rfl, rfl⟩

/-- Sending anything but `started` leaves every reading as it is. -/
theorem SameReadings.sent {event : Event Audio} (he : event ≠ .started)
    (past : List (TraceEvent Audio)) : SameReadings past (.sent event :: past) := by
  refine ⟨rfl, ?_, fun _ => rfl, fun _ => rfl, rfl⟩
  cases event with
  | started => exact absurd rfl he
  | _ => rfl

/-- A partial decode leaves every reading as it is. -/
theorem SameReadings.decodePartial (past : List (TraceEvent Audio)) :
    SameReadings past (.decodePartial :: past) :=
  ⟨rfl, rfl, fun _ => rfl, fun _ => rfl, rfl⟩

/-- The law of each event against the past that led to it. -/
def Lawful : TraceEvent Audio → List (TraceEvent Audio) → Prop
  -- A result is computed from chunks of the generation whose `started` was sent last.
  | .sent (.recognition payload), past => payload.source <+: acceptedIn (starteds past) past
  -- The `k`-th `started` answers the `k`-th `START`.
  | .sent .started, past => starts past = starteds past + 1
  -- The session is finished once it has received everything.
  | .finish, past => sessionOpen past = true ∧
      fedIn (starts past) past = acceptedIn (starts past) past
  -- The session works between `reset` and `finish` only.
  | .addAudio _, past => sessionOpen past = true
  | .decodePartial, past => sessionOpen past = true
  | _, _ => True

end FunasrApi.Online.Stream
