import Mathlib.Data.List.Induction
import Mathlib.Data.List.ModifyLast
import Mathlib.Order.Nat

/-!
# Logs that are handed out while they grow

Entries are appended to a log, and an append may first rewrite the entry that was
last. A reader is handed all entries beyond a cursor from time to time. What the
reader has been handed is the final log exactly when no append rewrote an entry
that was already handed out.
-/

namespace FunasrApi.Core

section Along

variable {σ α : Type*} (step : σ → α → σ) (ok : σ → α → Prop)

/-- Every action meets the condition in the state in which it happens. -/
def Along : σ → List α → Prop
  | _, [] => True
  | s, a :: as => ok s a ∧ Along (step s a) as

variable {step ok}

/-- The condition, read at any position of the actions. -/
theorem along_iff {s : σ} {as : List α} :
    Along step ok s as ↔
      ∀ before a after, as = before ++ a :: after → ok (before.foldl step s) a := by
  induction as generalizing s with
  | nil =>
    constructor
    · intro _ before a after h
      exact absurd h.symm (List.append_ne_nil_of_right_ne_nil _ (List.cons_ne_nil _ _))
    · intro _
      trivial
  | cons b as ih =>
    rw [Along, ih]
    constructor
    · rintro ⟨hb, hrest⟩ before a after h
      cases before with
      | nil =>
        obtain ⟨rfl, rfl⟩ := List.cons.inj h
        exact hb
      | cons c before =>
        obtain ⟨rfl, rfl⟩ := List.cons.inj h
        exact hrest before a after rfl
    · intro h
      refine ⟨h [] b as rfl, fun before a after hd => ?_⟩
      exact h (b :: before) a after (by rw [hd, List.cons_append])

end Along

/-- A growing log with the cursor of its reader. -/
structure EmissionLog (ε : Type*) where
  /-- The entries so far, oldest first. -/
  entries : List ε
  /-- How many entries have been handed out. -/
  emitted : ℕ
  /-- What has been handed out, as it was then. -/
  sent : List ε

namespace EmissionLog

variable {ε : Type*}

/-- One move of the writer, or of the reader. -/
inductive Move (ε : Type*)
  /-- Rewrite the last entry, and append one. -/
  | push (rewrite : ε → ε) (e : ε)
  /-- Hand out the entries beyond the cursor. -/
  | emit

/-- The log before anything has happened. -/
def empty : EmissionLog ε := ⟨[], 0, []⟩

/-- Perform a move. -/
def move (log : EmissionLog ε) : Move ε → EmissionLog ε
  | .push rewrite e => { log with entries := log.entries.modifyLast rewrite ++ [e] }
  | .emit => { log with
      emitted := log.entries.length
      sent := log.sent ++ log.entries.drop log.emitted }

/-- The move rewrites no entry that has been handed out. -/
def KeepsSent (log : EmissionLog ε) : Move ε → Prop
  | .push rewrite _ => ∀ last, log.entries.getLast? = some last →
      log.emitted = log.entries.length → rewrite last = last
  | .emit => True

/-- What holds of the cursor after any moves. -/
structure Cursor (log : EmissionLog ε) : Prop where
  emitted_le : log.emitted ≤ log.entries.length
  sent_length : log.sent.length = log.emitted

/-- The reader has been handed the entries as they still are. -/
def Agrees (log : EmissionLog ε) : Prop := log.sent = log.entries.take log.emitted

/-- The reader holds a version of an entry that has been rewritten, and that no append can
rewrite any more. -/
def Diverged (log : EmissionLog ε) : Prop :=
  ∃ i, i + 1 < log.entries.length ∧ i < log.emitted ∧ log.sent[i]? ≠ log.entries[i]?

variable {log : EmissionLog ε}

theorem Cursor.empty : Cursor (empty : EmissionLog ε) := ⟨le_rfl, rfl⟩

theorem Agrees.empty : Agrees (empty : EmissionLog ε) := rfl

/-- An append is one entry longer, and its other entries are those before, but for the last. -/
theorem push_entries_getElem? (rewrite : ε → ε) (e : ε) {i : ℕ} (hi : i + 1 < log.entries.length) :
    (log.move (.push rewrite e)).entries[i]? = log.entries[i]? := by
  obtain ⟨entries, emitted, sent⟩ := log
  cases entries using List.reverseRecOn with
  | nil => exact absurd hi (by simp)
  | append_singleton front last =>
    have hfront : i < front.length := by simpa using hi
    rw [move, List.modifyLast_concat, List.append_assoc, List.getElem?_append_left hfront,
      List.getElem?_append_left hfront]

theorem push_entries_length (rewrite : ε → ε) (e : ε) :
    (log.move (.push rewrite e)).entries.length = log.entries.length + 1 := by
  obtain ⟨entries, emitted, sent⟩ := log
  cases entries using List.reverseRecOn with
  | nil => rfl
  | append_singleton front last =>
    rw [move, List.modifyLast_concat]
    simp

theorem Cursor.move (h : log.Cursor) (m : Move ε) : (log.move m).Cursor := by
  cases m with
  | push rewrite e =>
    refine ⟨?_, h.sent_length⟩
    rw [push_entries_length]
    exact h.emitted_le.trans (Nat.le_succ _)
  | emit =>
    refine ⟨le_rfl, ?_⟩
    have hle := h.emitted_le
    have hlen := h.sent_length
    simp only [EmissionLog.move, List.length_append, List.length_drop]
    omega

/-- A move that rewrites nothing handed out keeps the agreement. -/
theorem Agrees.move (h : log.Agrees) (hc : log.Cursor) {m : Move ε} (hm : log.KeepsSent m) :
    (log.move m).Agrees := by
  cases m with
  | push rewrite e =>
    have hle := hc.emitted_le
    obtain ⟨entries, emitted, sent⟩ := log
    cases entries using List.reverseRecOn with
    | nil =>
      obtain rfl : emitted = 0 := Nat.le_zero.mp hle
      exact h
    | append_singleton front last =>
      rw [List.length_append, List.length_singleton] at hle
      simp only [Agrees, EmissionLog.move, List.modifyLast_concat, List.append_assoc] at h ⊢
      rcases Nat.lt_or_eq_of_le hle with hlt | heq
      · have hfront : emitted ≤ front.length := Nat.le_of_lt_succ hlt
        rw [List.take_append_of_le_length hfront] at h ⊢
        exact h
      · have hlen : emitted ≤ (front ++ [last]).length := by
          rw [List.length_append]
          exact hle
        have hlast : rewrite last = last := hm last (by simp) (by simpa using heq)
        rw [hlast, h, ← List.append_assoc, List.take_append_of_le_length hlen]
  | emit =>
    unfold Agrees at h ⊢
    rw [EmissionLog.move, List.take_length, h, List.take_append_drop]

/-- A move that rewrites what has been handed out makes the two diverge. -/
theorem Agrees.diverged (h : log.Agrees) {m : Move ε} (hm : ¬ log.KeepsSent m) :
    (log.move m).Diverged := by
  cases m with
  | push rewrite e =>
    obtain ⟨entries, emitted, sent⟩ := log
    simp only [KeepsSent, not_forall] at hm
    obtain ⟨last, hlast, hemitted, hne⟩ := hm
    obtain ⟨front, rfl⟩ := List.getLast?_eq_some_iff.mp hlast
    subst hemitted
    have hsent : sent = front ++ [last] := by
      unfold Agrees at h
      rwa [List.take_length] at h
    refine ⟨front.length, ?_, ?_, ?_⟩
    · rw [push_entries_length]
      simp
    · simp [EmissionLog.move]
    · simp only [EmissionLog.move, hsent, List.modifyLast_concat]
      simpa using Ne.symm hne
  | emit => exact absurd trivial hm

/-- What has diverged stays so. -/
theorem Diverged.move (h : log.Diverged) (hc : log.Cursor) (m : Move ε) :
    (log.move m).Diverged := by
  obtain ⟨i, hi, hie, hne⟩ := h
  cases m with
  | push rewrite e =>
    refine ⟨i, ?_, hie, ?_⟩
    · rw [push_entries_length]
      omega
    · rw [push_entries_getElem? rewrite e hi]
      exact hne
  | emit =>
    have hsent : i < log.sent.length := by rw [hc.sent_length]; exact hie
    refine ⟨i, hi, Nat.lt_of_succ_lt hi, ?_⟩
    simp only [EmissionLog.move, List.getElem?_append_left hsent]
    exact hne

theorem Cursor.foldl_move (h : log.Cursor) (moves : List (Move ε)) :
    (moves.foldl EmissionLog.move log).Cursor := by
  induction moves generalizing log with
  | nil => exact h
  | cons m moves ih => exact ih (h.move m)

theorem Diverged.foldl_move (h : log.Diverged) (hc : log.Cursor) (moves : List (Move ε)) :
    (moves.foldl EmissionLog.move log).Diverged := by
  induction moves generalizing log with
  | nil => exact h
  | cons m moves ih => exact ih (h.move hc m) (hc.move m)

/-- Along moves that rewrite nothing handed out, the agreement lasts. -/
theorem Agrees.foldl_move (h : log.Agrees) (hc : log.Cursor) {moves : List (Move ε)}
    (hm : Along EmissionLog.move KeepsSent log moves) :
    (moves.foldl EmissionLog.move log).Agrees := by
  induction moves generalizing log with
  | nil => exact h
  | cons m moves ih => exact ih (h.move hc hm.1) (hc.move m) hm.2

/-- Once a move rewrites what has been handed out, the two have diverged at the end. -/
theorem Agrees.foldl_move_diverged (h : log.Agrees) (hc : log.Cursor) {moves : List (Move ε)}
    (hm : ¬ Along EmissionLog.move KeepsSent log moves) :
    (moves.foldl EmissionLog.move log).Diverged := by
  induction moves generalizing log with
  | nil => exact absurd trivial hm
  | cons m moves ih =>
    by_cases hkeep : log.KeepsSent m
    · exact ih (h.move hc hkeep) (hc.move m) fun hrest => hm ⟨hkeep, hrest⟩
    · exact (h.diverged hkeep).foldl_move (hc.move m) moves

/-- With the rest handed out at the end, the reader holds the final log exactly when no move
rewrote what had been handed out. -/
theorem sent_eq_entries_iff (moves : List (Move ε)) :
    ((moves.foldl move empty).move .emit).sent = ((moves.foldl move empty).move .emit).entries ↔
      Along move KeepsSent empty moves := by
  have hc : (moves.foldl move empty).Cursor := Cursor.empty.foldl_move moves
  constructor
  · intro heq
    by_contra hm
    have hdiv := (Agrees.empty.foldl_move_diverged Cursor.empty hm).move hc .emit
    obtain ⟨i, -, -, hne⟩ := hdiv
    exact hne (by rw [heq])
  · intro hm
    have hagree := (Agrees.empty.foldl_move Cursor.empty hm).move hc (m := .emit) trivial
    rw [Agrees, EmissionLog.move, List.take_length] at hagree
    exact hagree

end EmissionLog

end FunasrApi.Core
