import Mathlib.Logic.Relation
import Mathlib.Data.List.Basic

/-!
# Guarded machines and their runs

A machine is a partial step function: the scheduler and the environment choose
the action, and the machine either performs it or rejects it. Reachability is
relative to a condition on the single steps, so that one invariant rule serves
all runs, the runs of a restricted scheduler, and the runs without a fault.
-/

namespace FunasrApi.Core

/-- A machine whose nondeterminism is entirely in the choice of the action. -/
structure Machine (σ α : Type*) where
  /-- Perform one action, or reject it in the present state. -/
  step : σ → α → Option σ

namespace Machine

variable {σ α τ : Type*} {m : Machine σ α}

/-- States reached from `s` by accepted actions that all meet the condition `ok`. -/
inductive Reach (m : Machine σ α) (ok : σ → α → Prop) (s : σ) : σ → Prop
  | refl : Reach m ok s s
  | tail {t u : σ} (a : α) (h : Reach m ok s t) (ha : ok t a) (hs : m.step t a = some u) :
      Reach m ok s u

/-- The state after a whole list of actions, or the rejection of one of them. -/
def run (m : Machine σ α) : σ → List α → Option σ
  | s, [] => some s
  | s, a :: as => (m.step s a).bind fun t => m.run t as

/-- The state after a whole list of actions that all meet a condition. -/
def runIf (m : Machine σ α) (ok : σ → α → Prop) [∀ s a, Decidable (ok s a)] :
    σ → List α → Option σ
  | s, [] => some s
  | s, a :: as => if ok s a then (m.step s a).bind fun t => m.runIf ok t as else none

/-- An invariant holds initially and is kept by every step that meets the condition. -/
theorem Reach.invariant {ok : σ → α → Prop} {s t : σ} (h : m.Reach ok s t) {I : σ → Prop}
    (h0 : I s) (hstep : ∀ t a u, I t → ok t a → m.step t a = some u → I u) : I t := by
  induction h with
  | refl => exact h0
  | tail a _ ha hs ih => exact hstep _ a _ ih ha hs

/-- Runs compose. -/
theorem Reach.trans {ok : σ → α → Prop} {s t u : σ} (h : m.Reach ok s t)
    (h' : m.Reach ok t u) : m.Reach ok s u := by
  induction h' with
  | refl => exact h
  | tail a _ ha hs ih => exact .tail a ih ha hs

/-- An accepted list of actions is a run, whenever each action is allowed everywhere. -/
theorem Reach.of_run {ok : σ → α → Prop} (as : List α) (hok : ∀ a ∈ as, ∀ t, ok t a) {s t : σ}
    (h : m.run s as = some t) : m.Reach ok s t := by
  induction as generalizing s with
  | nil =>
    obtain rfl : s = t := Option.some.inj h
    exact .refl
  | cons a as ih =>
    obtain ⟨u, hu, hr⟩ := Option.bind_eq_some_iff.mp h
    have hfirst : m.Reach ok s u := .tail a .refl (hok a (List.mem_cons_self ..) s) hu
    exact hfirst.trans (ih (fun b hb => hok b (List.mem_cons_of_mem a hb)) hr)

/-- A list of actions that are accepted and meet the condition is a run. -/
theorem Reach.of_runIf {ok : σ → α → Prop} [∀ s a, Decidable (ok s a)] {as : List α} {s t : σ}
    (h : m.runIf ok s as = some t) : m.Reach ok s t := by
  induction as generalizing s with
  | nil =>
    obtain rfl : s = t := Option.some.inj h
    exact .refl
  | cons a as ih =>
    rw [runIf] at h
    split at h
    · next ha =>
      obtain ⟨u, hu, hr⟩ := Option.bind_eq_some_iff.mp h
      have hfirst : m.Reach ok s u := .tail a .refl ha hu
      exact hfirst.trans (ih hr)
    · cases h

end Machine

end FunasrApi.Core
