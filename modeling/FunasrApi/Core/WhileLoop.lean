import Mathlib.Data.Nat.Init

/-!
# While loops

A loop is run for a number of rounds. An invariant of its rounds holds where it ends. It
ends if a natural number goes down in each round; then any greater number of rounds gives
the same state.
-/

namespace FunasrApi.Core

variable {σ : Type*} (guard : σ → Bool) (body : σ → σ)

/-- The state after `while guard: body`; `none` when it has not ended after so many rounds. -/
def whileLoop : ℕ → σ → Option σ
  | 0, _ => none
  | rounds + 1, s => if guard s then whileLoop rounds (body s) else some s

variable {guard body} {I : σ → Prop} {s : σ}

/-- Where a loop ends, its invariant holds and its guard does not. -/
theorem whileLoop_invariant (hbody : ∀ s, I s → guard s = true → I (body s)) (hs : I s)
    {rounds : ℕ} {t : σ} (h : whileLoop guard body rounds s = some t) :
    I t ∧ guard t = false := by
  induction rounds generalizing s with
  | zero => cases h
  | succ rounds ih =>
    unfold whileLoop at h
    split at h
    · next hguard => exact ih (hbody s hs hguard) h
    · next hguard =>
      obtain rfl := Option.some.inj h
      exact ⟨hs, Bool.eq_false_iff.mpr hguard⟩

variable (guard body) in
/-- A loop whose variant goes down in each round ends. -/
theorem whileLoop_ends (variant : σ → ℕ)
    (hbody : ∀ s, guard s = true → variant (body s) < variant s) (s : σ) :
    ∃ t, ∀ rounds, variant s < rounds → whileLoop guard body rounds s = some t := by
  induction hn : variant s using Nat.strong_induction_on generalizing s with
  | h n ih =>
    subst hn
    cases hguard : guard s with
    | false =>
      refine ⟨s, fun rounds hrounds => ?_⟩
      obtain ⟨rounds, rfl⟩ := Nat.exists_eq_succ_of_ne_zero (Nat.ne_zero_of_lt hrounds)
      simp [whileLoop, hguard]
    | true =>
      have hless := hbody s hguard
      obtain ⟨t, hruns⟩ := ih _ hless (body s) rfl
      refine ⟨t, fun rounds hrounds => ?_⟩
      obtain ⟨rounds, rfl⟩ := Nat.exists_eq_succ_of_ne_zero (Nat.ne_zero_of_lt hrounds)
      rw [whileLoop, if_pos hguard]
      exact hruns rounds (by omega)

end FunasrApi.Core
