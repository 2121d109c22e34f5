import Mathlib.Data.List.Forall2
import FunasrApi.Core.Effects

/-!
# Runs side by side

Two runs of one program, from worlds that agree on what the program looks at. They pass through
worlds that agree on it, and end alike.
-/

namespace FunasrApi.Core

/-- The worlds of a run after each of its effects, and at its end. -/
def Outcome.moments {σ ε α : Type*} (run : Outcome σ ε α) : List σ := run.visited ++ [run.final]

namespace Effect

universe u

variable {σ ε : Type*} {α β : Type u} {R : σ → σ → Prop}

/-- The runs of a program from two worlds go side by side. -/
structure Alike (R : σ → σ → Prop) (x : Effect σ ε α) (w w' : σ) : Prop where
  visited : List.Forall₂ R (x w).visited (x w').visited
  result : (x w).result = (x w').result
  final : R (x w).final (x w').final

theorem Alike.moments {x : Effect σ ε α} {w w' : σ} (h : Alike R x w w') :
    List.Forall₂ R (x w).moments (x w').moments :=
  List.rel_append h.visited (.cons h.final .nil)

/-- What the relation keeps is the same at corresponding moments. -/
theorem Alike.map_moments {γ : Type*} {f : σ → γ} {x : Effect σ ε α} {w w' : σ}
    (h : Alike R x w w') (hf : ∀ v v', R v v' → f v = f v') :
    (x w).moments.map f = (x w').moments.map f := by
  have hsame : List.Forall₂ Eq ((x w).moments.map f) ((x w').moments.map f) := by
    rw [List.forall₂_map_left_iff, List.forall₂_map_right_iff]
    exact h.moments.imp fun v v' hv => hf v v' hv
  rwa [List.forall₂_eq_eq_eq] at hsame

/-- What the relation says of its first world holds at every moment of the first run. -/
theorem Alike.forall_moments {I : σ → Prop} {x : Effect σ ε α} {w w' : σ}
    (h : Alike R x w w') (hI : ∀ v v', R v v' → I v) : ∀ v ∈ (x w).moments, I v := by
  have hmoments := h.moments
  generalize (x w).moments = l, (x w').moments = l' at hmoments
  induction hmoments with
  | nil => exact fun v hv => absurd hv List.not_mem_nil
  | cons hv _ ih =>
    intro u hu
    rcases List.mem_cons.mp hu with rfl | hu
    · exact hI _ _ hv
    · exact ih u hu

/-- A program does not see what the relation leaves open. -/
def Respects (R : σ → σ → Prop) (x : Effect σ ε α) : Prop := ∀ w w', R w w' → Alike R x w w'

theorem respects_pure (a : α) : Respects R (pure a : Effect σ ε α) :=
  fun _ _ h => ⟨.nil, rfl, h⟩

theorem respects_throw (e : ε) : Respects R (throw e : Effect σ ε α) :=
  fun _ _ h => ⟨.nil, rfl, h⟩

theorem respects_ofExcept (x : Except ε α) : Respects R (ofExcept x : Effect σ ε α) := by
  cases x with
  | ok a => exact respects_pure a
  | error e => exact respects_throw e

/-- An effect that keeps the relation. -/
theorem respects_modify {f : σ → σ} (hf : ∀ w w', R w w' → R (f w) (f w')) :
    Respects R (modify f : Effect σ ε Unit) :=
  fun w w' h => ⟨.cons (hf w w' h) .nil, rfl, hf w w' h⟩

theorem respects_bind {x : Effect σ ε α} {f : α → Effect σ ε β} (hx : Respects R x)
    (hf : ∀ a, Respects R (f a)) : Respects R (x >>= f) := by
  intro w w' h
  obtain ⟨hvisited, hresult, hfinal⟩ := hx w w' h
  change Alike R (Effect.bind x f) w w'
  cases hr : (x w').result with
  | error e =>
    have hr' := hresult.trans hr
    constructor <;> simp only [Effect.bind, hr, hr'] <;> assumption
  | ok a =>
    have hr' := hresult.trans hr
    obtain ⟨hvisited', hresult', hfinal'⟩ := hf a _ _ hfinal
    constructor <;> simp only [Effect.bind, hr, hr']
    · exact List.rel_append hvisited hvisited'
    · exact hresult'
    · exact hfinal'

/-- What would come after an exception does not matter. -/
theorem respects_throw_bind (e : ε) (f : α → Effect σ ε β) :
    Respects R ((throw e : Effect σ ε α) >>= f) :=
  fun _ _ h => ⟨.nil, rfl, h⟩

theorem respects_tryCatch {x : Effect σ ε α} {h : ε → Effect σ ε α} (hx : Respects R x)
    (hh : ∀ e, Respects R (h e)) : Respects R (tryCatch x h) := by
  intro w w' hw
  obtain ⟨hvisited, hresult, hfinal⟩ := hx w w' hw
  change Alike R (Effect.tryCatch x h) w w'
  cases hr : (x w').result with
  | ok a =>
    have hr' := hresult.trans hr
    constructor <;> simp only [Effect.tryCatch, hr, hr'] <;> assumption
  | error e =>
    have hr' := hresult.trans hr
    obtain ⟨hvisited', hresult', hfinal'⟩ := hh e _ _ hfinal
    constructor <;> simp only [Effect.tryCatch, hr, hr']
    · exact List.rel_append hvisited hvisited'
    · exact hresult'
    · exact hfinal'

/-- A program that goes on in the same way in related worlds. -/
theorem respects_get {σ : Type u} {R : σ → σ → Prop} {f : σ → Effect σ ε β}
    (hf : ∀ w w', R w w' → Alike R (f w') w w' ∧ f w = f w') :
    Respects R ((get : Effect σ ε σ) >>= f) := by
  intro w w' h
  obtain ⟨⟨hvisited, hresult, hfinal⟩, hsame⟩ := hf w w' h
  have hw : ((get : Effect σ ε σ) >>= f) w = f w' w := congrFun hsame w
  have hw' : ((get : Effect σ ε σ) >>= f) w' = f w' w' := rfl
  exact ⟨hw ▸ hw' ▸ hvisited, hw ▸ hw' ▸ hresult, hw ▸ hw' ▸ hfinal⟩

theorem respects_ite {c : Bool} {x y : Effect σ ε α} (hx : Respects R x) (hy : Respects R y) :
    Respects R (if c then x else y) := by
  cases c with
  | true => exact hx
  | false => exact hy

end Effect

end FunasrApi.Core
