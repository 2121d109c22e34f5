import Mathlib.Tactic.TypeStar

/-!
# Programs whose intermediate worlds are observed

A program changes the world step by step and may fail on the way. Its outcome
lists the worlds it passes through, so that a specification can speak about the
moments between two effects as well as about the end, normal or exceptional.
-/

namespace FunasrApi.Core

universe u

/-- The worlds after each effect, the result, and the world at the end. -/
structure Outcome (σ ε α : Type*) where
  visited : List σ
  result : Except ε α
  final : σ

/-- A program over the world `σ` with exceptions `ε`. -/
def Effect (σ ε α : Type*) := σ → Outcome σ ε α

namespace Effect

variable {σ ε : Type*} {α β : Type u}

/-- No effect. -/
protected def pure (a : α) : Effect σ ε α := fun w => ⟨[], .ok a, w⟩

/-- One program after the other; an exception of the first one ends both. -/
protected def bind (x : Effect σ ε α) (f : α → Effect σ ε β) : Effect σ ε β := fun w =>
  let o := x w
  match o.result with
  | .ok a =>
    let o' := f a o.final
    ⟨o.visited ++ o'.visited, o'.result, o'.final⟩
  | .error e => ⟨o.visited, .error e, o.final⟩

instance : Monad (Effect σ ε) where
  pure := Effect.pure
  bind := Effect.bind

/-- The handler starts in the world that the exception left. -/
protected def tryCatch (x : Effect σ ε α) (h : ε → Effect σ ε α) : Effect σ ε α := fun w =>
  let o := x w
  match o.result with
  | .ok a => ⟨o.visited, .ok a, o.final⟩
  | .error e =>
    let o' := h e o.final
    ⟨o.visited ++ o'.visited, o'.result, o'.final⟩

instance : MonadExceptOf ε (Effect σ ε) where
  throw e := fun w => ⟨[], .error e, w⟩
  tryCatch := Effect.tryCatch

/-- Read the world. -/
def get {σ : Type u} : Effect σ ε σ := fun w => ⟨[], .ok w, w⟩

/-- One effect on the world. -/
def modify (f : σ → σ) : Effect σ ε Unit := fun w => ⟨[f w], .ok (), f w⟩

/-- A computation without effects that may raise. -/
def ofExcept : Except ε α → Effect σ ε α
  | .ok a => pure a
  | .error e => throw e

/-- From the world `w`, the program passes only through worlds that satisfy `I`, and ends
normally as `Q` says or exceptionally as `E` says. -/
def Meets (I : σ → Prop) (x : Effect σ ε α) (w : σ) (Q : α → σ → Prop) (E : ε → σ → Prop) :
    Prop :=
  (∀ v ∈ (x w).visited, I v) ∧
    match (x w).result with
    | .ok a => Q a (x w).final
    | .error e => E e (x w).final

variable {I : σ → Prop} {w : σ} {Q : α → σ → Prop} {E : ε → σ → Prop}

theorem meets_pure {a : α} (h : Q a w) : Meets I (pure a : Effect σ ε α) w Q E :=
  ⟨fun _ hv => absurd hv List.not_mem_nil, h⟩

theorem meets_throw {e : ε} (h : E e w) : Meets I (throw e : Effect σ ε α) w Q E :=
  ⟨fun _ hv => absurd hv List.not_mem_nil, h⟩

theorem meets_get {σ : Type u} {I : σ → Prop} {w : σ} {E : ε → σ → Prop} {Q : σ → σ → Prop}
    (h : Q w w) : Meets I (get : Effect σ ε σ) w Q E :=
  ⟨fun _ hv => absurd hv List.not_mem_nil, h⟩

/-- An effect is one moment. -/
theorem meets_modify {f : σ → σ} {Q : Unit → σ → Prop} (hI : I (f w)) (h : Q () (f w)) :
    Meets I (modify f : Effect σ ε Unit) w Q E := by
  refine ⟨fun v hv => ?_, h⟩
  obtain rfl : v = f w := List.mem_singleton.mp hv
  exact hI

theorem meets_ofExcept {x : Except ε α} (hok : ∀ a, x = .ok a → Q a w)
    (herror : ∀ e, x = .error e → E e w) : Meets I (ofExcept x : Effect σ ε α) w Q E := by
  cases x with
  | ok a => exact meets_pure (hok a rfl)
  | error e => exact meets_throw (herror e rfl)

/-- The second program starts where the first one ends. -/
theorem meets_bind {x : Effect σ ε α} {f : α → Effect σ ε β} {Q : β → σ → Prop}
    (h : Meets I x w (fun a v => Meets I (f a) v Q E) E) : Meets I (x >>= f) w Q E := by
  obtain ⟨hvisited, hresult⟩ := h
  show Meets I (Effect.bind x f) w Q E
  unfold Meets Effect.bind
  cases hr : (x w).result with
  | ok a =>
    simp only [hr] at hresult ⊢
    refine ⟨fun v hv => ?_, hresult.2⟩
    rcases List.mem_append.mp hv with hv | hv
    · exact hvisited v hv
    · exact hresult.1 v hv
  | error e =>
    simp only [hr] at hresult ⊢
    exact ⟨hvisited, hresult⟩

/-- The handler takes over where the exception was raised. -/
theorem meets_tryCatch {x : Effect σ ε α} {h : ε → Effect σ ε α}
    (hx : Meets I x w Q (fun e v => Meets I (h e) v Q E)) :
    Meets I (tryCatch x h) w Q E := by
  obtain ⟨hvisited, hresult⟩ := hx
  show Meets I (Effect.tryCatch x h) w Q E
  unfold Meets Effect.tryCatch
  cases hr : (x w).result with
  | ok a =>
    simp only [hr] at hresult ⊢
    exact ⟨hvisited, hresult⟩
  | error e =>
    simp only [hr] at hresult ⊢
    refine ⟨fun v hv => ?_, hresult.2⟩
    rcases List.mem_append.mp hv with hv | hv
    · exact hvisited v hv
    · exact hresult.1 v hv

/-- A program that somebody else may interfere with starts where that leaves the world. -/
theorem meets_ite_modify {α : Type} {Q : α → σ → Prop} {c : Bool} {f : σ → σ}
    {x : Effect σ ε α} (hI : I (if c then f w else w))
    (h : Meets I x (if c then f w else w) Q E) :
    Meets I (if c then (do modify f; x) else x) w Q E := by
  cases c with
  | false => exact h
  | true =>
    apply meets_bind
    exact meets_modify hI h

/-- Weaken what holds at the end. -/
theorem Meets.mono {x : Effect σ ε α} {Q' : α → σ → Prop} {E' : ε → σ → Prop}
    (h : Meets I x w Q E) (hQ : ∀ a v, Q a v → Q' a v) (hE : ∀ e v, E e v → E' e v) :
    Meets I x w Q' E' := by
  obtain ⟨hvisited, hresult⟩ := h
  refine ⟨hvisited, ?_⟩
  cases hr : (x w).result with
  | ok a =>
    simp only [hr] at hresult ⊢
    exact hQ a _ hresult
  | error e =>
    simp only [hr] at hresult ⊢
    exact hE e _ hresult

/-- An exceptional end is that of the run. -/
theorem Meets.raised {x : Effect σ ε α} (h : Meets I x w Q E) :
    Meets I x w Q fun e v => E e v ∧ (x w).result = .error e := by
  obtain ⟨hvisited, hresult⟩ := h
  refine ⟨hvisited, ?_⟩
  cases hr : (x w).result with
  | ok a =>
    simp only [hr] at hresult ⊢
    exact hresult
  | error e =>
    simp only [hr] at hresult ⊢
    exact ⟨hresult, trivial⟩

/-- Weaken what holds at every moment. -/
theorem Meets.moments {x : Effect σ ε α} {I' : σ → Prop} (h : Meets I x w Q E)
    (hI : ∀ v, I v → I' v) : Meets I' x w Q E :=
  ⟨fun v hv => hI v (h.1 v hv), h.2⟩

end Effect

end FunasrApi.Core
