import FunasrApi.Core.Effects

/-!
# Memoised effects

A cache is filled by programs that create a value when it is not there, and may fail in between.
Such programs only add to the world: whatever was cached stays. So a program that was answered out
of the cache once is answered out of it in every larger world, without another effect.
-/

namespace FunasrApi.Core.Effect

variable {σ ε α β ν : Type}

@[simp] theorem ofExcept_bind_ok {a : α} {f : α → Effect σ ε β} :
    (ofExcept (.ok a) >>= f) = f a := by
  funext w
  simp only [ofExcept, bind, Effect.bind, pure, Effect.pure, List.nil_append]

/-- After a program without an effect. -/
theorem bind_of_eq {x : Effect σ ε α} {f : α → Effect σ ε β} {a : α} {w : σ}
    (h : x w = ⟨[], .ok a, w⟩) : (x >>= f) w = f a w := by
  simp only [bind, Effect.bind, h, List.nil_append]

/-- One place of a cache. -/
structure Cell (σ ν : Type) where
  read : σ → Option ν
  write : ν → σ → σ

/-- What is in the cell, or else what is created for it. -/
def Cell.getOrCreate (cell : Cell σ ν) (create : Effect σ ε ν) : Effect σ ε ν := do
  match cell.read (← get) with
  | some value => pure value
  | none => do
    let value ← create
    modify (cell.write value)
    pure value

/-- A full cell answers without an effect. -/
theorem Cell.getOrCreate_full {cell : Cell σ ν} {create : Effect σ ε ν} {w : σ} {value : ν}
    (h : cell.read w = some value) : cell.getOrCreate create w = ⟨[], .ok value, w⟩ := by
  simp only [Cell.getOrCreate, bind, Effect.bind, get, h]
  rfl

/-- An invariant of the worlds, and when a world is larger than another one. -/
structure Growth (σ : Type) where
  Good : σ → Prop
  Grows : σ → σ → Prop
  refl : ∀ w, Grows w w
  trans : ∀ {w v u}, Grows w v → Grows v u → Grows w u

namespace Growth

variable (G : Growth σ)

/-- From a good world with `P` the program passes only through larger good ones, and a result
satisfies `Q`. -/
def Extends (P : σ → Prop) (x : Effect σ ε α) (Q : α → σ → Prop) : Prop :=
  ∀ w, G.Good w → P w →
    Meets (fun v => G.Good v ∧ G.Grows w v) x w (fun a v => G.Good v ∧ G.Grows w v ∧ Q a v)
      fun _ v => G.Good v ∧ G.Grows w v

variable {G} {P P' R : σ → Prop} {x : Effect σ ε α} {Q : α → σ → Prop}

theorem extends_pure {a : α} (h : ∀ w, G.Good w → P w → Q a w) :
    G.Extends P (pure a : Effect σ ε α) Q :=
  fun w hgood hp => meets_pure ⟨hgood, G.refl w, h w hgood hp⟩

theorem extends_throw {e : ε} : G.Extends P (throw e : Effect σ ε α) Q :=
  fun w hgood _ => meets_throw ⟨hgood, G.refl w⟩

theorem extends_ofExcept {result : Except ε α} (h : ∀ a w, result = .ok a → P w → Q a w) :
    G.Extends P (ofExcept result) Q := by
  cases result with
  | ok a => exact extends_pure fun w _ hp => h a w rfl hp
  | error e => exact extends_throw

/-- The second program goes on from where the first one ends. -/
theorem Extends.bind {f : α → Effect σ ε β} {S : β → σ → Prop} (hx : G.Extends P x Q)
    (hf : ∀ a, G.Extends (Q a) (f a) S) : G.Extends P (x >>= f) S := by
  intro w hgood hp
  refine meets_bind ((hx w hgood hp).mono (fun a v h => ?_) fun _ _ h => h)
  obtain ⟨hgood', hgrows, hq⟩ := h
  exact ((hf a v hgood' hq).mono (fun b u h => ⟨h.1, G.trans hgrows h.2.1, h.2.2⟩)
    fun _ u h => ⟨h.1, G.trans hgrows h.2⟩).moments fun u h => ⟨h.1, G.trans hgrows h.2⟩

theorem Extends.weaken {Q' : α → σ → Prop} (h : G.Extends P x Q)
    (hp : ∀ w, G.Good w → P' w → P w) (hq : ∀ a w, G.Good w → Q a w → Q' a w) :
    G.Extends P' x Q' := fun w hgood hp' =>
  (h w hgood (hp w hgood hp')).mono (fun a v hv => ⟨hv.1, hv.2.1, hq a v hv.1 hv.2.2⟩)
    fun _ _ hv => hv

/-- What stays true while the world grows is still true at the end. -/
theorem Extends.frame (h : G.Extends P x Q) (hmono : ∀ w v, G.Grows w v → R w → R v) :
    G.Extends (fun w => P w ∧ R w) x fun a v => Q a v ∧ R v := fun w hgood hp =>
  (h w hgood hp.1).mono (fun _ v hv => ⟨hv.1, hv.2.1, hv.2.2, hmono w v hv.2.1 hp.2⟩)
    fun _ _ hv => hv

/-- After a cell was asked for it holds what it answered. -/
theorem extends_getOrCreate {cell : Cell σ ν} {create : Effect σ ε ν} {Q S : ν → σ → Prop}
    (hcreate : G.Extends (fun w => P w ∧ cell.read w = none) create Q)
    (hwrite : ∀ value w, G.Good w → Q value w →
      G.Good (cell.write value w) ∧ G.Grows w (cell.write value w) ∧
        cell.read (cell.write value w) = some value ∧ S value (cell.write value w))
    (hfull : ∀ value w, G.Good w → P w → cell.read w = some value → S value w) :
    G.Extends P (cell.getOrCreate create) fun value w => cell.read w = some value ∧ S value w := by
  intro w hgood hp
  cases hread : cell.read w with
  | some value =>
    rw [Meets, Cell.getOrCreate_full hread]
    exact ⟨fun _ hv => absurd hv List.not_mem_nil, hgood, G.refl w, hread,
      hfull value w hgood hp hread⟩
  | none =>
    unfold Cell.getOrCreate
    refine meets_bind (meets_get ?_)
    simp only [hread]
    refine meets_bind ((hcreate w hgood ⟨hp, hread⟩).mono (fun value v h => ?_) fun _ _ h => h)
    obtain ⟨hgood', hgrows, hq⟩ := h
    obtain ⟨hgood'', hgrows', hread', hs⟩ := hwrite value v hgood' hq
    have hgrows'' := G.trans hgrows hgrows'
    exact meets_bind (meets_modify ⟨hgood'', hgrows''⟩
      (meets_pure ⟨hgood'', hgrows'', hread', hs⟩))

end Growth

end FunasrApi.Core.Effect
