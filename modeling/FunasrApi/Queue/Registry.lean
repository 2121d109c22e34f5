import Mathlib.Data.Finset.Basic

/-!
# The execution registry

`TaskExecutionRegistry` tracks the keys of queued tasks and of tasks being
executed. Its two sets are disjoint after every operation, so the type carries
their disjointness.
-/

namespace FunasrApi.Queue

/-- The kinds of tasks that the queue facade admits. -/
inductive TaskKind
  | offline
  | spk
  deriving DecidableEq, Repr

/-- `TaskKey`: the kind and the id of a task. -/
abbrev TaskKey (Id : Type*) := TaskKind × Id

/-- The keys that are queued and those in flight. -/
structure TaskExecutionRegistry (Id : Type*) where
  queued : Finset (TaskKey Id)
  inflight : Finset (TaskKey Id)
  disjoint : ∀ key ∈ queued, key ∉ inflight

namespace TaskExecutionRegistry

variable {Id : Type*}

/-- `clear`, which also gives the registry of a new runtime. -/
def clear : TaskExecutionRegistry Id := ⟨∅, ∅, by simp⟩

variable [DecidableEq Id] (registry : TaskExecutionRegistry Id) (key : TaskKey Id)

/-- `is_tracked`. -/
def isTracked : Bool := key ∈ registry.queued || key ∈ registry.inflight

theorem isTracked_eq_false :
    registry.isTracked key = false ↔ key ∉ registry.queued ∧ key ∉ registry.inflight := by
  simp [isTracked]

theorem isTracked_eq_true :
    registry.isTracked key = true ↔ key ∈ registry.queued ∨ key ∈ registry.inflight := by
  simp [isTracked]

/-- `try_enqueue`: the new registry, unless the key is tracked. -/
def tryEnqueue : Option (TaskExecutionRegistry Id) :=
  if h : registry.isTracked key = true then none
  else
    some
      { queued := insert key registry.queued
        inflight := registry.inflight
        disjoint := by
          have hk := (registry.isTracked_eq_false key).mp (by simpa using h)
          intro k hkey
          rcases Finset.mem_insert.mp hkey with rfl | hq
          · exact hk.2
          · exact registry.disjoint k hq }

/-- `try_begin_external`: the new registry, unless the key is tracked. -/
def tryBeginExternal : Option (TaskExecutionRegistry Id) :=
  if h : registry.isTracked key = true then none
  else
    some
      { queued := registry.queued
        inflight := insert key registry.inflight
        disjoint := by
          have hk := (registry.isTracked_eq_false key).mp (by simpa using h)
          intro k hq hin
          rcases Finset.mem_insert.mp hin with rfl | hin
          · exact hk.1 hq
          · exact registry.disjoint k hq hin }

/-- `begin_queued`. -/
def beginQueued : TaskExecutionRegistry Id where
  queued := registry.queued.erase key
  inflight := insert key registry.inflight
  disjoint := by
    intro k hq hin
    obtain ⟨hne, hq⟩ := Finset.mem_erase.mp hq
    rcases Finset.mem_insert.mp hin with rfl | hin
    · exact hne rfl
    · exact registry.disjoint k hq hin

/-- `finish`. -/
def finish : TaskExecutionRegistry Id where
  queued := registry.queued
  inflight := registry.inflight.erase key
  disjoint k hq hin := registry.disjoint k hq (Finset.mem_of_mem_erase hin)

variable {registry key}

/-- An accepted key was not tracked, and is queued now. -/
theorem tryEnqueue_spec {r : TaskExecutionRegistry Id} (h : registry.tryEnqueue key = some r) :
    key ∉ registry.queued ∧ key ∉ registry.inflight ∧
      r.queued = insert key registry.queued ∧ r.inflight = registry.inflight := by
  unfold tryEnqueue at h
  split at h
  · cases h
  · rename_i hk
    obtain rfl := Option.some.inj h
    obtain ⟨hq, hin⟩ := (registry.isTracked_eq_false key).mp (by simpa using hk)
    exact ⟨hq, hin, rfl, rfl⟩

/-- A key is refused only when it is tracked. -/
theorem tryEnqueue_none (h : registry.tryEnqueue key = none) : registry.isTracked key = true := by
  unfold tryEnqueue at h
  split at h
  · assumption
  · cases h

/-- An external execution starts on a key that was not tracked. -/
theorem tryBeginExternal_spec {r : TaskExecutionRegistry Id}
    (h : registry.tryBeginExternal key = some r) :
    key ∉ registry.queued ∧ key ∉ registry.inflight ∧
      r.queued = registry.queued ∧ r.inflight = insert key registry.inflight := by
  unfold tryBeginExternal at h
  split at h
  · cases h
  · rename_i hk
    obtain rfl := Option.some.inj h
    obtain ⟨hq, hin⟩ := (registry.isTracked_eq_false key).mp (by simpa using hk)
    exact ⟨hq, hin, rfl, rfl⟩

end TaskExecutionRegistry

end FunasrApi.Queue
