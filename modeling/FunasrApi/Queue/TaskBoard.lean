import FunasrApi.Queue.Recovery
import FunasrApi.Queue.Scheduling

/-!
# The queue with the rows of its tasks

While the queue runs, tasks are created and enqueued, workers and batches process them, and rows
are deleted. A run of `process_task` is known by what its task's row becomes, one access after the
other; between the accesses everybody else goes on.
-/

namespace FunasrApi.Queue

open FunasrApi.Core FunasrApi.Tasks

/-- The queue, the rows of its tasks, and what is under way. -/
structure TaskBoard (Id Row : Type) where
  runtime : QueueWorkerRuntime Id
  row : TaskKey Id → Option Row
  /-- What the row of a task that is being processed still becomes. -/
  moments : TaskKey Id → List (Option Row)
  /-- The tasks between `create_task` and `enqueue`. One whose `enqueue` and `record_error` both
  raise stays here. -/
  submitting : List (TaskKey Id)

/-- Whoever goes on next. -/
inductive BoardAction (Id Row : Type)
  /-- `create_task` of a submission. -/
  | createTask (key : TaskKey Id) (row : Row)
  /-- `enqueue` of a submission. -/
  | enqueue (key : TaskKey Id) (vip : Bool)
  /-- `enqueue` raises, and `record_error` makes the row `failed`. -/
  | refuse (key : TaskKey Id) (failed : Row)
  /-- A worker takes an entry; `moments` is what the run makes of the row. -/
  | take (index : ℕ) (moments : List (Option Row))
  /-- The next access of a run. -/
  | access (key : TaskKey Id)
  /-- The run of a worker returns. -/
  | complete (index : ℕ)
  /-- `_process_one` once the lookup of the task has ended. -/
  | beginBatch (taskId : Id) (found : Bool) (moments : List (Option Row))
  /-- The run of a batch returns. -/
  | endBatch (taskId : Id)
  /-- Somebody deletes the row of a task that is not being processed; `moments` says when the row
  of a task that is being processed is deleted. -/
  | delete (key : TaskKey Id)

namespace TaskBoard

variable {Id Row : Type} [DecidableEq Id]

/-- The key that the worker at an index processes. -/
def processed (runtime : QueueWorkerRuntime Id) (index : ℕ) : Option (TaskKey Id) :=
  runtime.workers[index]?.bind Worker.key?

/-- A run begins. -/
def begin (board : TaskBoard Id Row) (key : TaskKey Id) (moments : List (Option Row)) :
    TaskBoard Id Row :=
  { board with moments := Function.update board.moments key moments }

/-- One step, or its rejection. -/
def step (board : TaskBoard Id Row) : BoardAction Id Row → Option (TaskBoard Id Row)
  | .createTask key row =>
    if (board.row key).isSome then none
    else
      some
        { board with
          row := Function.update board.row key (some row)
          submitting := key :: board.submitting }
  | .enqueue key vip =>
    if key ∈ board.submitting then
      some
        { board with
          runtime := board.runtime.enqueue key.1 key.2 vip
          submitting := board.submitting.erase key }
    else none
  | .refuse key failed =>
    if key ∈ board.submitting then
      some
        { board with
          row := Function.update board.row key ((board.row key).map fun _ => failed)
          submitting := board.submitting.erase key }
    else none
  | .take index moments =>
    (board.runtime.take index).map fun runtime =>
      match processed runtime index with
      | none => { board with runtime := runtime }
      | some key => { board.begin key moments with runtime := runtime }
  | .access key =>
    match board.moments key with
    | [] => none
    | row :: rest =>
      if key ∈ board.runtime.executing then
        some { board.begin key rest with row := Function.update board.row key row }
      else none
  | .complete index =>
    match processed board.runtime index with
    | none => none
    | some key =>
      if (board.moments key).isEmpty then
        (board.runtime.complete index).map fun runtime => { board with runtime := runtime }
      else none
  | .beginBatch taskId found moments =>
    if found = true ∧ board.runtime.registry.isTracked (.offline, taskId) = false then
      some
        { board.begin (.offline, taskId) moments with
          runtime := board.runtime.beginBatch taskId found }
    else some board
  | .endBatch taskId =>
    if (board.moments (.offline, taskId)).isEmpty then
      (board.runtime.endBatch taskId).map fun runtime => { board with runtime := runtime }
    else none
  | .delete key =>
    if key ∈ board.runtime.executing then none
    else some { board with row := Function.update board.row key none }

/-- The board over every interleaving of its users. -/
def machine (Id Row : Type) [DecidableEq Id] :
    Machine (TaskBoard Id Row) (BoardAction Id Row) where
  step := step

section Steps

variable (status : Row → TaskStatus)
  (runs : TaskKey Id → Option Row → List (Option Row) → Prop)

/-- The row of a task that nobody has to process any more. -/
def Finished (row : Row) : Prop := status row = .completed ∨ status row = .failed

/-- Every run leaves its task finished, or deleted. -/
def Finishing : Prop := ∀ key row moments, runs key row moments →
  ∃ before last, moments = before ++ [last] ∧ ∀ row ∈ last, Finished status row

/-- What the parts of the service promise of their steps: ids of new tasks are new, a new task is
pending, a refused one is failed, and the accesses of a run are those of a `process_task`. -/
def Proper (board : TaskBoard Id Row) : BoardAction Id Row → Prop
  | .createTask key row => board.runtime.registry.isTracked key = false ∧ status row = .pending
  | .refuse _ failed => status failed = .failed
  | .take index moments => ∀ runtime key, board.runtime.take index = some runtime →
    processed runtime index = some key → runs key (board.row key) moments
  | .beginBatch taskId _ moments =>
    runs (.offline, taskId) (board.row (.offline, taskId)) moments
  | _ => True

/-- Where the tasks are. -/
structure Accounted (board : TaskBoard Id Row) : Prop where
  queue : Invariant board.runtime
  tracked : ∀ key row, board.row key = some row → ¬ Finished status row →
    board.runtime.registry.isTracked key = true ∨ key ∈ board.submitting
  processing : ∀ key row, board.row key = some row → status row = .processing →
    key ∈ board.runtime.registry.inflight
  finishes : ∀ key ∈ board.runtime.registry.inflight,
    ∀ row, (board.moments key).getLastD (board.row key) = some row → Finished status row

/-- A queue that has been started, and whose recovery has reached every unfinished task. -/
structure Started (board : TaskBoard Id Row) : Prop where
  queue : Invariant board.runtime
  idle : board.runtime.executing = []
  recovered : ∀ key row, board.row key = some row → ¬ Finished status row →
    status row = .pending ∧ board.runtime.registry.isTracked key = true

end Steps

section Accounting

variable {status : Row → TaskStatus} {runs : TaskKey Id → Option Row → List (Option Row) → Prop}
  {board next : TaskBoard Id Row}

omit [DecidableEq Id] in
/-- What is in flight is under execution. -/
theorem mem_inflight_iff (h : InFlightKeys board.runtime) {key : TaskKey Id} :
    key ∈ board.runtime.registry.inflight ↔ key ∈ board.runtime.executing := by
  rw [← Finset.mem_val, ← h, Multiset.mem_coe]

theorem Started.accounted (h : Started status board) : Accounted status board := by
  have hnone : ∀ key, key ∉ board.runtime.registry.inflight := by
    intro key hkey
    rw [mem_inflight_iff h.queue.inflight, h.idle] at hkey
    exact List.not_mem_nil hkey
  refine ⟨h.queue, fun key row hrow hunfinished => .inl (h.recovered key row hrow hunfinished).2,
    fun key row hrow hprocessing => ?_, fun key hkey => absurd hkey (hnone key)⟩
  have hunfinished : ¬ Finished status row := by simp [Finished, hprocessing]
  rw [(h.recovered key row hrow hunfinished).1] at hprocessing
  cases hprocessing

/-- A taken entry is tracked, and in flight from now on. -/
theorem take_registry {s t : QueueWorkerRuntime Id} {index : ℕ} (h : s.take index = some t) :
    (processed t index = none ∧ t.registry = s.registry) ∨
      ∃ key, processed t index = some key ∧ t.registry = s.registry.beginQueued key := by
  unfold QueueWorkerRuntime.take at h
  split at h
  · next entry queue hworker hget =>
    have hindex : index < s.workers.length := (List.getElem?_eq_some_iff.mp hworker).1
    split at h
    · obtain rfl := Option.some.inj h
      left
      simp [processed, hindex, Worker.key?]
    · next key _ =>
      obtain rfl := Option.some.inj h
      right
      exact ⟨key, by simp [processed, hindex, Worker.key?], rfl⟩
  · cases h

/-- A completed run is not in flight any more. -/
theorem complete_registry {s t : QueueWorkerRuntime Id} {index : ℕ}
    (h : s.complete index = some t) :
    ∃ key, processed s index = some key ∧ t.registry = s.registry.finish key := by
  unfold QueueWorkerRuntime.complete at h
  split at h
  · next key hworker =>
    obtain rfl := Option.some.inj h
    exact ⟨key, by simp [processed, hworker, Worker.key?], rfl⟩
  · cases h

section Step

variable (h : Accounted status board)

include h

theorem Accounted.createTask {key : TaskKey Id} {row : Row}
    (hproper : Proper status runs board (.createTask key row))
    (hstep : board.step (.createTask key row) = some next) : Accounted status next := by
  obtain ⟨hfresh, hpending⟩ := hproper
  obtain ⟨-, hinflight⟩ := (TaskExecutionRegistry.isTracked_eq_false _ _).mp hfresh
  simp only [step] at hstep
  split at hstep
  · cases hstep
  · obtain rfl := Option.some.inj hstep
    have hother : ∀ other row', Function.update board.row key (some row) other = some row' →
        other = key ∧ row' = row ∨ board.row other = some row' := by
      intro other row' hrow
      by_cases hkey : other = key
      · rw [hkey, Function.update_self] at hrow
        exact .inl ⟨hkey, (Option.some.inj hrow).symm⟩
      · rw [Function.update_of_ne hkey] at hrow
        exact .inr hrow
    refine ⟨h.queue, fun other row' hrow hunfinished => ?_, fun other row' hrow hprocessing => ?_,
      fun other hother' row' hlast => ?_⟩
    · obtain ⟨rfl, -⟩ | hrow := hother other row' hrow
      · exact .inr List.mem_cons_self
      · exact (h.tracked other row' hrow hunfinished).imp_right (List.mem_cons_of_mem _)
    · obtain ⟨-, rfl⟩ | hrow := hother other row' hrow
      · rw [hpending] at hprocessing
        cases hprocessing
      · exact h.processing other row' hrow hprocessing
    · have hne : other ≠ key := fun hkey => hinflight (hkey ▸ hother')
      change (board.moments other).getLastD (Function.update board.row key (some row) other) = _
        at hlast
      rw [Function.update_of_ne hne] at hlast
      exact h.finishes other hother' row' hlast

theorem Accounted.enqueue {key : TaskKey Id} {vip : Bool}
    (hstep : board.step (.enqueue key vip) = some next) : Accounted status next := by
  simp only [step] at hstep
  split at hstep
  · obtain rfl := Option.some.inj hstep
    have hinflight : (board.runtime.enqueue key.1 key.2 vip).registry.inflight =
        board.runtime.registry.inflight := by
      unfold QueueWorkerRuntime.enqueue
      cases hr : board.runtime.registry.tryEnqueue (key.1, key.2) with
      | none => rfl
      | some registry => exact (TaskExecutionRegistry.tryEnqueue_spec hr).2.2.2
    refine ⟨h.queue.enqueue _ _ _, fun other row hrow hunfinished => ?_,
      fun other row hrow hprocessing => hinflight ▸ h.processing other row hrow hprocessing,
      fun other hother row hlast => h.finishes other (hinflight ▸ hother) row hlast⟩
    rw [QueueWorkerRuntime.enqueue_isTracked]
    rcases h.tracked other row hrow hunfinished with htracked | hsubmitting
    · exact .inl (.inl htracked)
    · by_cases hkey : other = key
      · exact .inl (.inr hkey)
      · exact .inr ((List.mem_erase_of_ne hkey).mpr hsubmitting)
  · cases hstep

theorem Accounted.refuse {key : TaskKey Id} {failed : Row}
    (hproper : Proper status runs board (.refuse key failed))
    (hstep : board.step (.refuse key failed) = some next) : Accounted status next := by
  have hfinished : Finished status failed := .inr hproper
  simp only [step] at hstep
  split at hstep
  · obtain rfl := Option.some.inj hstep
    have hother : ∀ other row,
        Function.update board.row key ((board.row key).map fun _ => failed) other = some row →
          row = failed ∨ other ≠ key ∧ board.row other = some row := by
      intro other row hrow
      by_cases hkey : other = key
      · rw [hkey, Function.update_self] at hrow
        obtain ⟨-, -, rfl⟩ := Option.map_eq_some_iff.mp hrow
        exact .inl rfl
      · rw [Function.update_of_ne hkey] at hrow
        exact .inr ⟨hkey, hrow⟩
    refine ⟨h.queue, fun other row hrow hunfinished => ?_, fun other row hrow hprocessing => ?_,
      fun other hinflight row hlast => ?_⟩
    · obtain rfl | ⟨hne, hrow⟩ := hother other row hrow
      · exact absurd hfinished hunfinished
      · exact (h.tracked other row hrow hunfinished).imp_right
          fun hmem => (List.mem_erase_of_ne hne).mpr hmem
    · obtain rfl | ⟨-, hrow⟩ := hother other row hrow
      · rw [show status row = .failed from hproper] at hprocessing
        cases hprocessing
      · exact h.processing other row hrow hprocessing
    · have hfinishes := h.finishes other hinflight row
      revert hlast hfinishes
      cases board.moments other with
      | nil =>
        intro hlast hfinishes
        obtain rfl | ⟨-, hrow⟩ := hother other row hlast
        · exact hfinished
        · exact hfinishes hrow
      | cons moment rest => exact fun hlast hfinishes => hfinishes hlast
  · cases hstep

/-- A run begins on a key that is in flight from now on. -/
theorem Accounted.begins {key : TaskKey Id} {moments : List (Option Row)}
    {runtime : QueueWorkerRuntime Id} (hqueue : Invariant runtime)
    (htracked : ∀ other, board.runtime.registry.isTracked other = true →
      runtime.registry.isTracked other = true)
    (hinflight : runtime.registry.inflight = insert key board.runtime.registry.inflight)
    (hruns : Finishing status runs) (hrun : runs key (board.row key) moments) :
    Accounted status { board.begin key moments with runtime := runtime } := by
  refine ⟨hqueue, fun other row hrow hunfinished =>
      (h.tracked other row hrow hunfinished).imp_left (htracked other),
    fun other row hrow hprocessing => hinflight ▸ Finset.mem_insert_of_mem
      (h.processing other row hrow hprocessing), fun other hother row hlast => ?_⟩
  change (Function.update board.moments key moments other).getLastD (board.row other) = _ at hlast
  by_cases hkey : other = key
  · obtain ⟨before, last, rfl, hfinished⟩ := hruns _ _ _ hrun
    rw [hkey, Function.update_self, List.getLastD_concat] at hlast
    exact hfinished row hlast
  · rw [Function.update_of_ne hkey] at hlast
    have hold := (Finset.mem_insert.mp (hinflight ▸ hother)).resolve_left hkey
    exact h.finishes other hold row hlast

/-- A run returns when its last moment is over. -/
theorem Accounted.ends {key : TaskKey Id} {runtime : QueueWorkerRuntime Id}
    (hqueue : Invariant runtime) (hkey : key ∈ board.runtime.registry.inflight)
    (hregistry : runtime.registry = board.runtime.registry.finish key)
    (hmoments : (board.moments key).isEmpty = true) :
    Accounted status { board with runtime := runtime } := by
  have hdone : ∀ row, board.row key = some row → Finished status row := by
    intro row hrow
    refine h.finishes key hkey row ?_
    rw [List.isEmpty_iff.mp hmoments]
    exact hrow
  refine ⟨hqueue, fun other row hrow hunfinished => ?_, fun other row hrow hprocessing => ?_,
    fun other hother => h.finishes other (Finset.mem_of_mem_erase (hregistry ▸ hother :
      other ∈ (board.runtime.registry.finish key).inflight))⟩
  · have hne : other ≠ key := fun hkey => hunfinished (hdone row (hkey ▸ hrow))
    refine (h.tracked other row hrow hunfinished).imp_left fun htracked => ?_
    change runtime.registry.isTracked other = true
    rw [hregistry, TaskExecutionRegistry.isTracked_eq_true]
    exact (TaskExecutionRegistry.isTracked_eq_true _ _).mp htracked |>.imp_right
      fun hinflight => Finset.mem_erase.mpr ⟨hne, hinflight⟩
  · have hne : other ≠ key := by
      rintro rfl
      rcases hdone row hrow with hstatus | hstatus <;>
        · rw [hstatus] at hprocessing
          cases hprocessing
    change other ∈ runtime.registry.inflight
    rw [hregistry]
    exact Finset.mem_erase.mpr ⟨hne, h.processing other row hrow hprocessing⟩

theorem Accounted.take {index : ℕ} {moments : List (Option Row)} (hruns : Finishing status runs)
    (hproper : Proper status runs board (.take index moments))
    (hstep : board.step (.take index moments) = some next) : Accounted status next := by
  obtain ⟨runtime, htake, hnext⟩ := Option.map_eq_some_iff.mp hstep
  have hqueue := h.queue.take htake
  obtain ⟨hnone, hregistry⟩ | ⟨key, hkey, hregistry⟩ := take_registry htake
  · simp only [hnone] at hnext
    subst hnext
    refine ⟨hqueue, ?_, ?_, ?_⟩
    · change ∀ key row, board.row key = some row → ¬ Finished status row →
        runtime.registry.isTracked key = true ∨ key ∈ board.submitting
      rw [hregistry]
      exact h.tracked
    · change ∀ key row, board.row key = some row → _ → key ∈ runtime.registry.inflight
      rw [hregistry]
      exact h.processing
    · change ∀ key ∈ runtime.registry.inflight, _
      rw [hregistry]
      exact h.finishes
  · simp only [hkey] at hnext
    subst hnext
    refine h.begins hqueue (fun other htracked => ?_) (by rw [hregistry]; rfl) hruns
      (hproper runtime key htake hkey)
    rw [hregistry, TaskExecutionRegistry.isTracked_eq_true]
    rw [TaskExecutionRegistry.isTracked_eq_true] at htracked
    by_cases hsame : other = key
    · exact .inr (hsame ▸ Finset.mem_insert_self ..)
    · exact htracked.imp (fun hqueued => Finset.mem_erase.mpr ⟨hsame, hqueued⟩)
        (Finset.mem_insert_of_mem ·)

theorem Accounted.access {key : TaskKey Id} (hstep : board.step (.access key) = some next) :
    Accounted status next := by
  simp only [step] at hstep
  split at hstep
  · cases hstep
  · next moment rest hmoments =>
    split at hstep
    · next hexecuting =>
      obtain rfl := Option.some.inj hstep
      have hinflight := (mem_inflight_iff h.queue.inflight).mpr hexecuting
      refine ⟨h.queue, fun other row hrow hunfinished => ?_, fun other row hrow hprocessing => ?_,
        fun other hother row hlast => ?_⟩
      · by_cases hkey : other = key
        · exact .inl ((TaskExecutionRegistry.isTracked_eq_true _ _).mpr (.inr (hkey ▸ hinflight)))
        · exact h.tracked other row ((Function.update_of_ne hkey ..).symm.trans hrow) hunfinished
      · by_cases hkey : other = key
        · exact hkey ▸ hinflight
        · exact h.processing other row ((Function.update_of_ne hkey ..).symm.trans hrow) hprocessing
      · refine h.finishes other hother row ?_
        change (Function.update board.moments key rest other).getLastD
          (Function.update board.row key moment other) = _ at hlast
        by_cases hkey : other = key
        · rw [hkey, Function.update_self, Function.update_self] at hlast
          rw [hkey, hmoments, List.getLastD_cons]
          exact hlast
        · rwa [Function.update_of_ne hkey, Function.update_of_ne hkey] at hlast
    · cases hstep

theorem Accounted.complete {index : ℕ} (hstep : board.step (.complete index) = some next) :
    Accounted status next := by
  simp only [step] at hstep
  split at hstep
  · cases hstep
  · next key hkey =>
    split at hstep
    · next hmoments =>
      obtain ⟨runtime, hcomplete, rfl⟩ := Option.map_eq_some_iff.mp hstep
      obtain ⟨key', hkey', hregistry⟩ := complete_registry hcomplete
      obtain rfl := Option.some.inj (hkey.symm.trans hkey')
      have hinflight : key ∈ board.runtime.registry.inflight := by
        obtain ⟨worker, hworker, hsome⟩ := Option.bind_eq_some_iff.mp hkey
        rw [mem_inflight_iff h.queue.inflight]
        exact List.mem_append_left _
          (List.mem_filterMap.mpr ⟨worker, List.mem_of_getElem? hworker, hsome⟩)
      exact h.ends (h.queue.complete hcomplete) hinflight hregistry hmoments
    · cases hstep

theorem Accounted.beginBatch {taskId : Id} {found : Bool} {moments : List (Option Row)}
    (hruns : Finishing status runs)
    (hproper : Proper status runs board (.beginBatch taskId found moments))
    (hstep : board.step (.beginBatch taskId found moments) = some next) :
    Accounted status next := by
  simp only [step] at hstep
  split at hstep
  · next hbegins =>
    obtain rfl := Option.some.inj hstep
    obtain rfl := hbegins.1
    have hregistry : (board.runtime.beginBatch taskId true).registry.queued =
          board.runtime.registry.queued ∧
        (board.runtime.beginBatch taskId true).registry.inflight =
          insert (.offline, taskId) board.runtime.registry.inflight := by
      unfold QueueWorkerRuntime.beginBatch
      cases hr : board.runtime.registry.tryBeginExternal (.offline, taskId) with
      | none =>
        exfalso
        unfold TaskExecutionRegistry.tryBeginExternal at hr
        split at hr
        · next htracked => simp [hbegins.2] at htracked
        · cases hr
      | some registry =>
        obtain ⟨-, -, hqueued, hinflight⟩ := TaskExecutionRegistry.tryBeginExternal_spec hr
        exact ⟨hqueued, hinflight⟩
    refine h.begins (h.queue.beginBatch _ _) (fun other htracked => ?_) hregistry.2 hruns hproper
    rw [TaskExecutionRegistry.isTracked_eq_true] at htracked ⊢
    rw [hregistry.1, hregistry.2]
    exact htracked.imp_right (Finset.mem_insert_of_mem ·)
  · obtain rfl := Option.some.inj hstep
    exact h

theorem Accounted.endBatch {taskId : Id} (hstep : board.step (.endBatch taskId) = some next) :
    Accounted status next := by
  simp only [step] at hstep
  split at hstep
  · next hmoments =>
    obtain ⟨runtime, hend, rfl⟩ := Option.map_eq_some_iff.mp hstep
    have hqueue := h.queue.endBatch hend
    unfold QueueWorkerRuntime.endBatch at hend
    split at hend
    · next hbatch =>
      obtain rfl := Option.some.inj hend
      refine h.ends hqueue ?_ rfl hmoments
      rw [mem_inflight_iff h.queue.inflight]
      exact List.mem_append_right _ hbatch
    · cases hend
  · cases hstep

theorem Accounted.delete {key : TaskKey Id} (hstep : board.step (.delete key) = some next) :
    Accounted status next := by
  simp only [step] at hstep
  split at hstep
  · cases hstep
  · next hidle =>
    obtain rfl := Option.some.inj hstep
    have hother : ∀ other row, Function.update board.row key none other = some row →
        board.row other = some row := by
      intro other row hrow
      by_cases hkey : other = key
      · rw [hkey, Function.update_self] at hrow
        cases hrow
      · exact (Function.update_of_ne hkey ..).symm.trans hrow
    refine ⟨h.queue, fun other row hrow => h.tracked other row (hother other row hrow),
      fun other row hrow => h.processing other row (hother other row hrow),
      fun other hinflight row hlast => h.finishes other hinflight row ?_⟩
    have hne : other ≠ key := by
      rintro rfl
      exact hidle ((mem_inflight_iff h.queue.inflight).mp hinflight)
    change (board.moments other).getLastD (Function.update board.row key none other) = _ at hlast
    rwa [Function.update_of_ne hne] at hlast

/-- Every step keeps account of the tasks. -/
theorem Accounted.step (hruns : Finishing status runs) {action : BoardAction Id Row}
    (hproper : Proper status runs board action) (hstep : board.step action = some next) :
    Accounted status next := by
  cases action with
  | createTask key row => exact h.createTask hproper hstep
  | enqueue key vip => exact h.enqueue hstep
  | refuse key failed => exact h.refuse hproper hstep
  | take index moments => exact h.take hruns hproper hstep
  | access key => exact h.access hstep
  | complete index => exact h.complete hstep
  | beginBatch taskId found moments => exact h.beginBatch hruns hproper hstep
  | endBatch taskId => exact h.endBatch hstep
  | delete key => exact h.delete hstep

end Step

/-- In every run from the start the tasks are accounted for. -/
theorem reachable_accounted (hruns : Finishing status runs) (hstarted : Started status board)
    (h : (machine Id Row).Reach (Proper status runs) board next) : Accounted status next :=
  h.invariant hstarted.accounted fun _ _ _ haccounted hproper hstep =>
    haccounted.step hruns hproper hstep

end Accounting

end TaskBoard

end FunasrApi.Queue
