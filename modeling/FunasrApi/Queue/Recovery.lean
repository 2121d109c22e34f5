import FunasrApi.Queue.Workers
import FunasrApi.Tasks.Record

/-!
# Recovery at the start of the queue

`OfflineTaskQueue.start` resets stale `processing` tasks and enqueues the pending
ones of both kinds. The last part asks when this leaves no task without anybody
to process it.
-/

namespace FunasrApi.Queue

open FunasrApi.Core FunasrApi.Tasks

variable {Id : Type*}

/-- The default of `pending_limit`. -/
def pendingLimit : Nat := 1000

/-- The recovery of one kind reaches every unfinished task: each `processing` task was
started no later than the cutoff, and there are no more unfinished tasks than the limit. -/
def Recoverable (timeoutSeconds now : Int) (table : TaskTable Id) : Prop :=
  (∀ task ∈ table.rows, task.status = .processing →
    ∃ startedAt, task.startedAt = some startedAt ∧
      startedAt ≤ now - max 0 timeoutSeconds * 1000000) ∧
    (table.rows.filter TaskRecord.unfinished).length ≤ pendingLimit

section Table

variable {table : TaskTable Id} {timeoutSeconds now : Int}

/-- A row of the recovered table is a row of the table, reset when it was stale. -/
theorem mem_recoverStaleProcessing {task : TaskRecord Id} :
    task ∈ (table.recoverStaleProcessing timeoutSeconds now).rows ↔
      ∃ old ∈ table.rows, task =
        if TaskTable.isStale timeoutSeconds now old then { old with status := .pending }
        else old := by
  simp only [TaskTable.recoverStaleProcessing, TaskTable.modify, List.mem_map, eq_comm]

/-- A stale task is `processing` and was started no later than the cutoff. -/
theorem isStale_iff {task : TaskRecord Id} :
    TaskTable.isStale timeoutSeconds now task = true ↔ task.status = .processing ∧
      ∃ startedAt, task.startedAt = some startedAt ∧
        startedAt ≤ now - max 0 timeoutSeconds * 1000000 := by
  unfold TaskTable.isStale
  cases task.startedAt with
  | none => simp
  | some startedAt => simp

/-- The recovery finishes no task. -/
theorem unfinished_recoverStaleProcessing (table : TaskTable Id) (timeoutSeconds now : Int) :
    ((table.recoverStaleProcessing timeoutSeconds now).rows.filter TaskRecord.unfinished).length =
      (table.rows.filter TaskRecord.unfinished).length := by
  have hcomp : (TaskRecord.unfinished ∘ fun task : TaskRecord Id =>
      if TaskTable.isStale timeoutSeconds now task then { task with status := .pending }
      else task) = TaskRecord.unfinished := by
    funext task
    simp only [Function.comp_apply]
    split
    · rename_i hs
      obtain ⟨hp, -⟩ := isStale_iff.mp hs
      simp [TaskRecord.unfinished, hp]
    · rfl
  simp only [TaskTable.recoverStaleProcessing, TaskTable.modify]
  rw [List.filter_map, List.length_map, hcomp]

/-- What `get_pending_tasks` returns is pending, and without a limit it returns all of it. -/
theorem mem_getPendingTasks {limit : Nat} {task : TaskRecord Id}
    (h : task ∈ table.getPendingTasks limit) : task ∈ table.rows ∧ task.status = .pending := by
  have := List.mem_of_mem_take h
  rw [List.mem_insertionSort, List.mem_filter] at this
  simpa using this

/-- With no more pending tasks than the limit, all of them are returned. -/
theorem getPendingTasks_of_le {limit : Nat} {task : TaskRecord Id}
    (hlimit : (table.rows.filter fun task => task.status = .pending).length ≤ limit)
    (h : task ∈ table.rows) (hp : task.status = .pending) :
    task ∈ table.getPendingTasks limit := by
  unfold TaskTable.getPendingTasks
  rw [List.take_of_length_le (by rw [List.length_insertionSort]; exact hlimit),
    List.mem_insertionSort, List.mem_filter]
  exact ⟨h, by simpa using hp⟩

/-- The recovery returns every unfinished task of the table exactly when the table is
recoverable. -/
theorem recoverable_iff :
    (∀ task ∈ (table.recoverStaleProcessing timeoutSeconds now).rows, task.unfinished = true →
      ∃ found ∈ (table.recoverStaleProcessing timeoutSeconds now).getPendingTasks pendingLimit,
        found.id = task.id) ↔ Recoverable timeoutSeconds now table := by
  set recovered := table.recoverStaleProcessing timeoutSeconds now with hrecovered
  constructor
  · intro hall
    constructor
    · intro task htask hp
      by_contra hyoung
      have hstale : ¬ TaskTable.isStale timeoutSeconds now task = true :=
        fun hs => hyoung (isStale_iff.mp hs).2
      have hsame : task ∈ recovered.rows :=
        mem_recoverStaleProcessing.mpr ⟨task, htask, by rw [if_neg hstale]⟩
      obtain ⟨found, hfound, hid⟩ := hall task hsame (by simp [TaskRecord.unfinished, hp])
      obtain ⟨hrow, hpending⟩ := mem_getPendingTasks hfound
      rw [recovered.eq_of_id_eq hrow hsame hid, hp] at hpending
      cases hpending
    · rw [← unfinished_recoverStaleProcessing table timeoutSeconds now]
      have hsub : (recovered.rows.filter TaskRecord.unfinished).map TaskRecord.id ⊆
          (recovered.getPendingTasks pendingLimit).map TaskRecord.id := by
        intro id hid
        obtain ⟨task, htask, rfl⟩ := List.mem_map.mp hid
        obtain ⟨hrow, hunfinished⟩ := List.mem_filter.mp htask
        obtain ⟨found, hfound, hsame⟩ := hall task hrow hunfinished
        exact List.mem_map.mpr ⟨found, hfound, hsame⟩
      have hnodup : ((recovered.rows.filter TaskRecord.unfinished).map TaskRecord.id).Nodup :=
        recovered.primaryKey.sublist (List.filter_sublist.map _)
      have hle := (hnodup.subperm hsub).length_le
      rw [List.length_map, List.length_map] at hle
      exact hle.trans (List.length_take_le ..)
  · rintro ⟨hstale, hlimit⟩ task htask hunfinished
    have hpending : ∀ task ∈ recovered.rows, task.unfinished = true → task.status = .pending := by
      intro task htask hunfinished
      obtain ⟨old, hold, rfl⟩ := mem_recoverStaleProcessing.mp htask
      split
      · rfl
      · rename_i hyoung
        rw [if_neg hyoung] at hunfinished
        rcases hs : old.status with _ | _ | _ | _
        · rfl
        · exact absurd (isStale_iff.mpr ⟨hs, hstale old hold hs⟩) hyoung
        · simp [TaskRecord.unfinished, hs] at hunfinished
        · simp [TaskRecord.unfinished, hs] at hunfinished
    refine ⟨task, getPendingTasks_of_le ?_ htask (hpending task htask hunfinished), rfl⟩
    rw [← unfinished_recoverStaleProcessing table timeoutSeconds now] at hlimit
    refine le_trans (List.Sublist.length_le ?_) hlimit
    refine List.monotone_filter_right _ fun task hp => ?_
    simp only [decide_eq_true_eq] at hp
    simp [TaskRecord.unfinished, hp]

end Table

/-- A repository, and which of the two calls of the recovery fail. -/
structure TaskRepository (Id : Type*) where
  table : TaskTable Id
  recoverRaises : Bool
  pendingRaises : Bool

variable [DecidableEq Id]

/-- `recover_and_enqueue_tasks`. A failed call is logged, and its phase is skipped. -/
def recoverAndEnqueueTasks (repository : Option (TaskRepository Id)) (timeoutSeconds now : Int)
    (taskKind : TaskKind) (runtime : QueueWorkerRuntime Id) :
    Option (TaskRepository Id) × QueueWorkerRuntime Id :=
  match repository with
  | none => (none, runtime)
  | some repository =>
    let repository :=
      if repository.recoverRaises then repository
      else
        { repository with table := repository.table.recoverStaleProcessing timeoutSeconds now }
    let pending :=
      if repository.pendingRaises then [] else repository.table.getPendingTasks pendingLimit
    let enqueue (runtime : QueueWorkerRuntime Id) (task : TaskRecord Id) :=
      runtime.enqueue taskKind task.id task.vip
    (some repository, pending.foldl enqueue runtime)

/-- The configuration of an `OfflineTaskQueue` that its `start` reads. -/
structure OfflineTaskQueue where
  enabled : Bool
  maxConcurrent : Nat
  processingTimeout : Int
  /-- `task_service is not None`. -/
  hasTaskService : Bool
  /-- `spk_task_service is not None`. -/
  hasSpkTaskService : Bool

/-- The repositories and the runtime of a queue. -/
structure QueueWorld (Id : Type*) where
  repositories : TaskKind → Option (TaskRepository Id)
  runtime : QueueWorkerRuntime Id

namespace OfflineTaskQueue

/-- `supports`. -/
def supports (queue : OfflineTaskQueue) : TaskKind → Bool
  | .offline => queue.hasTaskService
  | .spk => queue.hasSpkTaskService

/-- One half of `_recover_pending_tasks`; `now` is what the clock shows meanwhile. -/
def recoverKind (queue : OfflineTaskQueue) (now : TaskKind → Int) (kind : TaskKind)
    (world : QueueWorld Id) : QueueWorld Id :=
  if queue.supports kind then
    let (repository, runtime) := recoverAndEnqueueTasks (world.repositories kind)
      queue.processingTimeout (now kind) kind world.runtime
    { repositories := Function.update world.repositories kind repository, runtime := runtime }
  else world

/-- `_recover_pending_tasks`. -/
def recoverPendingTasks (queue : OfflineTaskQueue) (now : TaskKind → Int)
    (world : QueueWorld Id) : QueueWorld Id :=
  queue.recoverKind now .spk (queue.recoverKind now .offline world)

/-- `start`. -/
def start (queue : OfflineTaskQueue) (now : TaskKind → Int) (world : QueueWorld Id) :
    QueueWorld Id :=
  if queue.enabled = false then world
  else if world.runtime.running then world
  else if queue.supports .offline = false ∧ queue.supports .spk = false then world
  else
    let world := queue.recoverPendingTasks now world
    { world with runtime := world.runtime.start queue.maxConcurrent }

end OfflineTaskQueue

section Tracked

omit [DecidableEq Id] in
/-- Starting the workers tracks nothing new. -/
theorem QueueWorkerRuntime.start_registry (s : QueueWorkerRuntime Id) (workerCount : Nat) :
    (s.start workerCount).registry = s.registry := by
  unfold QueueWorkerRuntime.start
  split <;> rfl

/-- After `enqueue` exactly the enqueued key is tracked in addition. -/
theorem QueueWorkerRuntime.enqueue_isTracked (s : QueueWorkerRuntime Id) (kind : TaskKind)
    (taskId : Id) (vip : Bool) (key : TaskKey Id) :
    (s.enqueue kind taskId vip).registry.isTracked key = true ↔
      s.registry.isTracked key = true ∨ key = (kind, taskId) := by
  unfold QueueWorkerRuntime.enqueue
  cases hr : s.registry.tryEnqueue (kind, taskId) with
  | none =>
    have htracked := TaskExecutionRegistry.tryEnqueue_none hr
    constructor
    · exact .inl
    · rintro (h | rfl)
      · exact h
      · exact htracked
  | some registry =>
    obtain ⟨-, -, hqueued, hinflight⟩ := TaskExecutionRegistry.tryEnqueue_spec hr
    simp only [TaskExecutionRegistry.isTracked_eq_true, hqueued, hinflight, Finset.mem_insert]
    tauto

/-- After a series of enqueues exactly their keys are tracked in addition. -/
theorem foldl_enqueue_isTracked (kind : TaskKind) (tasks : List (TaskRecord Id))
    (s : QueueWorkerRuntime Id) (key : TaskKey Id) :
    (tasks.foldl (fun s task => s.enqueue kind task.id task.vip) s).registry.isTracked key = true ↔
      s.registry.isTracked key = true ∨ ∃ task ∈ tasks, key = (kind, task.id) := by
  induction tasks generalizing s with
  | nil => simp
  | cons task tasks ih =>
    rw [List.foldl_cons, ih, QueueWorkerRuntime.enqueue_isTracked]
    simp only [List.mem_cons, exists_eq_or_imp, or_assoc]

end Tracked

/-- Every unfinished task of both kinds is tracked by the registry. -/
def NoOrphan (world : QueueWorld Id) : Prop :=
  ∀ kind repository, world.repositories kind = some repository →
    ∀ task ∈ repository.table.rows, task.unfinished = true →
      world.runtime.registry.isTracked (kind, task.id) = true

section Start

variable {queue : OfflineTaskQueue} {now : TaskKind → Int}
  {repository : TaskKind → TaskRepository Id}

/-- A new process: both repositories are there, and nothing is queued or at work. -/
def QueueWorld.restarted (repository : TaskKind → TaskRepository Id) : QueueWorld Id where
  repositories kind := some (repository kind)
  runtime := .idle 0

/-- The table of one kind after the recovery. -/
def recoveredTable (queue : OfflineTaskQueue) (now : TaskKind → Int)
    (repository : TaskKind → TaskRepository Id) (kind : TaskKind) : TaskTable Id :=
  (repository kind).table.recoverStaleProcessing queue.processingTimeout (now kind)

/-- What a recovery without failing calls does. -/
private theorem recoverAndEnqueueTasks_spec {repository : TaskRepository Id}
    (hr : repository.recoverRaises = false) (hp : repository.pendingRaises = false)
    (timeoutSeconds now : Int) (kind : TaskKind) (runtime : QueueWorkerRuntime Id) :
    let table := repository.table.recoverStaleProcessing timeoutSeconds now
    recoverAndEnqueueTasks (some repository) timeoutSeconds now kind runtime =
      (some { repository with table := table },
        (table.getPendingTasks pendingLimit).foldl
          (fun runtime task => runtime.enqueue kind task.id task.vip) runtime) := by
  simp [recoverAndEnqueueTasks, hr, hp]

/-- After `start` exactly the pending tasks that the recovery found are tracked. -/
theorem start_spec (henabled : queue.enabled = true) (hs : ∀ kind, queue.supports kind = true)
    (hr : ∀ kind, (repository kind).recoverRaises = false)
    (hp : ∀ kind, (repository kind).pendingRaises = false) :
    (∀ kind, (queue.start now (.restarted repository)).repositories kind =
      some { repository kind with table := recoveredTable queue now repository kind }) ∧
    ∀ kind id,
      (queue.start now (.restarted repository)).runtime.registry.isTracked (kind, id) = true ↔
        ∃ found ∈ (recoveredTable queue now repository kind).getPendingTasks pendingLimit,
          found.id = id := by
  have hidle : (QueueWorkerRuntime.idle 0 : QueueWorkerRuntime Id).running = false := rfl
  have hnone : ∀ key, (QueueWorkerRuntime.idle 0 : QueueWorkerRuntime Id).registry.isTracked key =
      false := fun key => rfl
  have hne : TaskKind.spk ≠ TaskKind.offline := by decide
  simp only [OfflineTaskQueue.start, henabled, Bool.true_eq_false, if_false, QueueWorld.restarted,
    hidle, Bool.false_eq_true, hs, and_self, OfflineTaskQueue.recoverPendingTasks,
    OfflineTaskQueue.recoverKind, if_true, recoverAndEnqueueTasks_spec (hr _) (hp _),
    Function.update_of_ne hne]
  constructor
  · intro kind
    cases kind with
    | offline => simp [Function.update, recoveredTable]
    | spk => simp [recoveredTable]
  · intro kind id
    rw [QueueWorkerRuntime.start_registry, foldl_enqueue_isTracked, foldl_enqueue_isTracked,
      hnone]
    cases kind with
    | offline => simp [recoveredTable, eq_comm]
    | spk => simp [recoveredTable, eq_comm]

omit [DecidableEq Id] in
/-- A table with nothing to do is recoverable. -/
private theorem Recoverable.of_finished {timeoutSeconds now : Int} {table : TaskTable Id}
    (h : ∀ task ∈ table.rows, task.unfinished = false) : Recoverable timeoutSeconds now table := by
  constructor
  · intro task htask hp
    have := h task htask
    simp [TaskRecord.unfinished, hp] at this
  · rw [List.filter_eq_nil_iff.mpr fun task htask => by simp [h task htask]]
    exact Nat.zero_le _

/-- With the queue enabled, `start` tracks every unfinished task exactly when both tables
are recoverable. -/
private theorem enabled_noOrphan_iff (henabled : queue.enabled = true)
    (hs : ∀ kind, queue.supports kind = true)
    (hr : ∀ kind, (repository kind).recoverRaises = false)
    (hp : ∀ kind, (repository kind).pendingRaises = false) :
    NoOrphan (queue.start now (.restarted repository)) ↔
      ∀ kind, Recoverable queue.processingTimeout (now kind) (repository kind).table := by
  obtain ⟨hrepository, htracked⟩ := start_spec henabled hs hr hp
  constructor
  · intro h kind
    rw [← recoverable_iff]
    intro task htask hunfinished
    exact (htracked kind task.id).mp (h kind _ (hrepository kind) task htask hunfinished)
  · intro h kind found hfound task htask hunfinished
    obtain rfl := Option.some.inj ((hrepository kind).symm.trans hfound)
    exact (htracked kind task.id).mpr (recoverable_iff.mpr (h kind) task htask hunfinished)

/-- A disabled queue recovers nothing. -/
private theorem disabled_noOrphan_iff (hdisabled : queue.enabled = false) :
    NoOrphan (queue.start now (.restarted repository)) ↔
      ∀ kind, ∀ task ∈ (repository kind).table.rows, task.unfinished = false := by
  have hstart : queue.start now (.restarted repository) = .restarted repository := by
    simp [OfflineTaskQueue.start, hdisabled]
  rw [hstart]
  constructor
  · intro h kind task htask
    by_contra hunfinished
    have := h kind (repository kind) rfl task htask (by simpa using hunfinished)
    cases this
  · intro h kind found hfound task htask hunfinished
    obtain rfl := Option.some.inj hfound
    rw [h kind task htask] at hunfinished
    cases hunfinished

/-- After a restart without failing repository calls every unfinished task is tracked exactly
when the queue is enabled, or has nothing to do, and both tables are recoverable. -/
theorem start_noOrphan_iff (hs : ∀ kind, queue.supports kind = true)
    (hr : ∀ kind, (repository kind).recoverRaises = false)
    (hp : ∀ kind, (repository kind).pendingRaises = false) :
    NoOrphan (queue.start now (.restarted repository)) ↔
      (queue.enabled = true ∨
        ∀ kind, ∀ task ∈ (repository kind).table.rows, task.unfinished = false) ∧
      ∀ kind, Recoverable queue.processingTimeout (now kind) (repository kind).table := by
  cases henabled : queue.enabled with
  | true =>
    rw [enabled_noOrphan_iff henabled hs hr hp]
    simp
  | false =>
    rw [disabled_noOrphan_iff henabled]
    constructor
    · exact fun h => ⟨.inr h, fun kind => .of_finished (h kind)⟩
    · rintro ⟨h | h, -⟩
      · cases h
      · exact h

end Start

/-- The OFFLINE and the SPK table of a service that was killed while it processed its only
task: created at 0 s, and started at 1 s. -/
def killedTables : TaskKind → TaskRepository Nat
  | .offline =>
    let task : TaskRecord Nat := { id := 1, filename := "demo.wav", createdAt := 0 }
    let table := (TaskTable.empty.createTask task).getD .empty
    ⟨table.updateStatus 1 .processing 1000000, false, false⟩
  | .spk => ⟨.empty, false, false⟩

/-- The default configuration: a processing timeout of an hour. -/
def defaultQueue : OfflineTaskQueue where
  enabled := true
  maxConcurrent := 2
  processingTimeout := 3600
  hasTaskService := true
  hasSpkTaskService := true

/-- Restarted ten seconds later, the queue leaves the task to nobody. -/
theorem restart_orphans_task :
    ¬ ∀ (queue : OfflineTaskQueue) (now : TaskKind → Int)
      (repository : TaskKind → TaskRepository Nat),
      queue.enabled = true → (∀ kind, queue.supports kind = true) →
      (∀ kind, (repository kind).recoverRaises = false) →
      (∀ kind, (repository kind).pendingRaises = false) →
      NoOrphan (queue.start now (.restarted repository)) := by
  intro h
  have hkind : ∀ kind, (killedTables kind).recoverRaises = false ∧
      (killedTables kind).pendingRaises = false := by
    intro kind
    cases kind <;> exact ⟨rfl, rfl⟩
  have hfree := h defaultQueue (fun _ => 11000000) killedTables rfl
    (fun kind => by cases kind <;> rfl) (fun kind => (hkind kind).1) (fun kind => (hkind kind).2)
  have hrow := hfree .offline _ rfl _ (List.mem_cons_self ..) rfl
  cases hrow

/-- Restarted after the timeout, the queue takes the task up again. -/
theorem restart_recovers_task :
    NoOrphan (defaultQueue.start (fun _ => 3601000000) (.restarted killedTables)) := by
  refine (start_noOrphan_iff (fun kind => by cases kind <;> rfl) (fun kind => by cases kind <;> rfl)
    (fun kind => by cases kind <;> rfl)).mpr ⟨.inl rfl, fun kind => ?_⟩
  cases kind with
  | offline =>
    constructor
    · intro task htask _
      obtain rfl := List.mem_singleton.mp htask
      exact ⟨1000000, rfl, by decide⟩
    · decide
  | spk => exact ⟨fun task htask => absurd htask List.not_mem_nil, by decide⟩

end FunasrApi.Queue
