import FunasrApi.Core.PriorityQueue
import FunasrApi.Core.Transition
import FunasrApi.Queue.Registry

/-!
# The worker runtime of the task queue

`QueueWorkerRuntime` with its workers, and the immediate batch executions that
share its registry. Between two awaits a coroutine runs alone: a worker takes an
entry and registers it in one step, and the end of `process_task`, by return or
by exception, is one step with the `finally` block that follows it.
-/

namespace FunasrApi.Queue

open FunasrApi.Core

/-- An entry of the priority queue, the tuple `(priority, order, kind, task_id)`. -/
structure Entry (Id : Type*) where
  priority : Int
  order : Nat
  /-- `none` is the sentinel `"__stop__"`. -/
  task : Option (TaskKey Id)
  deriving DecidableEq, Repr

/-- `queue_priority_for`. -/
def queuePriorityFor (vip : Bool) : Int := if vip then 0 else 1

/-- The entry was put into the queue for a VIP task. -/
def Entry.isVip {Id : Type*} (entry : Entry Id) : Bool := entry.priority == queuePriorityFor true

/-- The order of the tuples. The running counter makes `order` unique, so that kind and id
are never compared. -/
abbrev Entry.le {Id : Type*} : Entry Id → Entry Id → Prop := StampLe Entry.priority Entry.order

/-- One worker task. -/
inductive Worker (Id : Type*)
  /-- `queue.get()`. -/
  | waiting
  /-- `process_task`, between `begin_queued` and `finish`. -/
  | processing (key : TaskKey Id)
  /-- The coroutine has returned, or it was cancelled. -/
  | exited
  deriving DecidableEq, Repr

/-- The key that a worker executes. -/
def Worker.key? {Id : Type*} : Worker Id → Option (TaskKey Id)
  | .processing key => some key
  | _ => none

/-- What happened to the queue. -/
inductive QueueEvent (Id : Type*)
  /-- `enqueue` put the entry into the queue. -/
  | accepted (entry : Entry Id)
  /-- A worker took the entry and starts to process it. -/
  | taken (entry : Entry Id)
  /-- `stop` replaced the queue by a new one. -/
  | cleared

/-- The runtime, the batch executions on its registry, and what happened to the queue. -/
structure QueueWorkerRuntime (Id : Type*) where
  queue : PriorityQueue (@Entry.le Id)
  registry : TaskExecutionRegistry Id
  workers : List (Worker Id)
  running : Bool
  /-- `stop` is waiting for the workers. -/
  stopping : Bool
  /-- `_counter`. -/
  counter : Nat
  /-- The keys in `ImmediateBatchProcessor._process_one`, after `try_begin_external`. -/
  batches : List (TaskKey Id)
  /-- Newest first. -/
  log : List (QueueEvent Id)

namespace QueueWorkerRuntime

variable {Id : Type*}

/-- A runtime with nothing queued and nobody at work: after `__init__`, where the counter
is 0, or after a complete `stop`. -/
def idle (counter : Nat) : QueueWorkerRuntime Id where
  queue := .empty
  registry := .clear
  workers := []
  running := false
  stopping := false
  counter := counter
  batches := []
  log := []

/-- The keys under execution, by a worker or by a batch. -/
def executing (s : QueueWorkerRuntime Id) : List (TaskKey Id) :=
  s.workers.filterMap Worker.key? ++ s.batches

/-- `start`. -/
def start (s : QueueWorkerRuntime Id) (workerCount : Nat) : QueueWorkerRuntime Id :=
  if s.running then s
  else
    { s with
      running := true
      workers := s.workers ++ List.replicate (max 1 workerCount) .waiting }

variable [DecidableEq Id]

/-- `enqueue`. -/
def enqueue (s : QueueWorkerRuntime Id) (kind : TaskKind) (taskId : Id) (vip : Bool) :
    QueueWorkerRuntime Id :=
  match s.registry.tryEnqueue (kind, taskId) with
  | none => s
  | some registry =>
    let entry : Entry Id := ⟨queuePriorityFor vip, s.counter, some (kind, taskId)⟩
    { s with
      queue := s.queue.put entry
      registry := registry
      counter := s.counter + 1
      log := .accepted entry :: s.log }

/-- A key that is not tracked is accepted: it is in the queued set and in the queue. -/
theorem enqueue_accepted {s : QueueWorkerRuntime Id} {kind : TaskKind} {taskId : Id}
    (h : s.registry.isTracked (kind, taskId) = false) (vip : Bool) :
    (kind, taskId) ∈ (s.enqueue kind taskId vip).registry.queued ∧
      ∃ entry ∈ (s.enqueue kind taskId vip).queue.items, entry.task = some (kind, taskId) := by
  unfold enqueue
  cases hr : s.registry.tryEnqueue (kind, taskId) with
  | none =>
    rw [TaskExecutionRegistry.tryEnqueue_none hr] at h
    cases h
  | some registry =>
    obtain ⟨-, -, hqueued, -⟩ := TaskExecutionRegistry.tryEnqueue_spec hr
    constructor
    · show (kind, taskId) ∈ registry.queued
      rw [hqueued]
      exact Finset.mem_insert_self ..
    · exact ⟨_, (s.queue.put_perm _).mem_iff.mpr (List.mem_cons_self ..), rfl⟩

/-- The worker at `index` gets the next entry. -/
def take (s : QueueWorkerRuntime Id) (index : Nat) : Option (QueueWorkerRuntime Id) :=
  match s.workers[index]?, s.queue.get? with
  | some .waiting, some (entry, queue) =>
    match entry.task with
    | none => some { s with queue := queue, workers := s.workers.set index .exited }
    | some key =>
      some
        { s with
          queue := queue
          registry := s.registry.beginQueued key
          workers := s.workers.set index (.processing key)
          log := .taken entry :: s.log }
  | _, _ => none

/-- `process_task` of the worker at `index` returns or raises. -/
def complete (s : QueueWorkerRuntime Id) (index : Nat) : Option (QueueWorkerRuntime Id) :=
  match s.workers[index]? with
  | some (.processing key) =>
    some
      { s with
        registry := s.registry.finish key
        workers := s.workers.set index .waiting }
  | _ => none

/-- `_process_one` once the lookup of the task has ended; `found` is false when the task
is unknown or the lookup raised. -/
def beginBatch (s : QueueWorkerRuntime Id) (taskId : Id) (found : Bool) :
    QueueWorkerRuntime Id :=
  if found then
    match s.registry.tryBeginExternal (.offline, taskId) with
    | none => s
    | some registry =>
      { s with registry := registry, batches := (.offline, taskId) :: s.batches }
  else s

/-- `_process_one` when `process_task` returns or raises. -/
def endBatch (s : QueueWorkerRuntime Id) (taskId : Id) : Option (QueueWorkerRuntime Id) :=
  if (.offline, taskId) ∈ s.batches then
    some
      { s with
        registry := s.registry.finish (.offline, taskId)
        batches := s.batches.erase (.offline, taskId) }
  else none

/-- `stop` up to its await: one sentinel for each worker. -/
def stop (s : QueueWorkerRuntime Id) : QueueWorkerRuntime Id :=
  if s.running = false ∧ s.workers = [] then s
  else
    let sentinel (q : PriorityQueue (@Entry.le Id)) (i : Nat) :=
      q.put ⟨-1, s.counter + i, none⟩
    { s with
      running := false
      stopping := true
      queue := (List.range s.workers.length).foldl sentinel s.queue
      counter := s.counter + s.workers.length }

/-- After the shutdown timeout the worker at `index` is cancelled: it ends, and what it was
processing is marked as finished. -/
def cancelWorker (s : QueueWorkerRuntime Id) (index : Nat) :
    Option (QueueWorkerRuntime Id) :=
  if s.stopping then
    match s.workers[index]? with
    | some .waiting => some { s with workers := s.workers.set index .exited }
    | some (.processing key) =>
      some
        { s with
          registry := s.registry.finish key
          workers := s.workers.set index .exited }
    | some .exited | none => none
  else none

/-- `stop` after its await. -/
def stopped (s : QueueWorkerRuntime Id) : Option (QueueWorkerRuntime Id) :=
  if s.stopping ∧ ∀ worker ∈ s.workers, worker = .exited then
    some
      { s with
        stopping := false
        workers := []
        queue := .empty
        registry := .clear
        log := .cleared :: s.log }
  else none

end QueueWorkerRuntime

/-- The steps of the callers, of the workers, and of the batch executions. -/
inductive QueueAction (Id : Type*)
  | start (workerCount : Nat)
  | enqueue (kind : TaskKind) (taskId : Id) (vip : Bool)
  | take (index : Nat)
  | complete (index : Nat)
  | beginBatch (taskId : Id) (found : Bool)
  | endBatch (taskId : Id)
  | stop
  | cancelWorker (index : Nat)
  | stopped
  deriving DecidableEq

variable {Id : Type*} [DecidableEq Id]

/-- One step of the runtime. -/
def step (s : QueueWorkerRuntime Id) : QueueAction Id → Option (QueueWorkerRuntime Id)
  | .start workerCount => some (s.start workerCount)
  | .enqueue kind taskId vip => some (s.enqueue kind taskId vip)
  | .take index => s.take index
  | .complete index => s.complete index
  | .beginBatch taskId found => some (s.beginBatch taskId found)
  | .endBatch taskId => s.endBatch taskId
  | .stop => some s.stop
  | .cancelWorker index => s.cancelWorker index
  | .stopped => s.stopped

/-- The runtime as a machine over every interleaving of its users. -/
def machine (Id : Type*) [DecidableEq Id] : Machine (QueueWorkerRuntime Id) (QueueAction Id) where
  step := step

end FunasrApi.Queue
