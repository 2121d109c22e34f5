import Mathlib.Data.List.Sort

/-!
# Task records and their table

`TaskRecord` as the OFFLINE and SPK repositories store it, and the operations of
the two data access objects, which are the same for both kinds. The primary key
of a table is part of its type. Instants are whole microseconds.
-/

namespace FunasrApi.Tasks

/-- `status`. -/
inductive TaskStatus
  | pending
  | processing
  | completed
  | failed
  deriving DecidableEq, Repr

/-- A task row. The result columns are left out: nothing modelled here reads them. -/
structure TaskRecord (Id : Type*) where
  id : Id
  filename : String
  sourceTaskId : Option Id := none
  fileSize : Option Nat := none
  email : Option String := none
  hotwords : Option String := none
  hotwordId : Option Int := none
  vip : Bool := false
  s3Key : Option String := none
  fileHash : Option String := none
  status : TaskStatus := .pending
  createdAt : Int
  startedAt : Option Int := none
  completedAt : Option Int := none
  errorMessage : Option String := none
  retryCount : Nat := 0
  isDeleted : Bool := false

/-- The task still has to be processed. -/
def TaskRecord.unfinished {Id : Type*} (task : TaskRecord Id) : Bool :=
  task.status = .pending || task.status = .processing

/-- The row of a task that has failed. -/
def TaskRecord.withError {Id : Type*} (task : TaskRecord Id) (errorMessage : String) (now : Int) :
    TaskRecord Id :=
  { task with
    errorMessage := some errorMessage
    retryCount := task.retryCount + 1
    status := .failed
    completedAt := some now }

/-- A table of tasks, in an arbitrary order of its rows. -/
structure TaskTable (Id : Type*) where
  rows : List (TaskRecord Id)
  primaryKey : (rows.map TaskRecord.id).Nodup

namespace TaskTable

variable {Id : Type*}

/-- The table without rows. -/
def empty : TaskTable Id := ⟨[], List.nodup_nil⟩

/-- Change the rows that satisfy `p`, without touching their keys. -/
def modify (table : TaskTable Id) (p : TaskRecord Id → Bool) (f : TaskRecord Id → TaskRecord Id)
    (hf : ∀ task, (f task).id = task.id) : TaskTable Id where
  rows := table.rows.map fun task => if p task then f task else task
  primaryKey := by
    have hid : (TaskRecord.id ∘ fun task => if p task then f task else task) = TaskRecord.id := by
      funext task
      simp only [Function.comp_apply]
      split
      · exact hf task
      · rfl
    rw [List.map_map, hid]
    exact table.primaryKey

/-- Two rows with the same key are the same row. -/
theorem eq_of_id_eq (table : TaskTable Id) {task task' : TaskRecord Id} (h : task ∈ table.rows)
    (h' : task' ∈ table.rows) (hid : task.id = task'.id) : task = task' :=
  List.inj_on_of_nodup_map table.primaryKey h h' hid

/-- The rows that `recover_stale_processing` selects: `processing`, and started no later than
the cutoff. -/
def isStale (timeoutSeconds now : Int) (task : TaskRecord Id) : Bool :=
  task.status = .processing &&
    match task.startedAt with
    | none => false
    | some startedAt => startedAt ≤ now - max 0 timeoutSeconds * 1000000

/-- `recover_stale_processing`. -/
def recoverStaleProcessing (table : TaskTable Id) (timeoutSeconds now : Int) : TaskTable Id :=
  table.modify (isStale timeoutSeconds now) (fun task => { task with status := .pending })
    fun _ => rfl

/-- `ORDER BY vip DESC, created_at ASC`. -/
def pendingLe (a b : TaskRecord Id) : Prop :=
  b.vip < a.vip ∨ a.vip = b.vip ∧ a.createdAt ≤ b.createdAt

instance : DecidableRel (@pendingLe Id) := fun a b =>
  inferInstanceAs (Decidable (b.vip < a.vip ∨ a.vip = b.vip ∧ a.createdAt ≤ b.createdAt))

/-- `get_pending_tasks`. Rows that compare equal come in the order of the table. -/
def getPendingTasks (table : TaskTable Id) (limit : Nat) : List (TaskRecord Id) :=
  ((table.rows.filter fun task => task.status = .pending).insertionSort pendingLe).take limit

variable [DecidableEq Id]

/-- `get_by_id`. -/
def getTask (table : TaskTable Id) (taskId : Id) : Option (TaskRecord Id) :=
  table.rows.find? fun task => task.id = taskId

/-- What is found is a row with the key. -/
theorem getTask_mem {table : TaskTable Id} {taskId : Id} {task : TaskRecord Id}
    (h : table.getTask taskId = some task) : task ∈ table.rows ∧ task.id = taskId := by
  constructor
  · exact List.mem_of_find?_eq_some h
  · simpa using List.find?_some h

/-- `create`: a row whose key is taken violates the primary key. -/
def createTask (table : TaskTable Id) (task : TaskRecord Id) : Option (TaskTable Id) :=
  if h : task.id ∈ table.rows.map TaskRecord.id then none
  else
    some
      { rows := table.rows ++ [task]
        primaryKey := by
          rw [List.map_append, List.nodup_append]
          refine ⟨table.primaryKey, List.nodup_singleton _, fun a ha b hb => ?_⟩
          rw [List.mem_singleton.mp hb]
          rintro rfl
          exact h ha }

/-- A created row comes after the others. -/
theorem createTask_rows {table table' : TaskTable Id} {task : TaskRecord Id}
    (h : table.createTask task = some table') : table'.rows = table.rows ++ [task] := by
  unfold createTask at h
  split at h
  · cases h
  · obtain rfl := Option.some.inj h
    rfl

/-- `update_status`. -/
def updateStatus (table : TaskTable Id) (taskId : Id) (status : TaskStatus) (now : Int) :
    TaskTable Id :=
  table.modify (fun task => task.id = taskId)
    (fun task =>
      { task with
        status := status
        startedAt := if status = .processing then some now else task.startedAt
        completedAt := if status = .completed then some now else task.completedAt })
    fun _ => rfl

/-- `update_error`. -/
def updateError (table : TaskTable Id) (taskId : Id) (errorMessage : String) (now : Int) :
    TaskTable Id :=
  table.modify (fun task => task.id = taskId) (fun task => task.withError errorMessage now)
    fun _ => rfl

section Last

variable {table : TaskTable Id} {old : List (TaskRecord Id)} {task : TaskRecord Id}
  (hrows : table.rows = old ++ [task]) (hold : ∀ other ∈ old, other.id ≠ task.id)

include hrows hold

/-- The last row is found under its key. -/
theorem getTask_last : table.getTask task.id = some task := by
  have hnone : old.find? (fun other => other.id = task.id) = none :=
    List.find?_eq_none.mpr fun other ho => by simpa using hold other ho
  unfold getTask
  rw [hrows, List.find?_append, hnone]
  simp

/-- A change under the key of the last row leaves the other rows alone. -/
theorem modify_last (f : TaskRecord Id → TaskRecord Id) (hf : ∀ task, (f task).id = task.id) :
    (table.modify (fun other => other.id = task.id) f hf).rows = old ++ [f task] := by
  have hsame : ∀ other ∈ old,
      (if decide (other.id = task.id) = true then f other else other) = other := by
    intro other ho
    rw [if_neg]
    simpa using hold other ho
  show table.rows.map (fun other => if decide (other.id = task.id) = true then f other else other) =
    old ++ [f task]
  rw [hrows, List.map_append, List.map_congr_left hsame, List.map_id']
  simp

/-- An error of the last row leaves the other rows alone. -/
theorem updateError_last (errorMessage : String) (now : Int) :
    (table.updateError task.id errorMessage now).rows = old ++ [task.withError errorMessage now] :=
  modify_last hrows hold _ _

end Last

end TaskTable

end FunasrApi.Tasks
