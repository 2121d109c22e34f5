import FunasrApi.Repositories.TaskRepositories

/-!
# The rows that submissions and the queue read

Submissions, recovery and the queue read a table of tasks without its result
columns. A table stands for the rows of `SqlTaskRepository` when it has the same
rows but for these columns, and it keeps doing so: each call acts on the table as
the operation of the table does.
-/

namespace FunasrApi.Repositories

open FunasrApi.Core FunasrApi.Tasks

variable {Id Json Duration : Type} [DecidableEq Id]

/-- A row without its result columns. A size in bytes is not negative. -/
def OfflineTask.row (task : OfflineTask Id Json Duration) : Tasks.TaskRecord Id :=
  { id := task.id, filename := task.filename, sourceTaskId := task.sourceTaskId,
    fileSize := task.fileSize.map Int.toNat, email := task.email, hotwords := task.hotwords,
    hotwordId := task.hotwordId, vip := task.vip, s3Key := task.s3Key, fileHash := task.fileHash,
    status := task.status, createdAt := task.createdAt, startedAt := task.startedAt,
    completedAt := task.completedAt, errorMessage := task.errorMessage,
    retryCount := task.retryCount, isDeleted := task.isDeleted }

/-- The row of a new task. -/
def NewTask.row (task : NewTask Id) (now : ℤ) : Tasks.TaskRecord Id :=
  { id := task.taskId, filename := task.filename, sourceTaskId := task.sourceTaskId,
    fileSize := task.fileSize.map Int.toNat, email := task.email, hotwords := task.hotwords,
    hotwordId := task.hotwordId, vip := task.vip, s3Key := task.s3Key, fileHash := task.fileHash,
    createdAt := now }

namespace SqlTaskRepository

/-- The table has the rows of the repository, but for their result columns. -/
def StandsFor (table : TaskTable Id) (repository : SqlTaskRepository Id Json Duration) : Prop :=
  table.rows = repository.rows.map OfflineTask.row

namespace StandsFor

variable {table table' : TaskTable Id} {repository : SqlTaskRepository Id Json Duration} {now : ℤ}

/-- `get_by_id` finds the same row. -/
theorem getTask (h : StandsFor table repository) (taskId : Id) :
    table.getTask taskId = (repository.getById taskId).map OfflineTask.row := by
  show Keyed.lookup Tasks.TaskRecord.id taskId table.rows = _
  rw [h]
  exact Keyed.lookup_map fun _ => rfl

/-- A key is taken in both or in none. -/
private theorem createTask_eq_none_iff (h : StandsFor table repository) (task : NewTask Id) :
    table.createTask (task.row now) = none ↔
      (repository.getById task.taskId).isSome = true := by
  have hids : table.rows.map Tasks.TaskRecord.id = repository.rows.map OfflineTask.id := by
    rw [h, List.map_map]
    rfl
  have hfound : (repository.getById task.taskId).isSome = true ↔
      task.taskId ∈ repository.rows.map OfflineTask.id := by
    rw [Option.isSome_iff_ne_none, Ne, getById, Keyed.lookup_eq_none_iff, not_not]
  rw [hfound, ← hids]
  unfold TaskTable.createTask
  split
  · next htaken => exact ⟨fun _ => htaken, fun _ => rfl⟩
  · next hfree =>
    constructor
    · intro hnone
      cases hnone
    · exact fun htaken => absurd htaken hfree

/-- A taken key is refused by both, and leaves the repository as it was. -/
theorem createTask_none (h : StandsFor table repository) {task : NewTask Id}
    (hnone : table.createTask (task.row now) = none) :
    repository.createTask now task = (repository, .integrityError) := by
  unfold SqlTaskRepository.createTask
  rw [if_pos ((h.createTask_eq_none_iff task).mp hnone)]

/-- A created row comes after the others in both. -/
theorem createTask_some (h : StandsFor table repository) {task : NewTask Id}
    (hsome : table.createTask (task.row now) = some table') :
    StandsFor table' (repository.createTask now task).1 := by
  have hfree : ¬ (repository.getById task.taskId).isSome = true := by
    rw [← h.createTask_eq_none_iff task, hsome]
    exact Option.some_ne_none table'
  unfold SqlTaskRepository.createTask StandsFor
  rw [if_neg hfree, TaskTable.createTask_rows hsome, h]
  simp [OfflineTask.row, NewTask.row]

/-- A change of the row under a key. -/
private theorem changeRow (h : StandsFor table repository) (taskId : Id)
    {f : OfflineTask Id Json Duration → OfflineTask Id Json Duration}
    {g : Tasks.TaskRecord Id → Tasks.TaskRecord Id} (hg : ∀ row, (g row).id = row.id)
    (hfg : ∀ task, (f task).row = g task.row) :
    StandsFor (table.modify (fun row => row.id = taskId) g hg)
      (repository.changeRow taskId f).1 := by
  show table.rows.map (fun row => if decide (row.id = taskId) = true then g row else row) =
    (Keyed.change OfflineTask.id taskId f repository.rows).map OfflineTask.row
  rw [h, Keyed.change, List.map_map, List.map_map]
  refine List.map_congr_left fun task _ => ?_
  simp only [Function.comp_apply, decide_eq_true_eq, apply_ite OfflineTask.row, hfg]
  rfl

/-- `update_status`. -/
theorem updateStatus (h : StandsFor table repository) (taskId : Id) (status : TaskStatus) :
    StandsFor (table.updateStatus taskId status now)
      (repository.updateStatus now taskId status).1 :=
  h.changeRow taskId _ fun _ => rfl

/-- `update_error`. -/
theorem recordError (h : StandsFor table repository) (taskId : Id) (errorMessage : String) :
    StandsFor (table.updateError taskId errorMessage now)
      (repository.recordError now taskId errorMessage).1 :=
  h.changeRow taskId _ fun _ => rfl

/-- `update_result` is, without the result columns, the change of the status to `completed`. -/
theorem saveResult (h : StandsFor table repository) (taskId : Id) (fullText : String)
    (segments : List Json) (processingTime : Duration) (wordTimestamps : Option (List Json)) :
    StandsFor (table.updateStatus taskId .completed now)
      (repository.saveResult now taskId fullText segments processingTime wordTimestamps).1 :=
  h.changeRow taskId _ fun _ => rfl

omit [DecidableEq Id] in
/-- `recover_stale_processing`. -/
theorem recoverStaleProcessing (h : StandsFor table repository) (timeoutSeconds : ℤ) :
    StandsFor (table.recoverStaleProcessing timeoutSeconds now)
      (repository.recoverStaleProcessing now timeoutSeconds).1 := by
  show table.rows.map (fun row =>
      if TaskTable.isStale timeoutSeconds now row then { row with status := .pending } else row) =
    (repository.rows.map fun task =>
      if isStale now timeoutSeconds task then { task with status := .pending } else task).map
        OfflineTask.row
  rw [h, List.map_map, List.map_map]
  refine List.map_congr_left fun task _ => ?_
  simp only [Function.comp_apply, apply_ite OfflineTask.row]
  rfl

end StandsFor

omit [DecidableEq Id] in
/-- The clause of both orders rows alike. -/
private theorem pendingLe_row (a b : OfflineTask Id Json Duration) :
    TaskTable.pendingLe a.row b.row ↔ pendingLe a b := Iff.rfl

instance : DecidableRel (@pendingLe Id Json Duration) := fun a b =>
  inferInstanceAs (Decidable (TaskTable.pendingLe a.row b.row))

instance : Std.Total (@pendingLe Id Json Duration) where
  total a b := by
    unfold pendingLe
    cases a.vip <;> cases b.vip <;> simp <;> omega

instance : IsTrans _ (@pendingLe Id Json Duration) where
  trans a b c := by
    unfold pendingLe
    cases a.vip <;> cases b.vip <;> cases c.vip <;> simp <;> omega

omit [DecidableEq Id] in
/-- What the table gives as pending is one of the answers of the query of the repository. -/
theorem StandsFor.getPendingTasks {table : TaskTable Id}
    {repository : SqlTaskRepository Id Json Duration} (h : StandsFor table repository)
    (limit : ℕ) :
    ∃ ordered : List (OfflineTask Id Json Duration),
      repository.PendingTasks limit (ordered.map OfflineTask.toRecord) ∧
        table.getPendingTasks limit = ordered.map OfflineTask.row := by
  let pending := repository.rows.filter fun task => task.status = .pending
  refine ⟨(pending.insertionSort pendingLe).take limit,
    ⟨pending.insertionSort pendingLe, List.perm_insertionSort _ _,
      List.pairwise_insertionSort _ _, rfl⟩, ?_⟩
  have hrows : table.rows.filter (fun row => row.status = .pending) =
      pending.map OfflineTask.row := by
    rw [h, List.filter_map]
    rfl
  unfold TaskTable.getPendingTasks
  rw [hrows, ← List.map_insertionSort pendingLe TaskTable.pendingLe OfflineTask.row pending
    fun a _ b _ => (pendingLe_row a b).symm, List.map_take]

end SqlTaskRepository

end FunasrApi.Repositories
