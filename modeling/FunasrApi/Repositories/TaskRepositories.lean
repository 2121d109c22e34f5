import FunasrApi.Core.Keyed
import FunasrApi.Tasks.Record

/-!
# The two repositories of OFFLINE tasks

`MemoryTaskRepository` over its dictionary, and `SqlTaskRepository` over the table
that `OfflineTaskDAO` reads and writes, with all fields of a task. The mapper is
faithful: a session reads the rows that were committed last, and the columns with
a default are never null. A call reads the clock once. JSON values and processing
times are stored and returned, and nothing looks into them.
-/

namespace FunasrApi.Repositories

open FunasrApi.Core FunasrApi.Tasks

/-- `TaskRecord`, with its defaults. -/
structure TaskRecord (Id Json Duration : Type) where
  id : Id
  filename : String
  fileSize : Option ℤ := none
  status : TaskStatus := .pending
  fullText : Option String := none
  segments : Option (List Json) := none
  processingTime : Option Duration := none
  errorMessage : Option String := none
  createdAt : Option ℤ := none
  startedAt : Option ℤ := none
  completedAt : Option ℤ := none
  s3Key : Option String := none
  fileHash : Option String := none
  vip : Bool := false
  wordTimestamps : Option (List Json) := none
  retryCount : ℕ := 0
  maxRetries : ℕ := 3
  email : Option String := none
  hotwords : Option String := none
  hotwordId : Option ℤ := none
  isDeleted : Bool := false
  sourceTaskId : Option Id := none
  deriving DecidableEq

/-- The arguments of `create_task`. -/
structure NewTask (Id : Type) where
  taskId : Id
  filename : String
  fileSize : Option ℤ
  email : Option String := none
  hotwords : Option String := none
  hotwordId : Option ℤ := none
  vip : Bool := false
  sourceTaskId : Option Id := none
  s3Key : Option String := none
  fileHash : Option String := none

/-- The calls that change a repository. -/
inductive TaskCall (Id Json Duration : Type)
  | createTask (task : NewTask Id)
  | updateStatus (taskId : Id) (status : TaskStatus)
  | saveResult (taskId : Id) (fullText : String) (segments : List Json)
      (processingTime : Duration) (wordTimestamps : Option (List Json))
  | recordError (taskId : Id) (errorMessage : String) (retry : Bool)
  | recordFileInfo (taskId : Id) (s3Key fileHash : Option String)
  | recoverStaleProcessing (timeoutSeconds : ℤ)

/-- What a call returns. -/
inductive Reply (Id Json Duration : Type)
  | record (task : Option (TaskRecord Id Json Duration))
  | count (recovered : ℕ)
  /-- The key of a new row is taken. -/
  | integrityError
  deriving DecidableEq

variable {Id Json Duration : Type} [DecidableEq Id]

/-- The `cutoff` of `recover_stale_processing`, in microseconds. -/
def staleCutoff (timeoutSeconds now : ℤ) : ℤ := now - max 0 timeoutSeconds * 1000000

/-- `MemoryTaskRepository`: the values of its dictionary, in the order of insertion. -/
structure MemoryTaskRepository (Id Json Duration : Type) where
  tasks : List (TaskRecord Id Json Duration)

namespace MemoryTaskRepository

variable (repository : MemoryTaskRepository Id Json Duration) (now : ℤ)

/-- `get_task`. -/
def getTask (taskId : Id) : Option (TaskRecord Id Json Duration) :=
  Keyed.lookup TaskRecord.id taskId repository.tasks

/-- Change the task with an id, if there is one, and return it. -/
def changeTask (taskId : Id) (f : TaskRecord Id Json Duration → TaskRecord Id Json Duration) :
    MemoryTaskRepository Id Json Duration × Reply Id Json Duration :=
  (⟨Keyed.change TaskRecord.id taskId f repository.tasks⟩,
    .record ((repository.getTask taskId).map f))

/-- `create_task`. A taken key keeps its place in the dictionary. -/
def createTask (task : NewTask Id) :
    MemoryTaskRepository Id Json Duration × Reply Id Json Duration :=
  let record : TaskRecord Id Json Duration :=
    { id := task.taskId, filename := task.filename, sourceTaskId := task.sourceTaskId,
      fileSize := task.fileSize, email := task.email, hotwords := task.hotwords,
      hotwordId := task.hotwordId, vip := task.vip, s3Key := task.s3Key,
      fileHash := task.fileHash, createdAt := some now }
  if (repository.getTask task.taskId).isSome then
    (⟨Keyed.change TaskRecord.id task.taskId (fun _ => record) repository.tasks⟩,
      .record (some record))
  else (⟨repository.tasks ++ [record]⟩, .record (some record))

/-- `update_status`. -/
def updateStatus (taskId : Id) (status : TaskStatus) :
    MemoryTaskRepository Id Json Duration × Reply Id Json Duration :=
  repository.changeTask taskId fun task =>
    { task with
      status := status
      startedAt := if status = .processing then some now else task.startedAt
      completedAt := if status = .completed ∨ status = .failed then some now
        else task.completedAt }

/-- `save_result`. -/
def saveResult (taskId : Id) (fullText : String) (segments : List Json)
    (processingTime : Duration) (wordTimestamps : Option (List Json)) :
    MemoryTaskRepository Id Json Duration × Reply Id Json Duration :=
  repository.changeTask taskId fun task =>
    { task with
      fullText := some fullText
      segments := some segments
      wordTimestamps := wordTimestamps
      processingTime := some processingTime
      status := .completed
      completedAt := some now }

/-- `record_error`; it ignores `retry`. -/
def recordError (taskId : Id) (errorMessage : String) :
    MemoryTaskRepository Id Json Duration × Reply Id Json Duration :=
  repository.changeTask taskId fun task =>
    { task with
      errorMessage := some errorMessage
      retryCount := task.retryCount + 1
      status := .failed
      completedAt := some now }

/-- `record_file_info`. -/
def recordFileInfo (taskId : Id) (s3Key fileHash : Option String) :
    MemoryTaskRepository Id Json Duration × Reply Id Json Duration :=
  repository.changeTask taskId fun task =>
    { task with
      s3Key := s3Key <|> task.s3Key
      fileHash := fileHash <|> task.fileHash }

/-- The tasks that `recover_stale_processing` does not skip. -/
def isStale (timeoutSeconds : ℤ) (task : TaskRecord Id Json Duration) : Bool :=
  !(decide (task.status ≠ .processing) ||
    match task.startedAt with
    | none => true
    | some startedAt => decide (staleCutoff timeoutSeconds now < startedAt))

/-- `recover_stale_processing`. -/
def recoverStaleProcessing (timeoutSeconds : ℤ) :
    MemoryTaskRepository Id Json Duration × Reply Id Json Duration :=
  (⟨repository.tasks.map fun task =>
      if isStale now timeoutSeconds task then { task with status := .pending } else task⟩,
    .count (repository.tasks.countP (isStale now timeoutSeconds)))

/-- The sort key of `get_pending_tasks`: `not vip`, then the time of creation. -/
def pendingLe (a b : TaskRecord Id Json Duration) : Prop :=
  (!a.vip) < (!b.vip) ∨ a.vip = b.vip ∧ a.createdAt.getD now ≤ b.createdAt.getD now

instance : DecidableRel (@pendingLe Id Json Duration now) := fun a b =>
  inferInstanceAs (Decidable ((!a.vip) < (!b.vip) ∨
    a.vip = b.vip ∧ a.createdAt.getD now ≤ b.createdAt.getD now))

/-- `get_pending_tasks`; the sort is stable. -/
def getPendingTasks (limit : ℕ) : List (TaskRecord Id Json Duration) :=
  ((repository.tasks.filter fun task => task.status = .pending).insertionSort
    (pendingLe now)).take limit

/-- One call. -/
def call : TaskCall Id Json Duration →
    MemoryTaskRepository Id Json Duration × Reply Id Json Duration
  | .createTask task => repository.createTask now task
  | .updateStatus taskId status => repository.updateStatus now taskId status
  | .saveResult taskId fullText segments processingTime wordTimestamps =>
    repository.saveResult now taskId fullText segments processingTime wordTimestamps
  | .recordError taskId errorMessage _ => repository.recordError now taskId errorMessage
  | .recordFileInfo taskId s3Key fileHash => repository.recordFileInfo taskId s3Key fileHash
  | .recoverStaleProcessing timeoutSeconds => repository.recoverStaleProcessing now timeoutSeconds

end MemoryTaskRepository

/-- A row of `offline_tasks`, with the defaults of its columns. `handle_status` is left out. -/
structure OfflineTask (Id Json Duration : Type) where
  id : Id
  filename : String
  sourceTaskId : Option Id := none
  fileSize : Option ℤ := none
  s3Key : Option String := none
  fileHash : Option String := none
  vip : Bool := false
  status : TaskStatus := .pending
  isDeleted : Bool := false
  fullText : Option String := none
  segments : Option (List Json) := none
  wordTimestamps : Option (List Json) := none
  processingTime : Option Duration := none
  errorMessage : Option String := none
  retryCount : ℕ := 0
  maxRetries : ℕ := 3
  createdAt : ℤ
  startedAt : Option ℤ := none
  completedAt : Option ℤ := none
  email : Option String := none
  hotwords : Option String := none
  hotwordId : Option ℤ := none

/-- `_to_record`. -/
def OfflineTask.toRecord (task : OfflineTask Id Json Duration) : TaskRecord Id Json Duration :=
  { id := task.id, filename := task.filename, sourceTaskId := task.sourceTaskId,
    fileSize := task.fileSize, status := task.status, fullText := task.fullText,
    segments := task.segments, processingTime := task.processingTime,
    errorMessage := task.errorMessage, createdAt := some task.createdAt,
    startedAt := task.startedAt, completedAt := task.completedAt, s3Key := task.s3Key,
    fileHash := task.fileHash, vip := task.vip, isDeleted := task.isDeleted,
    wordTimestamps := task.wordTimestamps, retryCount := task.retryCount,
    maxRetries := if task.maxRetries = 0 then 3 else task.maxRetries, email := task.email,
    hotwords := task.hotwords, hotwordId := task.hotwordId }

/-- `SqlTaskRepository`: the rows of its table. -/
structure SqlTaskRepository (Id Json Duration : Type) where
  rows : List (OfflineTask Id Json Duration)

namespace SqlTaskRepository

variable (repository : SqlTaskRepository Id Json Duration) (now : ℤ)

/-- `OfflineTaskDAO.get_by_id`. -/
def getById (taskId : Id) : Option (OfflineTask Id Json Duration) :=
  Keyed.lookup OfflineTask.id taskId repository.rows

/-- `get_task`. -/
def getTask (taskId : Id) : Option (TaskRecord Id Json Duration) :=
  (repository.getById taskId).map OfflineTask.toRecord

/-- Change the row with an id, if there is one, and return its record. -/
def changeRow (taskId : Id) (f : OfflineTask Id Json Duration → OfflineTask Id Json Duration) :
    SqlTaskRepository Id Json Duration × Reply Id Json Duration :=
  (⟨Keyed.change OfflineTask.id taskId f repository.rows⟩,
    .record ((repository.getById taskId).map fun task => (f task).toRecord))

/-- `OfflineTaskDAO.create`; the key of a row is unique. -/
def createTask (task : NewTask Id) : SqlTaskRepository Id Json Duration × Reply Id Json Duration :=
  let row : OfflineTask Id Json Duration :=
    { id := task.taskId, filename := task.filename, sourceTaskId := task.sourceTaskId,
      fileSize := task.fileSize, email := task.email, hotwords := task.hotwords,
      hotwordId := task.hotwordId, vip := task.vip, s3Key := task.s3Key,
      fileHash := task.fileHash, status := .pending, createdAt := now }
  if (repository.getById task.taskId).isSome then (repository, .integrityError)
  else (⟨repository.rows ++ [row]⟩, .record (some row.toRecord))

/-- `OfflineTaskDAO.update_status`. -/
def updateStatus (taskId : Id) (status : TaskStatus) :
    SqlTaskRepository Id Json Duration × Reply Id Json Duration :=
  repository.changeRow taskId fun task =>
    { task with
      status := status
      startedAt := if status = .processing then some now else task.startedAt
      completedAt := if status = .completed then some now else task.completedAt }

/-- `OfflineTaskDAO.update_result`. -/
def saveResult (taskId : Id) (fullText : String) (segments : List Json)
    (processingTime : Duration) (wordTimestamps : Option (List Json)) :
    SqlTaskRepository Id Json Duration × Reply Id Json Duration :=
  repository.changeRow taskId fun task =>
    { task with
      fullText := some fullText
      segments := some segments
      wordTimestamps := wordTimestamps
      processingTime := some processingTime
      status := .completed
      completedAt := some now }

/-- `OfflineTaskDAO.update_error`; `retry` is only logged. -/
def recordError (taskId : Id) (errorMessage : String) :
    SqlTaskRepository Id Json Duration × Reply Id Json Duration :=
  repository.changeRow taskId fun task =>
    { task with
      errorMessage := some errorMessage
      retryCount := task.retryCount + 1
      status := .failed
      completedAt := some now }

/-- `OfflineTaskDAO.update_file_info`. -/
def recordFileInfo (taskId : Id) (s3Key fileHash : Option String) :
    SqlTaskRepository Id Json Duration × Reply Id Json Duration :=
  repository.changeRow taskId fun task =>
    { task with
      s3Key := s3Key <|> task.s3Key
      fileHash := fileHash <|> task.fileHash }

/-- The rows that `OfflineTaskDAO.recover_stale_processing` selects. -/
def isStale (timeoutSeconds : ℤ) (task : OfflineTask Id Json Duration) : Bool :=
  decide (task.status = .processing) &&
    match task.startedAt with
    | none => false
    | some startedAt => decide (startedAt ≤ staleCutoff timeoutSeconds now)

/-- `OfflineTaskDAO.recover_stale_processing`. -/
def recoverStaleProcessing (timeoutSeconds : ℤ) :
    SqlTaskRepository Id Json Duration × Reply Id Json Duration :=
  (⟨repository.rows.map fun task =>
      if isStale now timeoutSeconds task then { task with status := .pending } else task⟩,
    .count (repository.rows.filter (isStale now timeoutSeconds)).length)

/-- `ORDER BY vip DESC, created_at ASC`. -/
def pendingLe (a b : OfflineTask Id Json Duration) : Prop :=
  b.vip < a.vip ∨ a.vip = b.vip ∧ a.createdAt ≤ b.createdAt

/-- An answer of the query of `get_pending_tasks`: the first rows of some order that the clause
allows. The database chooses one when rows compare equal. -/
def PendingTasks (limit : ℕ) (answer : List (TaskRecord Id Json Duration)) : Prop :=
  ∃ ordered : List (OfflineTask Id Json Duration),
    ordered.Perm (repository.rows.filter fun task => task.status = .pending) ∧
      ordered.Pairwise pendingLe ∧ answer = (ordered.take limit).map OfflineTask.toRecord

/-- One call. -/
def call : TaskCall Id Json Duration → SqlTaskRepository Id Json Duration × Reply Id Json Duration
  | .createTask task => repository.createTask now task
  | .updateStatus taskId status => repository.updateStatus now taskId status
  | .saveResult taskId fullText segments processingTime wordTimestamps =>
    repository.saveResult now taskId fullText segments processingTime wordTimestamps
  | .recordError taskId errorMessage _ => repository.recordError now taskId errorMessage
  | .recordFileInfo taskId s3Key fileHash => repository.recordFileInfo taskId s3Key fileHash
  | .recoverStaleProcessing timeoutSeconds => repository.recoverStaleProcessing now timeoutSeconds

end SqlTaskRepository

end FunasrApi.Repositories
