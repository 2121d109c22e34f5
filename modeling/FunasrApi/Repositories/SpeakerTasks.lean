import FunasrApi.Core.Keyed
import FunasrApi.Tasks.Record

/-!
# The repository of SPK tasks

`SqlSpeakerTaskRepository` over the rows that `SpkTaskDAO` reads and writes. A call
reads the clock once. A call on a missing row changes nothing and returns `none`.
-/

namespace FunasrApi.Repositories

open FunasrApi.Core FunasrApi.Tasks

/-- The dictionary that `SpeakerResult.to_dict` returns. -/
structure SpeakerDict (Json : Type) where
  segments : List Json
  speakerIds : List Json
  speakerCount : ℤ
  error : Option String := none
  metadata : Json
  deriving DecidableEq

/-- A row of `spk_tasks`, with the columns that a run reads and writes. -/
structure SpkTask (Id Json Duration : Type) where
  id : Id
  filename : String
  email : Option String := none
  s3Key : Option String := none
  fileHash : Option String := none
  status : TaskStatus := .pending
  result : Option (SpeakerDict Json) := none
  segments : Option (List Json) := none
  speakerIds : Option (List Json) := none
  speakerCount : ℤ := 0
  processingTime : Option Duration := none
  errorMessage : Option String := none
  retryCount : ℕ := 0
  startedAt : Option ℤ := none
  completedAt : Option ℤ := none
  deriving DecidableEq

/-- `a or b` for texts that may be missing. -/
def orText : Option String → Option String → Option String
  | none, b => b
  | some "", b => b
  | some a, _ => some a

/-- `SqlSpeakerTaskRepository`: the rows of its table. -/
structure SqlSpeakerTaskRepository (Id Json Duration : Type) where
  rows : List (SpkTask Id Json Duration)

namespace SqlSpeakerTaskRepository

variable {Id Json Duration : Type} [DecidableEq Id]
  (repository : SqlSpeakerTaskRepository Id Json Duration) (now : ℤ)

/-- `get_task`. -/
def getTask (taskId : Id) : Option (SpkTask Id Json Duration) :=
  Keyed.lookup SpkTask.id taskId repository.rows

/-- Change the row with an id, if there is one, and return it. -/
def changeRow (taskId : Id) (f : SpkTask Id Json Duration → SpkTask Id Json Duration) :
    SqlSpeakerTaskRepository Id Json Duration × Option (SpkTask Id Json Duration) :=
  (⟨Keyed.change SpkTask.id taskId f repository.rows⟩, (repository.getTask taskId).map f)

/-- `SpkTaskDAO.update_status`. -/
def updateStatus (taskId : Id) (status : TaskStatus) :
    SqlSpeakerTaskRepository Id Json Duration × Option (SpkTask Id Json Duration) :=
  repository.changeRow taskId fun task =>
    { task with
      status := status
      startedAt := if status = .processing then some now else task.startedAt
      completedAt := if status = .completed then some now else task.completedAt }

/-- `SpkTaskDAO.update_result`. -/
def saveResult (taskId : Id) (result : SpeakerDict Json) (processingTime : Duration)
    (s3Key fileHash : Option String) :
    SqlSpeakerTaskRepository Id Json Duration × Option (SpkTask Id Json Duration) :=
  repository.changeRow taskId fun task =>
    { task with
      result := some result
      segments := some result.segments
      speakerIds := some result.speakerIds
      speakerCount := result.speakerCount
      processingTime := some processingTime
      s3Key := orText s3Key task.s3Key
      fileHash := orText fileHash task.fileHash
      status := .completed
      completedAt := some now }

/-- `SpkTaskDAO.update_error`; `retry` is only logged. -/
def recordError (taskId : Id) (errorMessage : String) :
    SqlSpeakerTaskRepository Id Json Duration × Option (SpkTask Id Json Duration) :=
  repository.changeRow taskId fun task =>
    { task with
      errorMessage := some errorMessage
      retryCount := task.retryCount + 1
      status := .failed
      completedAt := some now }

/-- The row is gone. -/
def deleteRow (taskId : Id) : SqlSpeakerTaskRepository Id Json Duration :=
  ⟨repository.rows.filter fun row => row.id ≠ taskId⟩

variable {repository}

/-- A changed row is found changed. -/
theorem getTask_changeRow {taskId : Id} {f : SpkTask Id Json Duration → SpkTask Id Json Duration}
    (hf : ∀ row, (f row).id = row.id) :
    (repository.changeRow taskId f).1.getTask taskId = (repository.getTask taskId).map f :=
  Keyed.lookup_change hf

/-- A deleted row is not found. -/
@[simp] theorem getTask_deleteRow {taskId : Id} :
    (repository.deleteRow taskId).getTask taskId = none := by
  rw [getTask, Keyed.lookup_eq_none_iff]
  intro hmem
  obtain ⟨row, hrow, hid⟩ := List.mem_map.mp hmem
  exact absurd hid (of_decide_eq_true (List.mem_filter.mp hrow).2)

end SqlSpeakerTaskRepository

end FunasrApi.Repositories
