import FunasrApi.Core.Effects
import FunasrApi.Repositories.TaskRepositories

/-!
# Processing one OFFLINE task

`OfflineTaskService.process_task` with the hooks of
`OfflineTaskResultHandler.from_services`. Which calls fail, and with which text, is
part of the service, so that a statement about all services covers every pattern of
failures; a repository call that raises has been rolled back. The row of the task
may be deleted by somebody else before any access to it.
-/

namespace FunasrApi.Processing

open FunasrApi.Core FunasrApi.Repositories

/-- The fields of `RecognitionResult` that processing reads. -/
structure RecognitionResult (Segment Duration : Type) where
  segments : List Segment
  fullText : Option String
  processingTime : Duration
  error : Option String

/-- `OfflineTaskContext`, with the one entry of its metadata that hooks find there at first. -/
structure OfflineTaskContext where
  filename : String
  audioPath : String
  email : Option String := none

/-- `StoredFileResult`, as far as the backup hook reads it. -/
structure StoredFile where
  s3Key : String
  fileSha256 : String

/-- `OfflinePersistencePayload`, without its summary for the log. -/
structure OfflinePersistencePayload (Json Duration : Type) where
  fullText : String
  segmentPayloads : List Json
  wordTimestamps : List Json
  processingTime : Duration

/-- The calls of `process_task` on the repository. -/
inductive RepositoryAccess
  | getTask
  | updateStatus
  | recordFileInfo
  | saveResult
  | recordError

/-- What `process_task` changes. -/
structure ProcessingWorld (Id Json Duration : Type) where
  repository : SqlTaskRepository Id Json Duration
  /-- `{task_id}.txt`. -/
  resultFile : Option String
  /-- `context.metadata["backup_key"]`. -/
  backupKey : Option String
  /-- The temp audio has been cleaned up. -/
  cleaned : Bool
  /-- History: the payload that this run has saved. -/
  saved : Option (OfflinePersistencePayload Json Duration)

/-- The world in which a run begins. -/
def ProcessingWorld.start {Id Json Duration : Type}
    (repository : SqlTaskRepository Id Json Duration) (resultFile : Option String) :
    ProcessingWorld Id Json Duration where
  repository := repository
  resultFile := resultFile
  backupKey := none
  cleaned := false
  saved := none

/-- One run of `process_task` on a task, with the answers of what it calls: an error stands for
an exception with this text. -/
structure OfflineTaskService (Id Segment Json Duration Hotwords : Type) where
  taskId : Id
  /-- The id in a text. -/
  showId : Id → String
  /-- `temp_file_store.resolve`. -/
  resolve : String → Except String String
  /-- `audio_path.exists()`. -/
  audioExists : String → Except String Bool
  /-- `_load_hotwords`. -/
  loadHotwords : TaskRecord Id Json Duration → Except String Hotwords
  /-- `recognition_service.recognize`. -/
  recognize : String → Hotwords → Except String (RecognitionResult Segment Duration)
  /-- `postprocessor.handle_complete`, which leaves the local file alone here. -/
  handleComplete : OfflineTaskContext → Except String (Option StoredFile)
  /-- `mkdir` and `write_text` of the result file. -/
  writeText : Except String Unit
  /-- `segment.to_dict()`. -/
  toDict : Segment → Except String Json
  /-- `segment.get("timestamp")`, if it is a list. -/
  timestamp : Json → Option (List Json)
  /-- `temp_file_store.cleanup`. -/
  cleanup : Except String Unit
  repositoryRaises : RepositoryAccess → Option String
  /-- Somebody deletes the row just before the access. -/
  deletedBefore : RepositoryAccess → Bool
  /-- The reading of the clock in an access. -/
  clock : RepositoryAccess → ℤ

/-- A program of the run; an exception is its text. -/
abbrev TaskProgram (Id Json Duration : Type) :=
  Effect (ProcessingWorld Id Json Duration) String

/-- A result hook of an OFFLINE task. -/
structure OfflineTaskResultHook (Id Segment Json Duration : Type) where
  critical : Bool := false
  onSuccess : OfflineTaskContext → RecognitionResult Segment Duration →
    TaskProgram Id Json Duration Unit
  onFailure : OfflineTaskContext → String → TaskProgram Id Json Duration Unit :=
    fun _ _ => pure ()

/-- `SequentialHookExecutor.run`. -/
def runHooks {Id Segment Json Duration : Type}
    (invoke : OfflineTaskResultHook Id Segment Json Duration → TaskProgram Id Json Duration Unit)
    (raiseCritical : Bool) :
    List (OfflineTaskResultHook Id Segment Json Duration) → TaskProgram Id Json Duration Unit
  | [] => pure ()
  | hook :: hooks => do
    tryCatch (invoke hook) fun error =>
      if hook.critical && raiseCritical then throw error else pure ()
    runHooks invoke raiseCritical hooks

namespace OfflineTaskService

variable {Id Segment Json Duration Hotwords : Type} [DecidableEq Id]
  (service : OfflineTaskService Id Segment Json Duration Hotwords)

/-- The row is gone. -/
def deleteRow (w : ProcessingWorld Id Json Duration) : ProcessingWorld Id Json Duration :=
  { w with repository := ⟨w.repository.rows.filter fun row => row.id ≠ service.taskId⟩ }

/-- One access to the repository, and what it returns. -/
def access (kind : RepositoryAccess)
    (call : SqlTaskRepository Id Json Duration →
      SqlTaskRepository Id Json Duration × Reply Id Json Duration) :
    TaskProgram Id Json Duration (Reply Id Json Duration) := do
  if service.deletedBefore kind then Effect.modify service.deleteRow
  match service.repositoryRaises kind with
  | some error => throw error
  | none => do
    let w ← Effect.get
    Effect.modify fun w => { w with repository := (call w.repository).1 }
    pure (call w.repository).2

/-- `extract_word_timestamps`. -/
def extractWordTimestamps (segmentPayloads : List Json) : List Json :=
  segmentPayloads.flatMap fun segment => (service.timestamp segment).getD []

/-- `build_offline_persistence_payload`. -/
def buildOfflinePersistencePayload (result : RecognitionResult Segment Duration) :
    Except String (OfflinePersistencePayload Json Duration) := do
  let segmentPayloads ← result.segments.mapM service.toDict
  pure
    { fullText := result.fullText.getD ""
      segmentPayloads := segmentPayloads
      wordTimestamps := service.extractWordTimestamps segmentPayloads
      processingTime := result.processingTime }

/-- `AudioBackupHook`. -/
def audioBackupHook : OfflineTaskResultHook Id Segment Json Duration where
  critical := true
  onSuccess context _ := do
    match ← Effect.ofExcept (service.handleComplete context) with
    | none => pure ()
    | some stored => do
      Effect.modify fun w => { w with backupKey := some stored.s3Key }
      let _ ← service.access .recordFileInfo fun repository =>
        repository.recordFileInfo service.taskId (some stored.s3Key) (some stored.fileSha256)

/-- `TextResultFileHook`. -/
def textResultFileHook : OfflineTaskResultHook Id Segment Json Duration where
  critical := true
  onSuccess _ result := do
    Effect.ofExcept service.writeText
    Effect.modify fun w => { w with resultFile := some (result.fullText.getD "") }

/-- `ResultPersistenceHook`. -/
def resultPersistenceHook : OfflineTaskResultHook Id Segment Json Duration where
  critical := true
  onSuccess _ result := do
    let payload ← Effect.ofExcept (service.buildOfflinePersistencePayload result)
    let saved ← service.access .saveResult fun repository =>
      repository.saveResult (service.clock .saveResult) service.taskId payload.fullText
        payload.segmentPayloads payload.processingTime (some payload.wordTimestamps)
    match saved with
    | .record (some _) => Effect.modify fun w => { w with saved := some payload }
    | .record none | .count _ | .integrityError =>
      throw s!"任务不存在，无法保存识别结果: {service.showId service.taskId}"
  onFailure _ errorMessage := do
    let _ ← service.access .recordError fun repository =>
      repository.recordError (service.clock .recordError) service.taskId errorMessage

/-- `TempCleanupHook`; it logs the exceptions of the cleanup. -/
def tempCleanupHook : OfflineTaskResultHook Id Segment Json Duration where
  onSuccess _ _ := do
    let w ← Effect.get
    match w.backupKey with
    | none | some "" => pure ()
    | some _ =>
      tryCatch (do
        Effect.modify fun w => { w with cleaned := true }
        Effect.ofExcept service.cleanup) fun _ => pure ()

/-- `OfflineTaskResultHandler.from_services`. -/
def hooks : List (OfflineTaskResultHook Id Segment Json Duration) :=
  [service.audioBackupHook, service.textResultFileHook, service.resultPersistenceHook,
    service.tempCleanupHook]

/-- `handle_success`. -/
def handleSuccess (context : OfflineTaskContext) (result : RecognitionResult Segment Duration) :
    TaskProgram Id Json Duration Unit :=
  runHooks (fun hook => hook.onSuccess context result) true service.hooks

/-- `handle_failure`. -/
def handleFailure (context : OfflineTaskContext) (errorMessage : String) :
    TaskProgram Id Json Duration Unit :=
  runHooks (fun hook => hook.onFailure context errorMessage) false service.hooks

/-- The part of `process_task` whose exceptions are handled. -/
def attempt (task : TaskRecord Id Json Duration) (audioPath : String) :
    TaskProgram Id Json Duration Unit := do
  let _ ← service.access .updateStatus fun repository =>
    repository.updateStatus (service.clock .updateStatus) service.taskId .processing
  -- `require_audio_file`
  if !(← Effect.ofExcept (service.audioExists audioPath)) then
    throw s!"音频文件不存在: {audioPath}"
  let hotwords ← Effect.ofExcept (service.loadHotwords task)
  let result ← Effect.ofExcept (service.recognize audioPath hotwords)
  match result.error with
  | none | some "" => service.handleSuccess ⟨task.filename, audioPath, task.email⟩ result
  | some error => throw error

/-- `process_task`. -/
def processTask : TaskProgram Id Json Duration Bool := do
  match ← service.access .getTask fun repository =>
      (repository, .record (repository.getTask service.taskId)) with
  | .record none | .count _ | .integrityError => pure false
  | .record (some task) => do
    let audioPath ← Effect.ofExcept (service.resolve task.filename)
    tryCatch (do service.attempt task audioPath; pure true) fun error => do
      service.handleFailure ⟨task.filename, audioPath, none⟩ error
      pure false

end OfflineTaskService

end FunasrApi.Processing
