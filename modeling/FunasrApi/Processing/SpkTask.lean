import FunasrApi.Core.Effects
import FunasrApi.Repositories.SpeakerTasks

/-!
# Processing one SPK task

`SpkTaskService.process_task`. Which calls fail, and with which text, is part of the
service, so that a statement about all services covers every pattern of failures; a
repository call that raises has been rolled back. The row of the task may be deleted
by somebody else before any access to it. A run keeps its promise unless the row is
gone when the result is saved: what `save_result` returns is not looked at.
-/

namespace FunasrApi.Processing

open FunasrApi.Core FunasrApi.Repositories FunasrApi.Tasks

/-- `SpeakerResult`. -/
structure SpeakerResult (Segment Json : Type) where
  segments : List Segment
  speakerIds : List Json
  speakerCount : ℤ
  error : Option String
  metadata : Json

/-- `StoredFileResult`, as far as it is read here. -/
structure StoredAudio where
  s3Key : String
  fileSha256 : String

/-- The calls of `process_task` on the repository. -/
inductive SpkRepositoryAccess
  | getTask
  | updateStatus
  | saveResult
  | recordError

/-- What `process_task` changes. -/
structure SpkWorld (Id Json Duration : Type) where
  repository : SqlSpeakerTaskRepository Id Json Duration
  /-- The temp audio has been removed. -/
  cleaned : Bool
  /-- History: what `handle_complete` has archived in this run. -/
  archived : Option StoredAudio

/-- One run of `process_task` on a task, with the answers of what it calls: an error stands for
an exception with this text. The cleanup of the temp files ignores its errors. -/
structure SpkTaskService (Id Segment Json Duration : Type) where
  taskId : Id
  /-- `temp_file_store.resolve`. -/
  resolve : String → Except String String
  /-- `audio_path.exists()`. -/
  audioExists : String → Except String Bool
  /-- `speaker_service.diarize`, for the path of the audio and the name of the upload. -/
  diarize : String → String → Except String (Option (SpeakerResult Segment Json))
  /-- `postprocessor.handle_complete`, for the path, the name of the upload and the email; it
  leaves the local file alone here. -/
  handleComplete : String → String → Option String → Except String (Option StoredAudio)
  /-- `segment.to_dict()`. -/
  segmentToDict : Segment → Except String Json
  /-- `time.perf_counter() - start`. -/
  elapsed : Duration
  repositoryRaises : SpkRepositoryAccess → Option String
  /-- Somebody deletes the row just before the access. -/
  deletedBefore : SpkRepositoryAccess → Bool
  /-- The reading of the clock in an access. -/
  clock : SpkRepositoryAccess → ℤ

/-- A program of the run; an exception is its text. -/
abbrev SpkProgram (Id Json Duration : Type) := Effect (SpkWorld Id Json Duration) String

namespace SpkTaskService

variable {Id Segment Json Duration : Type} [DecidableEq Id]
  (service : SpkTaskService Id Segment Json Duration)

/-- The row is gone. -/
def deleteRow (w : SpkWorld Id Json Duration) : SpkWorld Id Json Duration :=
  { w with repository := w.repository.deleteRow service.taskId }

/-- One access to the repository, and what it returns. -/
def access {α : Type} (kind : SpkRepositoryAccess)
    (call : SqlSpeakerTaskRepository Id Json Duration →
      SqlSpeakerTaskRepository Id Json Duration × α) :
    SpkProgram Id Json Duration α := do
  if service.deletedBefore kind then Effect.modify service.deleteRow
  match service.repositoryRaises kind with
  | some error => throw error
  | none => do
    let w ← Effect.get
    Effect.modify fun w => { w with repository := (call w.repository).1 }
    pure (call w.repository).2

/-- `result is None or result.error`. The message of a missing result is looked up in it, so it
is that of the `AttributeError`. -/
def requireResult : Option (SpeakerResult Segment Json) →
    Except String (SpeakerResult Segment Json)
  | none => .error "'NoneType' object has no attribute 'error'"
  | some result =>
    match result.error with
    | none | some "" => .ok result
    | some error => .error error

/-- `SpeakerResult.to_dict`. -/
def toDict (result : SpeakerResult Segment Json) : Except String (SpeakerDict Json) := do
  let segments ← result.segments.mapM service.segmentToDict
  pure
    { segments := segments
      speakerIds := result.speakerIds
      speakerCount := result.speakerCount
      error := result.error
      metadata := result.metadata }

/-- The part of `process_task` whose exceptions are handled. -/
def attempt (task : SpkTask Id Json Duration) (audioPath : String) :
    SpkProgram Id Json Duration Unit := do
  -- `require_audio_file`
  if !(← Effect.ofExcept (service.audioExists audioPath)) then
    throw s!"音频文件不存在: {audioPath}"
  let _ ← service.access .updateStatus fun repository =>
    repository.updateStatus (service.clock .updateStatus) service.taskId .processing
  let answer ← Effect.ofExcept (service.diarize audioPath task.filename)
  let result ← Effect.ofExcept (requireResult answer)
  let stored ← Effect.ofExcept (service.handleComplete audioPath task.filename task.email)
  Effect.modify fun w => { w with archived := stored }
  let payload ← Effect.ofExcept (service.toDict result)
  let _ ← service.access .saveResult fun repository =>
    repository.saveResult (service.clock .saveResult) service.taskId payload service.elapsed
      (stored.map StoredAudio.s3Key) (stored.map StoredAudio.fileSha256)
  if stored.isSome then Effect.modify fun w => { w with cleaned := true }

/-- `process_task`. -/
def processTask : SpkProgram Id Json Duration Bool := do
  match ← service.access .getTask fun repository =>
      (repository, repository.getTask service.taskId) with
  | none => pure false
  | some task => do
    let audioPath ← Effect.ofExcept (service.resolve task.filename)
    tryCatch (do service.attempt task audioPath; pure true) fun error => do
      let _ ← service.access .recordError fun repository =>
        repository.recordError (service.clock .recordError) service.taskId error
      pure false

end SpkTaskService

end FunasrApi.Processing
