import FunasrApi.Core.Effects
import FunasrApi.Queue.Workers
import FunasrApi.Tasks.Record

/-!
# Submitting and rerecognizing tasks

`TaskSubmissionService` over its four stores: the temp directories, the archive,
the two task tables and the queue. Which calls fail is part of the service, so
that a statement about all services covers every combination of failures. Every
call either takes its whole effect or none.
-/

namespace FunasrApi.Tasks

open FunasrApi.Core FunasrApi.Queue

/-- The exceptions of a submission, with the texts of the service's own. -/
inductive SubmissionError
  /-- `TaskSubmissionUnavailableError`. -/
  | unavailable (message : String)
  /-- `InvalidHotwordFormatError`. -/
  | invalidHotwords (message : String)
  /-- `RerecognitionSourceNotFoundError`. -/
  | sourceNotFound (message : String)
  /-- `RerecognitionValidationError`. -/
  | validation (message : String)
  /-- `RerecognitionConflictError`. -/
  | conflict (message : String)
  /-- `UploadTooLargeError`. -/
  | uploadTooLarge (message : String)
  /-- `ArchiveRestoreError`. -/
  | archiveRestore (message : String)
  /-- An exception of the file system, the archive or the hash. -/
  | storage
  /-- An exception of the repository. -/
  | repository
  deriving DecidableEq, Repr

/-- How `save_upload` fails, apart from the size limit. -/
inductive SaveError
  | valueError (message : String)
  | other

/-- The calls that fail. -/
structure Faults where
  getTaskRaises : Bool := false
  saveRaises : Option SaveError := none
  restoreRaises : Bool := false
  statRaises : Bool := false
  hashRaises : Bool := false
  createRaises : Bool := false
  enqueueRaises : Bool := false
  recordErrorRaises : Bool := false

/-- The stores that a submission changes. -/
structure SubmissionWorld (Id Audio : Type) where
  tables : TaskKind → TaskTable Id
  /-- The audio in the temp directory of a task, if there is such a directory. -/
  temp : Id → Option Audio
  runtime : QueueWorkerRuntime Id

/-- The service with what it only reads. -/
structure TaskSubmissionService (Id Audio : Type) where
  /-- `scheduler.can_accept`. -/
  canAccept : TaskKind → Bool
  maxFileSizeMb : Nat
  /-- `parse_hotwords`: the text of its error, if the value is malformed. -/
  parseHotwords : String → Option String
  /-- `audio_backup_store.restore_original`, if the store has it: the audio under a key. -/
  restoreOriginal : Option (String → Option Audio)
  /-- `stat().st_size`. -/
  size : Audio → Nat
  /-- `calculate_file_hash`. -/
  calculateFileHash : Audio → String
  /-- What `new_task_id` returns to this call. -/
  newTaskId : Id
  now : Int
  faults : Faults

/-- `UploadFile`. -/
structure Upload (Audio : Type) where
  filename : Option String
  content : Audio

/-- `build_submission_response`, without `file_size_mb`, a rounding of `file_size`. -/
structure SubmissionResponse (Id : Type) where
  taskId : Id
  filename : String
  fileSize : Nat
  email : Option String
  vip : Bool
  message : String
  sourceTaskId : Option Id := none
  hotwords : Option String := none
  hotwordId : Option Int := none

/-- Programs over the stores. -/
abbrev Submission (Id Audio α : Type) := Effect (SubmissionWorld Id Audio) SubmissionError α

/-- `mode.upper()`. -/
def modeUpper : TaskKind → String
  | .offline => "OFFLINE"
  | .spk => "SPK"

/-- The text of `TaskSubmissionUnavailableError`, here and in the queue. -/
def unavailableMessage (kind : TaskKind) : String :=
  modeUpper kind ++ " task scheduling is unavailable"

/-- What `record_error` stores for a task that could not be enqueued. -/
def compensationMessage : String := "Task submission failed before queue scheduling"

/-- `lower()` on one character, as far as ASCII is concerned: of the characters outside
ASCII only the Kelvin sign has a lower case inside, the others stay outside. -/
def lowerChar (c : Char) : Char := if c = '\u212a' then 'k' else c.toLower

/-- `text.lower()`, as far as ASCII is concerned. -/
def lower (text : String) : List Char := text.toList.map lowerChar

/-- `hmac.compare_digest` on strings, which raises for characters outside ASCII. -/
def compareDigest (a b : List Char) : Option Bool :=
  if a.all (·.val < 128) && b.all (·.val < 128) then some (a == b) else none

/-- Raise `error` when the condition holds. -/
def raiseIf {Id Audio : Type} (condition : Bool) (error : SubmissionError) :
    Submission Id Audio Unit :=
  if condition then throw error else pure ()

namespace TaskSubmissionService

variable {Id Audio : Type} [DecidableEq Id] (service : TaskSubmissionService Id Audio)

/-- The text of the size limit, in `save_upload` and after a restore. -/
def tooLargeMessage : String := "文件过大: 超过限制 " ++ toString service.maxFileSizeMb ++ " MB"

/-- `_max_file_size`. -/
def maxFileSize : Nat := service.maxFileSizeMb * 1024 * 1024

/-- `_require_scheduler`. -/
def requireScheduler (kind : TaskKind) : Submission Id Audio Unit :=
  raiseIf (!service.canAccept kind) (.unavailable (unavailableMessage kind))

/-- `temp_file_store.cleanup`. -/
def cleanup (taskId : Id) : Submission Id Audio Unit :=
  Effect.modify fun world => { world with temp := Function.update world.temp taskId none }

/-- Put the audio into the temp directory of the task. -/
def store (taskId : Id) (audio : Audio) : Submission Id Audio Unit :=
  Effect.modify fun world => { world with temp := Function.update world.temp taskId (some audio) }

/-- `temp_file_store.save_upload`, where a `ValueError` becomes an `UploadTooLargeError`. -/
def saveUpload (upload : Upload Audio) (taskId : Id) : Submission Id Audio Nat :=
  match service.faults.saveRaises with
  | some (.valueError message) => throw (.uploadTooLarge message)
  | some .other => throw .storage
  | none => do
    raiseIf (service.maxFileSize < service.size upload.content)
      (.uploadTooLarge service.tooLargeMessage)
    store taskId upload.content
    pure (service.size upload.content)

/-- `repository.create_task`. The column `filename` takes no null. -/
def createTask (kind : TaskKind) (filename : Option String) (task : String → TaskRecord Id) :
    Submission Id Audio Unit :=
  match service.faults.createRaises, filename with
  | true, _ | _, none => throw .repository
  | false, some filename => do
    let world ← Effect.get
    match (world.tables kind).createTask (task filename) with
    | none => throw .repository
    | some table =>
      Effect.modify fun world => { world with tables := Function.update world.tables kind table }

/-- `repository.record_error`: whether the task was found. -/
def recordError (kind : TaskKind) (taskId : Id) : Submission Id Audio Bool :=
  if service.faults.recordErrorRaises then throw .repository
  else do
    let world ← Effect.get
    match (world.tables kind).getTask taskId with
    | none => pure false
    | some _ => do
      let table := (world.tables kind).updateError taskId compensationMessage service.now
      Effect.modify fun world => { world with tables := Function.update world.tables kind table }
      pure true

/-- `scheduler.enqueue_offline` and `scheduler.enqueue_spk`. -/
def enqueue (kind : TaskKind) (taskId : Id) (vip : Bool) : Submission Id Audio Unit :=
  if service.faults.enqueueRaises then throw (.unavailable (unavailableMessage kind))
  else
    Effect.modify fun world =>
      { world with runtime := world.runtime.enqueue kind taskId vip }

/-- `_compensate_failed_submission`. Without a repository there is nothing to compensate:
the task was created through it. -/
def compensateFailedSubmission (kind : TaskKind) (taskId : Id) (taskCreated : Bool) :
    Submission Id Audio Unit := do
  let shouldCleanup ←
    if taskCreated then
      tryCatch (service.recordError kind taskId) fun _ => pure false
    else pure true
  if shouldCleanup then cleanup taskId else pure ()

/-- An exception of `x` is compensated and raised again; `taskCreated` is the value of
`task_created` while `x` runs. -/
def compensating (kind : TaskKind) (taskId : Id) (taskCreated : Bool) {α : Type}
    (x : Submission Id Audio α) : Submission Id Audio α :=
  tryCatch x fun error => do
    service.compensateFailedSubmission kind taskId taskCreated
    throw error

/-- `_submit_upload_task`. -/
def submitUploadTask (kind : TaskKind) (upload : Upload Audio) (email : Option String)
    (vip : Bool) (hotwords : Option String) (hotwordId : Option Int) (message : String) :
    Submission Id Audio (SubmissionResponse Id) := do
  let taskId := service.newTaskId
  let fileSize ← service.compensating kind taskId false do
    let fileSize ← service.saveUpload upload taskId
    service.createTask kind upload.filename fun filename =>
      { id := taskId, filename := filename, fileSize := some fileSize, email := email,
        hotwords := hotwords, hotwordId := hotwordId, vip := vip, createdAt := service.now }
    pure fileSize
  service.compensating kind taskId true (service.enqueue kind taskId vip)
  pure
    { taskId := taskId, filename := upload.filename.getD "", fileSize := fileSize, email := email,
      vip := vip, message := message, hotwords := hotwords, hotwordId := hotwordId }

/-- `submit_offline`. -/
def submitOffline (upload : Upload Audio) (email hotwords : Option String)
    (hotwordId : Option Int) (vip : Bool) : Submission Id Audio (SubmissionResponse Id) := do
  service.requireScheduler .offline
  match hotwords.bind service.parseHotwords with
  | some message => throw (.invalidHotwords message)
  | none =>
    service.submitUploadTask .offline upload email vip hotwords hotwordId "任务已加入队列，正在处理"

/-- `submit_speaker`. -/
def submitSpeaker (upload : Upload Audio) (email : Option String) (vip : Bool) :
    Submission Id Audio (SubmissionResponse Id) := do
  service.requireScheduler .spk
  service.submitUploadTask .spk upload email vip none none "SPK 任务已加入队列，正在处理"

/-- `repository.get_task`. -/
def getTask (kind : TaskKind) (taskId : Id) : Submission Id Audio (Option (TaskRecord Id)) :=
  if service.faults.getTaskRaises then throw .repository
  else do
    let world ← Effect.get
    pure ((world.tables kind).getTask taskId)

/-- `_validate_rerecognition_source`: the source task with its archive key. -/
def validateRerecognitionSource (source : Option (TaskRecord Id)) :
    Submission Id Audio (TaskRecord Id × String) :=
  match source with
  | none => throw (.sourceNotFound "来源任务不存在")
  | some task =>
    if task.isDeleted then throw (.sourceNotFound "来源任务不存在")
    else if task.status ≠ .completed ∧ task.status ≠ .failed then
      throw (.conflict "来源任务当前状态不可重识别")
    else
      match task.s3Key with
      | none | some "" => throw (.conflict "来源任务缺少归档文件信息")
      | some key => pure (task, key)

/-- The check of the restored file against the hash of the source task. -/
def verifyHash (source : TaskRecord Id) (fileHash : String) : Submission Id Audio Unit :=
  let expectedHash := source.fileHash.getD ""
  if expectedHash = "" then pure ()
  else
    match compareDigest (lower expectedHash) (lower fileHash) with
    | none => throw .storage
    | some false => throw (.archiveRestore "归档文件完整性校验失败")
    | some true => pure ()

/-- The part of `_restore_and_verify_audio` whose exceptions are handled. -/
def restoreAudio (restore : String → Option Audio) (source : TaskRecord Id) (archiveKey : String)
    (taskId : Id) : Submission Id Audio (Nat × String) :=
  match service.faults.restoreRaises, restore archiveKey with
  | true, _ | _, none => throw .storage
  | false, some audio => do
    store taskId audio
    raiseIf service.faults.statRaises .storage
    raiseIf (service.maxFileSize < service.size audio) (.uploadTooLarge service.tooLargeMessage)
    raiseIf service.faults.hashRaises .storage
    verifyHash source (service.calculateFileHash audio)
    pure (service.size audio, service.calculateFileHash audio)

/-- `_restore_and_verify_audio`. -/
def restoreAndVerifyAudio (source : TaskRecord Id) (archiveKey : String) (taskId : Id) :
    Submission Id Audio (Nat × String) :=
  match service.restoreOriginal with
  | none => throw (.archiveRestore "归档存储不支持文件恢复")
  | some restore =>
    tryCatch (service.restoreAudio restore source archiveKey taskId) fun error => do
      cleanup taskId
      match error with
      | .uploadTooLarge message => throw (.uploadTooLarge message)
      | .archiveRestore message => throw (.archiveRestore message)
      | _ => throw (.archiveRestore "归档文件恢复失败")

/-- `_submit_restored_task`. -/
def submitRestoredTask (kind : TaskKind) (source : TaskRecord Id) (archiveKey : String)
    (email : Option String) (vip : Bool) (hotwords : Option String) (hotwordId : Option Int)
    (message : String) : Submission Id Audio (SubmissionResponse Id) := do
  let taskId := service.newTaskId
  let (fileSize, fileHash) ← service.restoreAndVerifyAudio source archiveKey taskId
  service.compensating kind taskId false <|
    service.createTask kind (some source.filename) fun filename =>
      { id := taskId, filename := filename, sourceTaskId := some source.id,
        fileSize := some fileSize, email := email, hotwords := hotwords, hotwordId := hotwordId,
        vip := vip, s3Key := some archiveKey, fileHash := some fileHash,
        createdAt := service.now }
  service.compensating kind taskId true (service.enqueue kind taskId vip)
  pure
    { taskId := taskId, filename := source.filename, fileSize := fileSize, email := email,
      vip := vip, message := message, sourceTaskId := some source.id, hotwords := hotwords,
      hotwordId := hotwordId }

/-- `rerecognize_offline`. -/
def rerecognizeOffline (sourceTaskId : Id) (email : Option String) (vip : Option Bool)
    (hotwords : Option String) (hotwordId : Option Int) :
    Submission Id Audio (SubmissionResponse Id) := do
  service.requireScheduler .offline
  let found ← service.getTask .offline sourceTaskId
  let (source, archiveKey) ← validateRerecognitionSource found
  let submit := service.submitRestoredTask .offline source archiveKey (email <|> source.email)
    (vip.getD source.vip)
  let message := "OFFLINE 重识别任务已加入队列，正在处理"
  match hotwords, hotwordId with
  | some _, some _ => throw (.validation "hotwords 与 hotword_id 不能同时覆盖")
  | some hotwords, none =>
    match service.parseHotwords hotwords with
    | some error => throw (.invalidHotwords error)
    | none => submit (some hotwords) none message
  | none, some hotwordId => submit none (some hotwordId) message
  | none, none => submit source.hotwords source.hotwordId message

/-- `rerecognize_speaker`. -/
def rerecognizeSpeaker (sourceTaskId : Id) (email : Option String) (vip : Option Bool) :
    Submission Id Audio (SubmissionResponse Id) := do
  service.requireScheduler .spk
  let found ← service.getTask .spk sourceTaskId
  let (source, archiveKey) ← validateRerecognitionSource found
  service.submitRestoredTask .spk source archiveKey (email <|> source.email)
    (vip.getD source.vip) none none "SPK 重识别任务已加入队列，正在处理"

end TaskSubmissionService

/-- The four entry points with their arguments. -/
inductive SubmissionRequest (Id Audio : Type)
  | submitOffline (upload : Upload Audio) (email hotwords : Option String)
      (hotwordId : Option Int) (vip : Bool)
  | submitSpeaker (upload : Upload Audio) (email : Option String) (vip : Bool)
  | rerecognizeOffline (sourceTaskId : Id) (email : Option String) (vip : Option Bool)
      (hotwords : Option String) (hotwordId : Option Int)
  | rerecognizeSpeaker (sourceTaskId : Id) (email : Option String) (vip : Option Bool)

/-- The kind of the task that a request creates. -/
def SubmissionRequest.kind {Id Audio : Type} : SubmissionRequest Id Audio → TaskKind
  | .submitOffline .. | .rerecognizeOffline .. => .offline
  | .submitSpeaker .. | .rerecognizeSpeaker .. => .spk

/-- The service answers a request. -/
def TaskSubmissionService.run {Id Audio : Type} [DecidableEq Id]
    (service : TaskSubmissionService Id Audio) :
    SubmissionRequest Id Audio → Submission Id Audio (SubmissionResponse Id)
  | .submitOffline upload email hotwords hotwordId vip =>
    service.submitOffline upload email hotwords hotwordId vip
  | .submitSpeaker upload email vip => service.submitSpeaker upload email vip
  | .rerecognizeOffline sourceTaskId email vip hotwords hotwordId =>
    service.rerecognizeOffline sourceTaskId email vip hotwords hotwordId
  | .rerecognizeSpeaker sourceTaskId email vip =>
    service.rerecognizeSpeaker sourceTaskId email vip

end FunasrApi.Tasks
