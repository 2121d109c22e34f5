import FunasrApi.Archive.AudioBackup
import FunasrApi.Core.Effects
import FunasrApi.Core.Transition

/-!
# Post-processing a completed upload

`FilePostProcessor.handle_complete` with the file index and the archive storage. The
audio of a completed task is hashed; a file with this hash that the index knows is used
again, any other one is archived in the configured store and recorded. The temp
directory and the archive do not overlap. The notification of the user has no effect
on either and is left out.
-/

namespace FunasrApi.Archive

open FunasrApi.Core

/-- `StoredFileResult`. -/
structure StoredFileResult where
  s3Key : Text
  storageBackend : Text
  bucketName : Option Text
  storedFilename : Text
  fileSha256 : String
  fileSize : Nat
  localPath : Option Text := none
  uploadStatus : String := "uploaded"
  isReused : Bool := false

/-- The columns of `s3_files` that `create` is given. -/
structure S3File where
  taskKey : Text
  taskType : Text
  storageBackend : Text
  s3Key : Text
  storedFilename : Text
  originalFilename : Text
  fileSha256 : String
  bucketName : Option Text
  fileSize : Nat
  localPath : Option Text
  uploadStatus : String
  isReused : Bool

/-- A row of the index. -/
structure IndexedFile where
  row : S3File
  /-- History: the address that the file was archived to. It is no column. -/
  address : Address

/-- The state that post-processing reads and changes. -/
structure ArchiveWorld where
  /-- `archive_storage.audio_backup_store`, as configured now. -/
  store : Option AudioBackupStore
  /-- There is a `file_index_repository`. -/
  indexing : Bool
  /-- The local files of uploads. -/
  temp : List (Text × Bytes)
  objects : Objects
  index : List IndexedFile

/-- No file has been archived, and no store is configured. -/
def ArchiveWorld.empty : ArchiveWorld where
  store := none
  indexing := false
  temp := []
  objects := []
  index := []

/-- The arguments of `handle_complete`, without the email address. -/
structure CompletedUpload where
  localPath : Text
  taskKey : Text
  filename : Text
  source : Text
  deleteLocalOnSuccess : Bool := true

/-- What happens around one call. -/
structure Circumstances where
  /-- What `uuid4` draws. -/
  uuid : Uuid
  /-- The lookup of the hash raises. -/
  findRaises : Bool := false
  /-- `backup_original` raises. -/
  backupRaises : Bool := false
  /-- What it has written then. -/
  incomplete : Option Bytes := none
  /-- `create` raises. -/
  createRaises : Bool := false

/-- Programs over the archive. -/
abbrev Archiving := Effect ArchiveWorld ArchiveError

namespace ArchiveWorld

variable (w : ArchiveWorld)

/-- The local file of an upload. -/
def localFile (path : Text) : Option Bytes :=
  (Keyed.lookup Prod.fst path w.temp).map Prod.snd

/-- `FileIndex.find`. -/
def find (raises : Bool) (fileSha256 : String) : Option IndexedFile :=
  if w.indexing && !raises then Keyed.lookup (·.row.fileSha256) fileSha256 w.index else none

/-- `FileIndex.record`; a hash that is there already is an `IntegrityError`. -/
def record (raises : Bool) (entry : IndexedFile) : ArchiveWorld :=
  if w.indexing && !raises && (Keyed.lookup (·.row.fileSha256) entry.row.fileSha256 w.index).isNone
  then { w with index := w.index ++ [entry] }
  else w

/-- A file is written to the archive. -/
def archive (address : Address) (content : Bytes) : ArchiveWorld :=
  { w with objects := w.objects.write address content }

/-- `TempFileCleaner.cleanup`. -/
def cleanup (path : Text) : ArchiveWorld :=
  { w with temp := w.temp.filter fun file => file.1 ≠ path }

end ArchiveWorld

/-- The result for a file that is archived already. -/
def StoredFileResult.reused (existing : S3File) (fileSha256 : String) (fileSize : Nat) :
    StoredFileResult where
  s3Key := existing.s3Key
  storageBackend := existing.storageBackend
  bucketName := existing.bucketName
  storedFilename := existing.storedFilename
  fileSha256 := fileSha256
  fileSize := fileSize
  localPath := existing.localPath
  uploadStatus := "reused"
  isReused := true

/-- What `FileIndex.record` gives to `create`. -/
def StoredFileResult.toRow (stored : StoredFileResult) (call : CompletedUpload) : S3File where
  taskKey := call.taskKey
  taskType := call.source
  storageBackend := stored.storageBackend
  s3Key := stored.s3Key
  storedFilename := stored.storedFilename
  originalFilename := call.filename
  fileSha256 := stored.fileSha256
  bucketName := stored.bucketName
  fileSize := stored.fileSize
  localPath := stored.localPath
  uploadStatus := stored.uploadStatus
  isReused := stored.isReused

/-- `store.backup_original`, with the address that it writes to. -/
def backupOriginal (env : Circumstances) (call : CompletedUpload) (content : Bytes)
    (store : AudioBackupStore) : Archiving (Text × Address) :=
  match store.backupOriginal env.uuid call.localPath call.taskKey call.filename with
  | none => throw .noKey
  | some (key, address) =>
    if env.backupRaises then do
      match env.incomplete with
      | none => throw .backupFailed
      | some incomplete => do
        Effect.modify fun w => w.archive address incomplete
        throw .backupFailed
    else do
      Effect.modify fun w => w.archive address content
      pure (key, address)

/-- `ArchiveStorage.store`, with the address of the new file. -/
def storeFile (env : Circumstances) (call : CompletedUpload) (content : Bytes)
    (fileSha256 : String) : Archiving (StoredFileResult × Address) := do
  match (← Effect.get).store with
  | none => throw .storageUnavailable
  | some store =>
    if store.enabled then do
      let (storedKey, address) ← backupOriginal env call content store
      if storedKey = [] then throw .noKey
      else do
        let localPath ← Effect.ofExcept (store.getLocalPath storedKey)
        pure
          ({ s3Key := storedKey
             storageBackend := store.name
             bucketName := store.bucket
             storedFilename := pathName storedKey
             fileSha256 := fileSha256
             fileSize := content.length
             localPath := localPath }, address)
    else throw .storageUnavailable

/-- `handle_complete`, for the hash function `sha256`. -/
def handleComplete (sha256 : Bytes → String) (env : Circumstances) (call : CompletedUpload) :
    Archiving (Option StoredFileResult) := do
  let w ← Effect.get
  match w.localFile call.localPath with
  | none => pure none
  | some content => do
    let fileSha256 := sha256 content
    let stored ←
      match w.find env.findRaises fileSha256 with
      | some existing => pure (.reused existing.row fileSha256 content.length)
      | none => do
        let (stored, address) ← storeFile env call content fileSha256
        Effect.modify fun w => w.record env.createRaises ⟨stored.toRow call, address⟩
        pure stored
    if call.deleteLocalOnSuccess then Effect.modify fun w => w.cleanup call.localPath
    pure (some stored)

/-- What changes the archive or is changed around it. -/
inductive ArchiveAction
  | configure (store : Option AudioBackupStore) (indexing : Bool)
  | upload (path : Text) (content : Bytes)
  | complete (env : Circumstances) (call : CompletedUpload)

/-- The archive over configurations, uploads and completed tasks. -/
def archiveMachine (sha256 : Bytes → String) : Machine ArchiveWorld ArchiveAction where
  step w
    | .configure store indexing => some { w with store := store, indexing := indexing }
    | .upload path content => some { w with temp := (path, content) :: w.temp }
    | .complete env call => some (handleComplete sha256 env call w).final

end FunasrApi.Archive
