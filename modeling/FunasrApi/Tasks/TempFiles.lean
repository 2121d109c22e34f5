import FunasrApi.Core.PurePath

/-!
# The temp directories of the tasks

`LocalTempFileStore` over what it asks of the file system. An upload is saved under
the name of its file name, and the worker finds it again through the file name that
the task has stored. Only the upload has another name for no name at all.
-/

namespace FunasrApi.Tasks

open FunasrApi.Core

/-- What a temp file store asks of a file system in some state: an answer is the state after the
call, or the text of the exception. -/
structure FileSystem (σ : Type*) where
  isDir : σ → Path → Bool
  /-- `path.mkdir(parents=True, exist_ok=True)`. -/
  mkdir : σ → Path → Except Text σ
  /-- `path.open("wb")`. -/
  openForWriting : σ → Path → Except Text σ
  /-- `target.write` to the file that has been opened. -/
  write : σ → Path → List UInt8 → Except Text σ
  /-- `path.unlink` and then `directory.rmdir`, as far as they succeed. -/
  removePartial : σ → Path → Path → σ
  mkdir_isDir : ∀ s path s', mkdir s path = .ok s' → isDir s' path = true
  isDir_up : ∀ s path, isDir s path = true → isDir s (path.child ['.', '.']) = true
  open_not_isDir : ∀ s path s', openForWriting s path = .ok s' → isDir s path = false

/-- `UploadFile`: its name, and what the calls of `read` give, as far as they are made. -/
structure UploadFile where
  filename : Text
  reads : List (Except Text (List UInt8))

/-- The exceptions of `save_upload`. -/
inductive SaveUploadError
  /-- The `ValueError` of the size limit. -/
  | tooLarge (maxSize : ℕ)
  /-- An exception of the file system or the upload. -/
  | other (message : Text)
  deriving DecidableEq

/-- `LocalTempFileStore`. -/
structure LocalTempFileStore where
  root : Path

/-- The task as `load_task_file_ref` finds it: `TaskFileRef`. -/
structure TaskFileRef where
  taskId : Text
  filename : Text
  audioPath : Path
  deriving DecidableEq

namespace LocalTempFileStore

variable (store : LocalTempFileStore)

/-- The directory of a task. -/
def taskDir (taskId : Text) : Path := store.root.child taskId

/-- `resolve`. -/
def resolve (taskId filename : Text) : Path := (store.taskDir taskId).child (pathName filename)

/-- The `filename` of `save_upload`. -/
def uploadName (upload : UploadFile) : Text :=
  pathName (if upload.filename = [] then "audio".toList else upload.filename)

/-- `load_task_file_ref`, for the file name in the row of the task. -/
def loadTaskFileRef (taskId : Text) : Option Text → Option TaskFileRef
  | none => none
  | some filename => some ⟨taskId, filename, store.resolve taskId filename⟩

/-- The file name that `_submit_upload_task` stores in the row of the task. -/
def storedFilename (upload : UploadFile) : Text := upload.filename

section Saving

variable {σ : Type*} (fs : FileSystem σ)

/-- The loop of `save_upload` over what it reads, with `file_size`. -/
def saveChunks (path taskDir : Path) (maxSize : ℕ) :
    List (Except Text (List UInt8)) → ℕ → σ → Except SaveUploadError ℕ × σ
  | [], fileSize, s => (.ok fileSize, s)
  | .error message :: _, _, s => (.error (.other message), s)
  | .ok chunk :: rest, fileSize, s =>
    if chunk = [] then (.ok fileSize, s)
    else if fileSize + chunk.length > maxSize then
      (.error (.tooLarge maxSize), fs.removePartial s path taskDir)
    else
      match fs.write s path chunk with
      | .error message => (.error (.other message), s)
      | .ok s' => saveChunks path taskDir maxSize rest (fileSize + chunk.length) s'

/-- `save_upload`. -/
def saveUpload (upload : UploadFile) (taskId : Text) (maxSize : ℕ) (s : σ) :
    Except SaveUploadError (Path × ℕ) × σ :=
  let taskDir := store.taskDir taskId
  match fs.mkdir s taskDir with
  | .error message => (.error (.other message), s)
  | .ok s =>
    let filePath := taskDir.child (uploadName upload)
    match fs.openForWriting s filePath with
    | .error message => (.error (.other message), s)
    | .ok s =>
      let (answer, s) := saveChunks fs filePath taskDir maxSize upload.reads 0 s
      (answer.map fun fileSize => (filePath, fileSize), s)

end Saving

end LocalTempFileStore

/-- A path is that of a file right in a directory. -/
structure DirectlyIn (directory path : Path) : Prop where
  parent : path.parent = directory
  name : path.name ≠ [] ∧ path.name ≠ ['.'] ∧ path.name ≠ ['.', '.']

instance (directory path : Path) : Decidable (DirectlyIn directory path) :=
  decidable_of_iff (path.parent = directory ∧
      path.name ≠ [] ∧ path.name ≠ ['.'] ∧ path.name ≠ ['.', '.'])
    ⟨fun h => ⟨h.1, h.2⟩, fun h => ⟨h.parent, h.name⟩⟩

namespace LocalTempFileStore

variable {store : LocalTempFileStore}

/-- The component of the path that a file name adds to the directory of its task. -/
theorem child_pathName (directory : Path) (filename : Text) :
    directory.child (pathName filename) =
      if pathName filename = [] then directory
      else ⟨directory.anchor, directory.parts ++ [pathName filename]⟩ := by
  have hdot := pathName_ne_dot filename
  rw [Path.child_of_not_mem (slash_not_mem_pathName filename)]
  simp [hdot]

/-- A saved upload lies right in the directory of its task, under its name. -/
theorem saveUpload_path {σ : Type*} {fs : FileSystem σ} {upload : UploadFile} {taskId : Text}
    {maxSize : ℕ} {s : σ} {path : Path} {fileSize : ℕ}
    (h : (store.saveUpload fs upload taskId maxSize s).1 = .ok (path, fileSize)) :
    path = (store.taskDir taskId).child (uploadName upload) ∧
      DirectlyIn (store.taskDir taskId) path := by
  unfold saveUpload at h
  dsimp only at h
  cases hmkdir : fs.mkdir s (store.taskDir taskId) with
  | error message =>
    rw [hmkdir] at h
    cases h
  | ok made =>
    have hdir := fs.mkdir_isDir _ _ _ hmkdir
    simp only [hmkdir] at h
    cases hopen : fs.openForWriting made ((store.taskDir taskId).child (uploadName upload)) with
    | error message =>
      rw [hopen] at h
      cases h
    | ok opened =>
      have hfile := fs.open_not_isDir _ _ _ hopen
      simp only [hopen] at h
      generalize saveChunks fs _ _ _ _ _ _ = saved at h
      obtain ⟨answer, last⟩ := saved
      cases answer with
      | error e => cases h
      | ok size =>
        obtain ⟨rfl, -⟩ := Prod.mk.inj (Except.ok.inj h)
        refine ⟨rfl, ?_⟩
        have hchild := child_pathName (store.taskDir taskId)
          (if upload.filename = [] then "audio".toList else upload.filename)
        -- neither the directory itself nor the one above it can be opened for writing
        by_cases hnil : uploadName upload = []
        · rw [uploadName] at hnil hfile
          rw [hchild, if_pos hnil, hdir] at hfile
          cases hfile
        · have hup : uploadName upload ≠ ['.', '.'] := by
            intro hup
            rw [hup, fs.isDir_up _ _ hdir] at hfile
            cases hfile
          rw [uploadName] at hnil hup
          rw [uploadName, hchild, if_neg hnil]
          refine ⟨by simp [Path.parent], ?_⟩
          simp only [Path.name, List.getLast?_concat, Option.getD_some]
          exact ⟨hnil, pathName_ne_dot _, hup⟩

/-- The stored file name leads to the path, right in the directory of the task, and so does what
the worker loads. -/
structure FindsUpload (store : LocalTempFileStore) (taskId filename : Text) (path : Path) :
    Prop where
  resolves : store.resolve taskId filename = path
  inside : DirectlyIn (store.taskDir taskId) path
  worker : (store.loadTaskFileRef taskId (some filename)).map TaskFileRef.audioPath = some path

/-- Without a file name the stored one leads to the directory of the task. -/
theorem resolve_nil (taskId : Text) : store.resolve taskId [] = store.taskDir taskId :=
  child_pathName (store.taskDir taskId) []

/-- A saved upload is found again exactly when it has a file name. -/
theorem saveUpload_found_iff {σ : Type*} (fs : FileSystem σ) (store : LocalTempFileStore)
    (upload : UploadFile) (taskId : Text) (maxSize : ℕ) (s : σ) (path : Path) (fileSize : ℕ)
    (h : (store.saveUpload fs upload taskId maxSize s).1 = .ok (path, fileSize)) :
    FindsUpload store taskId (storedFilename upload) path ↔ upload.filename ≠ [] := by
  obtain ⟨hpath, hin⟩ := saveUpload_path h
  constructor
  · intro hfinds hnil
    have hresolves := hfinds.resolves
    rw [storedFilename, hnil, resolve_nil, hpath, uploadName, if_pos hnil,
      child_pathName] at hresolves
    have hlength := congrArg (fun p : Path => p.parts.length) hresolves
    have haudio : pathName "audio".toList = "audio".toList := by decide
    rw [haudio] at hlength
    simp at hlength
  · intro hne
    have hresolves : store.resolve taskId (storedFilename upload) = path := by
      rw [hpath, uploadName, if_neg hne]
      rfl
    exact ⟨hresolves, hin, congrArg some hresolves⟩

end LocalTempFileStore

/-- The directories of a file system without links, as seen from its root, by their names. -/
abbrev Directories := List (List Text)

/-- A directory that has been made, or one on the way to it. -/
def Directories.has (directories : Directories) (path : Path) : Bool :=
  directories.any fun made => (resolvePath path.parts).isPrefixOf made

/-- Files that take every write, in directories without links. -/
def plainFiles : FileSystem Directories where
  isDir := Directories.has
  mkdir directories path := .ok (resolvePath path.parts :: directories)
  openForWriting directories path :=
    if directories.has path then .error "Is a directory".toList else .ok directories
  write directories _ _ := .ok directories
  removePartial directories _ _ := directories
  mkdir_isDir directories path made h := by
    obtain rfl := Except.ok.inj h
    simp [Directories.has]
  isDir_up directories path h := by
    obtain ⟨made, hmade, hprefix⟩ := List.any_eq_true.mp h
    refine List.any_eq_true.mpr ⟨made, hmade, ?_⟩
    have hup : (path.child ['.', '.']).parts = path.parts ++ [['.', '.']] := by
      rw [Path.child_of_not_mem (by decide)]
      rfl
    rw [hup, resolvePath, List.foldl_append]
    exact List.isPrefixOf_iff_prefix.mpr
      ((List.dropLast_prefix _).trans (List.isPrefixOf_iff_prefix.mp hprefix))
  open_not_isDir directories path opened h := by
    split at h
    · cases h
    · next hfile => exact Bool.eq_false_iff.mpr hfile

/-- A path-like file name leads back to the upload. -/
theorem pathLikeUpload_found :
    LocalTempFileStore.FindsUpload ⟨.ofText "data/temp".toList⟩ "t".toList
      (LocalTempFileStore.storedFilename ⟨"../../a.wav".toList, [.ok [1, 2]]⟩)
      (.ofText "data/temp/t/a.wav".toList) :=
  (LocalTempFileStore.saveUpload_found_iff plainFiles ⟨.ofText "data/temp".toList⟩
    ⟨"../../a.wav".toList, [.ok [1, 2]]⟩ "t".toList 10 [] (.ofText "data/temp/t/a.wav".toList) 2
    (by decide +kernel)).mpr (by decide)

/-- An upload without a file name is saved as `audio`, and the directory is opened for it. -/
theorem namelessUpload_lost :
    let store : LocalTempFileStore := ⟨.ofText "data/temp".toList⟩
    let upload : UploadFile := ⟨[], [.ok [1, 2]]⟩
    (store.saveUpload plainFiles upload "t".toList 10 []).1 =
        .ok (.ofText "data/temp/t/audio".toList, 2) ∧
      store.resolve "t".toList (LocalTempFileStore.storedFilename upload) =
        .ofText "data/temp/t".toList ∧
      ¬ store.FindsUpload "t".toList (LocalTempFileStore.storedFilename upload)
        (.ofText "data/temp/t/audio".toList) := by
  refine ⟨by decide +kernel, by decide +kernel, fun hfinds => ?_⟩
  exact absurd hfinds.resolves (by decide +kernel)

end FunasrApi.Tasks
