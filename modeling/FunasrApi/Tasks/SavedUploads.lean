import FunasrApi.Tasks.Submission
import FunasrApi.Tasks.TempFiles

/-!
# What a submission sees of `save_upload`

A submission takes the whole upload for its content and knows the size limit and
that the call may raise. The loop of `LocalTempFileStore` over the chunks answers
so: with the size of all that was read when it is within the limit, and with the
`ValueError` only when it is not.
-/

namespace FunasrApi.Tasks

open FunasrApi.Core

/-- What the calls of `read` deliver before the first empty answer or exception. -/
def readContent : List (Except Text (List UInt8)) → List UInt8
  | [] => []
  | .error _ :: _ => []
  | .ok chunk :: rest => if chunk = [] then [] else chunk ++ readContent rest

namespace LocalTempFileStore

variable {σ : Type*} {fs : FileSystem σ} {path taskDir : Path} {maxSize : ℕ}

/-- The size that the loop returns is that of the content, within the limit. -/
theorem saveChunks_ok {reads : List (Except Text (List UInt8))} {fileSize size : ℕ} {s : σ}
    (hle : fileSize ≤ maxSize)
    (h : (saveChunks fs path taskDir maxSize reads fileSize s).1 = .ok size) :
    size = fileSize + (readContent reads).length ∧ size ≤ maxSize := by
  fun_induction saveChunks fs path taskDir maxSize reads fileSize s with
  | case1 fileSize s =>
    obtain rfl := Except.ok.inj h
    exact ⟨rfl, hle⟩
  | case2 => cases h
  | case3 rest fileSize s =>
    obtain rfl := Except.ok.inj h
    exact ⟨by simp [readContent], hle⟩
  | case4 => cases h
  | case5 => cases h
  | case6 chunk rest fileSize s hchunk hsize s' hwrite ih =>
    obtain ⟨hsum, hmax⟩ := ih (by omega) h
    refine ⟨?_, hmax⟩
    rw [hsum, readContent, if_neg hchunk, List.length_append, Nat.add_assoc]

/-- The loop refuses a content that is over the limit, and no other. -/
theorem saveChunks_tooLarge {reads : List (Except Text (List UInt8))} {fileSize limit : ℕ}
    {s : σ}
    (h : (saveChunks fs path taskDir maxSize reads fileSize s).1 = .error (.tooLarge limit)) :
    maxSize < fileSize + (readContent reads).length := by
  fun_induction saveChunks fs path taskDir maxSize reads fileSize s with
  | case1 => cases h
  | case2 => cases h
  | case3 => cases h
  | case4 chunk rest fileSize s hchunk hsize =>
    rw [readContent, if_neg hchunk, List.length_append]
    omega
  | case5 => cases h
  | case6 chunk rest fileSize s hchunk hsize s' hwrite ih =>
    rw [readContent, if_neg hchunk, List.length_append, ← Nat.add_assoc]
    exact ih h

variable {store : LocalTempFileStore} {upload : UploadFile} {taskId : Text} {s : σ}

/-- The answer of `save_upload` is an exception before the loop, or that of the loop. -/
private theorem saveUpload_answer (fs : FileSystem σ) (store : LocalTempFileStore)
    (upload : UploadFile) (taskId : Text) (maxSize : ℕ) (s : σ) :
    (∃ message, (store.saveUpload fs upload taskId maxSize s).1 = .error (.other message)) ∨
      ∃ path taskDir t, (store.saveUpload fs upload taskId maxSize s).1 =
        (saveChunks fs path taskDir maxSize upload.reads 0 t).1.map fun size => (path, size) := by
  unfold saveUpload
  dsimp only
  split
  · exact .inl ⟨_, rfl⟩
  · split
    · exact .inl ⟨_, rfl⟩
    · exact .inr ⟨_, _, _, rfl⟩

/-- A saved upload has the size of its content, within the limit. -/
theorem saveUpload_ok {size : ℕ}
    (h : (store.saveUpload fs upload taskId maxSize s).1 = .ok (path, size)) :
    size = (readContent upload.reads).length ∧ size ≤ maxSize := by
  rcases saveUpload_answer fs store upload taskId maxSize s with
    ⟨message, hanswer⟩ | ⟨path', taskDir, t, hanswer⟩
  · rw [hanswer] at h
    cases h
  · rw [hanswer] at h
    cases hloop : (saveChunks fs path' taskDir maxSize upload.reads 0 t).1 with
    | error e =>
      rw [hloop] at h
      cases h
    | ok size' =>
      rw [hloop] at h
      cases h
      simpa using saveChunks_ok (Nat.zero_le _) hloop

/-- Only an upload over the limit is refused as too large. -/
theorem saveUpload_tooLarge {limit : ℕ}
    (h : (store.saveUpload fs upload taskId maxSize s).1 = .error (.tooLarge limit)) :
    maxSize < (readContent upload.reads).length := by
  rcases saveUpload_answer fs store upload taskId maxSize s with
    ⟨message, hanswer⟩ | ⟨path', taskDir, t, hanswer⟩
  · rw [hanswer] at h
    cases h
  · rw [hanswer] at h
    cases hloop : (saveChunks fs path' taskDir maxSize upload.reads 0 t).1 with
    | error e =>
      rw [hloop] at h
      cases h
      simpa using saveChunks_tooLarge hloop
    | ok size' =>
      rw [hloop] at h
      cases h

end LocalTempFileStore

/-- The exception of a submission for one of `save_upload`. -/
def SaveError.raised : SaveError → SubmissionError
  | .valueError message => .uploadTooLarge message
  | .other => .storage

namespace TaskSubmissionService

variable {Id : Type} (service : TaskSubmissionService Id (List UInt8))

/-- Whether `save_upload` fails, apart from the size limit. -/
def saveFault (fault : SaveError) : Except SaveUploadError (Path × ℕ) → Option SaveError
  | .ok _ => none
  | .error (.tooLarge _) => none
  | .error (.other _) => some fault

/-- What the submission makes of an answer of `save_upload`. -/
def savedAnswer (fault : SaveError) :
    Except SaveUploadError (Path × ℕ) → Except SubmissionError ℕ
  | .ok (_, size) => .ok size
  | .error (.tooLarge _) => .error (.uploadTooLarge service.tooLargeMessage)
  | .error (.other _) => .error fault.raised

variable [DecidableEq Id] {service}

/-- A submission that fails where the store fails answers as the store does. -/
theorem saveUpload_result {σ : Type*} {fs : FileSystem σ} {store : LocalTempFileStore}
    {upload : UploadFile} {directory : Text} {s : σ} {fault : SaveError}
    (hsize : service.size = List.length)
    (hfault : service.faults.saveRaises =
      saveFault fault (store.saveUpload fs upload directory service.maxFileSize s).1)
    (filename : Option String) (taskId : Id) (w : SubmissionWorld Id (List UInt8)) :
    (service.saveUpload ⟨filename, readContent upload.reads⟩ taskId w).result =
      service.savedAnswer fault
        (store.saveUpload fs upload directory service.maxFileSize s).1 := by
  unfold TaskSubmissionService.saveUpload
  rw [hfault]
  cases hanswer : (store.saveUpload fs upload directory service.maxFileSize s).1 with
  | ok saved =>
    obtain ⟨hsaved, hle⟩ := LocalTempFileStore.saveUpload_ok hanswer
    have hfits : ¬ service.maxFileSize < (readContent upload.reads).length := by omega
    simp only [saveFault, hsize, savedAnswer, hsaved]
    rw [decide_eq_false hfits]
    rfl
  | error e =>
    cases e with
    | tooLarge limit =>
      have hover := LocalTempFileStore.saveUpload_tooLarge hanswer
      simp only [saveFault, hsize, savedAnswer]
      rw [decide_eq_true hover]
      rfl
    | other message => cases fault <;> rfl

end TaskSubmissionService

end FunasrApi.Tasks
