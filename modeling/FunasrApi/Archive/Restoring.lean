import FunasrApi.Archive.Keeping
import FunasrApi.Tasks.Submission

/-!
# Restoring what was archived

Three pieces of state have to agree for a key to be restored: the row of the index, the
address at which the bytes lie, and the store that is configured when they are wanted.
They do exactly if that store reads the key where the bytes were written.
-/

namespace FunasrApi.Archive

open FunasrApi.Core FunasrApi.Tasks

variable {sha256 : Bytes → String}

/-- The configured store restores the key of a result, with the content that it was archived
with. -/
def Restorable (sha256 : Bytes → String) (w : ArchiveWorld) (stored : StoredFileResult) : Prop :=
  ∃ store content, w.store = some store ∧
    store.restoreOriginal w.objects stored.s3Key = .ok content ∧ sha256 content = stored.fileSha256

instance (w : ArchiveWorld) (stored : StoredFileResult) : Decidable (Restorable sha256 w stored) :=
  decidable_of_iff
    (∃ store ∈ w.store,
      ∃ content ∈ (store.restoreOriginal w.objects stored.s3Key).toOption,
        sha256 content = stored.fileSha256) <| by
    unfold Restorable
    refine exists_congr fun store => ?_
    cases store.restoreOriginal w.objects stored.s3Key <;> simp [Except.toOption]

/-- A store reads the key of a new file from the address that it writes the file to. -/
def AudioBackupStore.ReadsBack (store : AudioBackupStore) (env : Circumstances)
    (call : CompletedUpload) : Prop :=
  ∃ key address,
    store.backupOriginal env.uuid call.localPath call.taskKey call.filename = some (key, address) ∧
      store.locate key = some address

instance (store : AudioBackupStore) (env : Circumstances) (call : CompletedUpload) :
    Decidable (store.ReadsBack env call) :=
  decidable_of_iff
    (∃ written ∈ store.backupOriginal env.uuid call.localPath call.taskKey call.filename,
      store.locate written.1 = some written.2) <| by
    simp [AudioBackupStore.ReadsBack]

/-- A store reads the key of an upload where the bytes were written: at the address of the row that
was found for the hash, or at that of the new file. -/
def AudioBackupStore.ReadsUpload (store : AudioBackupStore) (env : Circumstances)
    (call : CompletedUpload) : Option IndexedFile → Prop
  | some existing => store.locate existing.row.s3Key = some existing.address
  | none => store.ReadsBack env call

instance (store : AudioBackupStore) (env : Circumstances) (call : CompletedUpload) :
    DecidablePred (store.ReadsUpload env call)
  | some _ => inferInstanceAs (Decidable (_ = _))
  | none => inferInstanceAs (Decidable (store.ReadsBack env call))

/-- The configured store reads the key of the upload where the bytes were written. -/
def ReadsWhereWritten (sha256 : Bytes → String) (env : Circumstances) (call : CompletedUpload)
    (w : ArchiveWorld) : Prop :=
  ∃ store content, w.store = some store ∧ w.localFile call.localPath = some content ∧
    store.ReadsUpload env call (w.find env.findRaises (sha256 content))

instance (env : Circumstances) (call : CompletedUpload) (w : ArchiveWorld) :
    Decidable (ReadsWhereWritten sha256 env call w) :=
  decidable_of_iff
    (∃ store ∈ w.store, ∃ content ∈ w.localFile call.localPath,
      store.ReadsUpload env call (w.find env.findRaises (sha256 content))) <| by
    simp [ReadsWhereWritten]

section Main

variable {w : ArchiveWorld} {env : Circumstances} {call : CompletedUpload}

/-- An indexed file is restored by exactly the stores that read its key from its address. -/
theorem Kept.restores_iff {objects : Objects} {entry : IndexedFile}
    (h : Kept sha256 objects entry) (store : AudioBackupStore) :
    (∃ content, store.restoreOriginal objects entry.row.s3Key = .ok content ∧
        sha256 content = entry.row.fileSha256) ↔
      store.locate entry.row.s3Key = some entry.address := by
  constructor
  · rintro ⟨content, hrestore, -⟩
    obtain ⟨address, hlocate, hread⟩ := AudioBackupStore.restoreOriginal_eq_ok_iff.mp hrestore
    rw [hlocate, h.only store address hlocate (mem_of_read hread)]
  · intro hlocate
    obtain ⟨content, hread, hhash⟩ := h.stored
    exact ⟨content, AudioBackupStore.restoreOriginal_eq_ok_iff.mpr ⟨_, hlocate, hread⟩, hhash⟩

/-- A completed upload is restorable exactly if its key is read where its bytes were written. -/
theorem Completed.restorable_iff {stored : StoredFileResult} {v : ArchiveWorld}
    (hcompleted : Completed sha256 env call stored w v) (hfresh : env.uuid.Fresh w)
    (h : Archived sha256 w) : Restorable sha256 v stored ↔ ReadsWhereWritten sha256 env call w := by
  obtain ⟨hstore, content, hcontent, hhash, hcase⟩ := hcompleted
  have hrestorable : Restorable sha256 v stored ↔ ∃ store, w.store = some store ∧
      ∃ content, store.restoreOriginal v.objects stored.s3Key = .ok content ∧
        sha256 content = stored.fileSha256 := by
    unfold Restorable
    rw [hstore]
    exact exists_congr fun store => exists_and_left
  have hwhere : ReadsWhereWritten sha256 env call w ↔ ∃ store, w.store = some store ∧
      store.ReadsUpload env call (w.find env.findRaises (sha256 content)) := by
    unfold ReadsWhereWritten
    rw [hcontent]
    simp
  rw [hrestorable, hwhere]
  refine exists_congr fun store => and_congr_right fun hconfigured => ?_
  split at hcase
  · next existing hfind =>
    obtain ⟨hkey, hobjects, -⟩ := hcase
    obtain ⟨hmem, hfound⟩ := find_some hfind
    rw [hkey, hobjects, hhash, hfind, ← hfound]
    exact (h existing hmem).restores_iff store
  · next hfind =>
    obtain ⟨address, _, ⟨_, hused, hbackup, rfl⟩, hobjects, -⟩ := hcase
    obtain rfl := Option.some.inj (hconfigured.symm.trans hused)
    have hkept : Kept sha256 (w.archive address content).objects ⟨stored.toRow call, address⟩ :=
      kept_new hfresh hbackup content rfl hhash
    rw [hobjects, hfind]
    refine (hkept.restores_iff store).trans ⟨fun hlocate => ⟨_, _, hbackup, hlocate⟩, ?_⟩
    rintro ⟨_, _, hbackup', hlocate⟩
    obtain ⟨rfl, rfl⟩ := Prod.mk.inj (Option.some.inj (hbackup.symm.trans hbackup'))
    exact hlocate

/-- After any run of configurations, uploads and completed tasks, `handle_complete` returns a key
that the configured store restores with the right content exactly if that store reads the key where
the bytes were written. -/
theorem handleComplete_restorable_iff
    (h : (archiveMachine sha256).Reach DrawsFresh .empty w) (hfresh : env.uuid.Fresh w)
    {stored : StoredFileResult}
    (hstored : (handleComplete sha256 env call w).result = .ok (some stored)) :
    Restorable sha256 (handleComplete sha256 env call w).final stored ↔
      ReadsWhereWritten sha256 env call w := by
  have harchived : Archived sha256 w :=
    h.invariant (fun _ hentry => absurd hentry List.not_mem_nil)
      fun _ _ _ hw hdraws hstep => hw.step hdraws hstep
  obtain ⟨-, hend⟩ := meets_handleComplete sha256 env call w
  rw [hstored] at hend
  exact Completed.restorable_iff hend hfresh harchived

/-- The digest of the bytes of `abc`; the runs below hash no others. -/
def abcSha256 (content : Bytes) : String :=
  if content = [97, 98, 99] then
    "ba7816bf8f01cfea414140de5dae2223b00361a396177a9cb410ff61f20015ad"
  else ""

/-- A local archive below `data`, as `config.yaml` has it. -/
def localFiles : AudioBackupStore :=
  .localStore (.make ["app".toList, "data".toList, "files".toList] "audio".toList)

/-- A bucket. -/
def audioBucket : AudioBackupStore :=
  .s3 (.make "http://s3".toList "recordings".toList "audio".toList)

/-- Two tasks with the content `abc`: the first one is completed under the store `first`, then the
store `later` is configured. -/
def twoTasks (first later : AudioBackupStore) : List ArchiveAction :=
  [.configure (some first) true, .upload "/tmp/t1/a.wav".toList [97, 98, 99],
    .complete { uuid := .ofDigit '0' (by decide) }
      { localPath := "/tmp/t1/a.wav".toList
        taskKey := "t1".toList
        filename := "a.wav".toList
        source := "offline".toList },
    .configure (some later) true, .upload "/tmp/t2/b.wav".toList [97, 98, 99]]

/-- The second task is completed. -/
def secondCall : CompletedUpload where
  localPath := "/tmp/t2/b.wav".toList
  taskKey := "t2".toList
  filename := "b.wav".toList
  source := "spk".toList

/-- Without a fault. -/
def secondDraw : Circumstances where
  uuid := .ofDigit '1' (by decide)

/-- What a run that is evaluated shows of the second task. -/
theorem exists_secondTask (first later : AudioBackupStore)
    {p : ArchiveWorld → StoredFileResult → Bool}
    (h : ((archiveMachine abcSha256).runIf DrawsFresh .empty (twoTasks first later)).any (fun w =>
      decide (secondDraw.uuid.Fresh w) &&
        match (handleComplete abcSha256 secondDraw secondCall w).result with
        | .ok (some stored) => stored.isReused && p w stored
        | .ok none | .error _ => false) = true) :
    ∃ w stored,
      (archiveMachine abcSha256).runIf DrawsFresh .empty (twoTasks first later) = some w ∧
        secondDraw.uuid.Fresh w ∧
        (handleComplete abcSha256 secondDraw secondCall w).result = .ok (some stored) ∧
        stored.isReused = true ∧ p w stored = true := by
  obtain ⟨w, hw, hfacts⟩ := (Option.any_eq_true _ _).mp h
  obtain ⟨hfresh, hresult⟩ := Bool.and_eq_true_iff.mp hfacts
  split at hresult
  · next stored hstored =>
    obtain ⟨hreused, hp⟩ := Bool.and_eq_true_iff.mp hresult
    exact ⟨w, stored, hw, of_decide_eq_true hfresh, hstored, hreused, hp⟩
  · cases hresult
  · cases hresult

/-- Under one store the second task uses the file of the first one again, and its key restores
it. -/
theorem localFiles_restorable :
    ∃ w stored,
      (archiveMachine abcSha256).runIf DrawsFresh .empty (twoTasks localFiles localFiles) = some w ∧
        (handleComplete abcSha256 secondDraw secondCall w).result = .ok (some stored) ∧
        stored.isReused = true ∧
        Restorable abcSha256 (handleComplete abcSha256 secondDraw secondCall w).final stored := by
  obtain ⟨w, stored, hw, hfresh, hstored, hreused, hreads⟩ :=
    exists_secondTask localFiles localFiles
      (p := fun w _ => decide (ReadsWhereWritten abcSha256 secondDraw secondCall w))
      (by decide +kernel)
  exact ⟨w, stored, hw, hstored, hreused,
    (handleComplete_restorable_iff (Machine.Reach.of_runIf hw) hfresh hstored).mpr
      (of_decide_eq_true hreads)⟩

/-- After a change from the local store to a bucket the second task still uses the file of the first
one, and the bucket has nothing under its key. -/
theorem audioBucket_not_restorable :
    ∃ w stored,
      (archiveMachine abcSha256).runIf DrawsFresh .empty (twoTasks localFiles audioBucket) =
          some w ∧
        secondDraw.uuid.Fresh w ∧
        (handleComplete abcSha256 secondDraw secondCall w).result = .ok (some stored) ∧
        stored.isReused = true ∧
        ¬Restorable abcSha256 (handleComplete abcSha256 secondDraw secondCall w).final stored := by
  obtain ⟨w, stored, hw, hfresh, hstored, hreused, hlost⟩ :=
    exists_secondTask localFiles audioBucket
      (p := fun w stored => !decide
        (Restorable abcSha256 (handleComplete abcSha256 secondDraw secondCall w).final stored))
      (by decide +kernel)
  exact ⟨w, stored, hw, hfresh, hstored, hreused, by simpa using hlost⟩

end Main

end FunasrApi.Archive
