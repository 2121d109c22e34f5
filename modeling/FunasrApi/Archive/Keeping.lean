import FunasrApi.Archive.PostProcessing

/-!
# What the archive keeps

Whatever store was configured when, the bytes of every row of the index lie at one address,
and no store reads the key of the row from any other file of the archive. Every completed
upload keeps this, and adds one file at most.
-/

namespace FunasrApi.Archive

open FunasrApi.Core

variable {sha256 : Bytes → String}

/-- A uuid that is drawn stands in no address and in no key so far. -/
def Uuid.Fresh (uuid : Uuid) (w : ArchiveWorld) : Prop :=
  (∀ object ∈ w.objects, ¬object.1.Mentions uuid) ∧
    ∀ entry ∈ w.index, ¬uuid.hex <:+: entry.row.s3Key

instance (uuid : Uuid) (w : ArchiveWorld) : Decidable (uuid.Fresh w) :=
  inferInstanceAs (Decidable (_ ∧ _))

/-- `uuid4` never repeats. -/
def DrawsFresh (w : ArchiveWorld) : ArchiveAction → Prop
  | .complete env _ => env.uuid.Fresh w
  | .configure .. | .upload .. => True

instance (w : ArchiveWorld) : DecidablePred (DrawsFresh w)
  | .complete env _ => inferInstanceAs (Decidable (env.uuid.Fresh w))
  | .configure .. | .upload .. => isTrue trivial

/-- The bytes of an indexed file are kept at its address, and no store reads its key from any other
file that was archived. -/
structure Kept (sha256 : Bytes → String) (objects : Objects) (entry : IndexedFile) : Prop where
  carries : ∃ uuid suffix, Carries entry.row.s3Key uuid suffix
  stored : ∃ content, objects.read entry.address = some content ∧
    sha256 content = entry.row.fileSha256
  only : ∀ (store : AudioBackupStore) (address : Address),
    store.locate entry.row.s3Key = some address → address ∈ objects.map Prod.fst →
      address = entry.address

/-- Every row of the index is kept. -/
def Archived (sha256 : Bytes → String) (w : ArchiveWorld) : Prop :=
  ∀ entry ∈ w.index, Kept sha256 w.objects entry

section Writing

variable {w : ArchiveWorld} {uuid : Uuid} {store : AudioBackupStore}
  {localPath taskId filename key : Text} {address : Address}

/-- A new file lies at a new address. -/
theorem Uuid.Fresh.new_address (hfresh : uuid.Fresh w)
    (hbackup : store.backupOriginal uuid localPath taskId filename = some (key, address)) :
    address ∉ w.objects.map Prod.fst := by
  intro hmem
  obtain ⟨object, hobject, rfl⟩ := List.mem_map.mp hmem
  obtain ⟨-, part, hlast, hpart⟩ := backupOriginal_carries hbackup
  exact hfresh.1 object hobject ⟨part, List.mem_of_getLast? hlast, hpart⟩

/-- A new file neither replaces an indexed one nor is found under its key. -/
theorem Kept.archive {entry : IndexedFile} (hkept : Kept sha256 w.objects entry)
    (hentry : entry ∈ w.index) (hfresh : uuid.Fresh w)
    (hbackup : store.backupOriginal uuid localPath taskId filename = some (key, address))
    (content : Bytes) : Kept sha256 (w.archive address content).objects entry := by
  refine ⟨hkept.carries, ?_, fun reader found hfound hmem => ?_⟩
  · obtain ⟨bytes, hread, hhash⟩ := hkept.stored
    have hne : entry.address ≠ address := by
      rintro rfl
      exact hfresh.new_address hbackup (mem_of_read hread)
    exact ⟨bytes, (read_write_of_ne hne).trans hread, hhash⟩
  · rcases List.mem_cons.mp hmem with rfl | hmem
    -- the name of the new file has the new uuid, and the old key leads to no name with it
    · obtain ⟨-, part, hlast, hpart⟩ := backupOriginal_carries hbackup
      obtain ⟨own, suffix, hcarries⟩ := hkept.carries
      have hstretch := (locate_carries hcarries hfound).2 part hlast uuid hpart
      exact absurd hstretch (hfresh.2 entry hentry)
    · exact hkept.only reader found hfound hmem

/-- The file that was just archived is kept. -/
theorem kept_new (hfresh : uuid.Fresh w)
    (hbackup : store.backupOriginal uuid localPath taskId filename = some (key, address))
    (content : Bytes) {row : S3File} (hkey : row.s3Key = key)
    (hhash : row.fileSha256 = sha256 content) :
    Kept sha256 (w.archive address content).objects ⟨row, address⟩ := by
  obtain ⟨hcarries, -⟩ := backupOriginal_carries hbackup
  rw [← hkey] at hcarries
  refine ⟨⟨uuid, _, hcarries⟩, ⟨content, read_write_self, hhash.symm⟩, ?_⟩
  intro reader found hfound hmem
  rcases List.mem_cons.mp hmem with rfl | hmem
  · rfl
  -- no address that was there before has the new uuid, wherever a store looks for the new key
  · obtain ⟨object, hobject, rfl⟩ := List.mem_map.mp hmem
    exact absurd (locate_carries hcarries hfound).1 (hfresh.1 object hobject)

end Writing

section Completing

variable {w : ArchiveWorld} {env : Circumstances} {call : CompletedUpload}

/-- At most one file is written to the archive, under a new key. -/
def WritesOnce (env : Circumstances) (call : CompletedUpload) (w v : ArchiveWorld) : Prop :=
  v = w ∨ ∃ (store : AudioBackupStore) (key : Text) (address : Address) (content : Bytes),
    store.backupOriginal env.uuid call.localPath call.taskKey call.filename = some (key, address) ∧
      v = w.archive address content

/-- The content was archived in the store of now, at the address of the new key. -/
def ArchivedIn (env : Circumstances) (call : CompletedUpload) (content : Bytes)
    (key : Text) (address : Address) (w v : ArchiveWorld) : Prop :=
  ∃ store, w.store = some store ∧
    store.backupOriginal env.uuid call.localPath call.taskKey call.filename = some (key, address) ∧
      v = w.archive address content

theorem meets_backupOriginal (content : Bytes) {store : AudioBackupStore}
    (hstore : w.store = some store) :
    Effect.Meets (fun _ => True) (backupOriginal env call content store) w
      (fun written v => ArchivedIn env call content written.1 written.2 w v)
      (fun _ v => WritesOnce env call w v) := by
  unfold backupOriginal
  split
  · exact Effect.meets_throw (.inl rfl)
  · next key address hbackup =>
    split
    · split
      · exact Effect.meets_throw (.inl rfl)
      · next incomplete _ =>
        exact Effect.meets_bind <| Effect.meets_modify trivial <| Effect.meets_throw <|
          .inr ⟨store, key, address, incomplete, hbackup, rfl⟩
    · exact Effect.meets_bind <| Effect.meets_modify trivial <| Effect.meets_pure
        ⟨store, hstore, hbackup, rfl⟩

theorem meets_storeFile (content : Bytes) (fileSha256 : String) :
    Effect.Meets (fun _ => True) (storeFile env call content fileSha256) w
      (fun result v => ArchivedIn env call content result.1.s3Key result.2 w v ∧
        result.1.fileSha256 = fileSha256)
      (fun _ v => WritesOnce env call w v) := by
  unfold storeFile
  refine Effect.meets_bind (Effect.meets_get ?_)
  split
  · exact Effect.meets_throw (.inl rfl)
  · next store hstore =>
    split
    · refine Effect.meets_bind ((meets_backupOriginal content hstore).mono ?_ fun _ _ h => h)
      rintro ⟨key, address⟩ v harchived
      have hwrites : WritesOnce env call w v := by
        obtain ⟨_, -, hbackup, rfl⟩ := harchived
        exact .inr ⟨_, key, address, content, hbackup, rfl⟩
      dsimp only
      split
      · exact Effect.meets_throw hwrites
      · refine Effect.meets_bind (Effect.meets_ofExcept (fun _ _ => ?_) fun _ _ => hwrites)
        exact Effect.meets_pure ⟨harchived, rfl⟩
    · exact Effect.meets_throw (.inl rfl)

/-- What `handle_complete` returned, and what it did to the archive for it. -/
def Completed (sha256 : Bytes → String) (env : Circumstances) (call : CompletedUpload)
    (stored : StoredFileResult) (w v : ArchiveWorld) : Prop :=
  v.store = w.store ∧ ∃ content, w.localFile call.localPath = some content ∧
    stored.fileSha256 = sha256 content ∧
    match w.find env.findRaises (sha256 content) with
    | some existing => stored.s3Key = existing.row.s3Key ∧ v.objects = w.objects ∧ v.index = w.index
    | none => ∃ address archived, ArchivedIn env call content stored.s3Key address w archived ∧
        v.objects = archived.objects ∧
          (v.index = w.index ∨ v.index = w.index ++ [⟨stored.toRow call, address⟩])

/-- The temp file is deleted or not; the archive stays as it is. -/
theorem Completed.cleanup {stored : StoredFileResult} {v : ArchiveWorld}
    (h : Completed sha256 env call stored w v) :
    Effect.Meets (fun _ => True)
      (if call.deleteLocalOnSuccess then do
          Effect.modify fun w => w.cleanup call.localPath
          pure (some stored)
        else pure (some stored) : Archiving (Option StoredFileResult)) v
      (fun result v => match result with
        | none => v = w
        | some stored => Completed sha256 env call stored w v)
      (fun _ v => WritesOnce env call w v) := by
  split
  · exact Effect.meets_bind (Effect.meets_modify trivial (Effect.meets_pure h))
  · exact Effect.meets_pure h

/-- A row is added to the index or not; nothing else changes. -/
theorem record_spec (v : ArchiveWorld) (raises : Bool) (entry : IndexedFile) :
    (v.record raises entry).store = v.store ∧ (v.record raises entry).objects = v.objects ∧
      ((v.record raises entry).index = v.index ∨
        (v.record raises entry).index = v.index ++ [entry]) := by
  unfold ArchiveWorld.record
  split
  · exact ⟨rfl, rfl, .inr rfl⟩
  · exact ⟨rfl, rfl, .inl rfl⟩

theorem meets_handleComplete (sha256 : Bytes → String) (env : Circumstances)
    (call : CompletedUpload) (w : ArchiveWorld) :
    Effect.Meets (fun _ => True) (handleComplete sha256 env call) w
      (fun result v => match result with
        | none => v = w
        | some stored => Completed sha256 env call stored w v)
      (fun _ v => WritesOnce env call w v) := by
  unfold handleComplete
  refine Effect.meets_bind (Effect.meets_get ?_)
  split
  · exact Effect.meets_pure rfl
  · next content hcontent =>
    dsimp only
    split
    · next existing hfind =>
      refine Effect.meets_bind (Effect.meets_pure (Completed.cleanup ?_))
      refine ⟨rfl, content, hcontent, rfl, ?_⟩
      rw [hfind]
      exact ⟨rfl, rfl, rfl⟩
    · next hfind =>
      refine Effect.meets_bind
        ((meets_storeFile content (sha256 content)).mono ?_ fun _ _ hwrites => hwrites)
      rintro ⟨stored, address⟩ archived ⟨harchived, hhash⟩
      refine Effect.meets_bind (Effect.meets_modify trivial ?_)
      refine Effect.meets_bind (Effect.meets_pure (Completed.cleanup ?_))
      obtain ⟨hstore, hobjects, hindex⟩ :=
        record_spec archived env.createRaises ⟨stored.toRow call, address⟩
      have hbefore : archived.store = w.store ∧ archived.index = w.index := by
        obtain ⟨_, -, -, rfl⟩ := harchived
        exact ⟨rfl, rfl⟩
      rw [hbefore.1] at hstore
      rw [hbefore.2] at hindex
      refine ⟨hstore, content, hcontent, hhash, ?_⟩
      rw [hfind]
      exact ⟨address, archived, harchived, hobjects, hindex⟩

/-- What the index finds is a row of it with the hash. -/
theorem find_some {raises : Bool} {fileSha256 : String} {entry : IndexedFile}
    (h : w.find raises fileSha256 = some entry) :
    entry ∈ w.index ∧ entry.row.fileSha256 = fileSha256 := by
  unfold ArchiveWorld.find at h
  split at h
  · exact Keyed.lookup_some h
  · cases h

/-- A file that is written under a fresh uuid leaves every row kept. -/
theorem WritesOnce.archived {v : ArchiveWorld} (hwrites : WritesOnce env call w v)
    (hfresh : env.uuid.Fresh w) (h : Archived sha256 w) : Archived sha256 v := by
  rcases hwrites with rfl | ⟨store, key, address, content, hbackup, rfl⟩
  · exact h
  · exact fun entry hentry => (h entry hentry).archive hentry hfresh hbackup content

theorem Completed.archived {stored : StoredFileResult} {v : ArchiveWorld}
    (hcompleted : Completed sha256 env call stored w v) (hfresh : env.uuid.Fresh w)
    (h : Archived sha256 w) : Archived sha256 v := by
  obtain ⟨-, content, -, hhash, hcase⟩ := hcompleted
  intro entry hentry
  split at hcase
  · obtain ⟨-, hobjects, hindex⟩ := hcase
    rw [hindex] at hentry
    rw [hobjects]
    exact h entry hentry
  · obtain ⟨address, _, ⟨store, -, hbackup, rfl⟩, hobjects, hindex⟩ := hcase
    rw [hobjects]
    have hold : ∀ entry ∈ w.index, Kept sha256 (w.archive address content).objects entry :=
      fun entry hentry => (h entry hentry).archive hentry hfresh hbackup content
    rcases hindex with hindex | hindex
    · rw [hindex] at hentry
      exact hold entry hentry
    · rw [hindex] at hentry
      rcases List.mem_append.mp hentry with hentry | hentry
      · exact hold entry hentry
      · obtain rfl := List.mem_singleton.mp hentry
        exact kept_new hfresh hbackup content rfl hhash

/-- Every step keeps what is archived. -/
theorem Archived.step (h : Archived sha256 w) {a : ArchiveAction} (hfresh : DrawsFresh w a)
    {v : ArchiveWorld} (hstep : (archiveMachine sha256).step w a = some v) :
    Archived sha256 v := by
  cases a with
  | configure store indexing =>
    obtain rfl := Option.some.inj hstep
    exact h
  | upload path content =>
    obtain rfl := Option.some.inj hstep
    exact h
  | complete env call =>
    obtain rfl := Option.some.inj hstep
    obtain ⟨-, hend⟩ := meets_handleComplete sha256 env call w
    split at hend
    · split at hend
      · rw [hend]
        exact h
      · exact hend.archived hfresh h
    · exact hend.archived hfresh h

end Completing

end FunasrApi.Archive
