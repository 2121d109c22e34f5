import FunasrApi.Archive.AudioBackup

/-!
# Keys of the local store

A key is built from the prefix, the task id and the suffix as they are, and read again
with its backslashes as separators. So it leads back to the copied file exactly when
the name of the file has no backslash, the folders are the same either way, and they
do not lead out of the root.
-/

namespace FunasrApi.Archive

open FunasrApi.Core

/-- The folders that a new key names below the root: those of the prefix and of the task id. -/
def archiveFolders (keyPrefix taskId : Text) : List Text :=
  (if keyPrefix ≠ [] then keyPrefix.split '/' else []) ++ (taskId.split '/').dropLast

/-- The name of the file: the rest of the task id, the uuid and the suffix. -/
def archiveName (taskId : Text) (uuid : Uuid) (suffix : Text) : Text :=
  (taskId.split '/').getLast?.getD [] ++ (['_'] ++ uuid.hex ++ suffix)

/-- The components between separators and backslashes. -/
def splitAtBackslashes (parts : List Text) : List Text :=
  parts.flatMap fun part => (part.replace '\\' '/').split '/'

/-- The name has no backslash, the folders lead to the same place with backslashes as separators,
and the file is below the root. -/
structure ReadsAsWritten (root : List Text) (keyPrefix taskId : Text) (uuid : Uuid)
    (suffix : Text) : Prop where
  name : '\\' ∉ archiveName taskId uuid suffix
  folder : resolvePath (root ++ splitAtBackslashes (archiveFolders keyPrefix taskId)) =
    resolvePath (root ++ archiveFolders keyPrefix taskId)
  inside : resolvePath root <+:
    resolvePath (root ++ archiveFolders keyPrefix taskId) ++ [archiveName taskId uuid suffix]

instance (root : List Text) (keyPrefix taskId : Text) (uuid : Uuid) (suffix : Text) :
    Decidable (ReadsAsWritten root keyPrefix taskId uuid suffix) :=
  decidable_of_iff
    ('\\' ∉ archiveName taskId uuid suffix ∧
      resolvePath (root ++ splitAtBackslashes (archiveFolders keyPrefix taskId)) =
        resolvePath (root ++ archiveFolders keyPrefix taskId) ∧
      resolvePath root <+:
        resolvePath (root ++ archiveFolders keyPrefix taskId) ++ [archiveName taskId uuid suffix])
    ⟨fun ⟨hname, hfolder, hinside⟩ => ⟨hname, hfolder, hinside⟩,
      fun h => ⟨h.name, h.folder, h.inside⟩⟩

/-- A key resolves to the path that the file was copied to, so that `get_local_path` names it and
`restore_original` finds its bytes. -/
structure RoundTrips (store : LocalAudioBackupStore) (key : Text) : Prop where
  resolves : store.resolveKey key = .ok (store.destination key)
  localPath : (AudioBackupStore.localStore store).getLocalPath key =
    .ok (some ('/' :: Text.join '/' (store.destination key)))
  restores : ∀ (objects : Objects) (content : Bytes),
    (AudioBackupStore.localStore store).restoreOriginal
      (objects.write (.file (store.destination key)) content) key = .ok content

section Keys

variable {store : LocalAudioBackupStore} {key : Text}

/-- Resolving is all that it takes. -/
theorem roundTrips_iff :
    RoundTrips store key ↔ store.resolveKey key = .ok (store.destination key) := by
  refine ⟨RoundTrips.resolves, fun hresolve => ⟨hresolve, ?_, fun objects content => ?_⟩⟩
  · rw [AudioBackupStore.getLocalPath, hresolve]
    rfl
  · rw [AudioBackupStore.restoreOriginal_eq_ok_iff]
    refine ⟨.file (store.destination key), ?_, read_write_self⟩
    rw [AudioBackupStore.locate, hresolve]
    rfl

/-- Whatever the key is, it resolves to a path inside the root if it resolves at all. -/
theorem resolveKey_inside {path : List Text} (h : store.resolveKey key = .ok path) :
    resolvePath store.root <+: path :=
  (resolveKey_eq_ok_iff.mp h).2.1

variable (keyPrefix taskId : Text) (uuid : Uuid) (filename localPath : Text)

/-- The components of a new key. -/
theorem split_archiveKey :
    (archiveKey keyPrefix taskId uuid filename localPath).split '/' =
      archiveFolders keyPrefix taskId ++
        [archiveName taskId uuid (archiveSuffix filename localPath)] := by
  have hplain := (carries_archiveKey keyPrefix taskId uuid filename localPath).1
  have hrest : '/' ∉ ['_'] ++ uuid.hex ++ archiveSuffix filename localPath := by
    have hhex : '/' ∉ uuid.hex := uuid.not_mem (by decide)
    simp [hhex, hplain]
  have hassoc : taskId ++ ['_'] ++ uuid.hex ++ archiveSuffix filename localPath =
      taskId ++ (['_'] ++ uuid.hex ++ archiveSuffix filename localPath) := by
    simp only [List.append_assoc]
  have hstored : (taskId ++ (['_'] ++ uuid.hex ++ archiveSuffix filename localPath)).split '/' =
      (taskId.split '/').dropLast ++
        [archiveName taskId uuid (archiveSuffix filename localPath)] := by
    obtain ⟨before, last, first, after, htask, hsuffix, hboth⟩ :=
      Text.split_append '/' taskId (['_'] ++ uuid.hex ++ archiveSuffix filename localPath)
    rw [Text.split_eq_singleton hrest] at hsuffix
    obtain ⟨rfl, rfl⟩ := List.cons_eq_cons.mp hsuffix
    rw [hboth, archiveName, htask, List.dropLast_concat, List.getLast?_concat]
    rfl
  unfold archiveKey archiveFolders
  dsimp only
  rw [hassoc]
  split
  · rw [List.append_assoc, List.singleton_append, Text.split_append_cons, hstored,
      List.append_assoc]
  · rw [hstored, List.nil_append]

theorem lt_length_archiveName (suffix : Text) : 2 < (archiveName taskId uuid suffix).length := by
  have hstretch : uuid.hex <:+: archiveName taskId uuid suffix :=
    ⟨(taskId.split '/').getLast?.getD [] ++ ['_'], suffix, by simp [archiveName]⟩
  exact Uuid.lt_length hstretch

/-- A new key is written to its name in its folders. -/
theorem destination_archiveKey :
    store.destination (archiveKey keyPrefix taskId uuid filename localPath) =
      resolvePath (store.root ++ archiveFolders keyPrefix taskId) ++
        [archiveName taskId uuid (archiveSuffix filename localPath)] := by
  rw [LocalAudioBackupStore.destination, split_archiveKey, ← List.append_assoc,
    resolvePath_append_cons (lt_length_archiveName taskId uuid _) _ List.not_mem_nil]
  rfl

/-- Without a backslash in its name, a new key is read from its name in the folders that its
backslashes separate. -/
theorem resolvePath_archiveKey (root : List Text)
    (h : '\\' ∉ archiveName taskId uuid (archiveSuffix filename localPath)) :
    resolvePath (root ++
        ((archiveKey keyPrefix taskId uuid filename localPath).replace '\\' '/').split '/') =
      resolvePath (root ++ splitAtBackslashes (archiveFolders keyPrefix taskId)) ++
        [archiveName taskId uuid (archiveSuffix filename localPath)] := by
  have hsplit := split_archiveKey keyPrefix taskId uuid filename localPath
  have hslash : '/' ∉ archiveName taskId uuid (archiveSuffix filename localPath) := by
    refine Text.not_mem_of_mem_split (t := archiveKey keyPrefix taskId uuid filename localPath) ?_
    rw [hsplit]
    exact List.mem_append_right _ (List.mem_singleton_self _)
  rw [Text.split_replace, hsplit, List.flatMap_append, List.flatMap_singleton,
    Text.replace_of_not_mem '/' h, Text.split_eq_singleton hslash, ← List.append_assoc,
    resolvePath_append_cons (lt_length_archiveName taskId uuid _) _ List.not_mem_nil]
  rfl

/-- A new key leads back to the copied file exactly when it reads as it was written. -/
theorem archiveKey_roundTrips_iff (store : LocalAudioBackupStore) :
    RoundTrips store (archiveKey store.keyPrefix taskId uuid filename localPath) ↔
      ReadsAsWritten store.root store.keyPrefix taskId uuid
        (archiveSuffix filename localPath) := by
  have hcarries := carries_archiveKey store.keyPrefix taskId uuid filename localPath
  rw [roundTrips_iff]
  constructor
  · intro hresolves
    have hname : '\\' ∉ archiveName taskId uuid (archiveSuffix filename localPath) := by
      refine hcarries.backslash_not_mem hresolves _ ?_
      rw [destination_archiveKey, List.getLast?_concat]
    rw [hcarries.resolveKey_eq, resolvePath_archiveKey store.keyPrefix taskId uuid filename
      localPath store.root hname, destination_archiveKey] at hresolves
    split at hresolves
    · next hinside =>
      have hpath := Except.ok.inj hresolves
      rw [hpath] at hinside
      exact ⟨hname, List.append_cancel_right hpath, hinside⟩
    · cases hresolves
  · intro hreads
    rw [hcarries.resolveKey_eq, resolvePath_archiveKey store.keyPrefix taskId uuid filename
      localPath store.root hreads.name, destination_archiveKey, hreads.folder,
      if_pos hreads.inside]

end Keys

/-- A new key of the local store leads back to the copied file exactly when it reads as it was
written, and no key whatever leads out of the root. -/
theorem localKey_roundTrips_iff (root : List Text) (configured taskId : Text) (uuid : Uuid)
    (filename localPath : Text) :
    (RoundTrips (.make root configured)
        (archiveKey (LocalAudioBackupStore.make root configured).keyPrefix taskId uuid filename
          localPath) ↔
      ReadsAsWritten root (configured.stripChars ['/', '\\']) taskId uuid
        (archiveSuffix filename localPath)) ∧
    ∀ key path, (LocalAudioBackupStore.make root configured).resolveKey key = .ok path →
      resolvePath root <+: path :=
  ⟨archiveKey_roundTrips_iff taskId uuid filename localPath (.make root configured),
    fun _ _ => resolveKey_inside⟩

/-- A suffix with a backslash, as of an upload `a.w\av`, names a file in the copy and a folder
when the key is read. -/
theorem backslashSuffix_lost :
    (LocalAudioBackupStore.make ["data".toList] "audio".toList).destination
        (archiveKey "audio".toList "t".toList (.ofDigit '0' (by decide)) "a.w\\av".toList
          "/tmp/a".toList) =
      ["data".toList, "audio".toList, "t_00000000000000000000000000000000.w\\av".toList] ∧
    (LocalAudioBackupStore.make ["data".toList] "audio".toList).resolveKey
        (archiveKey "audio".toList "t".toList (.ofDigit '0' (by decide)) "a.w\\av".toList
          "/tmp/a".toList) =
      .ok ["data".toList, "audio".toList, "t_00000000000000000000000000000000.w".toList,
        "av".toList] ∧
    ¬ RoundTrips (.make ["data".toList] "audio".toList)
      (archiveKey "audio".toList "t".toList (.ofDigit '0' (by decide)) "a.w\\av".toList
        "/tmp/a".toList) := by
  refine ⟨by decide +kernel, by decide +kernel, fun h => ?_⟩
  have hresolves := h.resolves
  revert hresolves
  decide +kernel

end FunasrApi.Archive
