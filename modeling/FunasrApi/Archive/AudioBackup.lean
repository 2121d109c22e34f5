import FunasrApi.Core.Keyed
import FunasrApi.Core.PurePath

/-!
# The stores of archived audio

The keys under which the stores archive an upload, the addresses that they write it to,
and the addresses that they read a key from. The local store writes a key as it is and
resolves it again with its backslashes turned into separators.
-/

namespace FunasrApi.Archive

open FunasrApi.Core

/-- The content of a file. -/
abbrev Bytes := List UInt8

/-- `uuid.uuid4()`, by its `hex`. -/
structure Uuid where
  hex : Text
  length_hex : hex.length = 32
  digits : ∀ c ∈ hex, c ∈ "0123456789abcdef".toList

/-- A uuid of one digit. -/
def Uuid.ofDigit (digit : Char) (h : digit ∈ "0123456789abcdef".toList) : Uuid where
  hex := List.replicate 32 digit
  length_hex := List.length_replicate
  digits c hc := by
    rw [List.eq_of_mem_replicate hc]
    exact h

/-- Where the bytes of an archived file lie: under the components of an absolute path without
links, or in a bucket. -/
inductive Address
  | file (path : List Text)
  | object (endpoint bucket key : Text)
  deriving DecidableEq

/-- The file system and the buckets, the newest write first. -/
abbrev Objects := List (Address × Bytes)

/-- What was written last. -/
def Objects.read (objects : Objects) (address : Address) : Option Bytes :=
  (Keyed.lookup Prod.fst address objects).map Prod.snd

/-- Write a file, or over a file. -/
def Objects.write (objects : Objects) (address : Address) (content : Bytes) : Objects :=
  (address, content) :: objects

/-- The exceptions of the archive. -/
inductive ArchiveError
  | disabled
  | emptyKey
  | outsideRoot
  | unavailable
  | clientError
  | storageUnavailable
  | noKey
  | backupFailed
  deriving DecidableEq

/-- Their texts, as far as the source gives them. -/
def ArchiveError.message : ArchiveError → Option String
  | .disabled => some "Archive storage is disabled"
  | .emptyKey => some "Archive key is empty"
  | .outsideRoot => some "Archive key resolves outside the configured root"
  | .unavailable => some "Archived audio is unavailable"
  | .storageUnavailable => some "Configured archive storage is unavailable"
  | .noKey => some "Configured archive storage returned no key"
  | .clientError | .backupFailed => none

/-- The suffix of the uploaded file, or else of the local one. -/
def archiveSuffix (filename localPath : Text) : Text :=
  if pathSuffix filename ≠ [] then pathSuffix filename else pathSuffix localPath

/-- The key of a new file in the stores that archive: its prefix if there is one, the task, a new
uuid, and the suffix. -/
def archiveKey (keyPrefix taskId : Text) (uuid : Uuid) (filename localPath : Text) : Text :=
  let storedFilename := taskId ++ ['_'] ++ uuid.hex ++ archiveSuffix filename localPath
  if keyPrefix ≠ [] then keyPrefix ++ ['/'] ++ storedFilename else storedFilename

/-- `LocalAudioBackupStore`, with the components of its root. -/
structure LocalAudioBackupStore where
  root : List Text
  keyPrefix : Text

/-- `LocalAudioBackupStore.__init__`. -/
def LocalAudioBackupStore.make (root : List Text) (keyPrefix : Text) : LocalAudioBackupStore where
  root := root
  keyPrefix := keyPrefix.stripChars ['/', '\\']

/-- Where `backup_original` copies the file to: the components of the key, below the root. -/
def LocalAudioBackupStore.destination (store : LocalAudioBackupStore) (key : Text) : List Text :=
  resolvePath (store.root ++ key.split '/')

/-- `LocalAudioBackupStore._resolve_key`. -/
def LocalAudioBackupStore.resolveKey (store : LocalAudioBackupStore) (key : Text) :
    Except ArchiveError (List Text) :=
  let normalized := (key.replace '\\' '/').stripChars ['/']
  if normalized = [] then .error .emptyKey
  else
    let root := resolvePath store.root
    let candidate := resolvePath (root ++ normalized.split '/')
    if root <+: candidate then .ok candidate else .error .outsideRoot

/-- A key resolves to its components below the root, if it has any and they stay there. -/
theorem resolveKey_eq_ok_iff {store : LocalAudioBackupStore} {key : Text} {path : List Text} :
    store.resolveKey key = .ok path ↔
      (key.replace '\\' '/').stripChars ['/'] ≠ [] ∧ resolvePath store.root <+: path ∧
        resolvePath (resolvePath store.root ++
          ((key.replace '\\' '/').stripChars ['/']).split '/') = path := by
  unfold LocalAudioBackupStore.resolveKey
  dsimp only
  split
  · next hnil => exact ⟨nofun, fun h => absurd hnil h.1⟩
  · next hne =>
    split
    · next hinside =>
      constructor
      · intro h
        obtain rfl := Except.ok.inj h
        exact ⟨hne, hinside, rfl⟩
      · rintro ⟨-, -, rfl⟩
        rfl
    · next houtside =>
      refine ⟨nofun, ?_⟩
      rintro ⟨-, hinside, rfl⟩
      exact absurd hinside houtside

/-- `S3AudioBackupStore`, with the service that its client is for. -/
structure S3AudioBackupStore where
  endpoint : Text
  bucket : Text
  keyPrefix : Text

/-- `S3AudioBackupStore.__init__`. -/
def S3AudioBackupStore.make (endpoint bucket keyPrefix : Text) : S3AudioBackupStore where
  endpoint := endpoint
  bucket := bucket
  keyPrefix := keyPrefix.stripChars ['/']

/-- The three stores. -/
inductive AudioBackupStore
  | noop
  | localStore (store : LocalAudioBackupStore)
  | s3 (store : S3AudioBackupStore)

namespace AudioBackupStore

/-- `store.enabled`. -/
def enabled : AudioBackupStore → Bool
  | .noop => false
  | .localStore _ | .s3 _ => true

/-- `store.name`. -/
def name : AudioBackupStore → Text
  | .noop => "noop".toList
  | .localStore _ => "local".toList
  | .s3 _ => "s3".toList

/-- `store.bucket`. -/
def bucket : AudioBackupStore → Option Text
  | .noop | .localStore _ => none
  | .s3 store => some store.bucket

/-- `backup_original`: the key that it returns and the address that it copies the file to. -/
def backupOriginal (uuid : Uuid) (localPath taskId filename : Text) :
    AudioBackupStore → Option (Text × Address)
  | .noop => none
  | .localStore store =>
    let key := archiveKey store.keyPrefix taskId uuid filename localPath
    some (key, .file (store.destination key))
  | .s3 store =>
    let key := archiveKey store.keyPrefix taskId uuid filename localPath
    some (key, .object store.endpoint store.bucket key)

/-- `get_local_path`. -/
def getLocalPath (key : Text) : AudioBackupStore → Except ArchiveError (Option Text)
  | .noop | .s3 _ => .ok none
  | .localStore store =>
    (store.resolveKey key).map fun path => some ('/' :: Text.join '/' path)

/-- `restore_original`: what it writes to the local path. -/
def restoreOriginal (objects : Objects) (key : Text) : AudioBackupStore → Except ArchiveError Bytes
  | .noop => .error .disabled
  | .localStore store =>
    match store.resolveKey key with
    | .error e => .error e
    | .ok path =>
      match objects.read (.file path) with
      | some content => .ok content
      | none => .error .unavailable
  | .s3 store =>
    if key = [] then .error .emptyKey
    else
      match objects.read (.object store.endpoint store.bucket key) with
      | some content => .ok content
      | none => .error .clientError

/-- The address that a store reads a key from. -/
def locate (key : Text) : AudioBackupStore → Option Address
  | .noop => none
  | .localStore store => (store.resolveKey key).toOption.map .file
  | .s3 store => if key = [] then none else some (.object store.endpoint store.bucket key)

/-- A key is restored from where the store reads it. -/
theorem restoreOriginal_eq_ok_iff {store : AudioBackupStore} {objects : Objects} {key : Text}
    {content : Bytes} :
    store.restoreOriginal objects key = .ok content ↔
      ∃ address, store.locate key = some address ∧ objects.read address = some content := by
  cases store with
  | noop => simp [restoreOriginal, locate]
  | localStore store =>
    cases hresolve : store.resolveKey key with
    | error e => simp [restoreOriginal, locate, hresolve, Except.toOption]
    | ok path =>
      cases hread : objects.read (.file path) <;>
        simp [restoreOriginal, locate, hresolve, Except.toOption, hread]
  | s3 store =>
    by_cases hkey : key = []
    · simp [restoreOriginal, locate, hkey]
    · cases hread : objects.read (.object store.endpoint store.bucket key) <;>
        simp [restoreOriginal, locate, hkey, hread]

end AudioBackupStore

section Reading

variable {objects : Objects} {address other : Address} {content : Bytes}

@[simp] theorem read_write_self : (objects.write address content).read address = some content := by
  simp [Objects.read, Objects.write, Keyed.lookup]

theorem read_write_of_ne (h : other ≠ address) :
    (objects.write address content).read other = objects.read other := by
  unfold Objects.read Objects.write Keyed.lookup
  rw [List.find?_cons_of_neg (by simpa using Ne.symm h)]

/-- What is read lies somewhere. -/
theorem mem_of_read (h : objects.read address = some content) :
    address ∈ objects.map Prod.fst := by
  obtain ⟨entry, hentry, -⟩ := Option.map_eq_some_iff.mp h
  obtain ⟨hmem, rfl⟩ := Keyed.lookup_some hentry
  exact List.mem_map_of_mem hmem

end Reading

section Uuids

theorem Uuid.not_mem {c : Char} (uuid : Uuid) (hc : c ∉ "0123456789abcdef".toList) :
    c ∉ uuid.hex :=
  fun hmem => hc (uuid.digits c hmem)

theorem Uuid.hex_ne_nil (uuid : Uuid) : uuid.hex ≠ [] := by
  intro h
  have hlength := uuid.length_hex
  rw [h] at hlength
  cases hlength

/-- A component with a uuid in it is a name. -/
theorem Uuid.lt_length {uuid : Uuid} {part : Text} (h : uuid.hex <:+: part) : 2 < part.length := by
  have hle := h.length_le
  have hlength := uuid.length_hex
  omega

/-- A key has a uuid in its name, before a suffix. -/
def Carries (key : Text) (uuid : Uuid) (suffix : Text) : Prop :=
  '/' ∉ suffix ∧ suffix.count '.' ≤ 1 ∧ ∃ before, key = before ++ uuid.hex ++ suffix

/-- A suffix has no separator and one dot at most. -/
theorem pathSuffix_plain (t : Text) : '/' ∉ pathSuffix t ∧ (pathSuffix t).count '.' ≤ 1 := by
  rcases pathSuffix_cases t with h | ⟨extension, h, hdot, hslash⟩
  · rw [h]
    decide
  · rw [h, List.count_cons_self, List.count_eq_zero_of_not_mem hdot]
    exact ⟨List.not_mem_cons_of_ne_of_not_mem (by decide) hslash, le_refl 1⟩

/-- Every new key carries the uuid that was drawn for it. -/
theorem carries_archiveKey (keyPrefix taskId : Text) (uuid : Uuid) (filename localPath : Text) :
    Carries (archiveKey keyPrefix taskId uuid filename localPath) uuid
      (archiveSuffix filename localPath) := by
  have hplain : '/' ∉ archiveSuffix filename localPath ∧
      (archiveSuffix filename localPath).count '.' ≤ 1 := by
    unfold archiveSuffix
    split
    · exact pathSuffix_plain filename
    · exact pathSuffix_plain localPath
  refine ⟨hplain.1, hplain.2, ?_⟩
  unfold archiveKey
  dsimp only
  split
  · exact ⟨keyPrefix ++ ['/'] ++ (taskId ++ ['_']), by simp⟩
  · exact ⟨taskId ++ ['_'], rfl⟩

theorem Carries.hex_infix {key suffix : Text} {uuid : Uuid} (h : Carries key uuid suffix) :
    uuid.hex <:+: key := by
  obtain ⟨-, -, before, rfl⟩ := h
  exact ⟨before, suffix, rfl⟩

/-- Replacing a character that is no digit leaves the uuid in place. -/
theorem replace_around {old : Char} (new : Char) (uuid : Uuid)
    (hold : old ∉ "0123456789abcdef".toList) (u v : Text) :
    (u ++ uuid.hex ++ v).replace old new = u.replace old new ++ uuid.hex ++ v.replace old new := by
  have hhex := Text.replace_of_not_mem new (uuid.not_mem hold)
  unfold Text.replace at hhex ⊢
  rw [List.map_append, List.map_append, hhex]

theorem count_dot_replace (t : Text) : (t.replace '\\' '/').count '.' = t.count '.' := by
  unfold Text.replace
  rw [List.count, List.countP_map]
  refine List.countP_congr fun c _ => ?_
  by_cases hc : c = '\\' <;> simp [hc]

/-- The components of a resolved key: the uuid stands in one of them, and none after it leads up
again. -/
theorem Carries.split_normalized {key suffix : Text} {uuid : Uuid}
    (hkey : Carries key uuid suffix) :
    ∃ before part after,
      ((key.replace '\\' '/').stripChars ['/']).split '/' = before ++ part :: after ∧
        uuid.hex <:+: part ∧ ['.', '.'] ∉ after := by
  obtain ⟨-, hdot, before, rfl⟩ := hkey
  have hhex : '/' ∉ uuid.hex := uuid.not_mem (by decide)
  have hchars : ∀ c ∈ uuid.hex, c ∉ ['/'] := by
    intro c hc hmem
    rw [List.mem_singleton.mp hmem] at hc
    exact hhex hc
  obtain ⟨u', v', hv', hstrip⟩ := Text.stripChars_append uuid.hex_ne_nil hchars
    (before.replace '\\' '/') (suffix.replace '\\' '/')
  obtain ⟨parts, last, first, after, hv, hsplit⟩ := Text.split_around hhex u' v'
  rw [replace_around '/' uuid (by decide), hstrip, hsplit]
  refine ⟨parts, _, after, rfl, ⟨last, first, rfl⟩, fun hparent => ?_⟩
  -- two dots in a row are more dots than the suffix has
  have hmem : ['.', '.'] ∈ v'.split '/' := by
    rw [hv]
    exact List.mem_cons_of_mem first hparent
  have hcount := ((Text.infix_of_mem_split hmem).trans hv'.isInfix).sublist.count_le '.'
  rw [count_dot_replace] at hcount
  exact absurd (hcount.trans hdot) (by decide)

/-- The local store resolves a key with a uuid to a path on which the uuid stands, and whose last
component comes from the key. -/
theorem Carries.resolveKey {store : LocalAudioBackupStore} {key suffix : Text} {uuid : Uuid}
    (hkey : Carries key uuid suffix) {path : List Text} (h : store.resolveKey key = .ok path) :
    (∃ part ∈ path, uuid.hex <:+: part) ∧
      ∀ last, path.getLast? = some last → last <:+: key.replace '\\' '/' := by
  obtain ⟨-, -, rfl⟩ := resolveKey_eq_ok_iff.mp h
  obtain ⟨before, part, after, hsplit, hpart, hparent⟩ := hkey.split_normalized
  rw [hsplit, ← List.append_assoc, resolvePath_append_cons (Uuid.lt_length hpart) _ hparent]
  refine ⟨⟨part, List.mem_append_right _ (List.mem_cons_self ..), hpart⟩, fun last hlast => ?_⟩
  rw [List.getLast?_append_of_ne_nil _ (List.cons_ne_nil part _)] at hlast
  have hmem : last ∈ before ++ part :: after := by
    refine List.mem_append_right before ?_
    rcases List.mem_cons.mp (List.mem_of_getLast? hlast) with rfl | hafter
    · exact List.mem_cons_self ..
    · exact List.mem_cons_of_mem _ (List.mem_of_mem_filter hafter)
  rw [← hsplit] at hmem
  exact (Text.infix_of_mem_split hmem).trans (Text.stripChars_infix _ _)

/-- A name with a backslash is not in any path that a key resolves to. -/
theorem Carries.backslash_not_mem {store : LocalAudioBackupStore} {key suffix : Text} {uuid : Uuid}
    (hkey : Carries key uuid suffix) {path : List Text} (h : store.resolveKey key = .ok path) :
    ∀ last, path.getLast? = some last → '\\' ∉ last := fun last hlast hmem =>
  Text.not_mem_replace (by decide) key (((hkey.resolveKey h).2 last hlast).subset hmem)

/-- The local store writes a key with a uuid to a file with the uuid and the suffix in its name. -/
theorem Carries.destination (store : LocalAudioBackupStore) {key suffix : Text} {uuid : Uuid}
    (hkey : Carries key uuid suffix) :
    ∃ before front, store.destination key = before ++ [front ++ uuid.hex ++ suffix] := by
  obtain ⟨hslash, -, u, rfl⟩ := hkey
  obtain ⟨before, last, first, after, hv, hsplit⟩ :=
    Text.split_around (uuid.not_mem (by decide) : '/' ∉ uuid.hex) u suffix
  rw [Text.split_eq_singleton hslash] at hv
  obtain ⟨rfl, rfl⟩ := List.cons_eq_cons.mp hv
  have hpart : uuid.hex <:+: last ++ uuid.hex ++ suffix := ⟨last, suffix, rfl⟩
  refine ⟨resolvePath (store.root ++ before), last, ?_⟩
  rw [LocalAudioBackupStore.destination, hsplit, ← List.append_assoc,
    resolvePath_append_cons (Uuid.lt_length hpart) _ List.not_mem_nil]
  rfl

/-- A key with a uuid resolves to its components between separators and backslashes, or lies
outside the root. -/
theorem Carries.resolveKey_eq (store : LocalAudioBackupStore) {key suffix : Text} {uuid : Uuid}
    (hkey : Carries key uuid suffix) :
    store.resolveKey key =
      if resolvePath store.root <+:
          resolvePath (store.root ++ (key.replace '\\' '/').split '/') then
        .ok (resolvePath (store.root ++ (key.replace '\\' '/').split '/'))
      else .error .outsideRoot := by
  have hnormalized : (key.replace '\\' '/').stripChars ['/'] ≠ [] := by
    intro hnil
    obtain ⟨before, part, after, hsplit, hpart, -⟩ := hkey.split_normalized
    have hmem : part ∈ ((key.replace '\\' '/').stripChars ['/']).split '/' := by
      rw [hsplit]
      exact List.mem_append_right before (List.mem_cons_self ..)
    have hstretch := hpart.trans (Text.infix_of_mem_split hmem)
    rw [hnil] at hstretch
    exact absurd (Uuid.lt_length hstretch) (Nat.not_lt_zero 2)
  have hcandidate :
      resolvePath (resolvePath store.root ++
        ((key.replace '\\' '/').stripChars ['/']).split '/') =
      resolvePath (store.root ++ (key.replace '\\' '/').split '/') := by
    rw [resolvePath_resolvePath_append, resolvePath, resolvePath, List.foldl_append,
      List.foldl_append, foldl_descend_stripChars]
  unfold LocalAudioBackupStore.resolveKey
  dsimp only
  rw [if_neg hnormalized, hcandidate]

/-- No uuid comes into a key by the replacement. -/
theorem Uuid.infix_of_replace {uuid : Uuid} {key : Text}
    (h : uuid.hex <:+: key.replace '\\' '/') : uuid.hex <:+: key := by
  obtain ⟨s, t, hst⟩ := h
  obtain ⟨front, t', rfl, hfront, -⟩ := List.map_eq_append_iff.mp hst.symm
  obtain ⟨s', hex, rfl, -, hhex⟩ := List.map_eq_append_iff.mp hfront
  have hbackslash : '\\' ∉ hex := by
    intro hc
    refine uuid.not_mem (c := '/') (by decide) ?_
    rw [← hhex]
    exact List.mem_map.mpr ⟨'\\', hc, rfl⟩
  rw [← hhex, show hex.map _ = hex from Text.replace_of_not_mem '/' hbackslash]
  exact ⟨s', t', rfl⟩

/-- The components of a path, or the key in a bucket. -/
def Address.parts : Address → List Text
  | .file path => path
  | .object _ _ key => [key]

/-- A uuid stands somewhere in an address. -/
def Address.Mentions (address : Address) (uuid : Uuid) : Prop :=
  ∃ part ∈ address.parts, uuid.hex <:+: part

instance (address : Address) (uuid : Uuid) : Decidable (address.Mentions uuid) :=
  inferInstanceAs (Decidable (∃ part ∈ address.parts, uuid.hex <:+: part))

/-- A store writes a new file to an address that has the uuid of its key in the name. -/
theorem backupOriginal_carries {store : AudioBackupStore} {uuid : Uuid}
    {localPath taskId filename key : Text} {address : Address}
    (h : store.backupOriginal uuid localPath taskId filename = some (key, address)) :
    Carries key uuid (archiveSuffix filename localPath) ∧
      ∃ part, address.parts.getLast? = some part ∧ uuid.hex <:+: part := by
  cases store with
  | noop => cases h
  | localStore store =>
    obtain ⟨rfl, rfl⟩ := Prod.mk.inj (Option.some.inj h)
    have hkey := carries_archiveKey store.keyPrefix taskId uuid filename localPath
    obtain ⟨before, front, hdestination⟩ := hkey.destination store
    refine ⟨hkey, front ++ uuid.hex ++ archiveSuffix filename localPath, ?_, front, _, rfl⟩
    rw [Address.parts, hdestination, List.getLast?_concat]
  | s3 store =>
    obtain ⟨rfl, rfl⟩ := Prod.mk.inj (Option.some.inj h)
    have hkey := carries_archiveKey store.keyPrefix taskId uuid filename localPath
    exact ⟨hkey, _, rfl, hkey.hex_infix⟩

/-- A store reads a key with a uuid from an address with the uuid in it, and all uuids in the name
there come from the key. -/
theorem locate_carries {store : AudioBackupStore} {key suffix : Text} {uuid : Uuid}
    {address : Address} (hkey : Carries key uuid suffix) (h : store.locate key = some address) :
    address.Mentions uuid ∧ ∀ part, address.parts.getLast? = some part →
      ∀ other : Uuid, other.hex <:+: part → other.hex <:+: key := by
  cases store with
  | noop => cases h
  | localStore store =>
    obtain ⟨path, hpath, rfl⟩ := Option.map_eq_some_iff.mp h
    cases hresolve : store.resolveKey key with
    | error e =>
      rw [hresolve] at hpath
      cases hpath
    | ok resolved =>
      rw [hresolve] at hpath
      obtain rfl := Option.some.inj hpath
      obtain ⟨hmentions, hlast⟩ := hkey.resolveKey hresolve
      exact ⟨hmentions, fun last h other hother =>
        Uuid.infix_of_replace (hother.trans (hlast last h))⟩
  | s3 store =>
    change (if key = [] then none else some (.object store.endpoint store.bucket key)) =
      some address at h
    split at h
    · cases h
    · obtain rfl := Option.some.inj h
      refine ⟨⟨key, List.mem_singleton_self key, hkey.hex_infix⟩, ?_⟩
      rintro part hpart other hother
      obtain rfl := Option.some.inj hpart
      exact hother

end Uuids

end FunasrApi.Archive
