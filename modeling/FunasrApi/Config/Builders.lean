import FunasrApi.Config.Validation

/-!
# Building the services of a configuration

The typed configuration of the database and of the storage, and what is built of it. In a
configuration that the validator accepts the types are the ones it has seen, a remote
service has the very values it has checked, and no service of an unsupported type is
asked for.
-/

namespace FunasrApi.Config

open FunasrApi.Core Text

/-- What the builders raise when they read a value. -/
inductive ReadError
  /-- The section `runtime` is a value without keys. -/
  | noSection
  /-- The root directory is no path. -/
  | noPath
  /-- `int` has raised. -/
  | noInteger

/-- What building a service raises. -/
inductive BuildError
  | read (error : ReadError)
  | unsupportedDatabaseType (type : Text)
  | unsupportedStorageType (type : Text)

/-- `SQLiteConfig`. -/
structure SQLiteConfig where
  path : Text
  poolSize : ℤ
  poolRecycle : ℤ
  echo : Bool

/-- `MySQLConfig`. -/
structure MySQLConfig where
  host : Yaml
  port : ℤ
  username : Yaml
  password : Yaml
  database : Yaml
  poolSize : ℤ
  poolRecycle : ℤ
  echo : Bool

/-- `DatabaseConfig`. -/
structure DatabaseConfig where
  type : Text
  sqlite : SQLiteConfig
  mysql : MySQLConfig

/-- `LocalStorageConfig`. -/
structure LocalStorageConfig where
  root : Text
  keyPrefix : Text

/-- `S3StorageConfig`. -/
structure S3StorageConfig where
  endpoint : Text
  accessKey : Text
  secretKey : Text
  bucket : Text
  region : Text
  keyPrefix : Text

/-- `StorageConfig`. -/
structure StorageConfig where
  type : Text
  localFiles : LocalStorageConfig
  s3 : S3StorageConfig

section Builder

variable (runtime : Runtime) (config : Section) (environ : Environ)

/-- `as_int`. -/
def asInt (value : Yaml) : Except ReadError ℤ :=
  match runtime.int value with
  | some n => .ok n
  | none => .error .noInteger

/-- `as_bool`. -/
def asBool (value : Yaml) (default : Bool) : Bool :=
  match value with
  | .bool b => b
  | .int n => n ≠ 0
  | .float _ => value.truth
  | .str t =>
    let normalized := runtime.lower (strip t)
    if (["1", "true", "yes", "y", "on"].map String.toList).contains normalized then true
    else if (["0", "false", "no", "n", "off"].map String.toList).contains normalized then false
    else default
  | _ => default

/-- `self.config.get("runtime", {}) or {}`, when it has keys. -/
def runtimeSection : Except ReadError Section :=
  match Section.get config "runtime".toList (.dict []) with
  | .dict entries => .ok entries
  | value => if value.truth then .error .noSection else .ok []

/-- `RuntimePathResolver.root_dir`. -/
def rootDir : Except ReadError Yaml := do
  let entries ← runtimeSection config
  return getEnv config environ "runtime.root_dir".toList "RUNTIME_ROOT_DIR".toList
    (Section.get entries "root_dir".toList (.str "./data".toList))

/-- `str(path)`. -/
def pathText (path : Path) : Text :=
  if path.anchor = [] ∧ path.parts = [] then ['.'] else path.anchor ++ join '/' path.parts

/-- `RuntimePathResolver.resolve`. -/
def resolve (configured : Yaml) (defaultRelative envVar : Text) : Except ReadError Text := do
  let value := getEnv config environ "runtime.path".toList envVar configured
  let text := strip (runtime.textOr value defaultRelative)
  if (Path.ofText text).anchor ≠ [] then return pathText (Path.ofText text)
  match ← rootDir config environ with
  | .str root => return pathText ((Path.ofText root).child text)
  | _ => .error .noPath

/-- One of the directories of `RuntimePathResolver.all_paths`. -/
def runtimePath (key : Text) (defaultRelative envVar : Text) : Except ReadError Text := do
  let entries ← runtimeSection config
  resolve runtime config environ (Section.get entries key .null) defaultRelative envVar

/-- `RuntimePathResolver.all_paths`, as far as the builders read it: the path of the database and
the directory of the files. The other paths are resolved, too. -/
def allPaths : Except ReadError (Text × Text) := do
  let _ ← rootDir config environ
  let _ ← runtimePath runtime config environ "models_dir".toList "models".toList
    "RUNTIME_MODELS_DIR".toList
  let sqlitePath ← runtimePath runtime config environ "sqlite_path".toList
    "sqlite/funasr_tasks.db".toList "RUNTIME_SQLITE_PATH".toList
  let _ ← runtimePath runtime config environ "temp_dir".toList "temp".toList
    "RUNTIME_TEMP_DIR".toList
  let _ ← runtimePath runtime config environ "offline_result_dir".toList "results/offline".toList
    "RUNTIME_OFFLINE_RESULT_DIR".toList
  let localFilesDir ← runtimePath runtime config environ "local_files_dir".toList "files".toList
    "RUNTIME_LOCAL_FILES_DIR".toList
  return (sqlitePath, localFilesDir)

/-- A value of a section: `self._env(key, env_var, section.get(name, default))`. -/
def sectionValue (parts : List Text) (name envVar : Text) (default : Yaml) : Yaml :=
  getEnv config environ (join '.' (parts ++ [name])) envVar
    (Section.get (sectionAt (.dict config) parts) name default)

/-- The type of a choice: its section's, its variable's, or the local one. -/
def builtType (choice : Choice) : Text :=
  runtime.lower (strip (runtime.textOr
    (sectionValue config environ [choice.key] "type".toList choice.envVar (.str choice.fallback))
    choice.fallback))

/-- The values of `database.sqlite`. -/
def sqliteValue (name envVar : String) (default : Yaml) : Yaml :=
  sectionValue config environ ["database".toList, "sqlite".toList] name.toList envVar.toList default

/-- The values of `database.mysql`. -/
def mysqlValue (name envVar : String) (default : Yaml) : Yaml :=
  sectionValue config environ ["database".toList, "mysql".toList] name.toList envVar.toList default

/-- The values of `storage.s3`. -/
def s3Value (name envVar default : String) : Text :=
  runtime.textOr (sectionValue config environ ["storage".toList, "s3".toList] name.toList
    envVar.toList (.str default.toList)) []

/-- `TypedConfigBuilder.database`. -/
def buildDatabase : Except ReadError DatabaseConfig := do
  let type := builtType runtime config environ database
  let (sqlitePath, _) ← allPaths runtime config environ
  let sqlite : SQLiteConfig := {
    path := sqlitePath
    poolSize := ← asInt runtime (sqliteValue config environ "pool_size" "SQLITE_POOL_SIZE" (.int 5))
    poolRecycle := ← asInt runtime
      (sqliteValue config environ "pool_recycle" "SQLITE_POOL_RECYCLE" (.int 3600))
    echo := asBool runtime (sqliteValue config environ "echo" "SQLITE_ECHO" (.bool false)) false }
  let mysql : MySQLConfig := {
    host := mysqlValue config environ "host" "DB_HOST" (.str "localhost".toList)
    port := ← asInt runtime (mysqlValue config environ "port" "DB_PORT" (.int 3306))
    username := mysqlValue config environ "username" "DB_USER" (.str "root".toList)
    password := mysqlValue config environ "password" "DB_PASSWORD" (.str "password".toList)
    database := mysqlValue config environ "database" "DB_NAME" (.str "funasr_tasks".toList)
    poolSize := ← asInt runtime (mysqlValue config environ "pool_size" "DB_POOL_SIZE" (.int 20))
    poolRecycle := ← asInt runtime
      (mysqlValue config environ "pool_recycle" "DB_POOL_RECYCLE" (.int 3600))
    echo := asBool runtime (mysqlValue config environ "echo" "DB_ECHO" (.bool false)) false }
  return ⟨type, sqlite, mysql⟩

/-- `TypedConfigBuilder.storage`. -/
def buildStorage : Except ReadError StorageConfig := do
  let type := builtType runtime config environ storage
  let (_, localFilesDir) ← allPaths runtime config environ
  let localPrefix := sectionValue config environ ["storage".toList, "local".toList]
    "prefix".toList "STORAGE_LOCAL_PREFIX".toList (.str "audio".toList)
  let localFiles : LocalStorageConfig :=
    ⟨localFilesDir, stripChars ['/', '\\'] (runtime.textOr localPrefix [])⟩
  let s3 : S3StorageConfig := {
    endpoint := s3Value runtime config environ "endpoint" "S3_ENDPOINT" ""
    accessKey := s3Value runtime config environ "access_key" "S3_ACCESS_KEY" ""
    secretKey := s3Value runtime config environ "secret_key" "S3_SECRET_KEY" ""
    bucket := s3Value runtime config environ "bucket" "S3_BUCKET" "funasr-audio"
    region := s3Value runtime config environ "region" "S3_REGION" "us-east-1"
    keyPrefix := stripChars ['/'] (s3Value runtime config environ "prefix" "S3_PREFIX" "audio") }
  return ⟨type, localFiles, s3⟩

/-- What the database manager is given. -/
structure DatabaseSettings where
  dbUrl : Text
  poolSize : ℤ
  poolRecycle : ℤ
  echo : Bool

/-- `MySQLConfig.url`. -/
def MySQLConfig.url (mysql : MySQLConfig) : Text :=
  "mysql+pymysql://".toList ++ runtime.quotePlus (runtime.shown mysql.username) ++ ':' ::
    runtime.quotePlus (runtime.shown mysql.password) ++ '@' :: runtime.shown mysql.host ++ ':' ::
    runtime.shown (.int mysql.port) ++ '/' :: runtime.shown mysql.database

/-- `build_task_repository`, up to the manager that it opens. -/
def buildTaskRepository : Except BuildError DatabaseSettings := do
  let databaseConfig ← (buildDatabase runtime config environ).mapError .read
  if databaseConfig.type = "sqlite".toList then
    let sqlite := databaseConfig.sqlite
    return ⟨"sqlite:///".toList ++ sqlite.path, sqlite.poolSize, sqlite.poolRecycle, sqlite.echo⟩
  else if databaseConfig.type = "mysql".toList then
    let mysql := databaseConfig.mysql
    return ⟨mysql.url runtime, mysql.poolSize, mysql.poolRecycle, mysql.echo⟩
  else .error (.unsupportedDatabaseType databaseConfig.type)

/-- The store that is built. -/
inductive AudioBackupStore
  | localFiles (settings : LocalStorageConfig)
  | s3 (settings : S3StorageConfig)

/-- `build_audio_backup_store`. -/
def buildAudioBackupStore : Except BuildError AudioBackupStore := do
  let storageConfig ← (buildStorage runtime config environ).mapError .read
  if storageConfig.type = "local".toList then return .localFiles storageConfig.localFiles
  else if storageConfig.type = "s3".toList then return .s3 storageConfig.s3
  else .error (.unsupportedStorageType storageConfig.type)

end Builder

section Agreement

variable {runtime : Runtime} {config : Section} {environ : Environ}

/-- Keys without dots are looked up in their section. -/
theorem sectionValue_eq {parts : List Text} {name : Text}
    (h : ∀ part ∈ parts ++ [name], '.' ∉ part) (envVar : Text) (default : Yaml) :
    sectionValue config environ parts name envVar default =
      envOrValue environ envVar (Section.get (sectionAt (.dict config) parts) name default) :=
  getEnv_section (split_join h (by simp)) environ envVar default

theorem Choice.typeSection_eq (choice : Choice) :
    choice.typeSection config = sectionAt (.dict config) [choice.key] := rfl

theorem Choice.remoteSection_eq (choice : Choice) :
    choice.remoteSection config = sectionAt (.dict config) [choice.key, choice.remote] := by
  rw [Choice.remoteSection, Choice.typeSection, sectionAt]
  cases Section.get config choice.key .null <;> rfl

/-- The builders choose the type that the validator has seen. -/
theorem builtType_eq_chosen {choice : Choice} (h : '.' ∉ choice.key) :
    builtType runtime config environ choice = choice.chosen runtime config environ := by
  have hparts : ∀ part ∈ [choice.key] ++ ["type".toList], '.' ∉ part := by
    simp [h]
  rw [builtType, sectionValue_eq hparts, Choice.chosen, Choice.typeSection_eq]

theorem blank_null : runtime.Blank .null := rfl

/-- A value that is not blank is built as it was checked, whatever the default. -/
theorem sectionValue_eq_checked {choice : Choice} {field : Field}
    (hparts : ∀ part ∈ [choice.key, choice.remote] ++ [field.key], '.' ∉ part)
    (h : ¬ runtime.Blank (choice.checked config environ field)) (default : Yaml) :
    sectionValue config environ [choice.key, choice.remote] field.key field.envVar default =
      choice.checked config environ field := by
  rw [sectionValue_eq hparts]
  unfold Choice.checked at h ⊢
  rw [Choice.remoteSection_eq] at h ⊢
  unfold envOrValue Section.get at h ⊢
  cases hvar : environ field.envVar with
  | some value => rfl
  | none =>
    rw [hvar] at h
    cases hlookup : List.lookup (some field.key)
        (sectionAt (.dict config) [choice.key, choice.remote]) with
    | some value => rfl
    | none =>
      rw [hlookup] at h
      exact absurd blank_null h

/-- What goes on after a value was read. -/
theorem bind_eq_ok_iff {ε α β : Type} {x : Except ε α} {f : α → Except ε β} {b : β} :
    x >>= f = .ok b ↔ ∃ a, x = .ok a ∧ f a = .ok b := by
  cases x <;> simp [bind, Except.bind]

/-- The database that is built, as far as its values are not numbers. -/
theorem of_buildDatabase_eq_ok {built : DatabaseConfig}
    (h : buildDatabase runtime config environ = .ok built) :
    built.type = builtType runtime config environ database ∧
      built.mysql.host = mysqlValue config environ "host" "DB_HOST" (.str "localhost".toList) ∧
      built.mysql.username = mysqlValue config environ "username" "DB_USER" (.str "root".toList) ∧
      built.mysql.database =
        mysqlValue config environ "database" "DB_NAME" (.str "funasr_tasks".toList) := by
  unfold buildDatabase at h
  simp only [bind_eq_ok_iff] at h
  obtain ⟨paths, -, poolSize, -, poolRecycle, -, port, -, mysqlPoolSize, -, mysqlPoolRecycle, -,
    hbuilt⟩ := h
  cases hbuilt
  exact ⟨rfl, rfl, rfl, rfl⟩

/-- The storage that is built. -/
theorem of_buildStorage_eq_ok {built : StorageConfig}
    (h : buildStorage runtime config environ = .ok built) :
    built.type = builtType runtime config environ storage ∧
      built.s3.endpoint = s3Value runtime config environ "endpoint" "S3_ENDPOINT" "" ∧
      built.s3.accessKey = s3Value runtime config environ "access_key" "S3_ACCESS_KEY" "" ∧
      built.s3.secretKey = s3Value runtime config environ "secret_key" "S3_SECRET_KEY" "" ∧
      built.s3.bucket = s3Value runtime config environ "bucket" "S3_BUCKET" "funasr-audio" := by
  unfold buildStorage at h
  simp only [bind_eq_ok_iff] at h
  obtain ⟨paths, -, hbuilt⟩ := h
  cases hbuilt
  exact ⟨rfl, rfl, rfl, rfl, rfl⟩

/-- The keys of a choice have no dots. -/
def Choice.Undotted (choice : Choice) : Prop :=
  '.' ∉ choice.key ∧ ∀ field ∈ choice.required,
    ∀ part ∈ [choice.key, choice.remote] ++ [field.key], '.' ∉ part

theorem undotted_database : database.Undotted := by
  unfold Choice.Undotted
  decide

theorem undotted_storage : storage.Undotted := by
  unfold Choice.Undotted
  decide

/-- Without a violation what is built is of one of the two types. -/
theorem builtType_mem {choice : Choice} (hundotted : choice.Undotted)
    (h : choice.typeViolations runtime config environ = []) :
    builtType runtime config environ choice ∈ [choice.fallback, choice.remote] := by
  rw [builtType_eq_chosen hundotted.1]
  exact (Choice.of_typeViolations_eq_nil h).1

/-- Without a violation a remote service is built of values that were checked. -/
theorem sectionValue_required {choice : Choice} (hundotted : choice.Undotted)
    (h : choice.typeViolations runtime config environ = [])
    (hremote : builtType runtime config environ choice = choice.remote) {field : Field}
    (hfield : field ∈ choice.required) (default : Yaml) :
    sectionValue config environ [choice.key, choice.remote] field.key field.envVar default =
        choice.checked config environ field ∧
      ¬ runtime.Blank (choice.checked config environ field) := by
  rw [builtType_eq_chosen hundotted.1] at hremote
  have hvisible := (Choice.of_typeViolations_eq_nil h).2 hremote field hfield
  exact ⟨sectionValue_eq_checked (hundotted.2 field hfield) hvisible default, hvisible⟩

/-- The database of an accepted configuration is the one that was checked. -/
theorem buildDatabase_of_accepted (h : rejectRemovedConfiguration runtime config environ = .ok ())
    {built : DatabaseConfig} (hbuilt : buildDatabase runtime config environ = .ok built) :
    built.type ∈ ["sqlite".toList, "mysql".toList] ∧
      built.type = database.chosen runtime config environ ∧
      (built.type = "mysql".toList →
        [built.mysql.host, built.mysql.username, built.mysql.database] =
            database.required.map (database.checked config environ) ∧
          ∀ value ∈ [built.mysql.host, built.mysql.username, built.mysql.database],
            ¬ runtime.Blank value) := by
  obtain ⟨htype, hhost, husername, hdatabase⟩ := of_buildDatabase_eq_ok hbuilt
  have hnone := (typeViolations_of_accepted h).1
  rw [htype]
  refine ⟨builtType_mem undotted_database hnone, builtType_eq_chosen undotted_database.1,
    fun hmysql => ?_⟩
  have hchecked : ∀ field ∈ database.required, ∀ default,
      sectionValue config environ [database.key, database.remote] field.key field.envVar default =
        database.checked config environ field :=
    fun _ hfield default => (sectionValue_required undotted_database hnone hmysql hfield default).1
  have hvalues : [built.mysql.host, built.mysql.username, built.mysql.database] =
      database.required.map (database.checked config environ) := by
    rw [hhost, husername, hdatabase]
    exact congrArg₂ List.cons (hchecked _ (.head _) _)
      (congrArg₂ List.cons (hchecked _ (.tail _ (.head _)) _)
        (congrArg₂ List.cons (hchecked _ (.tail _ (.tail _ (.head _))) _) rfl))
  refine ⟨hvalues, ?_⟩
  rw [hvalues]
  exact List.forall_mem_map.mpr fun field hfield =>
    (sectionValue_required undotted_database hnone hmysql hfield .null).2

/-- The storage of an accepted configuration is the one that was checked. -/
theorem buildStorage_of_accepted (h : rejectRemovedConfiguration runtime config environ = .ok ())
    {built : StorageConfig} (hbuilt : buildStorage runtime config environ = .ok built) :
    built.type ∈ ["local".toList, "s3".toList] ∧
      built.type = storage.chosen runtime config environ ∧
      (built.type = "s3".toList →
        [built.s3.endpoint, built.s3.accessKey, built.s3.secretKey, built.s3.bucket] =
            storage.required.map (fun field =>
              runtime.textOr (storage.checked config environ field) []) ∧
          ∀ text ∈ [built.s3.endpoint, built.s3.accessKey, built.s3.secretKey, built.s3.bucket],
            strip text ≠ []) := by
  obtain ⟨htype, hendpoint, haccessKey, hsecretKey, hbucket⟩ := of_buildStorage_eq_ok hbuilt
  have hnone := (typeViolations_of_accepted h).2
  rw [htype]
  refine ⟨builtType_mem undotted_storage hnone, builtType_eq_chosen undotted_storage.1,
    fun hs3 => ?_⟩
  have hchecked : ∀ field ∈ storage.required, ∀ default,
      runtime.textOr (sectionValue config environ [storage.key, storage.remote] field.key
        field.envVar default) [] = runtime.textOr (storage.checked config environ field) [] :=
    fun _ hfield default => by
      rw [(sectionValue_required undotted_storage hnone hs3 hfield default).1]
  have hvalues : [built.s3.endpoint, built.s3.accessKey, built.s3.secretKey, built.s3.bucket] =
      storage.required.map (fun field =>
        runtime.textOr (storage.checked config environ field) []) := by
    rw [hendpoint, haccessKey, hsecretKey, hbucket]
    exact congrArg₂ List.cons (hchecked _ (.head _) _)
      (congrArg₂ List.cons (hchecked _ (.tail _ (.head _)) _)
        (congrArg₂ List.cons (hchecked _ (.tail _ (.tail _ (.head _))) _)
          (congrArg₂ List.cons (hchecked _ (.tail _ (.tail _ (.tail _ (.head _)))) _) rfl)))
  refine ⟨hvalues, ?_⟩
  rw [hvalues]
  exact List.forall_mem_map.mpr fun field hfield =>
    (sectionValue_required undotted_storage hnone hs3 hfield .null).2

/-- If a service is built of every configuration that is read, what fails is reading. -/
theorem read_of_error {α β : Type} {read : Except ReadError α} {build : α → Except BuildError β}
    (hbuild : ∀ typed, read = .ok typed → ∃ service, build typed = .ok service)
    {error : BuildError} (h : read.mapError .read >>= build = .error error) :
    ∃ raised, read = .error raised ∧ error = .read raised := by
  cases hread : read with
  | error raised =>
    rw [hread] at h
    cases h
    exact ⟨raised, rfl, rfl⟩
  | ok typed =>
    obtain ⟨service, hservice⟩ := hbuild typed hread
    rw [hread] at h
    cases hservice.symm.trans h

/-- A repository of a known type is built. -/
theorem buildTaskRepository_error
    (hbuilt : ∀ built, buildDatabase runtime config environ = .ok built →
      built.type ∈ ["sqlite".toList, "mysql".toList])
    {error : BuildError} (h : buildTaskRepository runtime config environ = .error error) :
    ∃ raised, buildDatabase runtime config environ = .error raised ∧ error = .read raised := by
  refine read_of_error (fun built hread => ?_) h
  by_cases hsqlite : built.type = "sqlite".toList
  · exact ⟨_, if_pos hsqlite⟩
  · have hmysql := List.mem_singleton.mp
      ((List.mem_cons.mp (hbuilt built hread)).resolve_left hsqlite)
    exact ⟨_, (if_neg hsqlite).trans (if_pos hmysql)⟩

/-- So is a store. -/
theorem buildAudioBackupStore_error
    (hbuilt : ∀ built, buildStorage runtime config environ = .ok built →
      built.type ∈ ["local".toList, "s3".toList])
    {error : BuildError} (h : buildAudioBackupStore runtime config environ = .error error) :
    ∃ raised, buildStorage runtime config environ = .error raised ∧ error = .read raised := by
  refine read_of_error (fun built hread => ?_) h
  by_cases hlocal : built.type = "local".toList
  · exact ⟨_, if_pos hlocal⟩
  · have hs3 := List.mem_singleton.mp ((List.mem_cons.mp (hbuilt built hread)).resolve_left hlocal)
    exact ⟨_, (if_neg hlocal).trans (if_pos hs3)⟩

end Agreement

/-- In an accepted configuration the validator and the builders have read the same types and the
same values, and no service of an unsupported type is asked for: what fails is reading. -/
theorem accepted_builds (runtime : Runtime) (config : Section) (environ : Environ)
    (h : rejectRemovedConfiguration runtime config environ = .ok ()) :
    (∀ built, buildDatabase runtime config environ = .ok built →
      built.type ∈ ["sqlite".toList, "mysql".toList] ∧
        built.type = database.chosen runtime config environ ∧
        (built.type = "mysql".toList →
          [built.mysql.host, built.mysql.username, built.mysql.database] =
              database.required.map (database.checked config environ) ∧
            ∀ value ∈ [built.mysql.host, built.mysql.username, built.mysql.database],
              ¬ runtime.Blank value)) ∧
      (∀ built, buildStorage runtime config environ = .ok built →
        built.type ∈ ["local".toList, "s3".toList] ∧
          built.type = storage.chosen runtime config environ ∧
          (built.type = "s3".toList →
            [built.s3.endpoint, built.s3.accessKey, built.s3.secretKey, built.s3.bucket] =
                storage.required.map (fun field =>
                  runtime.textOr (storage.checked config environ field) []) ∧
              ∀ text ∈ [built.s3.endpoint, built.s3.accessKey, built.s3.secretKey,
                built.s3.bucket], strip text ≠ [])) ∧
      (∀ error, buildTaskRepository runtime config environ = .error error →
        ∃ raised, buildDatabase runtime config environ = .error raised ∧ error = .read raised) ∧
      (∀ error, buildAudioBackupStore runtime config environ = .error error →
        ∃ raised, buildStorage runtime config environ = .error raised ∧ error = .read raised) :=
  ⟨fun _ hbuilt => buildDatabase_of_accepted h hbuilt,
    fun _ hbuilt => buildStorage_of_accepted h hbuilt,
    fun _ herror => buildTaskRepository_error
      (fun _ hbuilt => (buildDatabase_of_accepted h hbuilt).1) herror,
    fun _ herror => buildAudioBackupStore_error
      (fun _ hbuilt => (buildStorage_of_accepted h hbuilt).1) herror⟩

/-- A Python for values that are not nested. -/
def plainRuntime : Runtime where
  str
    | .null => "None".toList
    | .bool b => if b then "True".toList else "False".toList
    | .int n => (toString n).toList
    | .float shown => shown
    | .str t => t
    | .list _ => "[...]".toList
    | .dict _ => "\x7b...\x7d".toList
    | .other _ shown => shown
  repr text := "'".toList ++ text ++ "'".toList
  lower text := text.map Char.toLower
  int
    | .bool b => some (if b then 1 else 0)
    | .int n => some n
    | .str t => (String.ofList t).toInt?
    | _ => none
  quotePlus text := text

/-- A database whose type and host are left to the environment, and a storage. -/
def remoteConfig : Section :=
  [(some "database".toList, .dict [(some "type".toList, .null),
      (some "mysql".toList, .dict [(some "host".toList, .null),
        (some "username".toList, .str "app".toList),
        (some "database".toList, .str "tasks".toList)])]),
    (some "storage".toList, .dict [(some "type".toList, .str " S3".toList),
      (some "s3".toList, .dict [(some "endpoint".toList, .str "http://minio".toList),
        (some "access_key".toList, .str "key".toList), (some "secret_key".toList, .int 7),
        (some "bucket".toList, .str "audio".toList)])])]

/-- The environment of `remoteConfig`. -/
def remoteEnviron (envVar : Text) : Option Text :=
  if envVar = "DATABASE_TYPE".toList then some "MySQL".toList
  else if envVar = "DB_HOST".toList then some "db".toList
  else none

/-- They are accepted, and both remote services are built with what they need. -/
theorem accepted_builds_remote :
    rejectRemovedConfiguration plainRuntime remoteConfig remoteEnviron = .ok () ∧
      (∃ built, buildDatabase plainRuntime remoteConfig remoteEnviron = .ok built ∧
        built.type = "mysql".toList ∧
        ∀ value ∈ [built.mysql.host, built.mysql.username, built.mysql.database],
          ¬ plainRuntime.Blank value) ∧
      ∃ built, buildStorage plainRuntime remoteConfig remoteEnviron = .ok built ∧
        built.type = "s3".toList ∧
        ∀ text ∈ [built.s3.endpoint, built.s3.accessKey, built.s3.secretKey, built.s3.bucket],
          strip text ≠ [] := by
  have haccepted : rejectRemovedConfiguration plainRuntime remoteConfig remoteEnviron = .ok () := by
    decide +kernel
  obtain ⟨hdatabase, hstorage, -, -⟩ := accepted_builds _ _ _ haccepted
  have hmysql : (buildDatabase plainRuntime remoteConfig remoteEnviron).toOption.map
      DatabaseConfig.type = some "mysql".toList := by decide +kernel
  have hs3 : (buildStorage plainRuntime remoteConfig remoteEnviron).toOption.map
      StorageConfig.type = some "s3".toList := by decide +kernel
  refine ⟨haccepted, ?_, ?_⟩
  · cases hbuilt : buildDatabase plainRuntime remoteConfig remoteEnviron with
    | error raised => rw [hbuilt] at hmysql; cases hmysql
    | ok built =>
      rw [hbuilt] at hmysql
      have htype : built.type = "mysql".toList := Option.some.inj hmysql
      exact ⟨built, rfl, htype, ((hdatabase built hbuilt).2.2 htype).2⟩
  · cases hbuilt : buildStorage plainRuntime remoteConfig remoteEnviron with
    | error raised => rw [hbuilt] at hs3; cases hs3
    | ok built =>
      rw [hbuilt] at hs3
      have htype : built.type = "s3".toList := Option.some.inj hs3
      exact ⟨built, rfl, htype, ((hstorage built hbuilt).2.2 htype).2⟩

end FunasrApi.Config
