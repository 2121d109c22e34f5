import FunasrApi.Config.Source

/-!
# Which configurations are accepted

The validator collects what is wrong with a configuration: keys and variables that are
gone, a type of database or storage that there is not, and a remote one without the values
it needs. The two types are checked in the same way.
-/

namespace FunasrApi.Config

open FunasrApi.Core Text

/-- `REMOVED_CONFIG_KEYS`. -/
def removedConfigKeys : List (String × String) :=
  [("engines.model_dir", "runtime.models_dir"),
    ("database.sqlite.path", "runtime.sqlite_path"),
    ("processing.temp_dir", "runtime.temp_dir"),
    ("results.offline.dir", "runtime.offline_result_dir"),
    ("storage.local.dir", "runtime.local_files_dir"),
    ("messaging", "notifications"),
    ("engines.models.spk.pt", "engines.models.spk.spk"),
    ("engines.models.spk.onnx", "engines.models.spk.spk"),
    ("engines.models.spk.enabled", "engines.models.spk.spk"),
    ("database.url", "database.type + database.mysql/database.sqlite"),
    ("database.enabled", "database.type"),
    ("storage.s3.enabled", "storage.type"),
    ("storage.s3.save_original", "storage.type")]

/-- `REMOVED_ENV_VARS`. -/
def removedEnvVars : List (String × String) :=
  [("ENGINES_MODEL_DIR", "RUNTIME_MODELS_DIR"),
    ("SQLITE_PATH", "RUNTIME_SQLITE_PATH"),
    ("PROCESSING_TEMP_DIR", "RUNTIME_TEMP_DIR"),
    ("OFFLINE_RESULT_DIR", "RUNTIME_OFFLINE_RESULT_DIR"),
    ("LOCAL_STORAGE_DIR", "RUNTIME_LOCAL_FILES_DIR"),
    ("DATABASE_URL", "DATABASE_TYPE + DB_HOST/DB_PORT/DB_USER/DB_PASSWORD/DB_NAME")]

/-- `_contains_dotted_key`, over the parts of the key. -/
def containsParts : Yaml → List Text → Bool
  | _, [] => true
  | .dict entries, part :: parts =>
    match entries.lookup (some part) with
    | some value => containsParts value parts
    | none => false
  | _, _ :: _ => false

/-- A value that is looked for in a section and, before that, in a variable. -/
structure Field where
  key : Text
  envVar : Text

/-- What the validator knows of a choice between a local and a remote service. -/
structure Choice where
  /-- The section with the type. -/
  key : Text
  envVar : Text
  /-- The local type, which is the default. -/
  fallback : Text
  /-- The remote type, and the section with its values. -/
  remote : Text
  /-- What the remote one needs. -/
  required : List Field
  /-- The keys and the variables that hint at the remote one. -/
  hints : List Text
  hintVars : List Text
  unsupported : Text
  missing : Text
  hint : Text

/-- The choice of `database.type`. -/
def database : Choice where
  key := "database".toList
  envVar := "DATABASE_TYPE".toList
  fallback := "sqlite".toList
  remote := "mysql".toList
  required := [⟨"host".toList, "DB_HOST".toList⟩, ⟨"username".toList, "DB_USER".toList⟩,
    ⟨"database".toList, "DB_NAME".toList⟩]
  hints := ["host".toList, "username".toList, "password".toList, "database".toList]
  hintVars := ["DB_HOST".toList, "DB_USER".toList, "DB_PASSWORD".toList, "DB_NAME".toList]
  unsupported := "配置键 database.type 仅支持 sqlite/mysql，当前值为 ".toList
  missing := "database.type=mysql 时缺少必需配置：".toList
  hint := "检测到 MySQL 参数但未配置 database.type；请显式设置 database.type: mysql".toList

/-- The choice of `storage.type`. -/
def storage : Choice where
  key := "storage".toList
  envVar := "STORAGE_TYPE".toList
  fallback := "local".toList
  remote := "s3".toList
  required := [⟨"endpoint".toList, "S3_ENDPOINT".toList⟩,
    ⟨"access_key".toList, "S3_ACCESS_KEY".toList⟩, ⟨"secret_key".toList, "S3_SECRET_KEY".toList⟩,
    ⟨"bucket".toList, "S3_BUCKET".toList⟩]
  hints := ["endpoint".toList, "access_key".toList, "secret_key".toList]
  hintVars := ["S3_ENDPOINT".toList, "S3_ACCESS_KEY".toList, "S3_SECRET_KEY".toList]
  unsupported := "配置键 storage.type 仅支持 local/s3，当前值为 ".toList
  missing := "storage.type=s3 时缺少必需配置：".toList
  hint := "检测到 S3 参数但未配置 storage.type；请显式设置 storage.type: s3".toList

section Validator

variable (runtime : Runtime) (config : Section) (environ : Environ)

namespace Choice

variable (choice : Choice)

/-- The section with the type, or nothing. -/
def typeSection : Section := (Section.get config choice.key .null).mapping

/-- The section with the values of the remote service, or nothing. -/
def remoteSection : Section :=
  (Section.get (choice.typeSection config) choice.remote .null).mapping

/-- `database_type` and `storage_type`. -/
def chosen : Text :=
  let value := envOrValue environ choice.envVar
    (Section.get (choice.typeSection config) "type".toList (.str choice.fallback))
  runtime.lower (strip (runtime.textOr value choice.fallback))

/-- A value of `required_mysql` or `required_s3`. -/
def checked (field : Field) : Yaml :=
  envOrValue environ field.envVar (Section.get (choice.remoteSection config) field.key .null)

/-- The required keys that have no value. -/
def missingKeys : List Text :=
  (choice.required.filter fun field => runtime.Blank (choice.checked config environ field)).map
    Field.key

/-- What is wrong with the type. -/
def typeViolations : List Text :=
  if choice.chosen runtime config environ ∉ [choice.fallback, choice.remote] then
    [choice.unsupported ++ runtime.repr (choice.chosen runtime config environ)]
  else if choice.chosen runtime config environ = choice.remote then
    let place := choice.key ++ '.' :: choice.remote ++ ['.']
    match choice.missingKeys runtime config environ with
    | [] => []
    | keys => [choice.missing ++ place ++ (", ".toList ++ place).intercalate keys]
  else []

/-- Values of the remote service without a type. -/
def hintViolations : List Text :=
  if !(choice.typeSection config).has "type".toList && (environ choice.envVar).isNone &&
      (choice.hints.any (fun key =>
          (Section.get (choice.remoteSection config) key .null).truth) ||
        choice.hintVars.any fun envVar => (environ envVar).isSome) then
    [choice.hint]
  else []

end Choice

/-- The keys that are gone. -/
def removedKeyViolations : List Text :=
  (removedConfigKeys.filter fun removed =>
    containsParts (.dict config) (split '.' removed.1.toList)).map fun removed =>
      s!"配置键 {removed.1} 已删除，请改用 {removed.2}".toList

/-- The variables that are gone. -/
def removedVarViolations : List Text :=
  (removedEnvVars.filter fun removed => (environ removed.1.toList).isSome).map fun removed =>
    s!"环境变量 {removed.1} 已删除，请改用 {removed.2}".toList

/-- Notifications of another type. -/
def notificationViolations : List Text :=
  let notifications := (Section.get config "notifications".toList .null).mapping
  let type := runtime.shown (Section.get notifications "type".toList (.str []))
  if (Section.get notifications "enabled".toList .null).truth &&
      runtime.lower (strip type) ≠ "rocketmq".toList then
    ["notifications.enabled=true 时 notifications.type 仅支持 rocketmq".toList]
  else []

/-- `violations`, in the order in which they are found. -/
def violations : List Text :=
  removedKeyViolations config ++ removedVarViolations environ ++
    database.typeViolations runtime config environ ++
    storage.typeViolations runtime config environ ++ database.hintViolations config environ ++
    storage.hintViolations config environ ++ notificationViolations runtime config

/-- `reject_removed_configuration`. -/
def rejectRemovedConfiguration : Except Text Unit :=
  match violations runtime config environ with
  | [] => .ok ()
  | found => .error ("配置校验失败：\n- ".toList ++ "\n- ".toList.intercalate found)

variable {runtime config environ} {choice : Choice}

/-- A configuration is accepted if nothing is found. -/
theorem rejectRemovedConfiguration_eq_ok_iff :
    rejectRemovedConfiguration runtime config environ = .ok () ↔
      violations runtime config environ = [] := by
  unfold rejectRemovedConfiguration
  cases violations runtime config environ <;> simp

/-- Without a violation the type is one of the two, and the remote one has what it needs. -/
theorem Choice.of_typeViolations_eq_nil (h : choice.typeViolations runtime config environ = []) :
    choice.chosen runtime config environ ∈ [choice.fallback, choice.remote] ∧
      (choice.chosen runtime config environ = choice.remote →
        ∀ field ∈ choice.required, ¬ runtime.Blank (choice.checked config environ field)) := by
  unfold Choice.typeViolations at h
  split at h
  · cases h
  · next hsupported =>
    refine ⟨not_not.mp hsupported, fun hremote field hfield hblank => ?_⟩
    rw [if_pos hremote] at h
    have hmissing : field.key ∈ choice.missingKeys runtime config environ :=
      List.mem_map_of_mem (List.mem_filter.mpr ⟨hfield, by simpa using hblank⟩)
    dsimp only at h
    split at h
    · next hnone => exact absurd hmissing (hnone ▸ List.not_mem_nil)
    · cases h

/-- So it is in an accepted configuration. -/
theorem typeViolations_of_accepted
    (h : rejectRemovedConfiguration runtime config environ = .ok ()) :
    database.typeViolations runtime config environ = [] ∧
      storage.typeViolations runtime config environ = [] := by
  have hnone := rejectRemovedConfiguration_eq_ok_iff.mp h
  unfold violations at hnone
  simp only [List.append_eq_nil_iff] at hnone
  exact ⟨hnone.1.1.1.1.2, hnone.1.1.1.2⟩

end Validator

end FunasrApi.Config
