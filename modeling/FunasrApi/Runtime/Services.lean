import FunasrApi.Config.Builders

/-!
# The runtime services

A service preloads one model and remembers how that went. Which services there are follows from
the enabled modes and their backends: OFFLINE needs the speaker service, too, when its backend
cannot tell speakers apart or when they are verified a second time. The factory makes each service
once, and preloading visits every service that an enabled mode needs, each of them once.
-/

namespace FunasrApi.Runtime

open FunasrApi.Config

/-- What stops the start of the application. -/
inductive StartError
  /-- `EngineConfigurationError`. -/
  | configuration (message : String)
  /-- An `AttributeError`: a section of the configuration is no mapping. -/
  | noSection
  /-- `StartupDependencyError`. -/
  | dependency (message : String)

/-- `ENGINE_MODES`. -/
inductive EngineMode
  | offline
  | online
  | spk
  deriving DecidableEq, Repr

/-- The name of a mode in the configuration. -/
def EngineMode.name : EngineMode → String
  | .offline => "offline"
  | .online => "online"
  | .spk => "spk"

/-- The mode with a name. -/
def EngineMode.ofName? (name : String) : Option EngineMode :=
  [EngineMode.offline, .online, .spk].find? fun mode => mode.name = name

/-- The backend of an engine. -/
inductive Backend
  | pt
  | onnx
  deriving DecidableEq, Repr

/-- The name of a backend in the configuration. -/
def Backend.name : Backend → String
  | .pt => "pt"
  | .onnx => "onnx"

/-- The backend with a name. -/
def Backend.ofName? (name : String) : Option Backend :=
  [Backend.pt, .onnx].find? fun backend => backend.name = name

/-- `EnginesConfig` and the flag of `ProcessingConfig`, as far as the plan of the services reads
them. -/
structure EnginesConfig where
  /-- `engines.enabled`. -/
  enabled : List String
  /-- `engines.models.offline.enabled`. -/
  offlineBackend : String
  /-- `engines.models.online.enabled`. -/
  onlineBackend : String
  offlineSpkVerificationEnabled : Bool

namespace EnginesConfig

/-- The enabled modes, as far as their names are known. -/
def modes (config : EnginesConfig) : List EngineMode :=
  config.enabled.filterMap EngineMode.ofName?

/-- `enabled_engine_modes`. -/
def enabledEngineModes (config : EnginesConfig) : Except StartError (List EngineMode) :=
  let unsupported := config.enabled.filter fun mode => EngineMode.ofName? mode = none
  if unsupported ≠ [] then
    .error (.configuration
      ("engines.enabled 只能配置 offline/online/spk，非法值: " ++ ", ".intercalate unsupported))
  else .ok config.modes

/-- The `enabled` of a mode that can choose its backend. -/
def backendOr (mode backend : String) : Except StartError Backend :=
  match Backend.ofName? backend with
  | some backend => .ok backend
  | none =>
    .error (.configuration (mode ++ " backend 配置非法: " ++ backend ++ "，仅支持 pt/onnx"))

/-- `backend_for_mode`. -/
def backendForMode (config : EnginesConfig) : EngineMode → Except StartError Backend
  | .spk => .ok .pt
  | .offline => backendOr "OFFLINE" config.offlineBackend
  | .online => backendOr "ONLINE" config.onlineBackend

end EnginesConfig

/-- `OfflineOnnxRuntimeOptions`, with what was checked. -/
structure OfflineOnnxRuntimeOptions where
  asrWorkers : ℤ
  loadWorkers : ℤ
  sampleRate : ℤ
  vadPaddingMs : ℤ
  one_le_asrWorkers : 1 ≤ asrWorkers
  one_le_loadWorkers : 1 ≤ loadWorkers
  one_le_sampleRate : 1 ≤ sampleRate
  vadPaddingMs_nonneg : 0 ≤ vadPaddingMs

section Options

variable (runtime : Config.Runtime)

/-- `section.get(key, {})`, on what should be a mapping. -/
def subsection (key : String) : Yaml → Except StartError Yaml
  | .dict entries => .ok (Section.get entries key.toList (.dict []))
  | _ => .error .noSection

/-- `int_setting`. -/
def intSetting (entries : Section) (name : String) (default : ℤ) : Except StartError ℤ :=
  match runtime.int (Section.get entries name.toList (.int default)) with
  | some n => .ok n
  | none => .error (.configuration ("OFFLINE ONNX 运行时配置非法：" ++ name ++ " 必须是整数"))

/-- `offline_onnx_options`. -/
def offlineOnnxOptions (config : Section) : Except StartError OfflineOnnxRuntimeOptions := do
  let engines ← subsection "engines" (.dict config)
  let models ← subsection "models" engines
  let offline ← subsection "offline" models
  match ← subsection "onnx_runtime" offline with
  | .dict entries =>
    let asrWorkers ← intSetting runtime entries "asr_workers" 2
    let loadWorkers ← intSetting runtime entries "load_workers" 4
    let sampleRate ← intSetting runtime entries "sample_rate" 16000
    let vadPaddingMs ← intSetting runtime entries "vad_padding_ms" 300
    if hworkers : asrWorkers < 1 ∨ loadWorkers < 1 then
      .error (.configuration "OFFLINE ONNX 运行时配置非法：workers 必须 >= 1")
    else if hrate : sampleRate < 1 then
      .error (.configuration "OFFLINE ONNX 运行时配置非法：sample_rate 必须 >= 1")
    else if hpadding : vadPaddingMs < 0 then
      .error (.configuration "OFFLINE ONNX 运行时配置非法：vad_padding_ms 必须 >= 0")
    else
      return { asrWorkers, loadWorkers, sampleRate, vadPaddingMs,
               one_le_asrWorkers := Int.not_lt.mp fun h => hworkers (.inl h),
               one_le_loadWorkers := Int.not_lt.mp fun h => hworkers (.inr h),
               one_le_sampleRate := Int.not_lt.mp hrate,
               vadPaddingMs_nonneg := Int.not_lt.mp hpadding }
  | _ => .error .noSection

end Options

/-- The keys of the services. -/
inductive ServiceKey
  | offlineAsr
  | onlineAsr
  | speaker
  deriving DecidableEq, Repr

section Plan

variable (offlineBackend : Backend) (offlineSpkVerificationEnabled : Bool)

/-- `offline_requires_speaker`. -/
def offlineRequiresSpeaker : Bool := offlineBackend = .onnx || offlineSpkVerificationEnabled

/-- `service_keys_by_mode`. -/
def serviceKeysByMode : EngineMode → List ServiceKey
  | .offline =>
    if offlineRequiresSpeaker offlineBackend offlineSpkVerificationEnabled then
      [.offlineAsr, .speaker]
    else [.offlineAsr]
  | .online => [.onlineAsr]
  | .spk => [.speaker]

/-- The inner loop of `enabled_service_keys`; what was seen is what the keys are so far. -/
def addServiceKeys (keys : List ServiceKey) : List ServiceKey → List ServiceKey
  | [] => keys
  | key :: rest => addServiceKeys (if key ∈ keys then keys else keys ++ [key]) rest

/-- `enabled_service_keys`. -/
def enabledServiceKeys (enabledModes : List EngineMode) : List ServiceKey :=
  enabledModes.foldl
    (fun keys mode => addServiceKeys keys
      (serviceKeysByMode offlineBackend offlineSpkVerificationEnabled mode)) []

/-- `required_service_modes`. -/
def requiredServiceModes : EngineMode → List EngineMode
  | .offline =>
    if offlineRequiresSpeaker offlineBackend offlineSpkVerificationEnabled then [.offline, .spk]
    else [.offline]
  | .online => [.online]
  | .spk => [.spk]

end Plan

/-- The classes of services. -/
inductive ServiceClass
  | ptOfflineAsr
  | onnxOfflineAsr
  | ptOnlineAsr
  | onnxOnlineAsr
  | ptSpeaker
  deriving DecidableEq, Repr

namespace ServiceClass

/-- `name`. -/
def name : ServiceClass → String
  | ptOfflineAsr => "offline_asr_pt"
  | onnxOfflineAsr => "offline_asr_onnx"
  | ptOnlineAsr => "online_asr_pt"
  | onnxOnlineAsr => "online_asr_onnx"
  | ptSpeaker => "speaker_pt"

/-- `mode`. -/
def mode : ServiceClass → EngineMode
  | ptOfflineAsr | onnxOfflineAsr => .offline
  | ptOnlineAsr | onnxOnlineAsr => .online
  | ptSpeaker => .spk

/-- `backend`. -/
def backend : ServiceClass → Backend
  | ptOfflineAsr | ptOnlineAsr | ptSpeaker => .pt
  | onnxOfflineAsr | onnxOnlineAsr => .onnx

end ServiceClass

/-- A service of `RuntimeServiceBase`, without the time it took to preload. -/
structure RuntimeService where
  /-- Its class. -/
  cls : ServiceClass
  loaded : Bool := false
  lastError : Option String := none

/-- `ModelPreloadStatus`. -/
structure ModelPreloadStatus where
  serviceName : String
  mode : EngineMode
  backend : Backend
  loaded : Bool
  error : Option String

namespace RuntimeService

/-- `_preload_with`: `outcome` is what the loader came to, or the text of what it raised. -/
def preloadWith (service : RuntimeService) (outcome : Except String Unit) : RuntimeService :=
  match outcome with
  | .ok _ => { service with loaded := true, lastError := none }
  | .error error => { service with loaded := false, lastError := some error }

/-- The status that `_preload_with` returns. -/
def preloadStatus (service : RuntimeService) : ModelPreloadStatus where
  serviceName := service.cls.name
  mode := service.cls.mode
  backend := service.cls.backend
  loaded := service.loaded
  error := service.lastError

end RuntimeService

/-- The services that were made, under their keys, and the model manager they load from. -/
structure RuntimeServiceFactory (Manager : Type) where
  /-- `_services`. -/
  services : ServiceKey → Option RuntimeService
  manager : Manager

section Factory

variable (config : EnginesConfig)

/-- The class of the service under a key. -/
def serviceClass : ServiceKey → Except StartError ServiceClass
  | .offlineAsr => do
    match ← config.backendForMode .offline with
    | .pt => return .ptOfflineAsr
    | .onnx => return .onnxOfflineAsr
  | .onlineAsr => do
    match ← config.backendForMode .online with
    | .pt => return .ptOnlineAsr
    | .onnx => return .onnxOnlineAsr
  | .speaker => return .ptSpeaker

/-- `_get_or_create`. -/
def getOrCreate (key : ServiceKey) (cls : ServiceClass)
    (services : ServiceKey → Option RuntimeService) :
    RuntimeService × (ServiceKey → Option RuntimeService) :=
  match services key with
  | some service => (service, services)
  | none => ({ cls }, Function.update services key (some { cls }))

/-- `_service_for_key`. -/
def serviceForKey (key : ServiceKey) (services : ServiceKey → Option RuntimeService) :
    Except StartError (RuntimeService × (ServiceKey → Option RuntimeService)) := do
  let cls ← serviceClass config key
  return getOrCreate key cls services

variable {Manager : Type} (load : ServiceClass → Manager → Except String Unit × Manager)

/-- The comprehension in `preload_enabled_models`: every service is made when its turn comes.
`load` is the loader of a class of services. -/
def preloadServices : List ServiceKey → RuntimeServiceFactory Manager →
    Except StartError (List ModelPreloadStatus × RuntimeServiceFactory Manager)
  | [], factory => return ([], factory)
  | key :: rest, factory => do
    let (service, services) ← serviceForKey config key factory.services
    let (outcome, manager) := load service.cls factory.manager
    let preloaded := service.preloadWith outcome
    let (statuses, final) ← preloadServices rest
      { services := Function.update services key (some preloaded), manager }
    return (preloaded.preloadStatus :: statuses, final)

/-- `RuntimeServiceFactory.preload_enabled_models`. -/
def RuntimeServiceFactory.preloadEnabledModels (enabledModes : List EngineMode)
    (factory : RuntimeServiceFactory Manager) :
    Except StartError (List ModelPreloadStatus × RuntimeServiceFactory Manager) := do
  let offlineBackend ← config.backendForMode .offline
  preloadServices config load
    (enabledServiceKeys offlineBackend config.offlineSpkVerificationEnabled enabledModes) factory

end Factory

section Plan

variable {offlineBackend : Backend} {offlineSpkVerificationEnabled : Bool}
  {enabledModes : List EngineMode} {key : ServiceKey} {keys added : List ServiceKey}

/-- Keys are added to those that are there. -/
theorem mem_addServiceKeys :
    key ∈ addServiceKeys keys added ↔ key ∈ keys ∨ key ∈ added := by
  induction added generalizing keys with
  | nil => simp [addServiceKeys]
  | cons first rest ih =>
    rw [addServiceKeys, ih]
    by_cases hseen : first ∈ keys
    · rw [if_pos hseen, List.mem_cons]
      refine ⟨fun h => h.imp_right .inr, fun h => ?_⟩
      rcases h with h | rfl | h
      · exact .inl h
      · exact .inl hseen
      · exact .inr h
    · rw [if_neg hseen]
      simp only [List.mem_append, List.mem_cons, List.not_mem_nil, false_or, or_assoc]

/-- No key is added twice. -/
theorem nodup_addServiceKeys (h : keys.Nodup) : (addServiceKeys keys added).Nodup := by
  induction added generalizing keys with
  | nil => exact h
  | cons first rest ih =>
    rw [addServiceKeys]
    by_cases hseen : first ∈ keys
    · rw [if_pos hseen]
      exact ih h
    · rw [if_neg hseen]
      refine ih (List.nodup_append.mpr ⟨h, List.pairwise_singleton .., fun a ha b hb => ?_⟩)
      rintro rfl
      exact hseen (List.mem_singleton.mp hb ▸ ha)

/-- The plan holds the services that an enabled mode needs. -/
theorem mem_enabledServiceKeys :
    key ∈ enabledServiceKeys offlineBackend offlineSpkVerificationEnabled enabledModes ↔
      ∃ mode ∈ enabledModes,
        key ∈ serviceKeysByMode offlineBackend offlineSpkVerificationEnabled mode := by
  suffices hfold : ∀ (modes : List EngineMode) (keys : List ServiceKey),
      key ∈ modes.foldl (fun keys mode => addServiceKeys keys
        (serviceKeysByMode offlineBackend offlineSpkVerificationEnabled mode)) keys ↔
      key ∈ keys ∨ ∃ mode ∈ modes,
        key ∈ serviceKeysByMode offlineBackend offlineSpkVerificationEnabled mode by
    unfold enabledServiceKeys
    rw [hfold enabledModes []]
    simp
  intro modes
  induction modes with
  | nil => simp
  | cons mode rest ih =>
    intro keys
    rw [List.foldl_cons, ih, mem_addServiceKeys, List.exists_mem_cons_iff, or_assoc]

/-- Every service of the plan is there once. -/
theorem nodup_enabledServiceKeys :
    (enabledServiceKeys offlineBackend offlineSpkVerificationEnabled enabledModes).Nodup := by
  suffices hfold : ∀ (modes : List EngineMode) (keys : List ServiceKey), keys.Nodup →
      (modes.foldl (fun keys mode => addServiceKeys keys
        (serviceKeysByMode offlineBackend offlineSpkVerificationEnabled mode)) keys).Nodup by
    exact hfold enabledModes [] List.nodup_nil
  intro modes
  induction modes with
  | nil => exact fun keys h => h
  | cons mode rest ih => exact fun keys h => ih _ (nodup_addServiceKeys h)

/-- The mode of the services under a key. -/
def ServiceKey.mode : ServiceKey → EngineMode
  | .offlineAsr => .offline
  | .onlineAsr => .online
  | .speaker => .spk

theorem ServiceKey.mode_injective : Function.Injective ServiceKey.mode := by
  intro key key' h
  cases key <;> cases key' <;> first | rfl | cases h

/-- The modes that a mode requires are those of the services that are preloaded for it. -/
theorem requiredServiceModes_eq (mode : EngineMode) :
    requiredServiceModes offlineBackend offlineSpkVerificationEnabled mode =
      (serviceKeysByMode offlineBackend offlineSpkVerificationEnabled mode).map
        ServiceKey.mode := by
  cases mode with
  | offline =>
    unfold requiredServiceModes serviceKeysByMode
    cases offlineRequiresSpeaker offlineBackend offlineSpkVerificationEnabled <;> rfl
  | online => rfl
  | spk => rfl

end Plan

section Preload

variable {config : EnginesConfig} {key : ServiceKey} {cls : ServiceClass}

/-- The class under a key has its mode. -/
theorem serviceClass_mode (h : serviceClass config key = .ok cls) : cls.mode = key.mode := by
  cases key with
  | speaker =>
    cases h
    rfl
  | offlineAsr =>
    obtain ⟨backend, -, hcls⟩ := bind_eq_ok_iff.mp h
    cases backend <;> cases hcls <;> rfl
  | onlineAsr =>
    obtain ⟨backend, -, hcls⟩ := bind_eq_ok_iff.mp h
    cases backend <;> cases hcls <;> rfl

/-- A service that has a class is of this class, also when it is made now. -/
theorem getOrCreate_cls {services : ServiceKey → Option RuntimeService}
    (h : ∀ service, services key = some service → service.cls = cls) :
    (getOrCreate key cls services).1.cls = cls := by
  unfold getOrCreate
  split
  · exact h _ ‹_›
  · rfl

/-- Only the service under the key can be new. -/
theorem getOrCreate_of_ne {services : ServiceKey → Option RuntimeService} {other : ServiceKey}
    (h : other ≠ key) : (getOrCreate key cls services).2 other = services other := by
  unfold getOrCreate
  split
  · rfl
  · exact Function.update_of_ne h _ _

variable {Manager : Type} {load : ServiceClass → Manager → Except String Unit × Manager}

/-- The loaders of some classes, one after the other. -/
def loadAll (load : ServiceClass → Manager → Except String Unit × Manager) :
    List ServiceClass → Manager → List (Except String Unit) × Manager
  | [], manager => ([], manager)
  | cls :: rest, manager =>
    let (outcome, loaded) := load cls manager
    let (outcomes, final) := loadAll load rest loaded
    (outcome :: outcomes, final)

@[simp] theorem preloadWith_cls (service : RuntimeService) (outcome : Except String Unit) :
    (service.preloadWith outcome).cls = service.cls := by
  cases outcome <;> rfl

/-- What a preloaded service does not remember of its past. -/
theorem preloadWith_eq (service : RuntimeService) (outcome : Except String Unit) :
    service.preloadWith outcome =
      ({ cls := service.cls } : RuntimeService).preloadWith outcome := by
  cases outcome <;> rfl

/-- Preloading calls the loader of each service once, in the order of the keys, and each service
remembers what its own loader came to. -/
theorem preloadServices_spec {classOf : ServiceKey → ServiceClass} {keys : List ServiceKey}
    {factory : RuntimeServiceFactory Manager} (hnodup : keys.Nodup)
    (hclass : ∀ key ∈ keys, serviceClass config key = .ok (classOf key))
    (hmade : ∀ key service, factory.services key = some service → service.cls = classOf key) :
    ∃ statuses final, preloadServices config load keys factory = .ok (statuses, final) ∧
      final.manager = (loadAll load (keys.map classOf) factory.manager).2 ∧
      List.Forall₂ (fun key outcome => final.services key =
          some (({ cls := classOf key } : RuntimeService).preloadWith outcome))
        keys (loadAll load (keys.map classOf) factory.manager).1 ∧
      statuses = keys.filterMap (fun key =>
        (final.services key).map RuntimeService.preloadStatus) ∧
      ∀ key ∉ keys, final.services key = factory.services key := by
  induction keys generalizing factory with
  | nil => exact ⟨[], factory, rfl, rfl, .nil, rfl, fun _ _ => rfl⟩
  | cons key rest ih =>
    obtain ⟨hkey, hrest⟩ := List.nodup_cons.mp hnodup
    -- the turn of the first service
    have hfound : serviceForKey config key factory.services =
        .ok (getOrCreate key (classOf key) factory.services) := by
      unfold serviceForKey
      rw [hclass key List.mem_cons_self]
      rfl
    have hcls : (getOrCreate key (classOf key) factory.services).1.cls = classOf key :=
      getOrCreate_cls (hmade key)
    set found := getOrCreate key (classOf key) factory.services with hget
    set preloaded := found.1.preloadWith (load found.1.cls factory.manager).1 with hpreloaded
    have hfresh : preloaded = ({ cls := classOf key } : RuntimeService).preloadWith
        (load (classOf key) factory.manager).1 := by
      rw [hpreloaded, preloadWith_eq, hcls]
    have hother : ∀ other, other ≠ key →
        Function.update found.2 key (some preloaded) other = factory.services other := by
      intro other hne
      rw [Function.update_of_ne hne, hget, getOrCreate_of_ne hne]
    have hmade' : ∀ other service,
        Function.update found.2 key (some preloaded) other = some service →
          service.cls = classOf other := by
      intro other service hservice
      by_cases hsame : other = key
      · subst hsame
        rw [Function.update_self] at hservice
        rw [← Option.some.inj hservice, hfresh, preloadWith_cls]
      · rw [hother other hsame] at hservice
        exact hmade other service hservice
    -- the turns of the others
    obtain ⟨statuses, final, hrun, hmanager, houtcomes, hstatuses, hframe⟩ :=
      @ih { services := Function.update found.2 key (some preloaded)
            manager := (load found.1.cls factory.manager).2 }
        hrest (fun key hmem => hclass key (List.mem_cons_of_mem _ hmem)) hmade'
    have hfinal : final.services key = some preloaded := by
      rw [hframe key hkey]
      exact Function.update_self ..
    refine ⟨preloaded.preloadStatus :: statuses, final, ?_, ?_, ?_, ?_, ?_⟩
    · rw [preloadServices, hfound]
      exact bind_eq_ok_iff.mpr ⟨_, rfl, bind_eq_ok_iff.mpr ⟨_, hrun, rfl⟩⟩
    · rw [hmanager, hcls]
      rfl
    · refine .cons (by rw [hfinal, hfresh]) ?_
      rw [hcls] at houtcomes
      exact houtcomes
    · rw [List.filterMap_cons, hfinal, hstatuses]
      rfl
    · intro other hother'
      rw [List.mem_cons, not_or] at hother'
      rw [hframe other hother'.2]
      exact hother other hother'.1

end Preload

end FunasrApi.Runtime
