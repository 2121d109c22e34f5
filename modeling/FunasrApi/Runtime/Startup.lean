import FunasrApi.Api.Uploads
import FunasrApi.Runtime.Services

/-!
# The start of the application

The services that the enabled modes need are made and preloaded, and a mode is available when all
of its services are loaded. The queue starts when the application can process some kind of task. A
service that does not load stops neither the start nor the other services; and whenever a task
can be submitted, the services that process it are loaded.
-/

namespace FunasrApi.Queue

/-- `can_accept`. -/
def OfflineTaskQueue.canAccept {Id : Type*} (queue : OfflineTaskQueue) (world : QueueWorld Id)
    (kind : TaskKind) : Bool :=
  queue.enabled && world.runtime.running && queue.supports kind

end FunasrApi.Queue

namespace FunasrApi.Runtime

open FunasrApi.Config FunasrApi.Queue FunasrApi.Tasks

/-- The part of `ProcessingConfig` that the queue reads. -/
structure ProcessingConfig where
  offlineAsyncEnabled : Bool
  maxConcurrentTasks : ℕ
  timeoutSeconds : Int

/-- The mode that processes the tasks of a kind. -/
def taskMode : TaskKind → EngineMode
  | .offline => .offline
  | .spk => .spk

/-- `status.error or 'runtime preload failed'`. -/
def preloadError : Option String → String
  | some error => if error = "" then "runtime preload failed" else error
  | none => "runtime preload failed"

/-- What a preload lacks of one required mode. -/
def requiredErrors (statuses : List ModelPreloadStatus) (mode : EngineMode) : List String :=
  let required := statuses.filter fun status => status.mode = mode
  if required.isEmpty then [mode.name ++ ": runtime preload status missing"]
  else
    (required.filter fun status => !status.loaded).map fun status =>
      status.serviceName ++ ": " ++ preloadError status.error

/-- What `RuntimeApplication.preload_enabled_models` collects. -/
structure PreloadSummary where
  loaded : List EngineMode
  failed : EngineMode → Option String
  availability : EngineMode → Option Bool

/-- `RuntimeApplication`, without its manager and its services. -/
structure RuntimeApplication where
  enabledModes : List EngineMode
  /-- `_mode_availability`. -/
  modeAvailability : EngineMode → Option Bool

namespace RuntimeApplication

/-- `__init__`: every enabled mode counts as available. -/
def new (enabledModes : List EngineMode) : RuntimeApplication where
  enabledModes := enabledModes
  modeAvailability mode := if mode ∈ enabledModes then some true else none

/-- `is_mode_available`. -/
def isModeAvailable (application : RuntimeApplication) (mode : EngineMode) : Bool :=
  if mode ∉ application.enabledModes then false
  else (application.modeAvailability mode).getD true

end RuntimeApplication

section Preload

variable (config : EnginesConfig)

/-- `RuntimeServiceFactory.required_service_modes`. -/
def EnginesConfig.requiredServiceModes (mode : EngineMode) :
    Except StartError (List EngineMode) := do
  let offlineBackend ← config.backendForMode .offline
  return Runtime.requiredServiceModes offlineBackend config.offlineSpkVerificationEnabled mode

/-- The loop over the enabled modes. -/
def summarize (statuses : List ModelPreloadStatus) :
    List EngineMode → PreloadSummary → Except StartError PreloadSummary
  | [], summary => return summary
  | mode :: rest, summary => do
    let requiredModes ← config.requiredServiceModes mode
    let errors := requiredModes.flatMap (requiredErrors statuses)
    summarize statuses rest <|
      if errors.isEmpty then
        { summary with
          loaded := summary.loaded ++ [mode]
          availability := Function.update summary.availability mode (some true) }
      else
        { summary with
          failed := Function.update summary.failed mode (some ("; ".intercalate errors))
          availability := Function.update summary.availability mode (some false) }

variable {Manager : Type} (load : ServiceClass → Manager → Except String Unit × Manager)

/-- `RuntimeApplication.preload_enabled_models`. -/
def RuntimeApplication.preloadEnabledModels (application : RuntimeApplication)
    (factory : RuntimeServiceFactory Manager) :
    Except StartError (PreloadSummary × RuntimeApplication × RuntimeServiceFactory Manager) := do
  let (statuses, factory) ← factory.preloadEnabledModels config load application.enabledModes
  let summary ← summarize config statuses application.enabledModes
    ⟨[], fun _ => none, fun _ => none⟩
  return (summary, { application with modeAvailability := summary.availability }, factory)

end Preload

/-- `AppServices`, as far as the start makes it. -/
structure AppServices (Manager Id : Type) where
  runtimeServices : RuntimeServiceFactory Manager
  runtimeApplication : RuntimeApplication
  taskQueue : OfflineTaskQueue
  /-- The repositories and the runtime of the queue. -/
  queueWorld : QueueWorld Id

section Compose

variable (config : EnginesConfig) (enabledModes : List EngineMode)

/-- One service of the composition, when its mode is enabled. -/
def composeService (mode : EngineMode) (key : ServiceKey)
    (services : ServiceKey → Option RuntimeService) :
    Except StartError (ServiceKey → Option RuntimeService) :=
  if mode ∈ enabledModes then do
    let (_, services) ← serviceForKey config key services
    return services
  else return services

/-- The services that `compose_app_services` makes. -/
def composeServices : Except StartError (ServiceKey → Option RuntimeService) := do
  let services ← composeService config enabledModes .online .onlineAsr fun _ => none
  let services ← composeService config enabledModes .spk .speaker services
  composeService config enabledModes .offline .offlineAsr services

/-- The queue that `compose_app_services` makes. -/
def composeQueue (processing : ProcessingConfig) : OfflineTaskQueue where
  enabled := processing.offlineAsyncEnabled
  maxConcurrent := processing.maxConcurrentTasks
  processingTimeout := processing.timeoutSeconds
  hasTaskService := .offline ∈ enabledModes
  hasSpkTaskService := .spk ∈ enabledModes

end Compose

variable {Manager Id : Type}

/-- The kinds of tasks that are ready when the queue is to start. -/
def AppServices.readyKinds (services : AppServices Manager Id) : List TaskKind :=
  [TaskKind.offline, .spk].filter fun kind =>
    services.runtimeApplication.isModeAvailable (taskMode kind) &&
      services.taskQueue.supports kind

/-- `_start_queue_if_ready`. -/
def AppServices.startQueueIfReady [DecidableEq Id] (services : AppServices Manager Id)
    (now : TaskKind → Int) : AppServices Manager Id :=
  if services.taskQueue.enabled = false then services
  else if services.readyKinds.isEmpty then services
  else { services with queueWorld := services.taskQueue.start now services.queueWorld }

/-- What the start of the application reads. -/
structure StartInput (Manager Id : Type) where
  config : EnginesConfig
  runtime : Config.Runtime
  /-- `config_dict`. -/
  configDict : Section
  processing : ProcessingConfig
  /-- What the loader of a class of services does to the models. -/
  load : ServiceClass → Manager → Except String Unit × Manager
  manager : Manager
  repositories : TaskKind → Option (TaskRepository Id)
  /-- What `run_startup_diagnostics` comes to. -/
  diagnostics : Except StartError Unit
  /-- What the clock shows while the queue recovers the tasks of a kind. -/
  now : TaskKind → Int

namespace StartInput

variable [DecidableEq Id]

/-- `build_app_services`: the services before they are preloaded. -/
def build (input : StartInput Manager Id) : Except StartError (AppServices Manager Id) := do
  let enabledModes ← input.config.enabledEngineModes
  let _ ← offlineOnnxOptions input.runtime input.configDict
  let services ← composeServices input.config enabledModes
  return { runtimeServices := ⟨services, input.manager⟩
           runtimeApplication := .new enabledModes
           taskQueue := composeQueue enabledModes input.processing
           queueWorld := ⟨input.repositories, .idle 0⟩ }

/-- `ApplicationLifecycle.start`. -/
def start (input : StartInput Manager Id) :
    Except StartError (AppServices Manager Id × PreloadSummary) := do
  let services ← input.build
  input.diagnostics
  let (summary, application, factory) ←
    services.runtimeApplication.preloadEnabledModels input.config input.load
      services.runtimeServices
  let preloaded : AppServices Manager Id :=
    { services with runtimeServices := factory, runtimeApplication := application }
  return (preloaded.startQueueIfReady input.now, summary)

end StartInput

section Valid

variable (config : EnginesConfig)

/-- Every enabled name is a mode, and the backends that the start asks for are known. That of
OFFLINE is asked for in any case. -/
structure EnginesConfig.Valid : Prop where
  modes : ∀ name ∈ config.enabled, (EngineMode.ofName? name).isSome
  offlineBackend : (Backend.ofName? config.offlineBackend).isSome
  onlineBackend : .online ∈ config.modes → (Backend.ofName? config.onlineBackend).isSome

/-- The services that a mode needs. -/
def EnginesConfig.neededKeys (mode : EngineMode) : List ServiceKey :=
  match config.backendForMode .offline with
  | .ok offlineBackend =>
    serviceKeysByMode offlineBackend config.offlineSpkVerificationEnabled mode
  | .error _ => []

/-- The class of the service under a key, where there is one. -/
def EnginesConfig.classOf (key : ServiceKey) : ServiceClass :=
  match serviceClass config key with
  | .ok cls => cls
  | .error _ => .ptSpeaker

variable {config}

theorem enabledEngineModes_eq_ok_iff {modes : List EngineMode} :
    config.enabledEngineModes = .ok modes ↔
      (∀ name ∈ config.enabled, (EngineMode.ofName? name).isSome) ∧ modes = config.modes := by
  have hempty : (config.enabled.filter fun mode => EngineMode.ofName? mode = none) = [] ↔
      ∀ name ∈ config.enabled, (EngineMode.ofName? name).isSome := by
    rw [List.filter_eq_nil_iff]
    refine forall₂_congr fun name _ => ?_
    cases EngineMode.ofName? name <;> simp
  unfold EnginesConfig.enabledEngineModes
  by_cases hall : ∀ name ∈ config.enabled, (EngineMode.ofName? name).isSome
  · rw [if_neg (not_not.mpr (hempty.mpr hall)), Except.ok.injEq, eq_comm]
    exact (and_iff_right hall).symm
  · rw [if_pos (mt hempty.mp hall)]
    exact ⟨(fun h => by cases h), fun h => absurd h.1 hall⟩

/-- A backend that is configured is one of the two. -/
theorem backendOr_eq_ok_iff {mode name : String} {backend : Backend} :
    EnginesConfig.backendOr mode name = .ok backend ↔ Backend.ofName? name = some backend := by
  unfold EnginesConfig.backendOr
  cases Backend.ofName? name <;> simp

/-- Whether there is a class under a key. -/
def EnginesConfig.HasClass (config : EnginesConfig) : ServiceKey → Prop
  | .offlineAsr => (Backend.ofName? config.offlineBackend).isSome
  | .onlineAsr => (Backend.ofName? config.onlineBackend).isSome
  | .speaker => True

theorem serviceClass_eq_ok_iff {key : ServiceKey} {cls : ServiceClass} :
    serviceClass config key = .ok cls ↔ config.HasClass key ∧ cls = config.classOf key := by
  have hclass : (∃ cls, serviceClass config key = .ok cls) ↔ config.HasClass key := by
    cases key with
    | speaker => exact ⟨fun _ => trivial, fun _ => ⟨_, rfl⟩⟩
    | offlineAsr =>
      unfold serviceClass EnginesConfig.HasClass EnginesConfig.backendForMode
        EnginesConfig.backendOr
      rcases Backend.ofName? config.offlineBackend with _ | _ | _ <;> simp [bind, Except.bind, pure,
        Except.pure]
    | onlineAsr =>
      unfold serviceClass EnginesConfig.HasClass EnginesConfig.backendForMode
        EnginesConfig.backendOr
      rcases Backend.ofName? config.onlineBackend with _ | _ | _ <;> simp [bind, Except.bind, pure,
        Except.pure]
  rw [← hclass]
  unfold EnginesConfig.classOf
  cases serviceClass config key <;> simp [eq_comm]

end Valid

section Compose

variable {config : EnginesConfig} {enabledModes : List EngineMode} {mode : EngineMode}
  {key : ServiceKey} {services made : ServiceKey → Option RuntimeService}

/-- The services that were made are of their classes. -/
def Made (config : EnginesConfig) (services : ServiceKey → Option RuntimeService) : Prop :=
  ∀ key service, services key = some service → service.cls = config.classOf key

/-- A service is found exactly when its key has a class, and is of this class then. -/
theorem serviceForKey_spec (h : Made config services) :
    (config.HasClass key → ∃ found, serviceForKey config key services = .ok found ∧
      Made config found.2) ∧
    ((∃ found, serviceForKey config key services = .ok found) → config.HasClass key) := by
  constructor
  · intro hclass
    have hcls : serviceClass config key = .ok (config.classOf key) :=
      serviceClass_eq_ok_iff.mpr ⟨hclass, rfl⟩
    refine ⟨getOrCreate key (config.classOf key) services, ?_, fun other service hservice => ?_⟩
    · exact bind_eq_ok_iff.mpr ⟨_, hcls, rfl⟩
    · by_cases hsame : other = key
      · subst hsame
        unfold getOrCreate at hservice
        cases hold : services other with
        | some old =>
          rw [hold] at hservice
          exact h other service (hold.trans (hold.symm.trans hservice))
        | none =>
          rw [hold] at hservice
          have hnew := (Function.update_self ..).symm.trans hservice
          rw [← Option.some.inj hnew]
      · rw [getOrCreate_of_ne hsame] at hservice
        exact h other service hservice
  · rintro ⟨found, hfound⟩
    obtain ⟨cls, hcls, -⟩ := bind_eq_ok_iff.mp hfound
    exact (serviceClass_eq_ok_iff.mp hcls).1

theorem composeService_spec (h : Made config services) :
    ((mode ∈ enabledModes → config.HasClass key) →
      ∃ made, composeService config enabledModes mode key services = .ok made ∧
        Made config made) ∧
    ((∃ made, composeService config enabledModes mode key services = .ok made) →
      mode ∈ enabledModes → config.HasClass key) := by
  unfold composeService
  by_cases hmode : mode ∈ enabledModes
  · simp only [if_pos hmode]
    constructor
    · intro hclass
      obtain ⟨found, hfound, hmade⟩ := (serviceForKey_spec h).1 (hclass hmode)
      exact ⟨found.2, bind_eq_ok_iff.mpr ⟨found, hfound, rfl⟩, hmade⟩
    · rintro ⟨made, hrun⟩ -
      obtain ⟨found, hfound, -⟩ := bind_eq_ok_iff.mp hrun
      exact (serviceForKey_spec h).2 ⟨found, hfound⟩
  · simp only [if_neg hmode]
    exact ⟨fun _ => ⟨services, rfl, h⟩, fun _ hin => absurd hin hmode⟩

/-- The composition succeeds exactly when the enabled modes have their backends. -/
theorem composeServices_spec :
    ((.offline ∈ enabledModes → config.HasClass .offlineAsr) ∧
        (.online ∈ enabledModes → config.HasClass .onlineAsr) →
      ∃ made, composeServices config enabledModes = .ok made ∧ Made config made) ∧
    ((∃ made, composeServices config enabledModes = .ok made) →
      .online ∈ enabledModes → config.HasClass .onlineAsr) := by
  have hnone : Made config fun _ => none := fun _ _ h => by cases h
  constructor
  · rintro ⟨hoffline, honline⟩
    obtain ⟨first, hfirst, hmade⟩ := (composeService_spec hnone).1 honline
    have hspk : ∃ made, composeService config enabledModes .spk .speaker first = .ok made ∧
        Made config made := (composeService_spec hmade).1 fun _ => trivial
    obtain ⟨second, hsecond, hmade⟩ := hspk
    obtain ⟨third, hthird, hmade⟩ := (composeService_spec hmade).1 hoffline
    exact ⟨third, bind_eq_ok_iff.mpr ⟨first, hfirst, bind_eq_ok_iff.mpr ⟨second, hsecond, hthird⟩⟩,
      hmade⟩
  · rintro ⟨made, hrun⟩
    obtain ⟨first, hfirst, -⟩ := bind_eq_ok_iff.mp hrun
    exact (composeService_spec hnone).2 ⟨first, hfirst⟩

end Compose

section Summary

variable {config : EnginesConfig} {statuses : List ModelPreloadStatus}

/-- What the loop over the enabled modes comes to, when `errorsOf` are the errors of a mode. -/
theorem summarize_eq {errorsOf : EngineMode → List String} {modes : List EngineMode}
    (herrors : ∀ mode ∈ modes, ∃ required, config.requiredServiceModes mode = .ok required ∧
      required.flatMap (requiredErrors statuses) = errorsOf mode) (summary : PreloadSummary) :
    summarize config statuses modes summary = .ok
      { loaded := summary.loaded ++ modes.filter fun mode => (errorsOf mode).isEmpty
        failed := fun mode =>
          if mode ∈ modes ∧ (errorsOf mode).isEmpty = false then
            some ("; ".intercalate (errorsOf mode))
          else summary.failed mode
        availability := fun mode =>
          if mode ∈ modes then some (errorsOf mode).isEmpty else summary.availability mode } := by
  induction modes generalizing summary with
  | nil => simp [summarize, pure, Except.pure]
  | cons mode rest ih =>
    obtain ⟨required, hrequired, hmode⟩ := herrors mode List.mem_cons_self
    unfold summarize
    rw [hrequired]
    change summarize config statuses rest _ = _
    rw [hmode, ih fun mode hmem => herrors mode (List.mem_cons_of_mem _ hmem)]
    cases hempty : (errorsOf mode).isEmpty with
    | true =>
      rw [if_pos rfl]
      congr 2
      · rw [List.filter_cons_of_pos (by simpa using hempty), List.append_assoc]
        rfl
      · funext other
        by_cases hsame : other = mode
        · subst hsame
          simp [hempty]
        · simp [hsame]
      · funext other
        by_cases hsame : other = mode
        · subst hsame
          simp [hempty]
        · simp [hsame]
    | false =>
      rw [if_neg (by decide)]
      congr 2
      · rw [List.filter_cons_of_neg (by simpa using hempty)]
      · funext other
        by_cases hsame : other = mode
        · subst hsame
          simp [hempty]
        · simp [hsame]
      · funext other
        by_cases hsame : other = mode
        · subst hsame
          simp [hempty]
        · simp [hsame]

/-- What a service that did not load reports. -/
def RuntimeService.failure (service : RuntimeService) : Option String :=
  if service.loaded then none
  else some (service.cls.name ++ ": " ++ preloadError service.lastError)

/-- The errors of a required mode are those of its only service. -/
theorem requiredErrors_eq {services : ServiceKey → Option RuntimeService} {keys : List ServiceKey}
    {key : ServiceKey} {service : RuntimeService} (hnodup : keys.Nodup) (hkey : key ∈ keys)
    (hservice : services key = some service)
    (hmode : ∀ key ∈ keys, ∀ service, services key = some service →
      service.cls.mode = key.mode) :
    requiredErrors (keys.filterMap fun key => (services key).map RuntimeService.preloadStatus)
      key.mode = service.failure.toList := by
  have hfilter : (keys.filterMap fun key =>
      (services key).map RuntimeService.preloadStatus).filter (fun status =>
        status.mode = key.mode) = [service.preloadStatus] := by
    rw [List.filter_filterMap]
    have hone : (keys.filterMap fun other => ((services other).map
        RuntimeService.preloadStatus).filter fun status => status.mode = key.mode) =
        (keys.filter fun other => other = key).filterMap fun _ => some service.preloadStatus := by
      rw [List.filterMap_filter]
      refine List.filterMap_congr fun other hother => ?_
      by_cases hsame : other = key
      · subst hsame
        have : service.preloadStatus.mode = other.mode := hmode other hother service hservice
        simp [hservice, this]
      · cases hold : services other with
        | none => simp [hsame]
        | some old =>
          have : old.preloadStatus.mode ≠ key.mode := fun h =>
            hsame (ServiceKey.mode_injective ((hmode other hother old hold).symm.trans h))
          simp [hsame, this]
    rw [hone, List.filter_eq, List.count_eq_one_of_mem hnodup hkey]
    rfl
  unfold requiredErrors RuntimeService.failure
  rw [hfilter]
  cases hloaded : service.loaded with
  | true => simp [RuntimeService.preloadStatus, hloaded]
  | false => simp [RuntimeService.preloadStatus, hloaded]

end Summary

section Started

variable {Manager Id : Type}

namespace AppServices

/-- The service under a key is loaded. -/
def isLoaded (services : AppServices Manager Id) (key : ServiceKey) : Bool :=
  (services.runtimeServices.services key).any RuntimeService.loaded

/-- What the service under a key reports, if it did not load. -/
def failure (services : AppServices Manager Id) (key : ServiceKey) : Option String :=
  (services.runtimeServices.services key).bind RuntimeService.failure

/-- The services as the upload routes see them. -/
def uploads {Audio : Type} (services : AppServices Manager Id)
    (taskSubmissionService : TaskSubmissionService Id Audio) : Api.AppServices Id Audio where
  isEngineEnabled kind := services.runtimeApplication.isModeAvailable (taskMode kind)
  taskSubmissionService :=
    { taskSubmissionService with
      canAccept := services.taskQueue.canAccept services.queueWorld }

end AppServices

/-- What a start leaves behind. -/
structure StartInput.Serves (input : StartInput Manager Id) (services : AppServices Manager Id)
    (summary : PreloadSummary) : Prop where
  /-- Exactly the services that an enabled mode needs were preloaded, by one call of the loader
  each, and every one remembers what its own call came to. -/
  preloaded : ∃ keys : List ServiceKey, keys.Nodup ∧
    (∀ key, key ∈ keys ↔ ∃ mode ∈ input.config.modes, key ∈ input.config.neededKeys mode) ∧
    services.runtimeServices.manager =
      (loadAll input.load (keys.map input.config.classOf) input.manager).2 ∧
    List.Forall₂ (fun key outcome => services.runtimeServices.services key =
        some (({ cls := input.config.classOf key } : RuntimeService).preloadWith outcome))
      keys (loadAll input.load (keys.map input.config.classOf) input.manager).1
  /-- A mode is available when it is enabled and all of its services are loaded. -/
  available : ∀ mode, services.runtimeApplication.isModeAvailable mode = true ↔
    mode ∈ input.config.modes ∧ ∀ key ∈ input.config.neededKeys mode, services.isLoaded key = true
  /-- The summary splits the enabled modes. -/
  loaded : summary.loaded =
    input.config.modes.filter services.runtimeApplication.isModeAvailable
  /-- The error of a mode names exactly its services that did not load. -/
  failed : ∀ mode, summary.failed mode =
    if mode ∈ input.config.modes ∧ services.runtimeApplication.isModeAvailable mode = false then
      some ("; ".intercalate ((input.config.neededKeys mode).filterMap services.failure))
    else none
  /-- The queue runs when it is configured and some kind of task can be processed. -/
  running : services.queueWorld.runtime.running = true ↔
    input.processing.offlineAsyncEnabled = true ∧
      ∃ kind, services.runtimeApplication.isModeAvailable (taskMode kind) = true
  /-- A task is accepted exactly when the queue is configured and the services of its mode are
  loaded. -/
  accepts : ∀ {Audio : Type} (submission : TaskSubmissionService Id Audio) (kind : TaskKind),
    (services.uploads submission).isTaskSubmissionAvailable kind = true ↔
      input.processing.offlineAsyncEnabled = true ∧ taskMode kind ∈ input.config.modes ∧
        ∀ key ∈ input.config.neededKeys (taskMode kind), services.isLoaded key = true

section Preloaded

variable {config : EnginesConfig} {load : ServiceClass → Manager → Except String Unit × Manager}
  {factory : RuntimeServiceFactory Manager} {offlineBackend : Backend}

theorem backendForMode_offline (h : config.Valid) :
    ∃ offlineBackend, config.backendForMode .offline = .ok offlineBackend := by
  obtain ⟨offlineBackend, hname⟩ := Option.isSome_iff_exists.mp h.offlineBackend
  exact ⟨offlineBackend, backendOr_eq_ok_iff.mpr hname⟩

theorem neededKeys_eq (h : config.backendForMode .offline = .ok offlineBackend)
    (mode : EngineMode) : config.neededKeys mode =
      serviceKeysByMode offlineBackend config.offlineSpkVerificationEnabled mode := by
  unfold EnginesConfig.neededKeys
  rw [h]

/-- The services of an enabled mode have their classes. -/
theorem hasClass_of_needed (h : config.Valid) {mode : EngineMode} {key : ServiceKey}
    (hmode : mode ∈ config.modes) (hkey : key ∈ config.neededKeys mode) :
    config.HasClass key := by
  cases key with
  | speaker => trivial
  | offlineAsr => exact h.offlineBackend
  | onlineAsr =>
    obtain ⟨offlineBackend, hbackend⟩ := backendForMode_offline h
    rw [neededKeys_eq hbackend] at hkey
    cases mode with
    | online => exact h.onlineBackend hmode
    | spk => exact absurd hkey (by simp [serviceKeysByMode])
    | offline =>
      refine absurd hkey ?_
      unfold serviceKeysByMode
      cases offlineRequiresSpeaker offlineBackend config.offlineSpkVerificationEnabled <;> decide

/-- Preloading in a valid configuration: `errorsOf` are the failures of the services of a mode. -/
theorem preloadEnabledModels_spec (h : config.Valid) (hmade : Made config factory.services) :
    ∃ (keys : List ServiceKey) (final : RuntimeServiceFactory Manager)
      (errorsOf : EngineMode → List String), keys.Nodup ∧
      (∀ key, key ∈ keys ↔ ∃ mode ∈ config.modes, key ∈ config.neededKeys mode) ∧
      final.manager = (loadAll load (keys.map config.classOf) factory.manager).2 ∧
      List.Forall₂ (fun key outcome => final.services key =
          some (({ cls := config.classOf key } : RuntimeService).preloadWith outcome))
        keys (loadAll load (keys.map config.classOf) factory.manager).1 ∧
      (∀ mode, errorsOf mode = (config.neededKeys mode).filterMap fun key =>
        (final.services key).bind RuntimeService.failure) ∧
      (RuntimeApplication.new config.modes).preloadEnabledModels config load factory = .ok
        (⟨config.modes.filter fun mode => (errorsOf mode).isEmpty,
          fun mode => if mode ∈ config.modes ∧ (errorsOf mode).isEmpty = false then
            some ("; ".intercalate (errorsOf mode)) else none,
          fun mode => if mode ∈ config.modes then some (errorsOf mode).isEmpty else none⟩,
          ⟨config.modes, fun mode =>
            if mode ∈ config.modes then some (errorsOf mode).isEmpty else none⟩, final) := by
  obtain ⟨offlineBackend, hbackend⟩ := backendForMode_offline h
  set keys := enabledServiceKeys offlineBackend config.offlineSpkVerificationEnabled config.modes
    with hkeys
  have hmem : ∀ key, key ∈ keys ↔ ∃ mode ∈ config.modes, key ∈ config.neededKeys mode := by
    intro key
    rw [hkeys, mem_enabledServiceKeys]
    simp only [neededKeys_eq hbackend]
  have hnodup : keys.Nodup := nodup_enabledServiceKeys
  have hclass : ∀ key ∈ keys, serviceClass config key = .ok (config.classOf key) := by
    intro key hkey
    obtain ⟨mode, hmode, hneeded⟩ := (hmem key).mp hkey
    exact serviceClass_eq_ok_iff.mpr ⟨hasClass_of_needed h hmode hneeded, rfl⟩
  obtain ⟨statuses, final, hrun, hmanager, houtcomes, hstatuses, hframe⟩ :=
    preloadServices_spec hnodup hclass hmade
  -- every service of the plan is there, and of the mode of its key
  have hfound : ∀ key ∈ keys, ∃ service, final.services key = some service ∧
      service.cls.mode = key.mode := by
    intro key hkey
    obtain ⟨index, hindex, rfl⟩ := List.getElem_of_mem hkey
    have hservice := (List.forall₂_iff_get.mp houtcomes).2 index hindex
      (houtcomes.length_eq ▸ hindex)
    refine ⟨_, hservice, ?_⟩
    rw [preloadWith_cls]
    exact serviceClass_mode (hclass _ hkey)
  have herrors : ∀ mode ∈ config.modes, ∃ required,
      config.requiredServiceModes mode = .ok required ∧
        required.flatMap (requiredErrors statuses) =
          (config.neededKeys mode).filterMap fun key =>
            (final.services key).bind RuntimeService.failure := by
    intro mode hmode
    refine ⟨_, bind_eq_ok_iff.mpr ⟨_, hbackend, rfl⟩, ?_⟩
    rw [requiredServiceModes_eq, ← neededKeys_eq hbackend, List.flatMap_map,
      List.filterMap_eq_flatMap_toList]
    refine List.flatMap_congr fun key hneeded => ?_
    have hkey := (hmem key).mpr ⟨mode, hmode, hneeded⟩
    obtain ⟨service, hservice, -⟩ := hfound key hkey
    rw [hstatuses, requiredErrors_eq hnodup hkey hservice fun key hkey service hservice => ?_,
      hservice]
    · rfl
    · obtain ⟨found, hfound, hmode⟩ := hfound key hkey
      rw [← Option.some.inj (hfound.symm.trans hservice)]
      exact hmode
  refine ⟨keys, final, _, hnodup, hmem, hmanager, houtcomes, fun mode => rfl, ?_⟩
  refine bind_eq_ok_iff.mpr ⟨(statuses, final), bind_eq_ok_iff.mpr ⟨_, hbackend, hrun⟩, ?_⟩
  exact bind_eq_ok_iff.mpr ⟨_, summarize_eq herrors _, rfl⟩

end Preloaded

namespace StartInput

variable [DecidableEq Id] {input : StartInput Manager Id} {services : AppServices Manager Id}
  {summary : PreloadSummary}

/-- What the start asks of its configuration and of the dependencies. No loader is asked. -/
structure Startable (input : StartInput Manager Id) : Prop where
  config : input.config.Valid
  options : ∃ options, offlineOnnxOptions input.runtime input.configDict = .ok options
  diagnostics : input.diagnostics = .ok ()

/-- Starting the queue makes it run, when it can process some kind of task. -/
theorem start_running {queue : OfflineTaskQueue} {now : TaskKind → Int} {kind : TaskKind}
    {world : QueueWorld Id} (henabled : queue.enabled = true) (hkind : queue.supports kind = true) :
    (queue.start now world).runtime.running = true := by
  unfold OfflineTaskQueue.start
  rw [if_neg (by simp [henabled])]
  by_cases hrunning : world.runtime.running = true
  · rw [if_pos hrunning]
    exact hrunning
  · rw [if_neg hrunning, if_neg]
    · show (QueueWorkerRuntime.start _ _).running = true
      unfold QueueWorkerRuntime.start
      split
      · assumption
      · rfl
    · rintro ⟨hoffline, hspk⟩
      cases kind with
      | offline => exact Bool.noConfusion (hoffline.symm.trans hkind)
      | spk => exact Bool.noConfusion (hspk.symm.trans hkind)

/-- A start that went through had a valid configuration. -/
theorem startable_of_start (h : input.start = .ok (services, summary)) : input.Startable := by
  obtain ⟨built, hbuild, h⟩ := bind_eq_ok_iff.mp h
  obtain ⟨⟨⟩, hdiagnostics, h⟩ := bind_eq_ok_iff.mp h
  obtain ⟨modes, hmodes, hbuild⟩ := bind_eq_ok_iff.mp hbuild
  obtain ⟨options, hoptions, hbuild⟩ := bind_eq_ok_iff.mp hbuild
  obtain ⟨made, hmade, hbuild⟩ := bind_eq_ok_iff.mp hbuild
  obtain ⟨hknown, rfl⟩ := enabledEngineModes_eq_ok_iff.mp hmodes
  obtain ⟨preloaded, hpreload, -⟩ := bind_eq_ok_iff.mp h
  obtain ⟨_, hfactory, -⟩ := bind_eq_ok_iff.mp hpreload
  obtain ⟨offlineBackend, hbackend, -⟩ := bind_eq_ok_iff.mp hfactory
  refine ⟨⟨hknown, ?_, ?_⟩, ⟨options, hoptions⟩, hdiagnostics⟩
  · exact Option.isSome_iff_exists.mpr ⟨_, backendOr_eq_ok_iff.mp hbackend⟩
  · exact composeServices_spec.2 ⟨made, hmade⟩

omit [DecidableEq Id] in
/-- Whether a service is loaded can be read off its failure. -/
theorem failure_eq_none_iff {key : ServiceKey}
    (h : ∃ service, services.runtimeServices.services key = some service) :
    services.failure key = none ↔ services.isLoaded key = true := by
  obtain ⟨service, hservice⟩ := h
  unfold AppServices.failure AppServices.isLoaded
  rw [hservice, Option.any_some]
  change service.failure = none ↔ _
  unfold RuntimeService.failure
  cases service.loaded <;> simp

section Queue

variable {now : TaskKind → Int}

/-- Starting the queue touches nothing else. -/
theorem startQueueIfReady_eq : ∃ world,
    services.startQueueIfReady now = { services with queueWorld := world } := by
  unfold AppServices.startQueueIfReady
  split
  · exact ⟨_, rfl⟩
  · split
    · exact ⟨_, rfl⟩
    · exact ⟨_, rfl⟩

/-- The queue runs when it is configured and a kind of task is ready. -/
theorem startQueueIfReady_running (hidle : services.queueWorld.runtime.running = false) :
    (services.startQueueIfReady now).queueWorld.runtime.running = true ↔
      services.taskQueue.enabled = true ∧ services.readyKinds ≠ [] := by
  unfold AppServices.startQueueIfReady
  by_cases henabled : services.taskQueue.enabled = true
  · rw [if_neg (by simp [henabled])]
    cases hready : services.readyKinds with
    | nil => simp [hidle]
    | cons kind rest =>
      have hkind : kind ∈ services.readyKinds := hready ▸ List.mem_cons_self
      have hsupports := (Bool.and_eq_true_iff.mp (List.mem_filter.mp hkind).2).2
      rw [if_neg (by simp), start_running henabled hsupports]
      simp [henabled]
  · rw [if_pos (by simpa using henabled)]
    simp [hidle, henabled]

end Queue

/-- A start in a valid configuration goes through, whatever the loaders come to. -/
theorem start_of_startable (h : input.Startable) :
    ∃ services summary, input.start = .ok (services, summary) ∧
      input.Serves services summary := by
  obtain ⟨hvalid, ⟨options, hoptions⟩, hdiagnostics⟩ := h
  have hcomposed : ∃ made, composeServices input.config input.config.modes = .ok made ∧
      Made input.config made :=
    composeServices_spec.1 ⟨fun _ => hvalid.offlineBackend, hvalid.onlineBackend⟩
  obtain ⟨made, hcompose, hmade⟩ := hcomposed
  obtain ⟨keys, final, errorsOf, hnodup, hmem, hmanager, houtcomes, herrors, hpreload⟩ :=
    @preloadEnabledModels_spec Manager input.config input.load ⟨made, input.manager⟩ hvalid hmade
  set application : RuntimeApplication := ⟨input.config.modes, fun mode =>
    if mode ∈ input.config.modes then some (errorsOf mode).isEmpty else none⟩ with happlication
  set preloaded : AppServices Manager Id :=
    { runtimeServices := final
      runtimeApplication := application
      taskQueue := composeQueue input.config.modes input.processing
      queueWorld := ⟨input.repositories, .idle 0⟩ } with hpreloaded
  have havailable : ∀ mode, application.isModeAvailable mode = true ↔
      mode ∈ input.config.modes ∧ (errorsOf mode).isEmpty = true := by
    intro mode
    rw [happlication]
    unfold RuntimeApplication.isModeAvailable
    by_cases hmode : mode ∈ input.config.modes <;> simp [hmode]
  have hloaded : ∀ mode ∈ input.config.modes, ((errorsOf mode).isEmpty = true ↔
      ∀ key ∈ input.config.neededKeys mode, preloaded.isLoaded key = true) := by
    intro mode hmode
    rw [herrors, List.isEmpty_iff, List.filterMap_eq_nil_iff]
    refine forall₂_congr fun key hneeded => ?_
    obtain ⟨index, hindex, rfl⟩ := List.getElem_of_mem ((hmem key).mpr ⟨mode, hmode, hneeded⟩)
    have hservice := (List.forall₂_iff_get.mp houtcomes).2 index hindex
      (houtcomes.length_eq ▸ hindex)
    exact @failure_eq_none_iff Manager Id preloaded _ ⟨_, hservice⟩
  have hserved : ∀ mode, application.isModeAvailable mode = true ↔ mode ∈ input.config.modes ∧
      ∀ key ∈ input.config.neededKeys mode, preloaded.isLoaded key = true := fun mode =>
    (havailable mode).trans (and_congr_right (hloaded mode))
  have hsame : ∀ mode ∈ input.config.modes,
      (application.isModeAvailable mode = true ↔ (errorsOf mode).isEmpty = true) :=
    fun mode hmode => (havailable mode).trans (and_iff_right hmode)
  have hsupports : ∀ kind, taskMode kind ∈ input.config.modes →
      preloaded.taskQueue.supports kind = true := by
    intro kind hkind
    cases kind <;> exact decide_eq_true hkind
  have hready : preloaded.readyKinds ≠ [] ↔
      ∃ kind, application.isModeAvailable (taskMode kind) = true := by
    rw [ne_eq, List.eq_nil_iff_forall_not_mem, not_forall_not]
    refine exists_congr fun kind => ?_
    rw [AppServices.readyKinds, List.mem_filter, Bool.and_eq_true]
    refine ⟨fun h => h.2.1, fun h => ⟨by cases kind <;> simp, h, ?_⟩⟩
    exact hsupports kind ((havailable _).mp h).1
  obtain ⟨world, hworld⟩ := @startQueueIfReady_eq Manager Id _ preloaded input.now
  have hrunning : world.runtime.running = true ↔ input.processing.offlineAsyncEnabled = true ∧
      ∃ kind, application.isModeAvailable (taskMode kind) = true := by
    have := @startQueueIfReady_running Manager Id _ preloaded input.now rfl
    rw [hworld, hready] at this
    exact this
  refine ⟨_, _, bind_eq_ok_iff.mpr ⟨_, bind_eq_ok_iff.mpr ⟨_, enabledEngineModes_eq_ok_iff.mpr
    ⟨hvalid.modes, rfl⟩, bind_eq_ok_iff.mpr ⟨_, hoptions, bind_eq_ok_iff.mpr ⟨_, hcompose, rfl⟩⟩⟩,
    bind_eq_ok_iff.mpr ⟨_, hdiagnostics, bind_eq_ok_iff.mpr ⟨_, hpreload, rfl⟩⟩⟩, ?_⟩
  change input.Serves (preloaded.startQueueIfReady input.now) _
  rw [hworld]
  refine ⟨⟨keys, hnodup, hmem, hmanager, houtcomes⟩, hserved, ?_, ?_, hrunning, ?_⟩
  · refine List.filter_congr fun mode hmode => ?_
    rw [Bool.eq_iff_iff]
    exact (hsame mode hmode).symm
  · intro mode
    change (if mode ∈ input.config.modes ∧ (errorsOf mode).isEmpty = false then
      some ("; ".intercalate (errorsOf mode)) else none) = _
    rw [herrors mode]
    refine if_congr (and_congr_right fun hmode => ?_) rfl rfl
    rw [← herrors mode, ← Bool.not_eq_true, ← Bool.not_eq_true]
    exact not_congr (hsame mode hmode).symm
  · intro Audio submission kind
    unfold Api.AppServices.isTaskSubmissionAvailable
    rw [Bool.and_eq_true]
    change application.isModeAvailable (taskMode kind) = true ∧
      (preloaded.taskQueue.canAccept world kind) = true ↔ _
    unfold OfflineTaskQueue.canAccept
    rw [hserved, Bool.and_eq_true, Bool.and_eq_true, hrunning]
    constructor
    · rintro ⟨⟨hmode, hkeys⟩, ⟨-, hasync, -⟩, -⟩
      exact ⟨hasync, hmode, hkeys⟩
    · rintro ⟨hasync, hmode, hkeys⟩
      exact ⟨⟨hmode, hkeys⟩, ⟨hasync, hasync, kind, (hserved _).mpr ⟨hmode, hkeys⟩⟩,
        hsupports kind hmode⟩

/-- What was started serves its modes. -/
theorem serves_of_start (h : input.start = .ok (services, summary)) :
    input.Serves services summary := by
  obtain ⟨services', summary', hstart, hserves⟩ := start_of_startable (startable_of_start h)
  obtain ⟨rfl, rfl⟩ := Prod.mk.inj (Except.ok.inj (hstart.symm.trans h))
  exact hserves

/-- OFFLINE and ONLINE are enabled; OFFLINE shares the speaker service, and the models of ONLINE
cannot be loaded. -/
def partialStart : StartInput Unit Nat where
  config := ⟨["online", "offline"], "pt", "onnx", true⟩
  runtime := plainRuntime
  configDict := []
  processing := ⟨true, 4, 3600⟩
  load cls manager := (if cls = .onnxOnlineAsr then .error "no model" else .ok (), manager)
  manager := ()
  repositories _ := none
  diagnostics := .ok ()
  now _ := 0

end StartInput

end Started

end FunasrApi.Runtime
