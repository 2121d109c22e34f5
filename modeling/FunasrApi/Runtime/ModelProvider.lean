import FunasrApi.Core.Memo
import FunasrApi.Core.Transition
import FunasrApi.Runtime.Services
import Mathlib.Data.List.AList

/-!
# The model provider

The loaders keep every model that was constructed under a key made of its names, and the provider
keeps the groups of models that it hands out. Which models are constructed, and in which order, is
recorded; a model is known by the number of its construction.
-/

namespace FunasrApi.Runtime

open FunasrApi.Config FunasrApi.Core

/-- The fields of `ModelVariantConfig`. -/
inductive ModelType
  | asr
  | streamingAsr
  | finalAsr
  | vad
  | punc
  | spk
  deriving DecidableEq

/-- `DEFAULT_MODELS_BY_MODE`. -/
def defaultModel : EngineMode → Backend → ModelType → String
  | .offline, .pt, .asr =>
    "iic/speech_seaco_paraformer_large_asr_nat-zh-cn-16k-common-vocab8404-pytorch"
  | .offline, .pt, .vad => "iic/speech_fsmn_vad_zh-cn-16k-common-pytorch"
  | .offline, .pt, .punc => "iic/punc_ct-transformer_cn-en-common-vocab471067-large"
  | .offline, .pt, .spk => "iic/speech_campplus_sv_zh-cn_16k-common"
  | .offline, .onnx, .asr =>
    "marxyz/speech_seaco_paraformer_large_asr_nat-zh-cn-16k-common-vocab8404-onnx"
  | .offline, .onnx, .vad => "iic/speech_fsmn_vad_zh-cn-16k-common-onnx"
  | .offline, .onnx, .punc => "iic/punc_ct-transformer_cn-en-common-vocab471067-large-onnx"
  | .offline, .onnx, .spk => "iic/speech_campplus_speaker-diarization_common"
  | .online, .pt, .streamingAsr =>
    "iic/speech_paraformer-large_asr_nat-zh-cn-16k-common-vocab8404-online"
  | .online, .pt, .vad => "iic/speech_fsmn_vad_zh-cn-16k-common-pytorch"
  | .online, .pt, .finalAsr =>
    "iic/speech_seaco_paraformer_large_asr_nat-zh-cn-16k-common-vocab8404-pytorch"
  | .online, .pt, .punc => "iic/punc_ct-transformer_zh-cn-common-vad_realtime-vocab272727"
  | .online, .onnx, .streamingAsr =>
    "iic/speech_paraformer-large_asr_nat-zh-cn-16k-common-vocab8404-online-onnx"
  | .online, .onnx, .vad => "iic/speech_fsmn_vad_zh-cn-16k-common-onnx"
  | .online, .onnx, .finalAsr =>
    "marxyz/speech_seaco_paraformer_large_asr_nat-zh-cn-16k-common-vocab8404-onnx"
  | .online, .onnx, .punc => "iic/punc_ct-transformer_cn-en-common-vocab471067-large-onnx"
  | .spk, .pt, .spk => "iic/speech_campplus_speaker-diarization_common"
  | _, _, _ => ""

/-- What the provider reads of the configuration. -/
structure ModelSettings where
  engines : EnginesConfig
  /-- The configured name of a model, by its mode, backend and type. -/
  configuredName : EngineMode → Backend → ModelType → Option Text

/-- `model_name`. -/
def ModelSettings.modelName (settings : ModelSettings) (mode : EngineMode) (backend : Backend)
    (modelType : ModelType) : Text :=
  match settings.configuredName mode backend modelType with
  | some name => if name = [] then (defaultModel mode backend modelType).toList else name
  | none => (defaultModel mode backend modelType).toList

/-- What is constructed, with the names of the models. -/
inductive Construction
  /-- `AutoModel(model=...)`. -/
  | single (modelName : Text)
  /-- `AutoModel` with VAD, punctuation and speaker model. -/
  | stack (modelName vadModel puncModel spkModel : Text)
  | onnxStreamingAsr (modelName : Text)
  | onnxVad (modelName : Text)
  | onnxFinalAsr (modelName : Text)
  | onnxPunc (modelName : Text)
  /-- `pipeline(task="speaker-diarization", ...)`. -/
  | speakerPipeline (spkName : Text)
  /-- `OfflineONNXModelBundle`, which loads its models when it is constructed. -/
  | offlineOnnxBundle (asrName vadName puncName : Text)
  deriving DecidableEq

/-- How a construction fails: while `ensure_model` resolves a name (or a speaker model is
validated), or in the constructor. -/
inductive ConstructionFailure
  | resolving (message : Text)
  | constructing (message : Text)

/-- What a call of the provider raises. -/
inductive LoadError
  /-- `EngineConfigurationError`. -/
  | configuration (error : StartError)
  /-- `ModelLoadError`. -/
  | modelLoad (message : Text)
  /-- Whatever the downloader or a constructor raises. -/
  | other (message : Text)

/-- `OnlineModelBundle`, without its metadata. -/
structure OnlineModelBundle where
  streamingAsr : ℕ
  vad : ℕ
  finalAsr : ℕ
  punc : Option ℕ
  deriving DecidableEq

/-- The models of a bundle. -/
def OnlineModelBundle.models (bundle : OnlineModelBundle) : List ℕ :=
  bundle.streamingAsr :: bundle.vad :: bundle.finalAsr :: bundle.punc.toList

/-- The loaders and the caches of `RuntimeModelProvider`. -/
structure RuntimeModelProvider where
  /-- `pt_loader._models`. -/
  ptModels : AList fun _ : Text => ℕ := ∅
  /-- `online_onnx_loader._models`. -/
  onlineOnnxModels : AList fun _ : Text => OnlineModelBundle := ∅
  /-- `spk_pt_loader._models`. -/
  spkModels : AList fun _ : Text => ℕ := ∅
  offlineOnnxModelBundle : Option ℕ := none
  onlinePtModelBundle : Option OnlineModelBundle := none
  onlineOnnxModelBundle : Option OnlineModelBundle := none
  /-- What was constructed so far, oldest first. -/
  constructed : List Construction := []

namespace RuntimeModelProvider

/-- A call of the provider. -/
abbrev Call (α : Type) := Effect RuntimeModelProvider LoadError α

section Cells

/-- `pt_loader._models[key]`. -/
def ptCell (key : Text) : Effect.Cell RuntimeModelProvider ℕ where
  read provider := provider.ptModels.lookup key
  write model provider := { provider with ptModels := provider.ptModels.insert key model }

/-- `online_onnx_loader._models[key]`. -/
def onlineOnnxCell (key : Text) : Effect.Cell RuntimeModelProvider OnlineModelBundle where
  read provider := provider.onlineOnnxModels.lookup key
  write bundle provider :=
    { provider with onlineOnnxModels := provider.onlineOnnxModels.insert key bundle }

/-- `spk_pt_loader._models[key]`. -/
def spkCell (key : Text) : Effect.Cell RuntimeModelProvider ℕ where
  read provider := provider.spkModels.lookup key
  write model provider := { provider with spkModels := provider.spkModels.insert key model }

/-- `model_cache.offline_onnx_model_bundle`. -/
def offlineOnnxBundleCell : Effect.Cell RuntimeModelProvider ℕ where
  read provider := provider.offlineOnnxModelBundle
  write model provider := { provider with offlineOnnxModelBundle := some model }

/-- `model_cache.online_pt_model_bundle`. -/
def onlinePtBundleCell : Effect.Cell RuntimeModelProvider OnlineModelBundle where
  read provider := provider.onlinePtModelBundle
  write bundle provider := { provider with onlinePtModelBundle := some bundle }

/-- `model_cache.online_onnx_model_bundle`. -/
def onlineOnnxBundleCell : Effect.Cell RuntimeModelProvider OnlineModelBundle where
  read provider := provider.onlineOnnxModelBundle
  write bundle provider := { provider with onlineOnnxModelBundle := some bundle }

end Cells

/-- The cache key of a model stack. -/
def offlineKey (asrName vadName puncName spkName : Text) : Text :=
  "offline:".toList ++ asrName ++ ":".toList ++ vadName ++ ":".toList ++ puncName ++
    ":".toList ++ spkName

/-- The cache key of one of the models of ONLINE. -/
def onlineKey (part : String) (name : Text) : Text :=
  "online-pt-".toList ++ part.toList ++ ":".toList ++ name

/-- The cache key of a speaker pipeline. -/
def spkKey (spkName : Text) : Text := "spk-pt:".toList ++ spkName

/-- The cache key of the ONNX models of ONLINE. -/
def onnxKey : Text := "online-onnx".toList

section Loaders

variable (outside : ℕ → Construction → Option ConstructionFailure)

/-- A construction, whose outcome is decided outside; `wrap` is what becomes of a failure. -/
def construct (construction : Construction) (wrap : ConstructionFailure → LoadError) : Call ℕ := do
  let provider ← Effect.get
  let number := provider.constructed.length
  Effect.modify fun provider =>
    { provider with constructed := provider.constructed ++ [construction] }
  match outside number construction with
  | none => pure number
  | some failure => throw (wrap failure)

/-- A failure in a constructor becomes a `ModelLoadError`, one of `ensure_model` is passed on. -/
def wrapConstructing (message : Text) : ConstructionFailure → LoadError
  | .resolving raised => .other raised
  | .constructing _ => .modelLoad message

/-- Every failure becomes a `ModelLoadError`. -/
def wrapAll (message : Text) (_ : ConstructionFailure) : LoadError := .modelLoad message

/-- Every failure is passed on. -/
def wrapNone : ConstructionFailure → LoadError
  | .resolving raised => .other raised
  | .constructing raised => .other raised

/-- `load_single_model`. -/
def loadSingleModel (modelName cacheKey : Text) : Call ℕ :=
  (ptCell cacheKey).getOrCreate (construct outside (.single modelName)
    (wrapConstructing ("PT 单模型加载失败: ".toList ++ modelName)))

/-- `PTModelLoader.load_model`. -/
def loadModelStack (modelName vadModel puncModel spkModel cacheKey : Text) : Call ℕ :=
  (ptCell cacheKey).getOrCreate
    (construct outside (.stack modelName vadModel puncModel spkModel)
      (wrapAll ("PT 模型堆栈加载失败: ".toList ++ cacheKey)))

/-- `SpeakerPTPipelineLoader.load_model`. -/
def loadSpeakerModel (spkName cacheKey : Text) : Call ℕ :=
  (spkCell cacheKey).getOrCreate (construct outside (.speakerPipeline spkName)
    (wrapConstructing ("PT SPK pipeline 加载失败: ".toList ++ cacheKey)))

/-- `OnlineONNXModelLoader.load_models`, with its default cache key. -/
def loadOnlineOnnxModels (streamingAsrName vadName finalAsrName puncName : Text) :
    Call OnlineModelBundle :=
  let wrap := wrapAll ("ONNX ONLINE 模型堆栈加载失败: ".toList ++ onnxKey)
  (onlineOnnxCell onnxKey).getOrCreate do
    let streamingAsr ← construct outside (.onnxStreamingAsr streamingAsrName) wrap
    let vad ← construct outside (.onnxVad vadName) wrap
    let finalAsr ← construct outside (.onnxFinalAsr finalAsrName) wrap
    if puncName = [] then
      return { streamingAsr, vad, finalAsr, punc := none }
    else
      let punc ← construct outside (.onnxPunc puncName) wrap
      return { streamingAsr, vad, finalAsr, punc := some punc }

end Loaders

section Provider

variable (settings : ModelSettings) (outside : ℕ → Construction → Option ConstructionFailure)

/-- The error of a mode or a backend that is not the configured one. -/
def notConfigured (message : String) : LoadError := .configuration (.configuration message)

/-- `get_backend_for_mode`. -/
def getBackendForMode (mode : EngineMode) : Except LoadError Backend :=
  (settings.engines.backendForMode mode).mapError .configuration

/-- The check that a backend is the configured one. -/
def requireBackend (mode : EngineMode) (backend : Backend) (message : String) :
    Except LoadError Unit := do
  let configured ← getBackendForMode settings mode
  if configured = backend then .ok () else .error (notConfigured message)

/-- `_require_enabled_mode`, and the same check elsewhere. -/
def requireEnabledMode (mode : EngineMode) (message : String) : Except LoadError Unit :=
  if mode ∈ settings.engines.modes then .ok () else .error (notConfigured message)

/-- `spk_runtime_required`, as a check. -/
def requireSpkRuntime : Except LoadError Unit :=
  if .offline ∈ settings.engines.modes ∨ .spk ∈ settings.engines.modes then .ok ()
  else .error (notConfigured "SPK runtime 未启用，需要启用 offline 或 spk")

/-- `get_offline_onnx_model_bundle`. -/
def getOfflineOnnxModelBundle : Call ℕ := do
  Effect.ofExcept (requireBackend settings .offline .onnx "当前 OFFLINE 后端不是 ONNX")
  offlineOnnxBundleCell.getOrCreate (construct outside (.offlineOnnxBundle
    (settings.modelName .offline .onnx .asr) (settings.modelName .offline .onnx .vad)
    (settings.modelName .offline .onnx .punc)) wrapNone)

/-- `get_offline_model`. -/
def getOfflineModel : Call ℕ := do
  Effect.ofExcept (requireEnabledMode settings .offline "OFFLINE 模式未启用")
  match ← Effect.ofExcept (getBackendForMode settings .offline) with
  | .onnx => getOfflineOnnxModelBundle settings outside
  | .pt =>
    let asrName := settings.modelName .offline .pt .asr
    let vadName := settings.modelName .offline .pt .vad
    let puncName := settings.modelName .offline .pt .punc
    let spkName := settings.modelName .offline .pt .spk
    loadModelStack outside asrName vadName puncName spkName
      (offlineKey asrName vadName puncName spkName)

/-- `create_bundle` of `get_online_pt_model_bundle`. -/
def createOnlinePtBundle : Call OnlineModelBundle := do
  let name := settings.modelName .online .pt
  let load part modelType :=
    loadSingleModel outside (name modelType) (onlineKey part (name modelType))
  let streamingAsr ← load "streaming-asr" .streamingAsr
  let vad ← load "vad" .vad
  let finalAsr ← load "final-asr" .finalAsr
  if name .punc = [] then
    return { streamingAsr, vad, finalAsr, punc := none }
  else
    let punc ← load "punc" .punc
    return { streamingAsr, vad, finalAsr, punc := some punc }

/-- `get_online_pt_model_bundle`. -/
def getOnlinePtModelBundle : Call OnlineModelBundle := do
  Effect.ofExcept (requireEnabledMode settings .online "ONLINE 模式未启用")
  Effect.ofExcept (requireBackend settings .online .pt "当前 ONLINE 后端不是 PT")
  onlinePtBundleCell.getOrCreate (createOnlinePtBundle settings outside)

/-- `get_online_onnx_model_bundle`. -/
def getOnlineOnnxModelBundle : Call OnlineModelBundle := do
  Effect.ofExcept (requireEnabledMode settings .online "ONLINE 模式未启用")
  Effect.ofExcept (requireBackend settings .online .onnx "当前 ONLINE 后端不是 ONNX")
  let name := settings.modelName .online .onnx
  onlineOnnxBundleCell.getOrCreate (loadOnlineOnnxModels outside (name .streamingAsr) (name .vad)
    (name .finalAsr) (name .punc))

/-- `get_spk_model`. -/
def getSpkModel : Call ℕ := do
  Effect.ofExcept (requireSpkRuntime settings)
  let spkName := settings.modelName .spk .pt .spk
  Effect.ofExcept (if spkName ≠ [] then .ok ()
    else .error (notConfigured "SPK 模式必须配置 spk 模型"))
  loadSpeakerModel outside spkName (spkKey spkName)

/-- What a call hands out: one model, or the models of ONLINE. -/
inductive LoadedModels
  | model (number : ℕ)
  | bundle (models : OnlineModelBundle)

/-- The numbers of the models that are handed out. -/
def LoadedModels.numbers : LoadedModels → List ℕ
  | .model number => [number]
  | .bundle models => models.models

/-- The calls that hand out models. -/
inductive GetCall
  | offlineModel
  | offlineOnnxModelBundle
  | onlinePtModelBundle
  | onlineOnnxModelBundle
  | spkModel
  deriving DecidableEq

/-- One of these calls. -/
def perform : GetCall → Call LoadedModels
  | .offlineModel => do return .model (← getOfflineModel settings outside)
  | .offlineOnnxModelBundle => do return .model (← getOfflineOnnxModelBundle settings outside)
  | .onlinePtModelBundle => do return .bundle (← getOnlinePtModelBundle settings outside)
  | .onlineOnnxModelBundle => do return .bundle (← getOnlineOnnxModelBundle settings outside)
  | .spkModel => do return .model (← getSpkModel settings outside)

end Provider

/-- `unload_model`, with the loaders' own and `_invalidate_bundle_cache`. -/
def unloadModel (modelKey : Option Text) (provider : RuntimeModelProvider) :
    RuntimeModelProvider :=
  let unloaded :=
    match modelKey with
    | none | some [] => { provider with ptModels := ∅, onlineOnnxModels := ∅, spkModels := ∅ }
    | some key =>
      { provider with
        ptModels := provider.ptModels.erase key
        onlineOnnxModels := provider.onlineOnnxModels.erase key
        spkModels := provider.spkModels.erase key }
  match modelKey with
  | none =>
    { unloaded with
      offlineOnnxModelBundle := none
      onlinePtModelBundle := none
      onlineOnnxModelBundle := none }
  | some key =>
    if "online-pt-".toList <+: key then { unloaded with onlinePtModelBundle := none }
    else if key = onnxKey ∨ key = "online_onnx_model_bundle".toList then
      { unloaded with onlineOnnxModelBundle := none }
    else if key = "offline-onnx".toList ∨ key = "offline_onnx_model_bundle".toList then
      { unloaded with offlineOnnxModelBundle := none }
    else unloaded

/-- Assigning a new loader to `pt_loader`. -/
def setPtLoader (provider : RuntimeModelProvider) : RuntimeModelProvider :=
  { provider with ptModels := ∅, onlinePtModelBundle := none }

/-- Assigning a new loader to `online_onnx_loader`. -/
def setOnlineOnnxLoader (provider : RuntimeModelProvider) : RuntimeModelProvider :=
  { provider with onlineOnnxModels := ∅, onlineOnnxModelBundle := none }

/-- Assigning a new loader to `spk_pt_loader`. -/
def setSpkPtLoader (provider : RuntimeModelProvider) : RuntimeModelProvider :=
  { provider with spkModels := ∅ }

/-- `get_loaded_models_count`, with the count of the cache and those of the loaders. -/
def getLoadedModelsCount (provider : RuntimeModelProvider) : ℕ :=
  provider.ptModels.entries.length +
    ((if provider.offlineOnnxModelBundle.isSome then 3 else 0) +
      (provider.onlineOnnxModels.entries.flatMap fun entry => entry.2.models).length +
      provider.spkModels.entries.length)

/-- What can be done with a provider. -/
inductive Action
  | get (call : GetCall)
  | unloadModel (modelKey : Option Text)
  | setPtLoader
  | setOnlineOnnxLoader
  | setSpkPtLoader
  deriving DecidableEq

/-- The provider with whatever is constructed outside. -/
def machine (settings : ModelSettings) (outside : ℕ → Construction → Option ConstructionFailure) :
    Machine RuntimeModelProvider Action where
  step provider action := some <|
    match action with
    | .get call => (perform settings outside call provider).final
    | .unloadModel modelKey => provider.unloadModel modelKey
    | .setPtLoader => provider.setPtLoader
    | .setOnlineOnnxLoader => provider.setOnlineOnnxLoader
    | .setSpkPtLoader => provider.setSpkPtLoader

end RuntimeModelProvider

end FunasrApi.Runtime
