import FunasrApi.Runtime.ModelCalls
import FunasrApi.Runtime.Startup

/-!
# The models of the started services

The services load through the model provider. What the start preloaded is still in the caches
when the application serves: a request to a service of an available mode finds its models, and
constructs nothing.
-/

namespace FunasrApi.Runtime

open FunasrApi.Core Effect RuntimeModelProvider

/-- `str` of an error of the start. -/
def StartError.message : StartError → String
  | .configuration message => message
  | .noSection => "object has no attribute 'get'"
  | .dependency message => message

/-- `str` of an error of the provider. -/
def LoadError.message : LoadError → String
  | .configuration error => error.message
  | .modelLoad message => String.ofList message
  | .other message => String.ofList message

section Services

variable (settings : ModelSettings) (outside : ℕ → Construction → Option ConstructionFailure)

/-- The call of the provider that a service of a class makes. -/
def ServiceClass.call : ServiceClass → GetCall
  | .ptOfflineAsr => .offlineModel
  | .onnxOfflineAsr => .offlineOnnxModelBundle
  | .ptOnlineAsr => .onlinePtModelBundle
  | .onnxOnlineAsr => .onlineOnnxModelBundle
  | .ptSpeaker => .spkModel

/-- The check of the recognizer that a service asks for: `get_offline_pt_recognizer` and
`get_offline_onnx_recognizer`. -/
def recognizerCheck : ServiceClass → Except LoadError Unit
  | .ptOfflineAsr => requireBackend settings .offline .pt "当前 OFFLINE 后端不是 PyTorch"
  | .onnxOfflineAsr => requireBackend settings .offline .onnx "当前 OFFLINE 后端不是 ONNX"
  | _ => .ok ()

/-- `load_model` of a service, as preloading and every request call it. -/
def serviceModels (cls : ServiceClass) : Call LoadedModels := do
  Effect.ofExcept (recognizerCheck settings cls)
  perform settings outside cls.call

/-- The loader of a class of services. -/
def loadService (cls : ServiceClass) (provider : RuntimeModelProvider) :
    Except String Unit × RuntimeModelProvider :=
  let outcome := serviceModels settings outside cls provider
  ((outcome.result.map fun _ => ()).mapError LoadError.message, outcome.final)

end Services

section Preloaded

variable {settings : ModelSettings} {outside : ℕ → Construction → Option ConstructionFailure}
  {p : RuntimeModelProvider} {cls : ServiceClass}

/-- A service is answered out of the caches, without an effect. -/
def Settled (settings : ModelSettings) (outside : ℕ → Construction → Option ConstructionFailure)
    (p : RuntimeModelProvider) (cls : ServiceClass) : Prop :=
  ∃ models, Provided p models.numbers (cls.call.constructions settings) ∧
    serviceModels settings outside cls p = ⟨[], .ok models, p⟩

/-- Loading a service adds to the caches, also when it fails; and a service that was loaded is
settled in every larger provider. -/
theorem loadService_spec (h : Coherent settings p) (cls : ServiceClass) :
    Coherent settings (loadService settings outside cls p).2 ∧
      Grows p (loadService settings outside cls p).2 ∧
      ((loadService settings outside cls p).1 = .ok () → ∀ q, Coherent settings q →
        Grows (loadService settings outside cls p).2 q → Settled settings outside q cls) := by
  unfold loadService Settled serviceModels
  cases hcheck : recognizerCheck settings cls with
  | error e => exact ⟨h, Grows.refl p, (fun hok => by cases hok)⟩
  | ok _ =>
    rw [ofExcept_bind_ok]
    have hafter : Coherent settings (perform settings outside cls.call p).final ∧
        Grows p (perform settings outside cls.call p).final := perform_grows h cls.call
    refine ⟨hafter.1, hafter.2, fun hok q hq hlater => ?_⟩
    cases hresult : (perform settings outside cls.call p).result with
    | error e =>
      simp only [hresult] at hok
      cases hok
    | ok models =>
      have hkept := (perform_ok h hresult).grow hlater
      exact ⟨models, hkept.provided hq, perform_kept hresult hkept⟩

/-- After all services were loaded, those whose loader succeeded are settled. -/
theorem loadAll_spec (h : Coherent settings p) (classes : List ServiceClass) :
    Coherent settings (loadAll (loadService settings outside) classes p).2 ∧
      Grows p (loadAll (loadService settings outside) classes p).2 ∧
      List.Forall₂ (fun cls outcome => outcome = .ok () → Settled settings outside
          (loadAll (loadService settings outside) classes p).2 cls)
        classes (loadAll (loadService settings outside) classes p).1 := by
  induction classes generalizing p with
  | nil => exact ⟨h, Grows.refl p, .nil⟩
  | cons cls rest ih =>
    have hfirst : Coherent settings (loadService settings outside cls p).2 ∧ _ :=
      loadService_spec h cls
    obtain ⟨hcoherent, hgrows, hsettled⟩ := hfirst
    obtain ⟨hfinal, hgrows', hrest⟩ := ih hcoherent
    exact ⟨hfinal, hgrows.trans hgrows', .cons (fun hok => hsettled hok _ hfinal hgrows') hrest⟩

/-- Settled requests leave the provider as it is. -/
theorem foldl_settled {classes : List ServiceClass}
    (h : ∀ cls ∈ classes, Settled settings outside p cls) :
    classes.foldl (fun p cls => (serviceModels settings outside cls p).final) p = p := by
  induction classes with
  | nil => rfl
  | cons cls rest ih =>
    obtain ⟨models, -, hcall⟩ := h cls List.mem_cons_self
    rw [List.foldl_cons, hcall]
    exact ih fun cls hcls => h cls (List.mem_cons_of_mem _ hcls)

end Preloaded

namespace StartInput

variable {Id : Type} [DecidableEq Id]

/-- After a start with the model provider, every service of an available mode is answered out of
the caches, with models that were constructed from the configured names; and after any requests to
such services nothing more was constructed. -/
theorem available_settled {input : StartInput RuntimeModelProvider Id}
    {settings : ModelSettings} {outside : ℕ → Construction → Option ConstructionFailure}
    {services : AppServices RuntimeModelProvider Id} {summary : PreloadSummary}
    (hload : input.load = loadService settings outside) (hmanager : input.manager = {})
    (hstart : input.start = .ok (services, summary)) :
    (∀ mode, services.runtimeApplication.isModeAvailable mode = true →
      ∀ key ∈ input.config.neededKeys mode,
        Settled settings outside services.runtimeServices.manager (input.config.classOf key)) ∧
    ∀ requests : List ServiceKey,
      (∀ key ∈ requests, ∃ mode, services.runtimeApplication.isModeAvailable mode = true ∧
        key ∈ input.config.neededKeys mode) →
      (requests.map input.config.classOf).foldl
          (fun p cls => (serviceModels settings outside cls p).final)
          services.runtimeServices.manager =
        services.runtimeServices.manager := by
  have hserves := serves_of_start hstart
  obtain ⟨keys, -, hkeys, hfinal, hpreloaded⟩ := hserves.preloaded
  rw [hload, hmanager] at hfinal hpreloaded
  have hall : Coherent settings (loadAll (loadService settings outside)
      (keys.map input.config.classOf) {}).2 ∧ _ :=
    loadAll_spec coherent_initial (keys.map input.config.classOf)
  have hsettled := hall.2.2
  rw [← hfinal, List.forall₂_map_left_iff] at hsettled
  have havailable : ∀ mode, services.runtimeApplication.isModeAvailable mode = true →
      ∀ key ∈ input.config.neededKeys mode,
        Settled settings outside services.runtimeServices.manager (input.config.classOf key) := by
    intro mode hmode key hkey
    obtain ⟨henabled, hloaded⟩ := (hserves.available mode).mp hmode
    obtain ⟨index, hindex, rfl⟩ := List.getElem_of_mem ((hkeys key).mpr ⟨mode, henabled, hkey⟩)
    have hlength := hpreloaded.length_eq
    have hservice := (List.forall₂_iff_get.mp hpreloaded).2 index hindex (hlength ▸ hindex)
    refine (List.forall₂_iff_get.mp hsettled).2 index hindex (hlength ▸ hindex) ?_
    -- a loaded service remembers that its loader succeeded
    have hthis := hloaded _ hkey
    unfold AppServices.isLoaded at hthis
    rw [show services.runtimeServices.services keys[index] = _ from hservice] at hthis
    revert hthis
    cases (loadAll (loadService settings outside)
      (keys.map input.config.classOf) {}).1.get ⟨index, hlength ▸ hindex⟩ with
    | ok _ => exact fun _ => rfl
    | error e => exact fun h => by cases h
  refine ⟨havailable, fun requests hrequests => foldl_settled fun cls hcls => ?_⟩
  obtain ⟨key, hkey, rfl⟩ := List.mem_map.mp hcls
  obtain ⟨mode, hmode, hneeded⟩ := hrequests key hkey
  exact havailable mode hmode key hneeded

/-- OFFLINE with speakers: its model stack is loaded, and the speaker pipeline. -/
def offlineStart : StartInput RuntimeModelProvider Nat where
  config := ⟨["offline"], "pt", "pt", true⟩
  runtime := Config.plainRuntime
  configDict := []
  processing := ⟨true, 4, 3600⟩
  load := loadService { shortNames with engines := ⟨["offline"], "pt", "pt", true⟩ } fun _ _ => none
  manager := {}
  repositories _ := none
  diagnostics := .ok ()
  now _ := 0

/-- Three requests to its services construct nothing. -/
theorem offlineStart_settled :
    ∃ services summary, offlineStart.start = .ok (services, summary) ∧
      services.runtimeServices.manager.constructed =
        [.stack ['a'] ['v'] ['p'] ['k'], .speakerPipeline ['k']] ∧
      ([ServiceKey.offlineAsr, .speaker, .offlineAsr].map offlineStart.config.classOf).foldl
          (fun p cls => (serviceModels
            { shortNames with engines := ⟨["offline"], "pt", "pt", true⟩ } (fun _ _ => none)
            cls p).final)
          services.runtimeServices.manager =
        services.runtimeServices.manager := by
  have hrun : offlineStart.start.toOption.any (fun started =>
      started.1.runtimeApplication.isModeAvailable .offline &&
        decide (started.1.runtimeServices.manager.constructed =
          [.stack ['a'] ['v'] ['p'] ['k'], .speakerPipeline ['k']])) = true := by
    decide +kernel
  cases hstart : offlineStart.start with
  | error e =>
    rw [hstart] at hrun
    cases hrun
  | ok started =>
    rw [hstart] at hrun
    obtain ⟨havailable, hconstructed⟩ := Bool.and_eq_true_iff.mp hrun
    refine ⟨started.1, started.2, rfl, of_decide_eq_true hconstructed, ?_⟩
    refine (available_settled rfl rfl hstart).2 _ fun key hkey => ⟨.offline, havailable, ?_⟩
    have hneeded : ∀ key ∈ [ServiceKey.offlineAsr, .speaker, .offlineAsr],
        key ∈ offlineStart.config.neededKeys .offline := by decide
    exact hneeded key hkey

end StartInput

end FunasrApi.Runtime
