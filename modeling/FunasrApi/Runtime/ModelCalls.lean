import FunasrApi.Runtime.ModelCoherence

/-!
# Calls of the model provider

Every call keeps the caches coherent at each of its moments, also when it raises half-way, and
only adds to them. So the models that a call handed out are handed out by every later call, and
nothing is constructed for that.
-/

namespace FunasrApi.Runtime.RuntimeModelProvider

open FunasrApi.Core Effect

variable {settings : ModelSettings} {outside : ℕ → Construction → Option ConstructionFailure}
  {key : Text} {construction : Construction} {wrap : ConstructionFailure → LoadError}

section Loaders

/-- A predicate that does not look at the record of the constructions. -/
def Unrecorded (R : RuntimeModelProvider → Prop) : Prop :=
  ∀ p construction, R p → R { p with constructed := p.constructed ++ [construction] }

/-- A construction that succeeds is fresh. -/
theorem construct_extends {R : RuntimeModelProvider → Prop} (hR : Unrecorded R)
    (models : List (ℕ × Construction)) :
    (growth settings).Extends (fun p => Fresh models p ∧ R p)
      (construct outside construction wrap)
      fun model p => Fresh (models ++ [(model, construction)]) p ∧ R p := by
  rintro p hgood ⟨hfresh, hr⟩
  have hgood' : Coherent settings _ := Coherent.construct hgood construction
  have hgrows := grows_construct p construction
  unfold construct
  refine meets_bind (meets_get (meets_bind (meets_modify ⟨hgood', hgrows⟩ ?_)))
  cases outside p.constructed.length construction with
  | none => exact meets_pure ⟨hgood', hgrows, hfresh.construct hgood construction, hR p _ hr⟩
  | some failure => exact meets_throw ⟨hgood', hgrows⟩

theorem fresh_nil (p : RuntimeModelProvider) : Fresh [] p :=
  ⟨List.nodup_nil, (fun _ h => absurd h List.not_mem_nil), fun _ h => absurd h List.not_mem_nil⟩

/-- A cell that is filled by one construction. -/
theorem constructed_extends {cell : Cell RuntimeModelProvider ℕ} {R : RuntimeModelProvider → Prop}
    (hread : Unrecorded fun p => cell.read p = none) (hR : Unrecorded R)
    (hinsert : ∀ p model, R p → R (cell.write model p))
    (hwrite : ∀ model p, Coherent settings p → cell.read p = none →
      Fresh [(model, construction)] p → Coherent settings (cell.write model p) ∧
        Grows p (cell.write model p) ∧ cell.read (cell.write model p) = some model) :
    (growth settings).Extends R (cell.getOrCreate (construct outside construction wrap))
      fun model p => cell.read p = some model ∧ R p := by
  refine Growth.extends_getOrCreate (Q := fun model p => Fresh [(model, construction)] p ∧
    R p ∧ cell.read p = none) (S := fun _ => R) ?_ ?_ ?_
  · have hstep : (growth settings).Extends _ (construct outside construction wrap) _ :=
      construct_extends (R := fun p => R p ∧ cell.read p = none)
        (fun p c h => ⟨hR p c h.1, hread p c h.2⟩) []
    exact hstep.weaken (fun p _ h => ⟨fresh_nil p, h⟩) fun _ _ _ h => h
  · rintro model p hgood ⟨hfresh, hr, hnew⟩
    obtain ⟨hgood', hgrows, hread'⟩ := hwrite model p hgood hnew hfresh
    exact ⟨hgood', hgrows, hread', hinsert p model hr⟩
  · exact fun _ _ _ hr _ => hr

/-- A call of a loader for one model of the plan. -/
theorem ptCell_extends {R : RuntimeModelProvider → Prop} (hR : Unrecorded R)
    (hinsert : ∀ p model, R p → R { p with ptModels := p.ptModels.insert key model })
    (hplan : (key, construction) ∈ settings.ptPlan) :
    (growth settings).Extends R
      ((ptCell key).getOrCreate (construct outside construction wrap))
      fun model p => p.ptModels.lookup key = some model ∧ R p :=
  constructed_extends (fun _ _ h => h) hR hinsert fun _ _ hgood hnew hfresh =>
    ⟨Coherent.insertPt hgood hnew hplan hfresh, grows_insertPt hnew, AList.lookup_insert _⟩

/-- A call of the loader of the speaker pipeline. -/
theorem spkCell_extends :
    (growth settings).Extends (fun _ => True)
      ((spkCell (spkKey (settings.modelName .spk .pt .spk))).getOrCreate (construct outside
        (.speakerPipeline (settings.modelName .spk .pt .spk)) wrap))
      fun model p => p.spkModels.lookup (spkKey (settings.modelName .spk .pt .spk)) = some model ∧
        True :=
  constructed_extends (fun _ _ h => h) (fun _ _ h => h) (fun _ _ h => h)
    fun _ _ hgood hnew hfresh =>
      ⟨Coherent.insertSpk hgood hnew rfl hfresh, grows_insertSpk hnew, AList.lookup_insert _⟩

/-- A call for the ONNX bundle of OFFLINE. -/
theorem offlineOnnxBundleCell_extends :
    (growth settings).Extends (fun _ => True)
      (offlineOnnxBundleCell.getOrCreate (construct outside (.offlineOnnxBundle
        (settings.modelName .offline .onnx .asr) (settings.modelName .offline .onnx .vad)
        (settings.modelName .offline .onnx .punc)) wrap))
      fun model p => p.offlineOnnxModelBundle = some model ∧ True :=
  constructed_extends (fun _ _ h => h) (fun _ _ h => h) (fun _ _ h => h)
    fun _ _ hgood hnew hfresh =>
      ⟨Coherent.writeOfflineOnnx hgood hnew hfresh, grows_writeOfflineOnnx hnew, rfl⟩

/-- The number of models in a group with and without punctuation. -/
theorem onnxPlan_eq : settings.onnxPlan =
    [.onnxStreamingAsr (settings.modelName .online .onnx .streamingAsr),
      .onnxVad (settings.modelName .online .onnx .vad),
      .onnxFinalAsr (settings.modelName .online .onnx .finalAsr)] ++
    if settings.modelName .online .onnx .punc = [] then []
    else [.onnxPunc (settings.modelName .online .onnx .punc)] := rfl

/-- A call of the loader of the ONNX models of ONLINE. -/
theorem loadOnlineOnnxModels_extends {R : RuntimeModelProvider → Prop} (hR : Unrecorded R)
    (hinsert : ∀ p bundle, R p →
      R { p with onlineOnnxModels := p.onlineOnnxModels.insert onnxKey bundle }) :
    (growth settings).Extends R
      (loadOnlineOnnxModels outside (settings.modelName .online .onnx .streamingAsr)
        (settings.modelName .online .onnx .vad) (settings.modelName .online .onnx .finalAsr)
        (settings.modelName .online .onnx .punc))
      fun bundle p => p.onlineOnnxModels.lookup onnxKey = some bundle ∧ R p := by
  refine Growth.extends_getOrCreate
    (Q := fun bundle p => Fresh (bundle.models.zip settings.onnxPlan) p ∧
      bundle.models.length = settings.onnxPlan.length ∧ R p ∧
      p.onlineOnnxModels.lookup onnxKey = none) (S := fun _ => R) ?_ ?_ ?_
  · have hstep : ∀ (models : List (ℕ × Construction)) (c : Construction) (wrap),
        (growth settings).Extends _ (construct outside c wrap) _ := fun models c wrap =>
      construct_extends (R := fun p => R p ∧ p.onlineOnnxModels.lookup onnxKey = none)
        (fun p c h => ⟨hR p c h.1, h.2⟩) models
    refine Growth.Extends.bind ((hstep [] _ _).weaken (fun p _ h => ⟨fresh_nil p, h⟩)
      fun _ _ _ h => h) fun streamingAsr => ?_
    refine Growth.Extends.bind (hstep _ _ _) fun vad => ?_
    refine Growth.Extends.bind (hstep _ _ _) fun finalAsr => ?_
    by_cases hpunc : settings.modelName .online .onnx .punc = []
    · rw [if_pos hpunc]
      refine Growth.extends_pure fun p _ h => ?_
      rw [onnxPlan_eq, if_pos hpunc]
      exact ⟨h.1, rfl, h.2⟩
    · rw [if_neg hpunc]
      refine Growth.Extends.bind (hstep _ _ _) fun punc => Growth.extends_pure fun p _ h => ?_
      rw [onnxPlan_eq, if_neg hpunc]
      exact ⟨h.1, rfl, h.2⟩
  · rintro bundle p hgood ⟨hfresh, hlength, hr, hnew⟩
    have hread : (p.onlineOnnxModels.insert onnxKey bundle).lookup onnxKey = some bundle :=
      AList.lookup_insert _
    exact ⟨Coherent.insertOnnx hgood hnew hfresh hlength, grows_insertOnnx hnew, hread,
      hinsert p bundle hr⟩
  · exact fun _ _ _ hr _ => hr

end Loaders

section Groups

/-- The models of a PT bundle of ONLINE are loaded one after the other; those that were loaded
already stay. -/
theorem createOnlinePtBundle_extends :
    (growth settings).Extends (fun p => p.onlinePtModelBundle = none)
      (createOnlinePtBundle settings outside)
      fun bundle p => PtParts settings bundle p ∧ p.onlinePtModelBundle = none := by
  have hload : ∀ (part : String) (modelType : ModelType),
      (onlineKey part (settings.modelName .online .pt modelType),
        Construction.single (settings.modelName .online .pt modelType)) ∈ settings.ptPlan →
      (growth settings).Extends (fun p => p.onlinePtModelBundle = none)
        (loadSingleModel outside (settings.modelName .online .pt modelType)
          (onlineKey part (settings.modelName .online .pt modelType)))
        fun model p => p.ptModels.lookup
          (onlineKey part (settings.modelName .online .pt modelType)) = some model ∧
            p.onlinePtModelBundle = none := fun part modelType hplan =>
    ptCell_extends (fun _ _ h => h) (fun _ _ h => h) hplan
  have hkept : ∀ (key : Text) (model : ℕ) (p q : RuntimeModelProvider),
      (growth settings).Grows p q → p.ptModels.lookup key = some model →
        q.ptModels.lookup key = some model := fun key model p q hgrows => hgrows.pt key model
  unfold createOnlinePtBundle
  refine Growth.Extends.bind (hload "streaming-asr" .streamingAsr (by simp [ModelSettings.ptPlan]))
    fun streamingAsr => ?_
  refine Growth.Extends.bind (((hload "vad" .vad (by simp [ModelSettings.ptPlan])).frame
    (hkept _ streamingAsr)).weaken (fun _ _ h => ⟨h.2, h.1⟩) fun _ _ _ h => h) fun vad => ?_
  refine Growth.Extends.bind ((((hload "final-asr" .finalAsr (by simp [ModelSettings.ptPlan])).frame
    (hkept _ vad)).frame (hkept _ streamingAsr)).weaken
      (fun _ _ h => ⟨⟨h.1.2, h.1.1⟩, h.2⟩) fun _ _ _ h => h) fun finalAsr => ?_
  by_cases hpunc : settings.modelName .online .pt .punc = []
  · rw [if_pos hpunc]
    refine Growth.extends_pure fun p _ h => ?_
    obtain ⟨⟨⟨hfinal, hnone⟩, hvad⟩, hstreaming⟩ := h
    exact ⟨⟨hstreaming, hvad, hfinal, by rw [if_pos hpunc]⟩, hnone⟩
  · rw [if_neg hpunc]
    refine Growth.Extends.bind (((((hload "punc" .punc (by simp [ModelSettings.ptPlan])).frame
      (hkept _ finalAsr)).frame (hkept _ vad)).frame (hkept _ streamingAsr)).weaken
        (fun _ _ h => ⟨⟨⟨h.1.1.2, h.1.1.1⟩, h.1.2⟩, h.2⟩) fun _ _ _ h => h) fun punc => ?_
    refine Growth.extends_pure fun p _ h => ?_
    obtain ⟨⟨⟨⟨hpunc', hnone⟩, hfinal⟩, hvad⟩, hstreaming⟩ := h
    refine ⟨⟨hstreaming, hvad, hfinal, ?_⟩, hnone⟩
    rw [if_neg hpunc]
    exact ⟨punc, rfl, hpunc'⟩

/-- A call for the PT bundle of ONLINE. -/
theorem onlinePtBundleCell_extends :
    (growth settings).Extends (fun _ => True)
      (onlinePtBundleCell.getOrCreate (createOnlinePtBundle settings outside))
      fun bundle p => p.onlinePtModelBundle = some bundle ∧ True := by
  refine Growth.extends_getOrCreate (S := fun _ _ => True)
    (createOnlinePtBundle_extends.weaken (fun _ _ h => h.2) fun _ _ _ h => h) ?_ ?_
  · rintro bundle p hgood ⟨hparts, hnew⟩
    exact ⟨Coherent.writePtBundle hgood hnew hparts, grows_writePtBundle hnew, rfl, trivial⟩
  · exact fun _ _ _ _ _ => trivial

/-- A call for the ONNX bundle of ONLINE. -/
theorem onlineOnnxBundleCell_extends :
    (growth settings).Extends (fun _ => True)
      (onlineOnnxBundleCell.getOrCreate (loadOnlineOnnxModels outside
        (settings.modelName .online .onnx .streamingAsr) (settings.modelName .online .onnx .vad)
        (settings.modelName .online .onnx .finalAsr) (settings.modelName .online .onnx .punc)))
      fun bundle p => p.onlineOnnxModelBundle = some bundle ∧ True := by
  have hload : (growth settings).Extends _ (loadOnlineOnnxModels outside _ _ _ _) _ :=
    loadOnlineOnnxModels_extends (R := fun p => p.onlineOnnxModelBundle = none)
      (fun _ _ h => h) fun _ _ h => h
  refine Growth.extends_getOrCreate (S := fun _ _ => True)
    (hload.weaken (fun _ _ h => h.2) fun _ _ _ h => h) ?_ ?_
  · rintro bundle p hgood ⟨hkept, hnew⟩
    exact ⟨Coherent.writeOnnxBundle hgood hnew hkept, grows_writeOnnxBundle hnew, rfl, trivial⟩
  · exact fun _ _ _ _ _ => trivial

end Groups

section Calls

/-- Where the model of OFFLINE is kept: its place depends on the backend. -/
def KeptOffline (settings : ModelSettings) (p : RuntimeModelProvider) (number : ℕ) : Prop :=
  match settings.engines.backendForMode .offline with
  | .ok .pt => p.ptModels.lookup (offlineKey (settings.modelName .offline .pt .asr)
      (settings.modelName .offline .pt .vad) (settings.modelName .offline .pt .punc)
      (settings.modelName .offline .pt .spk)) = some number
  | .ok .onnx => p.offlineOnnxModelBundle = some number
  | .error _ => False

/-- Where the models of a call are kept. -/
def Kept (settings : ModelSettings) (p : RuntimeModelProvider) : GetCall → LoadedModels → Prop
  | .offlineModel, .model number => KeptOffline settings p number
  | .offlineOnnxModelBundle, .model number => p.offlineOnnxModelBundle = some number
  | .onlinePtModelBundle, .bundle bundle => p.onlinePtModelBundle = some bundle
  | .onlineOnnxModelBundle, .bundle bundle => p.onlineOnnxModelBundle = some bundle
  | .spkModel, .model number =>
    p.spkModels.lookup (spkKey (settings.modelName .spk .pt .spk)) = some number
  | _, _ => False

/-- What is kept is kept in every larger provider. -/
theorem Kept.grow {p q : RuntimeModelProvider} {call : GetCall} {models : LoadedModels}
    (h : Kept settings p call models) (hgrows : Grows p q) : Kept settings q call models := by
  cases call with
  | offlineModel =>
    cases models with
    | bundle bundle => exact h
    | model number =>
      change KeptOffline settings p number at h
      change KeptOffline settings q number
      unfold KeptOffline at h ⊢
      split at h
      · exact hgrows.pt _ _ h
      · exact hgrows.offlineOnnx _ h
      · exact h
  | offlineOnnxModelBundle =>
    cases models with
    | bundle bundle => exact h
    | model number => exact hgrows.offlineOnnx _ h
  | onlinePtModelBundle =>
    cases models with
    | bundle bundle => exact hgrows.ptBundle _ h
    | model number => exact h
  | onlineOnnxModelBundle =>
    cases models with
    | bundle bundle => exact hgrows.onnxBundle _ h
    | model number => exact h
  | spkModel =>
    cases models with
    | bundle bundle => exact h
    | model number => exact hgrows.spk _ _ h

/-- A check before a program. -/
theorem check_extends {α : Type} {check : Except LoadError Unit} {x : Unit → Call α}
    {Q : α → RuntimeModelProvider → Prop} (h : (growth settings).Extends (fun _ => True) (x ()) Q) :
    (growth settings).Extends (fun _ => True) (ofExcept check >>= x) Q :=
  Growth.Extends.bind (Q := fun _ _ => True)
    (Growth.extends_ofExcept fun _ _ _ _ => trivial) fun _ => h

theorem getOfflineOnnxModelBundle_extends :
    (growth settings).Extends (fun _ => True) (getOfflineOnnxModelBundle settings outside)
      fun number p => p.offlineOnnxModelBundle = some number ∧ True :=
  check_extends offlineOnnxBundleCell_extends

/-- Every call only adds to the caches, and keeps what it hands out. -/
theorem perform_extends (call : GetCall) :
    (growth settings).Extends (fun _ => True) (perform settings outside call)
      fun models p => Kept settings p call models := by
  cases call with
  | offlineModel =>
    refine Growth.Extends.bind (Q := fun number p => Kept settings p .offlineModel (.model number))
      ?_ fun number => Growth.extends_pure fun p _ h => h
    refine check_extends ?_
    change (growth settings).Extends _ _ fun number p => KeptOffline settings p number
    unfold getBackendForMode KeptOffline
    cases settings.engines.backendForMode .offline with
    | error e => exact fun w hgood _ => meets_throw ⟨hgood, Grows.refl w⟩
    | ok backend =>
      change (growth settings).Extends _ (ofExcept (.ok backend) >>= _) _
      rw [ofExcept_bind_ok]
      cases backend with
      | pt =>
        exact (ptCell_extends (R := fun _ => True) (fun _ _ h => h) (fun _ _ h => h)
          (by simp [ModelSettings.ptPlan])).weaken (fun _ _ h => h) fun _ _ _ h => h.1
      | onnx =>
        exact getOfflineOnnxModelBundle_extends.weaken (fun _ _ h => h) fun _ _ _ h => h.1
  | offlineOnnxModelBundle =>
    exact Growth.Extends.bind getOfflineOnnxModelBundle_extends
      fun number => Growth.extends_pure fun p _ h => h.1
  | onlinePtModelBundle =>
    exact Growth.Extends.bind (check_extends (check_extends onlinePtBundleCell_extends))
      fun bundle => Growth.extends_pure fun p _ h => h.1
  | onlineOnnxModelBundle =>
    exact Growth.Extends.bind (check_extends (check_extends onlineOnnxBundleCell_extends))
      fun bundle => Growth.extends_pure fun p _ h => h.1
  | spkModel =>
    exact Growth.Extends.bind (check_extends (check_extends spkCell_extends))
      fun number => Growth.extends_pure fun p _ h => h.1

/-- A check that was passed once is passed. -/
theorem of_check {α β : Type} {check : Except LoadError Unit} {x : Unit → Call α} {f : α → Call β}
    {p : RuntimeModelProvider} {b : β}
    (h : (((ofExcept check >>= x) >>= f) p).result = .ok b) : check = .ok () := by
  cases hcheck : check with
  | ok _ => rfl
  | error e =>
    rw [hcheck] at h
    cases h

/-- What is kept is handed out, without another effect, by a call whose checks are passed. -/
theorem perform_kept {p q : RuntimeModelProvider} {call : GetCall} {models first : LoadedModels}
    (hok : (perform settings outside call p).result = .ok first)
    (h : Kept settings q call models) :
    perform settings outside call q = ⟨[], .ok models, q⟩ := by
  cases call with
  | offlineModel =>
    cases models with
    | bundle bundle => exact absurd h (by simp [Kept])
    | model number =>
      have hmode := of_check hok
      change KeptOffline settings q number at h
      unfold perform getOfflineModel at hok ⊢
      rw [hmode] at hok ⊢
      simp only [ofExcept_bind_ok, getBackendForMode] at hok ⊢
      unfold KeptOffline at h
      cases hbackend : settings.engines.backendForMode .offline with
      | error e =>
        rw [hbackend] at h
        exact h.elim
      | ok backend =>
        rw [hbackend] at h hok
        simp only [Except.mapError, ofExcept_bind_ok] at hok ⊢
        cases backend with
        | pt => exact bind_of_eq (Cell.getOrCreate_full h)
        | onnx =>
          have hcheck := of_check hok
          unfold getOfflineOnnxModelBundle
          rw [hcheck, ofExcept_bind_ok]
          exact bind_of_eq (Cell.getOrCreate_full h)
  | offlineOnnxModelBundle =>
    cases models with
    | bundle bundle => exact absurd h (by simp [Kept])
    | model number =>
      have hcheck := of_check hok
      unfold perform getOfflineOnnxModelBundle
      rw [hcheck, ofExcept_bind_ok]
      exact bind_of_eq (Cell.getOrCreate_full h)
  | onlinePtModelBundle =>
    cases models with
    | model number => exact absurd h (by simp [Kept])
    | bundle bundle =>
      have hmode := of_check hok
      unfold perform getOnlinePtModelBundle at hok ⊢
      rw [hmode, ofExcept_bind_ok] at hok ⊢
      have hcheck := of_check hok
      rw [hcheck, ofExcept_bind_ok]
      exact bind_of_eq (Cell.getOrCreate_full h)
  | onlineOnnxModelBundle =>
    cases models with
    | model number => exact absurd h (by simp [Kept])
    | bundle bundle =>
      have hmode := of_check hok
      unfold perform getOnlineOnnxModelBundle at hok ⊢
      rw [hmode, ofExcept_bind_ok] at hok ⊢
      have hcheck := of_check hok
      rw [hcheck, ofExcept_bind_ok]
      exact bind_of_eq (Cell.getOrCreate_full h)
  | spkModel =>
    cases models with
    | bundle bundle => exact absurd h (by simp [Kept])
    | model number =>
      have hmode := of_check hok
      unfold perform getSpkModel at hok ⊢
      rw [hmode, ofExcept_bind_ok] at hok ⊢
      have hcheck := of_check hok
      simp only [hcheck, ofExcept_bind_ok]
      exact bind_of_eq (Cell.getOrCreate_full h)

end Calls

section Provenance

variable {p : RuntimeModelProvider} {call : GetCall} {models : LoadedModels}

/-- What the models of a call are constructed from. -/
def GetCall.constructions (settings : ModelSettings) : GetCall → List Construction
  | .offlineModel =>
    match settings.engines.backendForMode .offline with
    | .ok .pt => [.stack (settings.modelName .offline .pt .asr)
        (settings.modelName .offline .pt .vad) (settings.modelName .offline .pt .punc)
        (settings.modelName .offline .pt .spk)]
    | .ok .onnx => [.offlineOnnxBundle (settings.modelName .offline .onnx .asr)
        (settings.modelName .offline .onnx .vad) (settings.modelName .offline .onnx .punc)]
    | .error _ => []
  | .offlineOnnxModelBundle => [.offlineOnnxBundle (settings.modelName .offline .onnx .asr)
      (settings.modelName .offline .onnx .vad) (settings.modelName .offline .onnx .punc)]
  | .onlinePtModelBundle =>
    let name := settings.modelName .online .pt
    [.single (name .streamingAsr), .single (name .vad), .single (name .finalAsr)] ++
      if name .punc = [] then [] else [.single (name .punc)]
  | .onlineOnnxModelBundle => settings.onnxPlan
  | .spkModel => [.speakerPipeline (settings.modelName .spk .pt .spk)]

/-- The models are kept by the loaders, and constructed from what is configured. -/
def Provided (p : RuntimeModelProvider) (numbers : List ℕ) (constructions : List Construction) :
    Prop :=
  (∀ number ∈ numbers, number ∈ p.held) ∧
    numbers.map (fun number => p.constructed[number]?) = constructions.map some

/-- Where a key begins: the keys of the plan begin differently. -/
def keyStart (key : Text) : Option Char := if key[1]? = some 'f' then none else key[10]?

/-- The keys of `pt_loader` are different. -/
theorem nodup_ptPlan (settings : ModelSettings) : (settings.ptPlan.map Prod.fst).Nodup := by
  have hstart : (settings.ptPlan.map Prod.fst).map keyStart =
      [none, some 's', some 'v', some 'f', some 'p'] := rfl
  refine List.Nodup.of_map keyStart ?_
  rw [hstart]
  decide

/-- A model of `pt_loader` is constructed as the plan says. -/
theorem provided_pt (h : Coherent settings p) {number : ℕ}
    (hplan : (key, construction) ∈ settings.ptPlan) (hkey : p.ptModels.lookup key = some number) :
    number ∈ p.held ∧ p.constructed[number]? = some construction := by
  constructor
  · have hentry := AList.mem_lookup_iff.mp hkey
    exact List.mem_append_left _ (List.mem_append_left _ (List.mem_append_left _
      (List.mem_map_of_mem hentry)))
  · obtain ⟨other, hother, hbuilt⟩ := h.pt key number hkey
    have hsame : (key, other) = (key, construction) :=
      List.inj_on_of_nodup_map (nodup_ptPlan settings) hother hplan rfl
    rw [hbuilt, (Prod.mk.inj hsame).2]

theorem provided_offlineOnnx (h : Coherent settings p) {number : ℕ}
    (hkept : p.offlineOnnxModelBundle = some number) :
    Provided p [number] [.offlineOnnxBundle (settings.modelName .offline .onnx .asr)
      (settings.modelName .offline .onnx .vad) (settings.modelName .offline .onnx .punc)] := by
  refine ⟨fun other hother => ?_, ?_⟩
  · rw [List.mem_singleton.mp hother]
    exact List.mem_append_right _ (by simp [hkept])
  · rw [List.map_singleton, h.offlineOnnx number hkept]
    rfl

/-- The models of a PT bundle that is kept. -/
theorem PtParts.provided (h : Coherent settings p) {bundle : OnlineModelBundle}
    (hparts : PtParts settings bundle p) :
    Provided p bundle.models (GetCall.constructions settings .onlinePtModelBundle) := by
  obtain ⟨hheldStreaming, hbuiltStreaming⟩ := provided_pt h (.tail _ (.head _)) hparts.streamingAsr
  obtain ⟨hheldVad, hbuiltVad⟩ := provided_pt h (.tail _ (.tail _ (.head _))) hparts.vad
  obtain ⟨hheldFinal, hbuiltFinal⟩ :=
    provided_pt h (.tail _ (.tail _ (.tail _ (.head _)))) hparts.finalAsr
  have hpunc := hparts.punc
  unfold Provided GetCall.constructions OnlineModelBundle.models
  by_cases hname : settings.modelName .online .pt .punc = []
  · rw [if_pos hname] at hpunc
    simp [hpunc, hname, hheldStreaming, hheldVad, hheldFinal, hbuiltStreaming, hbuiltVad,
      hbuiltFinal]
  · rw [if_neg hname] at hpunc
    obtain ⟨number, hnumber, hkey⟩ := hpunc
    obtain ⟨hheldPunc, hbuiltPunc⟩ :=
      provided_pt h (.tail _ (.tail _ (.tail _ (.tail _ (.head _))))) hkey
    simp [hnumber, hname, hheldStreaming, hheldVad, hheldFinal, hheldPunc, hbuiltStreaming,
      hbuiltVad, hbuiltFinal, hbuiltPunc]

/-- The models of an ONNX bundle that is kept. -/
theorem provided_onnx (h : Coherent settings p) {bundle : OnlineModelBundle}
    (hkey : p.onlineOnnxModels.lookup onnxKey = some bundle) :
    Provided p bundle.models settings.onnxPlan := by
  refine ⟨fun number hnumber => ?_, (h.onnx onnxKey bundle hkey).2⟩
  have hentry := AList.mem_lookup_iff.mp hkey
  exact List.mem_append_left _ (List.mem_append_left _ (List.mem_append_right _
    (List.mem_flatMap.mpr ⟨_, hentry, hnumber⟩)))

/-- What is kept for a call is among the kept models and built from what is configured. -/
theorem Kept.provided (h : Coherent settings p) (hkept : Kept settings p call models) :
    Provided p models.numbers (call.constructions settings) := by
  cases call with
  | offlineModel =>
    cases models with
    | bundle bundle => exact absurd hkept (by simp [Kept])
    | model number =>
      change KeptOffline settings p number at hkept
      unfold KeptOffline at hkept
      unfold GetCall.constructions
      cases hbackend : settings.engines.backendForMode .offline with
      | error e =>
        rw [hbackend] at hkept
        exact hkept.elim
      | ok backend =>
        rw [hbackend] at hkept
        cases backend with
        | pt =>
          obtain ⟨hheld, hbuilt⟩ := provided_pt h (.head _) hkept
          refine ⟨fun other hother => ?_, ?_⟩
          · rw [List.mem_singleton.mp hother]
            exact hheld
          · change [p.constructed[number]?] = _
            rw [hbuilt]
            rfl
        | onnx => exact provided_offlineOnnx h hkept
  | offlineOnnxModelBundle =>
    cases models with
    | bundle bundle => exact absurd hkept (by simp [Kept])
    | model number => exact provided_offlineOnnx h hkept
  | onlinePtModelBundle =>
    cases models with
    | model number => exact absurd hkept (by simp [Kept])
    | bundle bundle => exact (h.ptBundle bundle hkept).provided h
  | onlineOnnxModelBundle =>
    cases models with
    | model number => exact absurd hkept (by simp [Kept])
    | bundle bundle => exact provided_onnx h (h.onnxBundle bundle hkept)
  | spkModel =>
    cases models with
    | bundle bundle => exact absurd hkept (by simp [Kept])
    | model number =>
      have hentry := AList.mem_lookup_iff.mp hkept
      refine ⟨fun other hother => ?_, ?_⟩
      · rw [List.mem_singleton.mp hother]
        exact List.mem_append_left _ (List.mem_append_right _ (List.mem_map_of_mem hentry))
      · change [p.constructed[number]?] = _
        rw [(h.spk _ number hkept).2]
        rfl

/-- The groups keep nothing that is not kept beside them. -/
theorem Coherent.cached_subset (h : Coherent settings p) : p.cached ⊆ p.held := by
  intro number hnumber
  rcases List.mem_append.mp hnumber with hnumber | hnumber
  · rcases List.mem_append.mp hnumber with hnumber | hnumber
    · exact hnumber
    · cases hbundle : p.onlinePtModelBundle with
      | none =>
        rw [hbundle] at hnumber
        exact absurd hnumber List.not_mem_nil
      | some bundle =>
        rw [hbundle] at hnumber
        exact ((h.ptBundle bundle hbundle).provided h).1 number hnumber
  · cases hbundle : p.onlineOnnxModelBundle with
    | none =>
      rw [hbundle] at hnumber
      exact absurd hnumber List.not_mem_nil
    | some bundle =>
      rw [hbundle] at hnumber
      exact (provided_onnx h (h.onnxBundle bundle hbundle)).1 number hnumber

end Provenance

section Unloading

variable {p : RuntimeModelProvider}

/-- The models that are kept under a key: by the loaders, and the one of OFFLINE with ONNX. -/
def underKey (p : RuntimeModelProvider) (key : Text) : List ℕ :=
  (p.ptModels.lookup key).elim [] (fun number => [number]) ++
    (p.onlineOnnxModels.lookup key).elim [] OnlineModelBundle.models ++
    ((p.spkModels.lookup key).elim [] fun number => [number]) ++
    if NamesOfflineOnnx key then p.offlineOnnxModelBundle.toList else []

/-- A table is what is under a key, and the rest. -/
theorem entries_perm {ν : Type} (table : AList fun _ : Text => ν) (key : Text) (f : ν → List ℕ) :
    (table.entries.flatMap fun entry => f entry.2).Perm
      ((table.lookup key).elim [] f ++
        (table.erase key).entries.flatMap fun entry => f entry.2) := by
  cases hlookup : table.lookup key with
  | none =>
    have hkeys : key ∉ table.entries.keys := AList.lookup_eq_none.mp hlookup
    change List.Perm _ ([] ++ (table.entries.kerase key).flatMap _)
    rw [List.kerase_of_notMem_keys hkeys, List.nil_append]
  | some value =>
    have hmem := AList.mem_lookup_iff.mp hlookup
    obtain ⟨other, before, after, -, hentries, herased⟩ :=
      List.exists_of_kerase (List.mem_keys_of_mem hmem)
    have hsame : other = value := by
      have hother : ⟨key, other⟩ ∈ table.entries := hentries ▸ by simp
      have := (AList.mem_lookup_iff.mpr hother).symm.trans hlookup
      exact (Option.some.inj this)
    change List.Perm _ (f value ++ (table.entries.kerase key).flatMap _)
    rw [herased, hentries, hsame, List.flatMap_append, List.flatMap_append, List.flatMap_cons]
    exact List.perm_append_comm_assoc ..

/-- What is kept is what is under a key, and the rest. -/
theorem held_perm (p : RuntimeModelProvider) (key : Text) :
    p.held.Perm (p.underKey key ++
      ({ p with
          ptModels := p.ptModels.erase key
          onlineOnnxModels := p.onlineOnnxModels.erase key
          spkModels := p.spkModels.erase key
          offlineOnnxModelBundle :=
            if NamesOfflineOnnx key then none else p.offlineOnnxModelBundle } :
        RuntimeModelProvider).held) := by
  have hpt := entries_perm p.ptModels key fun number => [number]
  have honnx := entries_perm p.onlineOnnxModels key OnlineModelBundle.models
  have hspk := entries_perm p.spkModels key fun number => [number]
  rw [List.perm_iff_count] at hpt honnx hspk ⊢
  intro number
  have hpt := hpt number
  have honnx := honnx number
  have hspk := hspk number
  unfold held underKey
  simp only [List.map_eq_flatMap, List.count_append] at hpt honnx hspk ⊢
  split
  · rw [Option.toList_none, List.count_nil]
    omega
  · rw [List.count_nil]
    omega

/-- What is unloaded is not kept anywhere any more. -/
theorem Coherent.unloaded (h : Coherent settings p) (hkey : key ≠ []) :
    ∀ number ∈ p.underKey key, number ∉ (p.unloadModel (some key)).cached := by
  intro number hnumber hcached
  obtain ⟨hpt, honnx, hspk, -, hoffline, -⟩ := unloadModel_tables p hkey
  have hheld := (h.unload hkey).cached_subset hcached
  have hnodup := (held_perm p key).nodup_iff.mp h.nodup
  refine (List.disjoint_of_nodup_append hnodup) hnumber ?_
  refine (held_sublist ?_ ?_ ?_ ?_).subset hheld
  · rw [hpt]
  · rw [honnx]
  · rw [hspk]
  · rw [hoffline]

end Unloading

section Runs

/-- Every model that is kept is counted once, and the bundle of OFFLINE with ONNX as the three
models that it loads. -/
theorem getLoadedModelsCount_eq (p : RuntimeModelProvider) :
    p.getLoadedModelsCount = p.held.length + if p.offlineOnnxModelBundle.isSome then 2 else 0 := by
  unfold getLoadedModelsCount held
  simp only [List.length_append, List.length_map]
  cases p.offlineOnnxModelBundle with
  | none =>
    simp only [Option.isSome_none, Option.toList_none, List.length_nil, Bool.false_eq_true,
      if_false]
    omega
  | some model =>
    simp only [Option.isSome_some, Option.toList_some, List.length_singleton, if_true]
    omega

/-- A key to unload is not the empty text. -/
def NamesKey (_ : RuntimeModelProvider) (action : Action) : Prop :=
  action ≠ .unloadModel (some [])

/-- What a call leaves behind, however it ends. -/
theorem perform_grows {p : RuntimeModelProvider} (h : Coherent settings p) (call : GetCall) :
    Coherent settings (perform settings outside call p).final ∧
      Grows p (perform settings outside call p).final := by
  have hmeets : Meets _ (perform settings outside call) p _ _ := perform_extends call p h trivial
  unfold Meets at hmeets
  split at hmeets
  · exact ⟨hmeets.2.1, hmeets.2.2.1⟩
  · exact hmeets.2

/-- What a call hands out is kept. -/
theorem perform_ok {p : RuntimeModelProvider} (h : Coherent settings p) {call : GetCall}
    {models : LoadedModels} (hok : (perform settings outside call p).result = .ok models) :
    Kept settings (perform settings outside call p).final call models := by
  have hmeets : Meets _ (perform settings outside call) p _ _ := perform_extends call p h trivial
  unfold Meets at hmeets
  rw [hok] at hmeets
  exact hmeets.2.2.2

/-- Calls one after the other, whatever they come to. -/
def performAll (settings : ModelSettings) (outside : ℕ → Construction → Option ConstructionFailure)
    (calls : List GetCall) (p : RuntimeModelProvider) : RuntimeModelProvider :=
  calls.foldl (fun p call => (perform settings outside call p).final) p

theorem performAll_grows {p : RuntimeModelProvider} (h : Coherent settings p)
    (calls : List GetCall) : Grows p (performAll settings outside calls p) := by
  induction calls generalizing p with
  | nil => exact Grows.refl p
  | cons call rest ih =>
    obtain ⟨hnext, hgrows⟩ := perform_grows h call
    exact hgrows.trans (ih hnext)

/-- In every run the caches stay coherent. -/
theorem Coherent.of_reach {p : RuntimeModelProvider}
    (h : (machine settings outside).Reach NamesKey {} p) : Coherent settings p := by
  refine h.invariant coherent_initial fun p action q hp hkey hstep => ?_
  rw [← Option.some.inj hstep]
  cases action with
  | get call =>
    exact (perform_grows hp call).1
  | unloadModel modelKey =>
    cases modelKey with
    | none => exact hp.unloadAll
    | some key => exact hp.unload fun hempty => hkey (by rw [hempty])
  | setPtLoader => exact hp.setPtLoader
  | setOnlineOnnxLoader => exact hp.setOnlineOnnxLoader
  | setSpkPtLoader => exact hp.setSpkPtLoader

/-- In every run of calls, of unloadings under keys that are not empty and of new loaders, however
the constructions fail:
no model is kept twice, the groups of ONLINE keep nothing that the loaders do not keep, and the
count that is reported is that of the kept models, with three for the one of OFFLINE with ONNX;
what a call hands out was constructed from the configured names and is kept by a loader, or beside
them for OFFLINE with ONNX, and every later call of the kind, after whatever other calls, hands out
the same without an effect;
and what was kept under an unloaded key is kept nowhere. -/
theorem reachable_caches {p : RuntimeModelProvider}
    (h : (machine settings outside).Reach NamesKey {} p) :
    p.held.Nodup ∧ p.cached ⊆ p.held ∧
      p.getLoadedModelsCount =
        p.held.length + (if p.offlineOnnxModelBundle.isSome then 2 else 0) ∧
      (∀ call models, (perform settings outside call p).result = .ok models →
        Provided (perform settings outside call p).final models.numbers
            (call.constructions settings) ∧
          ∀ calls,
            let later := performAll settings outside calls (perform settings outside call p).final
            perform settings outside call later = ⟨[], .ok models, later⟩) ∧
      ∀ key ≠ [], ∀ number ∈ p.underKey key, number ∉ (p.unloadModel (some key)).cached := by
  have hcoherent : Coherent settings p := .of_reach h
  refine ⟨hcoherent.nodup, hcoherent.cached_subset, p.getLoadedModelsCount_eq,
    fun call models hok => ?_, fun key hkey => hcoherent.unloaded hkey⟩
  have hfinal : Coherent settings (perform settings outside call p).final :=
    (perform_grows hcoherent call).1
  have hkept := perform_ok hcoherent hok
  refine ⟨hkept.provided hfinal, fun calls => ?_⟩
  exact perform_kept hok (hkept.grow (performAll_grows hfinal calls))

/-- OFFLINE and ONLINE with PT, and short names. -/
def shortNames : ModelSettings where
  engines := ⟨["offline", "online"], "pt", "pt", false⟩
  configuredName _ _
    | .asr => some ['a']
    | .streamingAsr => some ['s']
    | .finalAsr => some ['f']
    | .vad => some ['v']
    | .punc => some ['p']
    | .spk => some ['k']

/-- The first VAD model cannot be downloaded. -/
def failsOnce (number : ℕ) (_ : Construction) : Option ConstructionFailure :=
  if number = 1 then some (.resolving "offline".toList) else none

/-- The group of ONLINE is loaded in two attempts; its VAD model is unloaded and loaded again. -/
def reloadRun : List Action :=
  [.get .onlinePtModelBundle, .get .onlinePtModelBundle,
    .unloadModel (some (onlineKey "vad" ['v'])), .get .offlineModel, .get .onlinePtModelBundle]

/-- What was loaded in the first attempt is not constructed again, nor are the other models of the
group. -/
theorem reloadRun_caches :
    ∃ p, (machine shortNames failsOnce).run {} reloadRun = some p ∧
      p.constructed = [.single ['s'], .single ['v'], .single ['v'], .single ['f'], .single ['p'],
        .stack ['a'] ['v'] ['p'] ['k'], .single ['v']] ∧
      p.held.Nodup ∧ p.cached ⊆ p.held := by
  have hsome : ((machine shortNames failsOnce).run {} reloadRun).any (fun p =>
      p.constructed = [.single ['s'], .single ['v'], .single ['v'], .single ['f'], .single ['p'],
        .stack ['a'] ['v'] ['p'] ['k'], .single ['v']]) = true := by
    decide +kernel
  cases hrun : (machine shortNames failsOnce).run {} reloadRun with
  | none =>
    rw [hrun] at hsome
    cases hsome
  | some p =>
    rw [hrun] at hsome
    have hempty : Action.unloadModel (some []) ∉ reloadRun := by decide
    have hnames : ∀ action ∈ reloadRun, ∀ t, NamesKey t action :=
      fun action haction _ hsame => hempty (hsame ▸ haction)
    have hreach : (machine shortNames failsOnce).Reach NamesKey {} p :=
      Machine.Reach.of_run reloadRun hnames hrun
    obtain ⟨hnodup, hsubset, -⟩ := reachable_caches hreach
    exact ⟨p, rfl, of_decide_eq_true hsome, hnodup, hsubset⟩

end Runs

end FunasrApi.Runtime.RuntimeModelProvider
