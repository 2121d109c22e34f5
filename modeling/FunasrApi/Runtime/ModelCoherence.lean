import FunasrApi.Runtime.ModelProvider

/-!
# Coherence of the model caches

The provider keeps groups of models beside the loaders that keep the models. In every run the
models of a kept group are the ones of the loaders, no model is kept under two keys, and every
model was constructed from the names that are configured. So what was handed out once is handed
out again without constructing anything, until it is unloaded; and what was unloaded is not
reached any more.
-/

namespace FunasrApi.Runtime

open FunasrApi.Core

namespace RuntimeModelProvider

/-- The models that the loaders keep, and the one of OFFLINE with ONNX. -/
def held (provider : RuntimeModelProvider) : List ℕ :=
  provider.ptModels.entries.map Sigma.snd ++
    provider.onlineOnnxModels.entries.flatMap (fun entry => entry.2.models) ++
    provider.spkModels.entries.map Sigma.snd ++ provider.offlineOnnxModelBundle.toList

/-- All models that are kept, by the groups as well. -/
def cached (provider : RuntimeModelProvider) : List ℕ :=
  provider.held ++ provider.onlinePtModelBundle.elim [] OnlineModelBundle.models ++
    provider.onlineOnnxModelBundle.elim [] OnlineModelBundle.models

end RuntimeModelProvider

namespace ModelSettings

variable (settings : ModelSettings)

/-- The keys of `pt_loader`, with what is constructed under them. -/
def ptPlan : List (Text × Construction) :=
  let offline := settings.modelName .offline .pt
  let online := settings.modelName .online .pt
  [(RuntimeModelProvider.offlineKey (offline .asr) (offline .vad) (offline .punc) (offline .spk),
      .stack (offline .asr) (offline .vad) (offline .punc) (offline .spk)),
    (RuntimeModelProvider.onlineKey "streaming-asr" (online .streamingAsr),
      .single (online .streamingAsr)),
    (RuntimeModelProvider.onlineKey "vad" (online .vad), .single (online .vad)),
    (RuntimeModelProvider.onlineKey "final-asr" (online .finalAsr), .single (online .finalAsr)),
    (RuntimeModelProvider.onlineKey "punc" (online .punc), .single (online .punc))]

/-- What an ONNX bundle of ONLINE is constructed from. -/
def onnxPlan : List Construction :=
  let online := settings.modelName .online .onnx
  [.onnxStreamingAsr (online .streamingAsr), .onnxVad (online .vad),
    .onnxFinalAsr (online .finalAsr)] ++
      if online .punc = [] then [] else [.onnxPunc (online .punc)]

end ModelSettings

namespace RuntimeModelProvider

/-- The models of a PT bundle of ONLINE are those of the loader. -/
structure PtParts (settings : ModelSettings) (bundle : OnlineModelBundle)
    (provider : RuntimeModelProvider) : Prop where
  streamingAsr : provider.ptModels.lookup
    (onlineKey "streaming-asr" (settings.modelName .online .pt .streamingAsr)) =
      some bundle.streamingAsr
  vad : provider.ptModels.lookup (onlineKey "vad" (settings.modelName .online .pt .vad)) =
    some bundle.vad
  finalAsr : provider.ptModels.lookup
    (onlineKey "final-asr" (settings.modelName .online .pt .finalAsr)) = some bundle.finalAsr
  punc : if settings.modelName .online .pt .punc = [] then bundle.punc = none
    else ∃ model, bundle.punc = some model ∧ provider.ptModels.lookup
      (onlineKey "punc" (settings.modelName .online .pt .punc)) = some model

/-- Models that were constructed and that nobody keeps yet. -/
structure Fresh (models : List (ℕ × Construction)) (provider : RuntimeModelProvider) : Prop where
  nodup : (models.map Prod.fst).Nodup
  new : ∀ model ∈ models, model.1 ∉ provider.held
  built : ∀ model ∈ models, provider.constructed[model.1]? = some model.2

/-- What holds of the caches in every run. -/
structure Coherent (settings : ModelSettings) (provider : RuntimeModelProvider) : Prop where
  /-- No model is kept twice. -/
  nodup : provider.held.Nodup
  /-- Every model was constructed. -/
  built : ∀ model ∈ provider.held, model < provider.constructed.length
  pt : ∀ key model, provider.ptModels.lookup key = some model →
    ∃ construction, (key, construction) ∈ settings.ptPlan ∧
      provider.constructed[model]? = some construction
  onnx : ∀ key bundle, provider.onlineOnnxModels.lookup key = some bundle →
    key = onnxKey ∧ bundle.models.map (fun model => provider.constructed[model]?) =
      settings.onnxPlan.map some
  spk : ∀ key model, provider.spkModels.lookup key = some model →
    key = spkKey (settings.modelName .spk .pt .spk) ∧
      provider.constructed[model]? = some (.speakerPipeline (settings.modelName .spk .pt .spk))
  offlineOnnx : ∀ model, provider.offlineOnnxModelBundle = some model →
    provider.constructed[model]? = some (.offlineOnnxBundle
      (settings.modelName .offline .onnx .asr) (settings.modelName .offline .onnx .vad)
      (settings.modelName .offline .onnx .punc))
  /-- The groups keep what the loaders keep. -/
  ptBundle : ∀ bundle, provider.onlinePtModelBundle = some bundle →
    PtParts settings bundle provider
  onnxBundle : ∀ bundle, provider.onlineOnnxModelBundle = some bundle →
    provider.onlineOnnxModels.lookup onnxKey = some bundle

/-- What was kept is still kept, and what was constructed stays constructed. -/
structure Grows (provider larger : RuntimeModelProvider) : Prop where
  constructed : provider.constructed <+: larger.constructed
  pt : ∀ key model, provider.ptModels.lookup key = some model →
    larger.ptModels.lookup key = some model
  onnx : ∀ key bundle, provider.onlineOnnxModels.lookup key = some bundle →
    larger.onlineOnnxModels.lookup key = some bundle
  spk : ∀ key model, provider.spkModels.lookup key = some model →
    larger.spkModels.lookup key = some model
  offlineOnnx : ∀ model, provider.offlineOnnxModelBundle = some model →
    larger.offlineOnnxModelBundle = some model
  ptBundle : ∀ bundle, provider.onlinePtModelBundle = some bundle →
    larger.onlinePtModelBundle = some bundle
  onnxBundle : ∀ bundle, provider.onlineOnnxModelBundle = some bundle →
    larger.onlineOnnxModelBundle = some bundle

theorem Grows.refl (provider : RuntimeModelProvider) : Grows provider provider :=
  ⟨List.prefix_rfl, fun _ _ h => h, fun _ _ h => h, fun _ _ h => h, fun _ h => h, fun _ h => h,
    fun _ h => h⟩

theorem Grows.trans {p q r : RuntimeModelProvider} (h : Grows p q) (h' : Grows q r) :
    Grows p r where
  constructed := h.constructed.trans h'.constructed
  pt key model hkey := h'.pt key model (h.pt key model hkey)
  onnx key bundle hkey := h'.onnx key bundle (h.onnx key bundle hkey)
  spk key model hkey := h'.spk key model (h.spk key model hkey)
  offlineOnnx model hmodel := h'.offlineOnnx model (h.offlineOnnx model hmodel)
  ptBundle bundle hbundle := h'.ptBundle bundle (h.ptBundle bundle hbundle)
  onnxBundle bundle hbundle := h'.onnxBundle bundle (h.onnxBundle bundle hbundle)

/-- What was constructed under a number stays what it is. -/
theorem Grows.getElem? {p q : RuntimeModelProvider} (h : Grows p q) {model : ℕ}
    {construction : Construction} (hbuilt : p.constructed[model]? = some construction) :
    q.constructed[model]? = some construction := by
  obtain ⟨rest, hrest⟩ := h.constructed
  rw [← hrest, List.getElem?_append_left (List.getElem?_eq_some_iff.mp hbuilt).1]
  exact hbuilt

/-- The parts of a bundle stay in the loader. -/
theorem PtParts.grow {settings : ModelSettings} {bundle : OnlineModelBundle}
    {p q : RuntimeModelProvider} (h : PtParts settings bundle p) (hgrows : Grows p q) :
    PtParts settings bundle q where
  streamingAsr := hgrows.pt _ _ h.streamingAsr
  vad := hgrows.pt _ _ h.vad
  finalAsr := hgrows.pt _ _ h.finalAsr
  punc := by
    have hpunc := h.punc
    split at hpunc
    · rw [if_pos ‹_›]
      exact hpunc
    · rw [if_neg ‹_›]
      obtain ⟨model, hmodel, hkey⟩ := hpunc
      exact ⟨model, hmodel, hgrows.pt _ _ hkey⟩

/-- The coherent providers, and when one is larger than another. -/
def growth (settings : ModelSettings) : Effect.Growth RuntimeModelProvider where
  Good := Coherent settings
  Grows := Grows
  refl := Grows.refl
  trans := Grows.trans

section Steps

variable {settings : ModelSettings} {p : RuntimeModelProvider} {construction : Construction}
  {key : Text} {model : ℕ} {models : List (ℕ × Construction)}

/-- The recorded constructions of kept models are still there after one more. -/
theorem grows_construct (p : RuntimeModelProvider) (construction : Construction) :
    Grows p { p with constructed := p.constructed ++ [construction] } :=
  ⟨List.prefix_append .., fun _ _ h => h, fun _ _ h => h, fun _ _ h => h, fun _ h => h,
    fun _ h => h, fun _ h => h⟩

theorem Coherent.construct (h : Coherent settings p) (construction : Construction) :
    Coherent settings { p with constructed := p.constructed ++ [construction] } := by
  have hgrows := grows_construct p construction
  refine ⟨h.nodup, fun model hmodel => ?_, fun key model hkey => ?_, fun key bundle hkey => ?_,
    fun key model hkey => ?_, fun model hmodel => hgrows.getElem? (h.offlineOnnx model hmodel),
    fun bundle hbundle => (h.ptBundle bundle hbundle).grow hgrows, h.onnxBundle⟩
  · have := h.built model hmodel
    simp only [List.length_append]
    omega
  · obtain ⟨c, hplan, hbuilt⟩ := h.pt key model hkey
    exact ⟨c, hplan, hgrows.getElem? hbuilt⟩
  · obtain ⟨hname, hbuilt⟩ := h.onnx key bundle hkey
    refine ⟨hname, ?_⟩
    rw [← hbuilt]
    refine List.map_congr_left fun model hmodel => ?_
    have hmem : p.constructed[model]? ∈ settings.onnxPlan.map some :=
      hbuilt ▸ List.mem_map_of_mem hmodel
    obtain ⟨c, -, hc⟩ := List.mem_map.mp hmem
    rw [← hc]
    exact hgrows.getElem? hc.symm
  · obtain ⟨hname, hbuilt⟩ := h.spk key model hkey
    exact ⟨hname, hgrows.getElem? hbuilt⟩

/-- A new construction is fresh, beside those that were. -/
theorem Fresh.construct (hcoherent : Coherent settings p) (h : Fresh models p)
    (construction : Construction) :
    Fresh (models ++ [(p.constructed.length, construction)])
      { p with constructed := p.constructed ++ [construction] } := by
  refine ⟨?_, fun entry hentry => ?_, fun entry hentry => ?_⟩
  · rw [List.map_append, List.nodup_append]
    refine ⟨h.nodup, List.nodup_singleton _, fun number hnumber other hother => ?_⟩
    obtain ⟨entry, hentry, rfl⟩ := List.mem_map.mp hnumber
    rw [List.mem_singleton.mp hother]
    exact ((List.getElem?_eq_some_iff.mp (h.built entry hentry)).1).ne
  · rcases List.mem_append.mp hentry with hentry | hentry
    · exact h.new entry hentry
    · rw [List.mem_singleton.mp hentry]
      exact fun hheld => Nat.lt_irrefl _ (hcoherent.built _ hheld)
  · rcases List.mem_append.mp hentry with hentry | hentry
    · exact (grows_construct p construction).getElem? (h.built entry hentry)
    · rw [List.mem_singleton.mp hentry]
      simp

/-- Inserting under a new key keeps what was there. -/
theorem lookup_insert_of_none {ν : Type} {table : AList fun _ : Text => ν} {key other : Text}
    {value found : ν} (hnew : table.lookup key = none) (h : table.lookup other = some found) :
    (table.insert key value).lookup other = some found := by
  rw [AList.lookup_insert_ne, h]
  rintro rfl
  rw [hnew] at h
  cases h

/-- Fresh models that are kept from now on. -/
theorem Fresh.keep {q : RuntimeModelProvider} (hfresh : Fresh models p)
    (h : Coherent settings p) (hheld : q.held.Perm (models.map Prod.fst ++ p.held))
    (hsame : q.constructed = p.constructed) :
    q.held.Nodup ∧ ∀ model ∈ q.held, model < q.constructed.length := by
  constructor
  · rw [hheld.nodup_iff, List.nodup_append]
    refine ⟨hfresh.nodup, h.nodup, fun number hnumber other hother => ?_⟩
    obtain ⟨entry, hentry, rfl⟩ := List.mem_map.mp hnumber
    rintro rfl
    exact hfresh.new entry hentry hother
  · intro model hmodel
    rw [hsame]
    rcases List.mem_append.mp (hheld.mem_iff.mp hmodel) with hmodel | hmodel
    · obtain ⟨entry, hentry, rfl⟩ := List.mem_map.mp hmodel
      exact (List.getElem?_eq_some_iff.mp (hfresh.built entry hentry)).1
    · exact h.built model hmodel

theorem grows_insertPt (hnew : p.ptModels.lookup key = none) :
    Grows p { p with ptModels := p.ptModels.insert key model } :=
  ⟨List.prefix_rfl, fun _ _ h => lookup_insert_of_none hnew h, fun _ _ h => h, fun _ _ h => h,
    fun _ h => h, fun _ h => h, fun _ h => h⟩

/-- A fresh model under one of the keys of the plan. -/
theorem Coherent.insertPt (h : Coherent settings p) (hnew : p.ptModels.lookup key = none)
    (hplan : (key, construction) ∈ settings.ptPlan) (hfresh : Fresh [(model, construction)] p) :
    Coherent settings { p with ptModels := p.ptModels.insert key model } := by
  have hheld : ({ p with ptModels := p.ptModels.insert key model } : RuntimeModelProvider).held =
      model :: p.held := by
    unfold held
    rw [AList.entries_insert_of_notMem (AList.lookup_eq_none.mp hnew)]
    rfl
  obtain ⟨hnodup, hbuilt⟩ := hfresh.keep h (.of_eq hheld) rfl
  refine ⟨hnodup, hbuilt, fun other number hother => ?_, h.onnx, h.spk, h.offlineOnnx,
    fun bundle hbundle => (h.ptBundle bundle hbundle).grow (grows_insertPt hnew), h.onnxBundle⟩
  by_cases hsame : other = key
  · subst hsame
    rw [AList.lookup_insert] at hother
    rw [← Option.some.inj hother]
    exact ⟨construction, hplan, hfresh.built _ (List.mem_singleton_self _)⟩
  · rw [AList.lookup_insert_ne hsame] at hother
    exact h.pt other number hother

theorem grows_insertSpk (hnew : p.spkModels.lookup key = none) :
    Grows p { p with spkModels := p.spkModels.insert key model } :=
  ⟨List.prefix_rfl, fun _ _ h => h, fun _ _ h => h, fun _ _ h => lookup_insert_of_none hnew h,
    fun _ h => h, fun _ h => h, fun _ h => h⟩

/-- A fresh speaker pipeline. -/
theorem Coherent.insertSpk (h : Coherent settings p) (hnew : p.spkModels.lookup key = none)
    (hkey : key = spkKey (settings.modelName .spk .pt .spk))
    (hfresh : Fresh [(model, .speakerPipeline (settings.modelName .spk .pt .spk))] p) :
    Coherent settings { p with spkModels := p.spkModels.insert key model } := by
  have hheld : ({ p with spkModels := p.spkModels.insert key model } :
      RuntimeModelProvider).held.Perm (model :: p.held) := by
    unfold held
    rw [AList.entries_insert_of_notMem (AList.lookup_eq_none.mp hnew), List.map_cons,
      List.append_assoc, List.append_assoc _ _ p.offlineOnnxModelBundle.toList]
    exact List.perm_middle
  obtain ⟨hnodup, hbuilt⟩ := hfresh.keep h hheld rfl
  refine ⟨hnodup, hbuilt, h.pt, h.onnx, fun other number hother => ?_, h.offlineOnnx,
    fun bundle hbundle => (h.ptBundle bundle hbundle).grow (grows_insertSpk hnew), h.onnxBundle⟩
  by_cases hsame : other = key
  · subst hsame
    rw [AList.lookup_insert] at hother
    rw [← Option.some.inj hother]
    exact ⟨hkey, hfresh.built _ (List.mem_singleton_self _)⟩
  · rw [AList.lookup_insert_ne hsame] at hother
    exact h.spk other number hother

theorem grows_insertOnnx {bundle : OnlineModelBundle}
    (hnew : p.onlineOnnxModels.lookup key = none) :
    Grows p { p with onlineOnnxModels := p.onlineOnnxModels.insert key bundle } :=
  ⟨List.prefix_rfl, fun _ _ h => h, fun _ _ h => lookup_insert_of_none hnew h, fun _ _ h => h,
    fun _ h => h, fun _ h => h, fun _ h => h⟩

/-- A list that is mapped to another one entry by entry. -/
theorem map_eq_of_zip {f : ℕ → Option Construction} {numbers : List ℕ}
    {plan : List Construction} (hlength : numbers.length = plan.length)
    (h : ∀ entry ∈ numbers.zip plan, f entry.1 = some entry.2) :
    numbers.map f = plan.map some := by
  induction numbers generalizing plan with
  | nil =>
    rw [List.length_eq_zero_iff.mp hlength.symm]
    rfl
  | cons number rest ih =>
    cases plan with
    | nil => cases hlength
    | cons first later =>
      rw [List.map_cons, List.map_cons, h (number, first) List.mem_cons_self,
        ih (Nat.succ.inj hlength) fun entry hentry => h entry (List.mem_cons_of_mem _ hentry)]

/-- Fresh ONNX models of ONLINE. -/
theorem Coherent.insertOnnx (h : Coherent settings p) {bundle : OnlineModelBundle}
    (hnew : p.onlineOnnxModels.lookup onnxKey = none)
    (hfresh : Fresh (bundle.models.zip settings.onnxPlan) p)
    (hlength : bundle.models.length = settings.onnxPlan.length) :
    Coherent settings
      { p with onlineOnnxModels := p.onlineOnnxModels.insert onnxKey bundle } := by
  have hfst : (bundle.models.zip settings.onnxPlan).map Prod.fst = bundle.models :=
    List.map_fst_zip (Nat.le_of_eq hlength)
  have hheld : ({ p with onlineOnnxModels := p.onlineOnnxModels.insert onnxKey bundle } :
      RuntimeModelProvider).held.Perm
        ((bundle.models.zip settings.onnxPlan).map Prod.fst ++ p.held) := by
    unfold held
    rw [hfst, AList.entries_insert_of_notMem (AList.lookup_eq_none.mp hnew), List.flatMap_cons]
    simp only [List.append_assoc]
    exact List.perm_append_comm_assoc ..
  obtain ⟨hnodup, hbuilt⟩ := hfresh.keep h hheld rfl
  refine ⟨hnodup, hbuilt, h.pt, fun other found hother => ?_, h.spk, h.offlineOnnx,
    fun bundle hbundle => (h.ptBundle bundle hbundle).grow (grows_insertOnnx hnew),
    fun found hfound => lookup_insert_of_none hnew (h.onnxBundle found hfound)⟩
  by_cases hsame : other = onnxKey
  · subst hsame
    rw [AList.lookup_insert] at hother
    rw [← Option.some.inj hother]
    exact ⟨rfl, map_eq_of_zip hlength hfresh.built⟩
  · rw [AList.lookup_insert_ne hsame] at hother
    exact h.onnx other found hother

theorem grows_writeOfflineOnnx (hnew : p.offlineOnnxModelBundle = none) :
    Grows p { p with offlineOnnxModelBundle := some model } :=
  ⟨List.prefix_rfl, fun _ _ h => h, fun _ _ h => h, fun _ _ h => h,
    fun _ h => (by rw [hnew] at h; cases h), fun _ h => h, fun _ h => h⟩

/-- A fresh ONNX bundle of OFFLINE. -/
theorem Coherent.writeOfflineOnnx (h : Coherent settings p)
    (hnew : p.offlineOnnxModelBundle = none)
    (hfresh : Fresh [(model, .offlineOnnxBundle (settings.modelName .offline .onnx .asr)
      (settings.modelName .offline .onnx .vad) (settings.modelName .offline .onnx .punc))] p) :
    Coherent settings { p with offlineOnnxModelBundle := some model } := by
  have hheld : ({ p with offlineOnnxModelBundle := some model } : RuntimeModelProvider).held.Perm
      (model :: p.held) := by
    unfold held
    rw [hnew, Option.toList_none, List.append_nil]
    exact List.perm_append_comm
  obtain ⟨hnodup, hbuilt⟩ := hfresh.keep h hheld rfl
  refine ⟨hnodup, hbuilt, h.pt, h.onnx, h.spk, fun number hnumber => ?_,
    fun bundle hbundle => (h.ptBundle bundle hbundle).grow (grows_writeOfflineOnnx hnew),
    h.onnxBundle⟩
  rw [← Option.some.inj hnumber]
  exact hfresh.built _ (List.mem_singleton_self _)

theorem grows_writePtBundle {bundle : OnlineModelBundle} (hnew : p.onlinePtModelBundle = none) :
    Grows p { p with onlinePtModelBundle := some bundle } :=
  ⟨List.prefix_rfl, fun _ _ h => h, fun _ _ h => h, fun _ _ h => h, fun _ h => h,
    fun _ h => (by rw [hnew] at h; cases h), fun _ h => h⟩

theorem Coherent.writePtBundle (h : Coherent settings p) {bundle : OnlineModelBundle}
    (hnew : p.onlinePtModelBundle = none) (hparts : PtParts settings bundle p) :
    Coherent settings { p with onlinePtModelBundle := some bundle } := by
  refine ⟨h.nodup, h.built, h.pt, h.onnx, h.spk, h.offlineOnnx, fun found hfound => ?_,
    h.onnxBundle⟩
  rw [← Option.some.inj hfound]
  exact hparts.grow (grows_writePtBundle hnew)

theorem grows_writeOnnxBundle {bundle : OnlineModelBundle}
    (hnew : p.onlineOnnxModelBundle = none) :
    Grows p { p with onlineOnnxModelBundle := some bundle } :=
  ⟨List.prefix_rfl, fun _ _ h => h, fun _ _ h => h, fun _ _ h => h, fun _ h => h, fun _ h => h,
    fun _ h => (by rw [hnew] at h; cases h)⟩

theorem Coherent.writeOnnxBundle (h : Coherent settings p) {bundle : OnlineModelBundle}
    (hnew : p.onlineOnnxModelBundle = none)
    (hkept : p.onlineOnnxModels.lookup onnxKey = some bundle) :
    Coherent settings { p with onlineOnnxModelBundle := some bundle } := by
  refine ⟨h.nodup, h.built, h.pt, h.onnx, h.spk, h.offlineOnnx, fun found hfound =>
    (h.ptBundle found hfound).grow (grows_writeOnnxBundle hnew), fun found hfound => ?_⟩
  rw [← Option.some.inj hfound]
  exact hkept

end Steps

section Removals

variable {settings : ModelSettings} {p q : RuntimeModelProvider}

/-- Dropping models keeps the rest coherent, as long as the groups that stay lose nothing. -/
theorem Coherent.shrink (h : Coherent settings p) (hheld : q.held.Sublist p.held)
    (hsame : q.constructed = p.constructed)
    (pt : ∀ key model, q.ptModels.lookup key = some model → p.ptModels.lookup key = some model)
    (onnx : ∀ key bundle, q.onlineOnnxModels.lookup key = some bundle →
      p.onlineOnnxModels.lookup key = some bundle)
    (spk : ∀ key model, q.spkModels.lookup key = some model → p.spkModels.lookup key = some model)
    (offlineOnnx : ∀ model, q.offlineOnnxModelBundle = some model →
      p.offlineOnnxModelBundle = some model)
    (ptBundle : ∀ bundle, q.onlinePtModelBundle = some bundle → PtParts settings bundle q)
    (onnxBundle : ∀ bundle, q.onlineOnnxModelBundle = some bundle →
      q.onlineOnnxModels.lookup onnxKey = some bundle) : Coherent settings q where
  nodup := h.nodup.sublist hheld
  built model hmodel := hsame ▸ h.built model (hheld.subset hmodel)
  pt key model hkey := hsame ▸ h.pt key model (pt key model hkey)
  onnx key bundle hkey := hsame ▸ h.onnx key bundle (onnx key bundle hkey)
  spk key model hkey := hsame ▸ h.spk key model (spk key model hkey)
  offlineOnnx model hmodel := hsame ▸ h.offlineOnnx model (offlineOnnx model hmodel)
  ptBundle := ptBundle
  onnxBundle := onnxBundle

/-- The parts of `held` one by one. -/
theorem held_sublist (pt : q.ptModels.entries.Sublist p.ptModels.entries)
    (onnx : q.onlineOnnxModels.entries.Sublist p.onlineOnnxModels.entries)
    (spk : q.spkModels.entries.Sublist p.spkModels.entries)
    (offlineOnnx : q.offlineOnnxModelBundle.toList.Sublist p.offlineOnnxModelBundle.toList) :
    q.held.Sublist p.held :=
  (((pt.map _).append (onnx.flatMap _)).append (spk.map _)).append offlineOnnx

theorem lookup_of_erase {ν : Type} {table : AList fun _ : Text => ν} {key other : Text} {found : ν}
    (h : (table.erase key).lookup other = some found) : table.lookup other = some found := by
  by_cases hsame : other = key
  · subst hsame
    rw [AList.lookup_erase] at h
    cases h
  · rwa [AList.lookup_erase_ne hsame] at h

/-- A bundle of which no part is erased keeps its parts. -/
theorem PtParts.erase {bundle : OnlineModelBundle} {key : Text}
    (h : PtParts settings bundle p) (hkey : ¬ "online-pt-".toList <+: key)
    (hpt : q.ptModels = p.ptModels.erase key) : PtParts settings bundle q := by
  have hother : ∀ part name, onlineKey part name ≠ key := by
    rintro part name rfl
    unfold onlineKey at hkey
    rw [List.append_assoc, List.append_assoc] at hkey
    exact hkey (List.prefix_append ..)
  refine ⟨?_, ?_, ?_, ?_⟩
  · rw [hpt, AList.lookup_erase_ne (hother _ _), h.streamingAsr]
  · rw [hpt, AList.lookup_erase_ne (hother _ _), h.vad]
  · rw [hpt, AList.lookup_erase_ne (hother _ _), h.finalAsr]
  · rw [hpt, AList.lookup_erase_ne (hother _ _)]
    exact h.punc

/-- The keys under which the bundle of OFFLINE with ONNX is unloaded. -/
def NamesOfflineOnnx (key : Text) : Prop :=
  key = "offline-onnx".toList ∨ key = "offline_onnx_model_bundle".toList

instance (key : Text) : Decidable (NamesOfflineOnnx key) :=
  inferInstanceAs (Decidable (_ ∨ _))

/-- What an unloading leaves in the tables, for a key that is not empty. -/
theorem unloadModel_tables (p : RuntimeModelProvider) {key : Text} (hkey : key ≠ []) :
    (p.unloadModel (some key)).ptModels = p.ptModels.erase key ∧
      (p.unloadModel (some key)).onlineOnnxModels = p.onlineOnnxModels.erase key ∧
      (p.unloadModel (some key)).spkModels = p.spkModels.erase key ∧
      (p.unloadModel (some key)).constructed = p.constructed ∧
      (p.unloadModel (some key)).offlineOnnxModelBundle =
        (if NamesOfflineOnnx key then none else p.offlineOnnxModelBundle) ∧
      ((p.unloadModel (some key)).onlinePtModelBundle = none ∨
        ¬ "online-pt-".toList <+: key ∧
          (p.unloadModel (some key)).onlinePtModelBundle = p.onlinePtModelBundle) ∧
      ((p.unloadModel (some key)).onlineOnnxModelBundle = none ∨
        key ≠ onnxKey ∧
          (p.unloadModel (some key)).onlineOnnxModelBundle = p.onlineOnnxModelBundle) := by
  obtain ⟨first, rest, rfl⟩ := List.exists_cons_of_ne_nil hkey
  by_cases hpt : "online-pt-".toList <+: first :: rest
  · have hunloaded : p.unloadModel (some (first :: rest)) =
        { p with
          ptModels := p.ptModels.erase (first :: rest)
          onlineOnnxModels := p.onlineOnnxModels.erase (first :: rest)
          spkModels := p.spkModels.erase (first :: rest)
          onlinePtModelBundle := none } := if_pos hpt
    have hother : ¬ NamesOfflineOnnx (first :: rest) := by
      rintro (hname | hname)
      · rw [hname] at hpt
        exact absurd hpt (by decide)
      · rw [hname] at hpt
        exact absurd hpt (by decide)
    rw [hunloaded, if_neg hother]
    refine ⟨rfl, rfl, rfl, rfl, rfl, .inl rfl, .inr ⟨?_, rfl⟩⟩
    intro honnx
    rw [honnx] at hpt
    exact absurd hpt (by decide)
  by_cases honnx : first :: rest = onnxKey ∨ first :: rest = "online_onnx_model_bundle".toList
  · have hunloaded : p.unloadModel (some (first :: rest)) =
        { p with
          ptModels := p.ptModels.erase (first :: rest)
          onlineOnnxModels := p.onlineOnnxModels.erase (first :: rest)
          spkModels := p.spkModels.erase (first :: rest)
          onlineOnnxModelBundle := none } := (if_neg hpt).trans (if_pos honnx)
    have hother : ¬ NamesOfflineOnnx (first :: rest) := by
      rintro (hname | hname)
      · rw [hname] at honnx
        exact absurd honnx (by decide)
      · rw [hname] at honnx
        exact absurd honnx (by decide)
    rw [hunloaded, if_neg hother]
    exact ⟨rfl, rfl, rfl, rfl, rfl, .inr ⟨hpt, rfl⟩, .inl rfl⟩
  have hne : first :: rest ≠ onnxKey := fun h => honnx (.inl h)
  by_cases hoffline : NamesOfflineOnnx (first :: rest)
  · have hunloaded : p.unloadModel (some (first :: rest)) =
        { p with
          ptModels := p.ptModels.erase (first :: rest)
          onlineOnnxModels := p.onlineOnnxModels.erase (first :: rest)
          spkModels := p.spkModels.erase (first :: rest)
          offlineOnnxModelBundle := none } :=
      (if_neg hpt).trans ((if_neg honnx).trans (if_pos hoffline))
    rw [hunloaded, if_pos hoffline]
    exact ⟨rfl, rfl, rfl, rfl, rfl, .inr ⟨hpt, rfl⟩, .inr ⟨hne, rfl⟩⟩
  · have hunloaded : p.unloadModel (some (first :: rest)) =
        { p with
          ptModels := p.ptModels.erase (first :: rest)
          onlineOnnxModels := p.onlineOnnxModels.erase (first :: rest)
          spkModels := p.spkModels.erase (first :: rest) } :=
      (if_neg hpt).trans ((if_neg honnx).trans (if_neg hoffline))
    rw [hunloaded, if_neg hoffline]
    exact ⟨rfl, rfl, rfl, rfl, rfl, .inr ⟨hpt, rfl⟩, .inr ⟨hne, rfl⟩⟩

/-- Unloading everything empties everything. -/
theorem Coherent.unloadAll (h : Coherent settings p) : Coherent settings (p.unloadModel none) := by
  refine h.shrink (held_sublist (List.nil_sublist _) (List.nil_sublist _) (List.nil_sublist _)
    (List.nil_sublist _)) rfl ?_ ?_ ?_ ?_ ?_ ?_
  · exact fun key model hkey => by cases hkey
  · exact fun key bundle hkey => by cases hkey
  · exact fun key model hkey => by cases hkey
  · exact fun model hmodel => by cases hmodel
  · exact fun bundle hbundle => by cases hbundle
  · exact fun bundle hbundle => by cases hbundle

/-- Unloading a key drops the group that the model under the key belongs to. -/
theorem Coherent.unload (h : Coherent settings p) {key : Text} (hkey : key ≠ []) :
    Coherent settings (p.unloadModel (some key)) := by
  obtain ⟨hpt, honnx, hspk, hsame, hoffline, hptBundle, honnxBundle⟩ := unloadModel_tables p hkey
  refine h.shrink (held_sublist ?_ ?_ ?_ ?_) hsame ?_ ?_ ?_ ?_ ?_ ?_
  · rw [hpt]
    exact List.kerase_sublist ..
  · rw [honnx]
    exact List.kerase_sublist ..
  · rw [hspk]
    exact List.kerase_sublist ..
  · rw [hoffline]
    split
    · exact List.nil_sublist _
    · exact List.Sublist.refl _
  · rw [hpt]
    exact fun other model => lookup_of_erase
  · rw [honnx]
    exact fun other bundle => lookup_of_erase
  · rw [hspk]
    exact fun other model => lookup_of_erase
  · intro model hmodel
    rw [hoffline] at hmodel
    split at hmodel
    · cases hmodel
    · exact hmodel
  · intro bundle hbundle
    rcases hptBundle with hnone | ⟨hstarts, hkept⟩
    · rw [hnone] at hbundle
      cases hbundle
    · rw [hkept] at hbundle
      exact (h.ptBundle bundle hbundle).erase hstarts hpt
  · intro bundle hbundle
    rcases honnxBundle with hnone | ⟨hne, hkept⟩
    · rw [hnone] at hbundle
      cases hbundle
    · rw [hkept] at hbundle
      rw [honnx, AList.lookup_erase_ne hne.symm]
      exact h.onnxBundle bundle hbundle

theorem Coherent.setPtLoader (h : Coherent settings p) : Coherent settings p.setPtLoader :=
  h.shrink (held_sublist (List.nil_sublist _) (.refl _) (.refl _) (.refl _)) rfl
    (fun _ _ hkey => by cases hkey) (fun _ _ hkey => hkey) (fun _ _ hkey => hkey)
    (fun _ hmodel => hmodel) (fun _ hbundle => by cases hbundle) h.onnxBundle

theorem Coherent.setOnlineOnnxLoader (h : Coherent settings p) :
    Coherent settings p.setOnlineOnnxLoader :=
  h.shrink (held_sublist (.refl _) (List.nil_sublist _) (.refl _) (.refl _)) rfl
    (fun _ _ hkey => hkey) (fun _ _ hkey => by cases hkey) (fun _ _ hkey => hkey)
    (fun _ hmodel => hmodel)
    (fun bundle hbundle => ⟨(h.ptBundle bundle hbundle).1, (h.ptBundle bundle hbundle).2,
      (h.ptBundle bundle hbundle).3, (h.ptBundle bundle hbundle).4⟩)
    (fun _ hbundle => by cases hbundle)

theorem Coherent.setSpkPtLoader (h : Coherent settings p) :
    Coherent settings p.setSpkPtLoader :=
  h.shrink (held_sublist (.refl _) (.refl _) (List.nil_sublist _) (.refl _)) rfl
    (fun _ _ hkey => hkey) (fun _ _ hkey => hkey) (fun _ _ hkey => by cases hkey)
    (fun _ hmodel => hmodel)
    (fun bundle hbundle => ⟨(h.ptBundle bundle hbundle).1, (h.ptBundle bundle hbundle).2,
      (h.ptBundle bundle hbundle).3, (h.ptBundle bundle hbundle).4⟩) h.onnxBundle

/-- A provider without models is coherent. -/
theorem coherent_initial : Coherent settings {} := by
  refine ⟨List.nodup_nil, (fun _ h => by cases h), ?_, ?_, ?_, ?_, ?_, ?_⟩
  · exact fun key model hkey => by cases hkey
  · exact fun key bundle hkey => by cases hkey
  · exact fun key model hkey => by cases hkey
  · exact fun model hmodel => by cases hmodel
  · exact fun bundle hbundle => by cases hbundle
  · exact fun bundle hbundle => by cases hbundle

end Removals

end RuntimeModelProvider

end FunasrApi.Runtime
