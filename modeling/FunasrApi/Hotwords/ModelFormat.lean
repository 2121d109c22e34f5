import FunasrApi.Hotwords.Loader
import Mathlib.Data.Rat.Defs

/-!
# Hotwords as the models take them

The hotwords of a request are one text or a list of pairs, depending on the
configuration. The models of both engines make the same text of either, but the client
of a stream is told the length of the value, which is that of the list only for pairs.
-/

namespace FunasrApi.Hotwords

open FunasrApi.Core Text Json

/-- `format_hotwords_for_model`. -/
def formatHotwordsForModel (hotwords : List Hotword) (weighted : Bool) : Json :=
  let named := hotwords.filter fun entry => entry.hotword ≠ []
  if weighted then .list (named.map fun entry => .list [.int entry.weight, .str entry.hotword])
  else .str (join ' ' (named.map Hotword.hotword))

/-- `ResolvedHotwords`. -/
structure ResolvedHotwords where
  value : Json
  count : ℕ

/-- The configuration, by `config.get(key, default)`. -/
abbrev Config := Text → Json → Json

/-- `config.get("hotwords.model_format", "plain") == "weighted"`. -/
def isWeighted (config : Config) : Bool :=
  match config "hotwords.model_format".toList (.str "plain".toList) with
  | .str format => format = "weighted".toList
  | _ => false

section Loading

variable (loads : Text → Option Json) (lookup : Option (Json → Option (List Hotword)))

/-- `get_hotwords_by_id`; a lookup that raises is `none`. -/
def getHotwordsById (id : Json) : Except HotwordError (List Hotword) :=
  match lookup with
  | none => .error .lookupRequired
  | some lookup => .ok ((lookup id).getD [])

/-- `resolve_hotwords_with_priority`. -/
def resolveHotwordsWithPriority (config : Config) (customHotwords hotwordId : Json)
    (defaultHotwordIds : Json) : Except HotwordError ResolvedHotwords :=
  let resolved (hotwords : List Hotword) : ResolvedHotwords :=
    ⟨formatHotwordsForModel hotwords (isWeighted config), hotwords.length⟩
  do
    let custom ← parseHotwords loads customHotwords
    if custom ≠ [] then return resolved custom
    let byId ← match hotwordId with
      | .null => .ok []
      | id => getHotwordsById lookup id
    if byId ≠ [] then return resolved byId
    let defaults ← defaultHotwords defaultHotwordIds
    if defaults ≠ [] then return resolved defaults
    return ⟨.list [], 0⟩
where
  /-- The hotwords of all default ids. -/
  defaultHotwords (ids : Json) : Except HotwordError (List Hotword) :=
    if ids.truth then
      match ids.iterated with
      | some ids => return (← ids.mapM (getHotwordsById lookup)).flatten
      | none => .error .notIterable
    else .ok []

/-- `load_hotwords_with_priority`. -/
def loadHotwordsWithPriority (config : Config) (customHotwords hotwordId defaultHotwordIds : Json) :
    Except HotwordError Json :=
  ResolvedHotwords.value <$>
    resolveHotwordsWithPriority loads lookup config customHotwords hotwordId defaultHotwordIds

/-- `_load_online_hotwords`. -/
def loadOnlineHotwords (config : Config) (hotwords hotwordId : Json) : Except HotwordError Json :=
  do
    let defaultHotwordIds := config "hotwords.default_ids".toList (.list [])
    let resolved ← loadHotwordsWithPriority loads lookup config hotwords hotwordId
      defaultHotwordIds
    return resolved.orElse .null

end Loading

section Observers

variable (str : Json → Text)

/-- `str(value or "")`; what `str` makes of a value that is not a string is a parameter. -/
def shown : Json → Text
  | .str t => t
  | value => if value.truth then str value else []

/-- The word of an item. -/
def seacoWord : Json → Text
  | .str t => strip t
  | .dict entries => strip (shown str (Json.get entries hotwordKey))
  | .list items =>
    match items.getLast? with
    | some last => strip (shown str last)
    | none => []
  | _ => []

/-- The line of words that both engines make; `none` when they raise. -/
def seacoLine (hotwords : Json) : Option Text :=
  if hotwords.truth then
    match hotwords with
    | .str t => some (strip t)
    | value => value.iterated.map fun items =>
      join ' ' ((items.map (seacoWord str)).filter fun word => word ≠ [])
  else some []

/-- `_format_seaco_hotwords` of the OFFLINE recognizer. -/
def OfflineRecognizer.formatSeacoHotwords (hotwords : Json) : Option Text := seacoLine str hotwords

/-- `_format_seaco_hotwords` of the ONLINE final recognizer. -/
def OnlineFinalAsr.formatSeacoHotwords (hotwords : Json) : Option Text := seacoLine str hotwords

/-- The event that tells a client that its stream is ready. -/
structure ReadyEvent where
  sampleRate : ℤ
  decodeInterval : ℚ
  queueMaxChunks : ℤ
  hotwordId : Json
  hotwordCount : ℕ

/-- `ready_event`; `none` when `len` raises. -/
def readyEvent (sampleRate : ℤ) (decodeInterval : ℚ) (queueMaxChunks : ℤ)
    (hotwordId resolvedHotwords : Json) : Option ReadyEvent :=
  (resolvedHotwords.orElse (.list [])).len.map fun count =>
    ⟨sampleRate, decodeInterval, queueMaxChunks, hotwordId, count⟩

end Observers

section Formatting

variable {hotwords : List Hotword}

/-- The words, in order, with single spaces between them. -/
def wordLine (hotwords : List Hotword) : Text := join ' ' (hotwords.map Hotword.hotword)

/-- All entries are formatted. -/
theorem formatHotwordsForModel_eq (hotwords : List Hotword) (weighted : Bool) :
    formatHotwordsForModel hotwords weighted =
      if weighted then
        .list (hotwords.map fun entry => .list [.int entry.weight, .str entry.hotword])
      else .str (wordLine hotwords) := by
  have hnamed : (hotwords.filter fun entry => entry.hotword ≠ []) = hotwords :=
    List.filter_eq_self.mpr fun entry _ => by simpa using entry.hotword_ne_nil
  rw [formatHotwordsForModel, hnamed]
  rfl

theorem length_wordLine (hne : hotwords ≠ []) :
    (wordLine hotwords).length + 1 =
      (hotwords.flatMap Hotword.hotword).length + hotwords.length := by
  have hwords : hotwords.map Hotword.hotword ≠ [] := by simpa using hne
  have h := length_join_add_one ' ' hwords
  rwa [List.length_map] at h

theorem strip_wordLine (hotwords : List Hotword) : strip (wordLine hotwords) = wordLine hotwords :=
  strip_join fun part hpart => by
    obtain ⟨entry, -, rfl⟩ := List.mem_map.mp hpart
    exact ⟨entry.strip_hotword, entry.hotword_ne_nil⟩

theorem length_le_flatMap (hotwords : List Hotword) :
    hotwords.length ≤ (hotwords.flatMap Hotword.hotword).length := by
  induction hotwords with
  | nil => exact le_rfl
  | cons entry rest ih =>
    have hpos := List.length_pos_of_ne_nil entry.hotword_ne_nil
    rw [List.length_cons, List.flatMap_cons, List.length_append]
    omega

/-- A list with an entry has a value that is true in either format. -/
theorem truth_formatHotwordsForModel (hne : hotwords ≠ []) (weighted : Bool) :
    (formatHotwordsForModel hotwords weighted).truth = true := by
  rw [formatHotwordsForModel_eq]
  cases weighted with
  | true => simpa [truth] using hne
  | false =>
    have hlength := length_wordLine hne
    have hchars := length_le_flatMap hotwords
    have hpos := List.length_pos_of_ne_nil hne
    have hline : wordLine hotwords ≠ [] := fun hnil => by
      rw [hnil, List.length_nil] at hlength
      omega
    simpa [truth] using hline

/-- The engines make the line of the words of either format. -/
theorem seacoLine_formatHotwordsForModel (str : Json → Text) (hne : hotwords ≠ [])
    (weighted : Bool) :
    seacoLine str (formatHotwordsForModel hotwords weighted) = some (wordLine hotwords) := by
  unfold seacoLine
  rw [if_pos (truth_formatHotwordsForModel hne weighted), formatHotwordsForModel_eq]
  cases weighted with
  | false => exact congrArg some (strip_wordLine hotwords)
  | true =>
    have hwords : ((hotwords.map fun entry =>
        Json.list [.int entry.weight, .str entry.hotword]).map (seacoWord str)) =
          hotwords.map Hotword.hotword := by
      rw [List.map_map]
      exact List.map_congr_left fun entry _ => entry.strip_hotword
    have hnamed : ((hotwords.map Hotword.hotword).filter fun word => word ≠ []) =
        hotwords.map Hotword.hotword := by
      refine List.filter_eq_self.mpr fun word hword => ?_
      obtain ⟨entry, -, rfl⟩ := List.mem_map.mp hword
      simpa using entry.hotword_ne_nil
    simp only [if_true, Json.iterated, Option.map_some]
    rw [hwords, hnamed, wordLine]

/-- The length of the value: of the list for pairs, of the line for a text. -/
theorem len_formatHotwordsForModel (hotwords : List Hotword) (weighted : Bool) :
    (formatHotwordsForModel hotwords weighted).len =
      some (if weighted then hotwords.length else (wordLine hotwords).length) := by
  rw [formatHotwordsForModel_eq]
  cases weighted with
  | false => rfl
  | true => simp [Json.len]

/-- The line is as long as the list only for one word of one character. -/
theorem length_wordLine_eq_iff (hne : hotwords ≠ []) :
    (wordLine hotwords).length = hotwords.length ↔
      ∃ c, hotwords.map Hotword.hotword = [[c]] := by
  have hlength := length_wordLine hne
  have hchars := length_le_flatMap hotwords
  constructor
  · intro h
    have hone : hotwords.length = 1 := by
      have hpos := List.length_pos_of_ne_nil hne
      omega
    obtain ⟨entry, rfl⟩ := List.length_eq_one_iff.mp hone
    have hchar : entry.hotword.length = 1 := by
      rw [List.flatMap_cons, List.flatMap_nil, List.append_nil] at hlength
      omega
    obtain ⟨c, hc⟩ := List.length_eq_one_iff.mp hchar
    exact ⟨c, by rw [List.map_singleton, hc]⟩
  · rintro ⟨c, hc⟩
    have hcount := congrArg List.length hc
    rw [List.length_map] at hcount
    rw [wordLine, hc, hcount]
    rfl

end Formatting

section Requests

variable {loads : Text → Option Json} {lookup : Option (Json → Option (List Hotword))}
  {config : Config} {customHotwords : Json} {hotwords : List Hotword}

/-- Hotwords that come with a request go before all others. -/
theorem resolveHotwordsWithPriority_custom
    (hparse : parseHotwords loads customHotwords = .ok hotwords) (hne : hotwords ≠ [])
    (hotwordId defaultHotwordIds : Json) :
    resolveHotwordsWithPriority loads lookup config customHotwords hotwordId defaultHotwordIds =
      .ok ⟨formatHotwordsForModel hotwords (isWeighted config), hotwords.length⟩ := by
  simp [resolveHotwordsWithPriority, hparse, hne, bind, Except.bind, pure, Except.pure]

/-- A stream gets the same value. -/
theorem loadOnlineHotwords_custom (hparse : parseHotwords loads customHotwords = .ok hotwords)
    (hne : hotwords ≠ []) (hotwordId : Json) :
    loadOnlineHotwords loads lookup config customHotwords hotwordId =
      .ok (formatHotwordsForModel hotwords (isWeighted config)) := by
  have htruth := truth_formatHotwordsForModel hne (isWeighted config)
  simp [loadOnlineHotwords, loadHotwordsWithPriority, resolveHotwordsWithPriority_custom hparse hne,
    Json.orElse, htruth, bind, Except.bind, pure, Except.pure, Functor.map, Except.map]

variable (loads lookup) (str : Json → Text)

/-- With a configuration both engines make the line of the words, and a client is told how many
hotwords there are. -/
def ObservedAs (config : Config) (customHotwords hotwordId : Json) (hotwords : List Hotword) :
    Prop :=
  (∀ defaultHotwordIds, ∃ resolved,
    resolveHotwordsWithPriority loads lookup config customHotwords hotwordId defaultHotwordIds =
        .ok resolved ∧
      OfflineRecognizer.formatSeacoHotwords str resolved.value = some (wordLine hotwords)) ∧
  ∃ value, loadOnlineHotwords loads lookup config customHotwords hotwordId = .ok value ∧
    OnlineFinalAsr.formatSeacoHotwords str value = some (wordLine hotwords) ∧
    ∀ sampleRate decodeInterval queueMaxChunks, ∃ event,
      readyEvent sampleRate decodeInterval queueMaxChunks hotwordId value = some event ∧
        event.hotwordCount = hotwords.length

variable {loads lookup}

/-- The words are observed in any format, so that all depends on the count. -/
theorem observedAs_iff (hparse : parseHotwords loads customHotwords = .ok hotwords)
    (hne : hotwords ≠ []) (hotwordId : Json) :
    ObservedAs loads lookup str config customHotwords hotwordId hotwords ↔
      (isWeighted config = false → (wordLine hotwords).length = hotwords.length) := by
  have htruth := truth_formatHotwordsForModel hne (isWeighted config)
  have hline := seacoLine_formatHotwordsForModel str hne (isWeighted config)
  have hcount : ∀ sampleRate decodeInterval queueMaxChunks,
      readyEvent sampleRate decodeInterval queueMaxChunks hotwordId
          (formatHotwordsForModel hotwords (isWeighted config)) =
        some ⟨sampleRate, decodeInterval, queueMaxChunks, hotwordId,
          if isWeighted config then hotwords.length else (wordLine hotwords).length⟩ := by
    intro sampleRate decodeInterval queueMaxChunks
    rw [readyEvent, Json.orElse, if_pos htruth, len_formatHotwordsForModel]
    rfl
  constructor
  · rintro ⟨-, value, hvalue, -, hready⟩ hplain
    obtain rfl := Except.ok.inj ((loadOnlineHotwords_custom hparse hne hotwordId).symm.trans hvalue)
    obtain ⟨event, hevent, hsame⟩ := hready 0 0 0
    rw [hcount] at hevent
    obtain rfl := Option.some.inj hevent
    simpa [hplain] using hsame
  · intro hlength
    refine ⟨fun defaultHotwordIds => ⟨_, resolveHotwordsWithPriority_custom hparse hne hotwordId
      defaultHotwordIds, hline⟩, _, loadOnlineHotwords_custom hparse hne hotwordId, hline, ?_⟩
    intro sampleRate decodeInterval queueMaxChunks
    refine ⟨_, hcount sampleRate decodeInterval queueMaxChunks, ?_⟩
    dsimp only
    split
    · rfl
    · next hplain => exact hlength (Bool.eq_false_iff.mpr hplain)

/-- The two formats are observed alike, as the words of the list and their number, exactly for
one hotword of one character. -/
theorem observedAs_plain_and_weighted_iff (loads : Text → Option Json)
    (lookup : Option (Json → Option (List Hotword))) (str : Json → Text) {plain weighted : Config}
    (hplain : isWeighted plain = false) (hweighted : isWeighted weighted = true)
    {text : Text} {hotwords : List Hotword}
    (hparse : parseHotwords loads (.str text) = .ok hotwords) (hne : hotwords ≠ [])
    (hotwordId : Json) :
    ObservedAs loads lookup str plain (.str text) hotwordId hotwords ∧
        ObservedAs loads lookup str weighted (.str text) hotwordId hotwords ↔
      ∃ c, hotwords.map Hotword.hotword = [[c]] := by
  rw [observedAs_iff str hparse hne, observedAs_iff str hparse hne, hplain, hweighted,
    ← length_wordLine_eq_iff hne]
  simp

/-- A configuration that sets the format only. -/
def formatConfig (format : Text) : Config := fun key fallback =>
  if key = "hotwords.model_format".toList then .str format else fallback

/-- The dictionary of a request for one hotword. -/
def requestItem (weight : ℤ) (word : Text) : Json :=
  .dict [(weightKey, .int weight), (hotwordKey, .str word)]

/-- The format is not observed with a single hotword of one character. -/
theorem oneCharacter_observedAs :
    let loads := fun _ => some (.list [requestItem 80 "词".toList])
    let text := "[\x7b\"weight\":80,\"hotword\":\"词\"\x7d]".toList
    let hotwords : List Hotword := [⟨80, "词".toList, by decide, by decide, by decide⟩]
    ObservedAs loads none (fun _ => []) (formatConfig "plain".toList) (.str text) .null hotwords ∧
      ObservedAs loads none (fun _ => []) (formatConfig "weighted".toList) (.str text) .null
        hotwords := by
  intro loads text hotwords
  exact (observedAs_plain_and_weighted_iff loads none _ (by rfl) (by rfl) (by rfl) (by decide)
    .null).mpr ⟨'词', by decide⟩

/-- Two hotwords of two characters each are counted as five in the plain format. -/
theorem twoHotwords_countedAsFive :
    let loads := fun _ => some (.list [requestItem 100 "篮子".toList, requestItem 80 "直播".toList])
    let text := ("[\x7b\"weight\":100,\"hotword\":\"篮子\"\x7d," ++
      "\x7b\"weight\":80,\"hotword\":\"直播\"\x7d]").toList
    let hotwords : List Hotword := [⟨100, "篮子".toList, by decide, by decide, by decide⟩,
      ⟨80, "直播".toList, by decide, by decide, by decide⟩]
    parseHotwords loads (.str text) = .ok hotwords ∧
      ObservedAs loads none (fun _ => []) (formatConfig "weighted".toList) (.str text) .null
        hotwords ∧
      (∃ value event,
        loadOnlineHotwords loads none (formatConfig "plain".toList) (.str text) .null =
          .ok value ∧ readyEvent 16000 1 20 .null value = some event ∧ event.hotwordCount = 5) ∧
      ¬ ObservedAs loads none (fun _ => []) (formatConfig "plain".toList) (.str text) .null
        hotwords := by
  intro loads text hotwords
  have hparse : parseHotwords loads (.str text) = .ok hotwords := by rfl
  have hne : hotwords ≠ [] := by decide
  refine ⟨hparse, ?_, ⟨_, _, loadOnlineHotwords_custom hparse hne .null, rfl, by decide⟩, ?_⟩
  · exact (observedAs_iff _ hparse hne .null).mpr fun hplain => absurd hplain (by decide)
  · rw [observedAs_iff _ hparse hne]
    exact fun hcount => absurd (hcount (by decide)) (by decide)

end Requests

end FunasrApi.Hotwords
