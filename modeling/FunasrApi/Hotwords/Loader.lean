import FunasrApi.Core.Json
import Mathlib.Data.Finset.Dedup
import Mathlib.Data.Finset.Insert

/-!
# Reading hotwords

A hotword list is a JSON list of objects with a weight and a word. What is read is a
list of valid hotwords: the bounds of the weight and the stripped word are part of
the type. Exactly the lists of the grammar are read, each object to its hotword.
-/

namespace FunasrApi.Hotwords

open FunasrApi.Core Text Json

/-- `{"weight": weight, "hotword": hotword}` of a normalized list. -/
@[ext]
structure Hotword where
  weight : ℤ
  hotword : Text
  /-- Weights are from `1` to `100`. -/
  weight_range : 1 ≤ weight ∧ weight ≤ 100
  /-- The word has been stripped. -/
  strip_hotword : strip hotword = hotword
  hotword_ne_nil : hotword ≠ []
  deriving DecidableEq

/-- What the loader raises. -/
inductive HotwordError
  | invalidHotwordFormat
  /-- The `ValueError` of an id without a lookup. -/
  | lookupRequired
  /-- The `TypeError` of a loop over ids that are none. -/
  | notIterable
  deriving DecidableEq

/-- The text of an error. -/
def HotwordError.message : HotwordError → String
  | invalidHotwordFormat =>
    "hotwords 必须是 JSON 数组，元素格式必须为 \x7b\"weight\": 1-100, \"hotword\": \"非空字符串\"\x7d"
  | lookupRequired => "hotword lookup is required"
  | notIterable => "object is not iterable"

/-- The key of the weight. -/
def weightKey : Text := "weight".toList

/-- The key of the word. -/
def hotwordKey : Text := "hotword".toList

/-- The checks of the two values in a round of the loop of `_normalize_hotword_items`. -/
def checkedHotword (weight word : Json) : Except HotwordError Hotword :=
  match weight.isBool, weight.int?, word with
  | false, some n, .str t =>
    if hrange : 1 ≤ n ∧ n ≤ 100 then
      if hblank : strip t = [] then .error .invalidHotwordFormat
      else .ok ⟨n, strip t, hrange, strip_strip t, hblank⟩
    else .error .invalidHotwordFormat
  | _, _, _ => .error .invalidHotwordFormat

/-- One round of the loop of `_normalize_hotword_items`. -/
def normalizeHotwordItem : Json → Except HotwordError Hotword
  | .dict entries =>
    if (keys entries).toFinset ≠ {weightKey, hotwordKey} then .error .invalidHotwordFormat
    else checkedHotword (Json.get entries weightKey) (Json.get entries hotwordKey)
  | _ => .error .invalidHotwordFormat

/-- `_normalize_hotword_items`. -/
def normalizeHotwordItems : Json → Except HotwordError (List Hotword)
  | .list items => items.mapM normalizeHotwordItem
  | _ => .error .invalidHotwordFormat

/-- `parse_hotwords`, with `json.loads` as a parameter. -/
def parseHotwords (loads : Text → Option Json) : Json → Except HotwordError (List Hotword)
  | .null => .ok []
  | .str text =>
    match loads text with
    | some items => normalizeHotwordItems items
    | none => .error .invalidHotwordFormat
  | _ => .error .invalidHotwordFormat

/-- The dictionary of a hotword. -/
def Hotword.toJson (entry : Hotword) : Json :=
  .dict [(weightKey, .int entry.weight), (hotwordKey, .str entry.hotword)]

/-- The list of dictionaries of some hotwords. -/
def listJson (hotwords : List Hotword) : Json := .list (hotwords.map Hotword.toJson)

section Grammar

/-- An object with exactly the two keys, a weight from `1` to `100` and a word that is visible. -/
def IsHotwordItem (item : Json) : Prop :=
  ∃ entries weight word, item = .dict entries ∧
    (∀ key, key ∈ keys entries ↔ key = weightKey ∨ key = hotwordKey) ∧
    (entries.lookup weightKey = some (.int weight) ∧ 1 ≤ weight ∧ weight ≤ 100) ∧
    entries.lookup hotwordKey = some (.str word) ∧ Visible word

/-- A list of such objects. -/
def IsHotwordList (value : Json) : Prop :=
  ∃ items, value = .list items ∧ ∀ item ∈ items, IsHotwordItem item

/-- A hotword has the weight of an object and its word without the white space around it. -/
def ReadAs (item : Json) (entry : Hotword) : Prop :=
  ∃ entries word, item = .dict entries ∧ entries.lookup weightKey = some (.int entry.weight) ∧
    entries.lookup hotwordKey = some (.str word) ∧ entry.hotword = strip word

end Grammar

theorem toFinset_keys_eq_iff (entries : List (Text × Json)) :
    (keys entries).toFinset = {weightKey, hotwordKey} ↔
      ∀ key, key ∈ keys entries ↔ key = weightKey ∨ key = hotwordKey := by
  rw [Finset.ext_iff]
  simp only [List.mem_toFinset, Finset.mem_insert, Finset.mem_singleton]

/-- The values that pass are an integer in the bounds and a text with something visible. -/
theorem checkedHotword_eq_ok_iff {weight word : Json} {entry : Hotword} :
    checkedHotword weight word = .ok entry ↔
      weight = .int entry.weight ∧ ∃ t, word = .str t ∧ entry.hotword = strip t := by
  constructor
  · intro h
    unfold checkedHotword at h
    split at h
    · next n t hbool hint =>
      split at h
      · split at h
        · cases h
        · obtain rfl := Except.ok.inj h
          refine ⟨?_, t, rfl, rfl⟩
          -- of the two kinds of integers the booleans are out
          cases weight with
          | int m => exact congrArg Json.int (Option.some.inj hint)
          | bool b => cases hbool
          | _ => cases hint
      · cases h
    · cases h
  · rintro ⟨rfl, t, rfl, hstrip⟩
    have hblank : strip t ≠ [] := hstrip ▸ entry.hotword_ne_nil
    unfold checkedHotword
    dsimp only [Json.isBool, Json.int?]
    rw [dif_pos entry.weight_range, dif_neg hblank]
    exact congrArg Except.ok (Hotword.ext rfl hstrip.symm)

/-- The objects that are read, each to the hotword it says. -/
theorem normalizeHotwordItem_eq_ok_iff {item : Json} {entry : Hotword} :
    normalizeHotwordItem item = .ok entry ↔ IsHotwordItem item ∧ ReadAs item entry := by
  constructor
  · intro h
    unfold normalizeHotwordItem at h
    split at h
    · next entries =>
      split at h
      · cases h
      · next hkeys =>
        have hexact := (toFinset_keys_eq_iff entries).mp (not_not.mp hkeys)
        obtain ⟨weight, hweight⟩ := lookup_of_mem_keys ((hexact weightKey).mpr (Or.inl rfl))
        obtain ⟨word, hword⟩ := lookup_of_mem_keys ((hexact hotwordKey).mpr (Or.inr rfl))
        rw [Json.get, Json.get, hweight, hword, Option.getD_some, Option.getD_some] at h
        obtain ⟨rfl, t, rfl, hstrip⟩ := checkedHotword_eq_ok_iff.mp h
        have hvisible := visible_iff_strip_ne_nil.mpr (hstrip ▸ entry.hotword_ne_nil)
        exact ⟨⟨entries, _, t, rfl, hexact, ⟨hweight, entry.weight_range⟩, hword, hvisible⟩,
          entries, t, rfl, hweight, hword, hstrip⟩
    · cases h
  · rintro ⟨⟨entries, _, _, rfl, hkeys, -⟩, _, t, heq, hweight, hword, hstrip⟩
    obtain rfl := Json.dict.inj heq
    have hfinset := (toFinset_keys_eq_iff entries).mpr hkeys
    rw [normalizeHotwordItem, if_neg (not_not_intro hfinset), Json.get, Json.get, hweight, hword]
    exact checkedHotword_eq_ok_iff.mpr ⟨rfl, t, rfl, hstrip⟩

/-- An object of the grammar says some hotword. -/
theorem IsHotwordItem.exists_readAs {item : Json} (h : IsHotwordItem item) :
    ∃ entry, ReadAs item entry := by
  obtain ⟨entries, weight, word, rfl, -, ⟨hweight, hrange⟩, hword, hvisible⟩ := h
  exact ⟨⟨weight, strip word, hrange, strip_strip word, hvisible.strip_ne_nil⟩, entries, word, rfl,
    hweight, hword, rfl⟩

/-- The dictionary of a hotword is read back. -/
@[simp] theorem normalizeHotwordItem_toJson (entry : Hotword) :
    normalizeHotwordItem entry.toJson = .ok entry := by
  have hkeys : (keys [(weightKey, Json.int entry.weight),
      (hotwordKey, .str entry.hotword)]).toFinset = {weightKey, hotwordKey} := by
    simp [keys]
  rw [Hotword.toJson, normalizeHotwordItem, if_neg (not_not_intro hkeys)]
  exact checkedHotword_eq_ok_iff.mpr ⟨rfl, entry.hotword, rfl, entry.strip_hotword.symm⟩

/-- A list is read item by item. -/
theorem mapM_normalizeHotwordItem_eq_ok_iff {items : List Json} {hotwords : List Hotword} :
    items.mapM normalizeHotwordItem = .ok hotwords ↔
      List.Forall₂ (fun item entry => normalizeHotwordItem item = .ok entry) items hotwords := by
  induction items generalizing hotwords with
  | nil =>
    rw [List.mapM_nil, List.forall₂_nil_left_iff]
    exact ⟨fun h => (Except.ok.inj h).symm, fun h => congrArg Except.ok h.symm⟩
  | cons item items ih =>
    rw [List.mapM_cons, List.forall₂_cons_left_iff]
    cases hitem : normalizeHotwordItem item with
    | error e =>
      constructor
      · exact nofun
      · rintro ⟨_, _, hok, -⟩
        cases hok
    | ok entry =>
      cases hitems : items.mapM normalizeHotwordItem with
      | error e =>
        constructor
        · exact nofun
        · rintro ⟨_, rest, -, hrest, -⟩
          rw [ih.mpr hrest] at hitems
          cases hitems
      | ok rest =>
        constructor
        · intro h
          exact ⟨entry, rest, rfl, ih.mp hitems, (Except.ok.inj h).symm⟩
        · rintro ⟨found, others, hfound, hothers, rfl⟩
          obtain rfl := Except.ok.inj hfound
          obtain rfl := Except.ok.inj (hitems.symm.trans (ih.mpr hothers))
          rfl

/-- The lists that are read, each object to the hotword it says. -/
theorem normalizeHotwordItems_eq_ok_iff {value : Json} {hotwords : List Hotword} :
    normalizeHotwordItems value = .ok hotwords ↔ ∃ items, value = .list items ∧
      List.Forall₂ (fun item entry => IsHotwordItem item ∧ ReadAs item entry) items hotwords := by
  have hitems : ∀ items : List Json, items.mapM normalizeHotwordItem = .ok hotwords ↔
      List.Forall₂ (fun item entry => IsHotwordItem item ∧ ReadAs item entry) items hotwords := by
    intro items
    simp only [mapM_normalizeHotwordItem_eq_ok_iff, normalizeHotwordItem_eq_ok_iff]
  cases value with
  | list items =>
    refine (hitems items).trans ⟨fun h => ⟨items, rfl, h⟩, ?_⟩
    rintro ⟨others, heq, h⟩
    rwa [Json.list.inj heq]
  | _ => exact ⟨nofun, fun ⟨_, heq, _⟩ => nomatch heq⟩

/-- Exactly the lists of the grammar are read. -/
theorem normalizeHotwordItems_isOk_iff (value : Json) :
    (∃ hotwords, normalizeHotwordItems value = .ok hotwords) ↔ IsHotwordList value := by
  simp only [normalizeHotwordItems_eq_ok_iff]
  constructor
  · rintro ⟨hotwords, items, rfl, hread⟩
    refine ⟨items, rfl, fun item hitem => ?_⟩
    obtain ⟨index, hindex, rfl⟩ := List.getElem_of_mem hitem
    exact (hread.get hindex (hread.length_eq ▸ hindex)).1
  · rintro ⟨items, rfl, hgrammar⟩
    suffices ∃ hotwords, List.Forall₂ (fun item entry => IsHotwordItem item ∧ ReadAs item entry)
        items hotwords from
      this.imp fun hotwords hread => ⟨items, rfl, hread⟩
    induction items with
    | nil => exact ⟨[], .nil⟩
    | cons item items ih =>
      obtain ⟨hitem, hitems⟩ := List.forall_mem_cons.mp hgrammar
      obtain ⟨entry, hentry⟩ := hitem.exists_readAs
      obtain ⟨rest, hrest⟩ := ih hitems
      exact ⟨entry :: rest, .cons ⟨hitem, hentry⟩ hrest⟩

/-- What has been read is written as a list that is read to the same. -/
theorem normalizeHotwordItems_listJson (hotwords : List Hotword) :
    normalizeHotwordItems (listJson hotwords) = .ok hotwords := by
  refine mapM_normalizeHotwordItem_eq_ok_iff.mpr ?_
  rw [List.forall₂_map_left_iff, List.forall₂_same]
  exact fun entry _ => normalizeHotwordItem_toJson entry

end FunasrApi.Hotwords
