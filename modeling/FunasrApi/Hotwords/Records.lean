import FunasrApi.Hotwords.Loader

/-!
# Stored hotwords

Hotword lists are kept as text in rows of a table. A list that is stored, as its text or
as the value that was read from it, is read from the table as the same hotwords.
-/

namespace FunasrApi.Hotwords

open FunasrApi.Core Json

/-- A row of the table of hotwords. -/
structure HotwordRow where
  id : ℤ
  name : Text
  text : Text
  enabled : Bool
  isDeleted : Bool

/-- A row that readers see. -/
def HotwordRow.active (row : HotwordRow) : Bool := row.enabled && !row.isDeleted

namespace HotwordDAO

variable (loads : Text → Option Json) (dumps : Json → Text)

/-- The text that `HotwordDAO.add` and `HotwordDAO.update` store. -/
def textValue : Json → Text
  | .str text => text
  | value => dumps value

/-- `HotwordDAO.add`; the database chooses the id. -/
def add (id : ℤ) (name : Text) (text : Json) (rows : List HotwordRow) : List HotwordRow :=
  rows ++ [⟨id, name, textValue dumps text, true, false⟩]

/-- `HotwordDAO.get_all`. -/
def getAll (rows : List HotwordRow) : List HotwordRow := rows.filter HotwordRow.active

/-- `HotwordDAO.get_by_id`. -/
def getById (id : ℤ) (rows : List HotwordRow) : Option HotwordRow :=
  rows.find? fun row => row.id = id && row.active

/-- `HotwordDAO.get_formatted_list`: rows that cannot be read are left out. -/
def getFormattedList (rows : List HotwordRow) : List Hotword :=
  (getAll rows).flatMap fun row =>
    match parseHotwords loads (.str row.text) with
    | .ok hotwords => hotwords
    | .error _ => []

end HotwordDAO

/-- `SqlHotwordRepository.get_by_id`. -/
def SqlHotwordRepository.getById (loads : Text → Option Json) (id : ℤ) (rows : List HotwordRow) :
    Except HotwordError (List Hotword) :=
  match HotwordDAO.getById id rows with
  | some row => parseHotwords loads (.str row.text)
  | none => .ok []

section Storing

variable {loads : Text → Option Json} {dumps : Json → Text} {hotwords : List Hotword}

/-- The text of a list that was read is read to the same list. -/
theorem parseHotwords_dumps (h : loads (dumps (listJson hotwords)) = some (listJson hotwords)) :
    parseHotwords loads (.str (dumps (listJson hotwords))) = .ok hotwords := by
  rw [parseHotwords, h]
  exact normalizeHotwordItems_listJson hotwords

variable (id : ℤ) (name : Text) (text : Json) (rows : List HotwordRow)

/-- A new row is the one of its id. -/
theorem HotwordDAO.getById_add (hnew : ∀ row ∈ rows, row.id ≠ id) :
    HotwordDAO.getById id (HotwordDAO.add dumps id name text rows) =
      some ⟨id, name, HotwordDAO.textValue dumps text, true, false⟩ := by
  have hold : rows.find? (fun row => row.id = id && row.active) = none := by
    rw [List.find?_eq_none]
    intro row hrow
    simp [hnew row hrow]
  rw [HotwordDAO.getById, HotwordDAO.add, List.find?_append, hold]
  simp [HotwordRow.active]

/-- A new row adds its hotwords to those that are in use. -/
theorem HotwordDAO.getFormattedList_add
    (h : parseHotwords loads (.str (HotwordDAO.textValue dumps text)) = .ok hotwords) :
    HotwordDAO.getFormattedList loads (HotwordDAO.add dumps id name text rows) =
      HotwordDAO.getFormattedList loads rows ++ hotwords := by
  simp [HotwordDAO.getFormattedList, HotwordDAO.getAll, HotwordDAO.add, HotwordRow.active, h]

/-- What is stored is a text or a value that reads as some hotwords. -/
def StoredAs (loads : Text → Option Json) (dumps : Json → Text) (hotwords : List Hotword)
    (text : Json) : Prop :=
  ∀ id name rows, (∀ row ∈ rows, row.id ≠ id) →
    SqlHotwordRepository.getById loads id (HotwordDAO.add dumps id name text rows) = .ok hotwords ∧
      HotwordDAO.getFormattedList loads (HotwordDAO.add dumps id name text rows) =
        HotwordDAO.getFormattedList loads rows ++ hotwords

/-- Storing brings back what the stored text reads as. -/
theorem storedAs_of_parseHotwords
    (h : parseHotwords loads (.str (HotwordDAO.textValue dumps text)) = .ok hotwords) :
    StoredAs loads dumps hotwords text := by
  intro id name rows hnew
  constructor
  · rw [SqlHotwordRepository.getById, HotwordDAO.getById_add id name text rows hnew]
    exact h
  · exact HotwordDAO.getFormattedList_add id name text rows h

end Storing

/-- Exactly the lists of the grammar are read, object by object. If the library brings back the
list that was read then so does parsing its text, and so does the table, from that text, from
the list itself and from any text that the list was read from. -/
theorem normalizeHotwordItems_canonical (loads : Text → Option Json) (dumps : Json → Text)
    (value : Json) :
    ((∃ hotwords, normalizeHotwordItems value = .ok hotwords) ↔ IsHotwordList value) ∧
      ∀ hotwords, normalizeHotwordItems value = .ok hotwords →
        (∃ items, value = .list items ∧ List.Forall₂ ReadAs items hotwords) ∧
          (loads (dumps (listJson hotwords)) = some (listJson hotwords) →
            parseHotwords loads (.str (dumps (listJson hotwords))) = .ok hotwords ∧
              StoredAs loads dumps hotwords (.str (dumps (listJson hotwords))) ∧
              StoredAs loads dumps hotwords (listJson hotwords)) ∧
          ∀ text, loads text = some value → StoredAs loads dumps hotwords (.str text) := by
  refine ⟨normalizeHotwordItems_isOk_iff value, fun hotwords hread => ⟨?_, fun hjson => ?_, ?_⟩⟩
  · obtain ⟨items, rfl, hitems⟩ := normalizeHotwordItems_eq_ok_iff.mp hread
    exact ⟨items, rfl, hitems.imp fun _ _ h => h.2⟩
  · have hparse := parseHotwords_dumps hjson
    exact ⟨hparse, storedAs_of_parseHotwords _ hparse, storedAs_of_parseHotwords _ hparse⟩
  · intro text htext
    refine storedAs_of_parseHotwords _ ?_
    rw [HotwordDAO.textValue, parseHotwords, htext]
    exact hread

/-- What a request says, with the keys in another order and a blank before the word. -/
def requestText : Text := "[\x7b\"hotword\": \" 篮子\", \"weight\": 100\x7d]".toList

/-- The value of that text. -/
def requestValue : Json :=
  .list [.dict [(hotwordKey, .str " 篮子".toList), (weightKey, .int 100)]]

/-- The hotwords of that value. -/
def requestHotwords : List Hotword := [⟨100, "篮子".toList, by decide, by decide, by decide⟩]

/-- The text that is written for them. -/
def writtenText : Text := "[\x7b\"weight\": 100, \"hotword\": \"篮子\"\x7d]".toList

/-- A library that knows the two texts. -/
def requestLoads (text : Text) : Option Json :=
  if text = requestText then some requestValue
  else if text = writtenText then some (listJson requestHotwords)
  else none

/-- The request is read, and what is written of it is read to the same hotwords. -/
theorem requestValue_canonical :
    parseHotwords requestLoads (.str writtenText) = .ok requestHotwords ∧
      StoredAs requestLoads (fun _ => writtenText) requestHotwords (listJson requestHotwords) ∧
      StoredAs requestLoads (fun _ => writtenText) requestHotwords (.str requestText) := by
  have hread : normalizeHotwordItems requestValue = .ok requestHotwords := by rfl
  have hall := (normalizeHotwordItems_canonical requestLoads (fun _ => writtenText)
    requestValue).2 requestHotwords hread
  obtain ⟨hparse, -, hlist⟩ := hall.2.1 (by rfl)
  exact ⟨hparse, hlist, hall.2.2 requestText (by rfl)⟩

end FunasrApi.Hotwords
