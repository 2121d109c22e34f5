import FunasrApi.Online.TextCleaning
import Mathlib.Data.Rat.Defs

/-!
# What a model returns

The responses of the models are nested dictionaries, lists and tuples of many
shapes. Timestamps and text are looked for in them by key and by shape. What `str`
makes of a value that is not a string is a parameter.
-/

namespace FunasrApi.Online

open FunasrApi.Core Text

/-- A value in the response of a model. -/
inductive Payload
  | null
  | text (t : Text)
  /-- The bytes, and what `decode("utf-8", errors="ignore")` makes of them. -/
  | bytes (raw : List UInt8) (decoded : Text)
  /-- A number, `bool` included, by its value under `float`. -/
  | number (value : ℚ)
  | list (items : List Payload)
  | tuple (items : List Payload)
  | dict (entries : List (Text × Payload))
  /-- An object of another class: it is true and cannot be iterated. -/
  | other (name : Text)

namespace Payload

/-- `bool(payload)`. -/
def truth : Payload → Bool
  | null => false
  | text t => t ≠ []
  | bytes raw _ => raw ≠ []
  | number value => value ≠ 0
  | list items => !items.isEmpty
  | tuple items => !items.isEmpty
  | dict entries => !entries.isEmpty
  | other _ => true

/-- `is_number`. -/
def isNumber : Payload → Bool
  | number _ => true
  | _ => false

/-- The values of a list or a tuple. -/
def sequence? : Payload → Option (List Payload)
  | list items => some items
  | tuple items => some items
  | _ => none

/-- What a `for` loop over the payload runs through; `none` when it raises. -/
def iterated : Payload → Option (List Payload)
  | text t => some (t.map fun c => text [c])
  | bytes raw _ => some (raw.map fun byte => number byte.toNat)
  | list items => some items
  | tuple items => some items
  | dict entries => some (entries.map fun entry => text entry.1)
  | null | number _ | other _ => none

/-- `_looks_like_timestamp_item`. -/
def looksLikeTimestampItem (item : Payload) : Bool :=
  match item.sequence? with
  | none => false
  | some [first, second] => first.isNumber && second.isNumber
  | some values =>
    match values.reverse with
    | last :: previous :: _ :: _ => previous.isNumber && last.isNumber
    | _ => false

/-- The first of some payloads that is true, or `None`. -/
def firstTrue (payloads : List Payload) : Payload := (payloads.find? truth).getD null

/-- `entries.get(key)`. -/
def get (entries : List (Text × Payload)) (key : Text) : Payload := (entries.lookup key).getD null

end Payload

open Payload

/-- The keys under which timestamps are found directly. -/
def timestampKeys : List Text :=
  ["timestamp".toList, "timestamps".toList, "time_stamp".toList, "time_stamps".toList]

/-- The keys whose values are searched for timestamps. -/
def nestedKeys : List Text :=
  ["value".toList, "result".toList, "results".toList, "preds".toList, "sentence".toList,
    "raw".toList, "raw_result".toList]

/-- The list of a pair whose second value is a list. -/
def pairedList : List Payload → Option (List Payload)
  | [_, .list second] => some second
  | _ => none

mutual

/-- `extract_timestamp_payload`. -/
def extractTimestampPayload : Payload → Payload
  | .dict entries =>
    match timestampKeys.find? fun key => (get entries key).truth with
    | some key => get entries key
    | none => firstTrue (nestedKeys.map (get (extractFromEntries entries)))
  | .tuple items =>
    match pairedList items with
    | some second => .list second
    | none => firstTrue (extractFromItems items)
  | .list items =>
    if !items.isEmpty && items.all looksLikeTimestampItem then .list items
    else firstTrue (extractFromItems items)
  | _ => .null

/-- The timestamp payload of each item. -/
def extractFromItems : List Payload → List Payload
  | [] => []
  | item :: rest => extractTimestampPayload item :: extractFromItems rest

/-- The timestamp payload of each value of a dictionary. -/
def extractFromEntries : List (Text × Payload) → List (Text × Payload)
  | [] => []
  | (key, value) :: rest => (key, extractTimestampPayload value) :: extractFromEntries rest

end

section Extraction

variable (str : Payload → Text)

/-- `str(payload or "")`. -/
def Payload.shown : Payload → Text
  | .text t => t
  | payload => if payload.truth then str payload else []

/-- The keys under which text is found. -/
def textKeys : List Text :=
  ["text".toList, "preds".toList, "sentence".toList, "value".toList]

/-- The text of a pair of a text and a list. -/
def pairedText : List Payload → Option Text
  | [.text t, .list _] => some t
  | _ => none

mutual

/-- `extract_online_text`. -/
def extractOnlineText : Payload → Text
  | .null => []
  | .text t => cleanOnlineAsrText t
  | .bytes _ decoded => cleanOnlineAsrText decoded
  | .number _ => []
  | .tuple items =>
    match pairedText items with
    | some t => cleanOnlineAsrText t
    | none => cleanOnlineAsrText ((textsOfItems items).filter (· ≠ [])).flatten
  | .dict entries =>
    ((textKeys.map fun key => ((textsOfEntries entries).lookup key).getD []).find?
      (· ≠ [])).getD []
  | .list items => cleanOnlineAsrText ((textsOfItems items).filter (· ≠ [])).flatten
  | .other name => cleanOnlineAsrText (str (.other name))

/-- The text of each item. -/
def textsOfItems : List Payload → List Text
  | [] => []
  | item :: rest => extractOnlineText item :: textsOfItems rest

/-- The text of each value of a dictionary. -/
def textsOfEntries : List (Text × Payload) → List (Text × Text)
  | [] => []
  | (key, value) :: rest => (key, extractOnlineText value) :: textsOfEntries rest

end

end Extraction

/-- `compact_token_text` of a string. -/
def compactTokenText (text : Text) : Text := strip (text.filter (· ≠ ' '))

/-- `text_tokens`. -/
def textTokens (text : Text) : List Text :=
  ((text.filter (· ≠ ' ')).filter fun c => strip [c] ≠ []).map ([·])

end FunasrApi.Online
