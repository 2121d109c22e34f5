import FunasrApi.Core.PythonText
import Mathlib.Data.List.Infix

/-!
# Payloads in the log

A payload is masked and then written as JSON. Masking goes into mappings, lists and
tuples; the encoder goes into objects, too, through its hook. A payload that cannot be
encoded is written as its `repr`, masked in the same way.
-/

namespace FunasrApi.Logging

open FunasrApi.Core Text

/-- `None`, a number or a text. -/
inductive Scalar
  | none
  | bool (b : Bool)
  | int (n : ℤ)
  /-- A float, by its `repr`. -/
  | float (shown : Text)
  | str (t : Text)
  deriving DecidableEq

/-- A key of a mapping. -/
inductive Key
  | scalar (s : Scalar)
  /-- A key of another class, such as a tuple, by its `str` and its `repr`. -/
  | other (str repr : Text)
  deriving DecidableEq

/-- A value that is logged. -/
inductive Payload
  | scalar (s : Scalar)
  /-- A value of another class that exposes nothing, by its `repr`. -/
  | other (repr : Text)
  | dict (entries : List (Key × Payload))
  | list (items : List Payload)
  | tuple (items : List Payload)
  /-- An object of a class: the mapping that its `to_dict()` gives, or else its `__dict__`. -/
  | object (cls : Text) (exposed : List (Key × Payload))

/-- The entries of a mapping. -/
abbrev Entries := List (Key × Payload)

/-- What masking and logging need of Python: `str.lower` and two kinds of `repr`. -/
structure Runtime where
  lower : Text → Text
  /-- `repr` of a text. -/
  repr : Text → Text
  /-- `repr` of an object, which is its class's own. -/
  objectRepr : Text → Entries → Text

namespace Scalar

/-- `str(value)`. -/
def toText : Scalar → Text
  | none => "None".toList
  | bool b => if b then "True".toList else "False".toList
  | int n => (toString n).toList
  | float shown => shown
  | .str t => t

/-- `repr(value)`. -/
def repr (runtime : Runtime) : Scalar → Text
  | .str t => runtime.repr t
  | s => s.toText

/-- What a character of a text is in JSON. -/
def escape (c : Char) : Text :=
  if c = '"' then "\\\"".toList
  else if c = '\\' then "\\\\".toList
  else if c = '\n' then "\\n".toList
  else if c = '\r' then "\\r".toList
  else if c = '\t' then "\\t".toList
  else if c = '\x08' then "\\b".toList
  else if c = '\x0c' then "\\f".toList
  else if c.toNat < 32 then
    "\\u00".toList ++ [Nat.digitChar (c.toNat / 16), Nat.digitChar (c.toNat % 16)]
  else [c]

/-- A text in JSON, with `ensure_ascii=False`. -/
def jsonText (t : Text) : Text := '"' :: t.flatMap escape ++ ['"']

/-- A value in JSON that is not a text, or a key before it is quoted. -/
def jsonWord : Scalar → Text
  | none => "null".toList
  | bool b => if b then "true".toList else "false".toList
  | int n => (toString n).toList
  | float shown =>
    if shown = "nan".toList then "NaN".toList
    else if shown = "inf".toList then "Infinity".toList
    else if shown = "-inf".toList then "-Infinity".toList
    else shown
  | .str t => t

/-- A value in JSON. -/
def json : Scalar → Text
  | .str t => jsonText t
  | s => s.jsonWord

end Scalar

namespace Key

/-- `str(key)`. -/
def toText : Key → Text
  | scalar s => s.toText
  | other str _ => str

/-- `repr(key)`. -/
def repr (runtime : Runtime) : Key → Text
  | scalar s => s.repr runtime
  | other _ repr => repr

/-- A key in JSON; `none` when the encoder raises. -/
def json : Key → Option Text
  | scalar s => some (Scalar.jsonText s.jsonWord)
  | other _ _ => none

end Key

/-- `", ".join(parts)`. -/
def commaJoin (parts : List Text) : Text := ", ".toList.intercalate parts

/-- Parts between brackets. -/
def enclosed (left right : Char) (parts : List Text) : Text := left :: commaJoin parts ++ [right]

/-- The `repr` of a tuple, with its comma when there is one item. -/
def tupleText (parts : List Text) : Text :=
  '(' :: commaJoin parts ++ (if parts.length = 1 then [','] else []) ++ [')']

/-- `SENSITIVE_KEY_PARTS`. -/
def sensitiveKeyParts : List Text :=
  ["access_key", "authorization", "credential", "password", "secret", "token"].map String.toList

section Logging

variable (runtime : Runtime)

/-- `is_sensitive_key`. -/
def isSensitiveKey (key : Key) : Bool :=
  sensitiveKeyParts.any fun part => decide (part <:+: runtime.lower key.toText)

/-- What stands for a masked value. -/
def stars : Payload := .scalar (.str "***".toList)

mutual

/-- `mask_sensitive`. -/
def maskSensitive : Payload → Payload
  | .dict entries => .dict (maskEntries entries)
  | .list items => .list (maskItems items)
  | .tuple items => .tuple (maskItems items)
  | value => value

/-- The items of a list or a tuple, masked. -/
def maskItems : List Payload → List Payload
  | [] => []
  | item :: items => maskSensitive item :: maskItems items

/-- The entries of a mapping, masked. -/
def maskEntries : Entries → Entries
  | [] => []
  | (key, value) :: entries =>
    (key, if isSensitiveKey runtime key then stars else maskSensitive value) :: maskEntries entries

end

/-- `_json_default`: what the encoder writes for a value that it does not know. -/
def jsonDefault : Payload → Payload
  | .object _ exposed => .dict exposed
  | .other repr => .scalar (.str repr)
  | value => value

mutual

/-- `json.dumps` with the hook `_json_default`; `none` when it raises. -/
def dumps : Payload → Option Text
  | .scalar s => some s.json
  | .other repr => some (Scalar.jsonText repr)
  | .dict entries => (dumpsEntries entries).map (enclosed '{' '}')
  | .list items => (dumpsItems items).map (enclosed '[' ']')
  | .tuple items => (dumpsItems items).map (enclosed '[' ']')
  | .object _ exposed => (dumpsEntries exposed).map (enclosed '{' '}')

/-- The items of a list or a tuple in JSON. -/
def dumpsItems : List Payload → Option (List Text)
  | [] => some []
  | item :: items => do return (← dumps item) :: (← dumpsItems items)

/-- The entries of a mapping in JSON. -/
def dumpsEntries : Entries → Option (List Text)
  | [] => some []
  | (key, value) :: entries => do
    return ((← key.json) ++ ": ".toList ++ (← dumps value)) :: (← dumpsEntries entries)

end

mutual

/-- `repr(payload)`. -/
def shown : Payload → Text
  | .scalar s => s.repr runtime
  | .other repr => repr
  | .dict entries => enclosed '{' '}' (shownEntries entries)
  | .list items => enclosed '[' ']' (shownItems items)
  | .tuple items => tupleText (shownItems items)
  | .object cls exposed => runtime.objectRepr cls exposed

/-- The items of a list or a tuple, shown. -/
def shownItems : List Payload → List Text
  | [] => []
  | item :: items => shown item :: shownItems items

/-- The entries of a mapping, shown. -/
def shownEntries : Entries → List Text
  | [] => []
  | (key, value) :: entries =>
    (key.repr runtime ++ ": ".toList ++ shown value) :: shownEntries entries

end

/-- `json_for_log`. -/
def jsonForLog (payload : Payload) : Text :=
  (dumps (maskSensitive runtime payload)).getD (shown runtime (maskSensitive runtime payload))

end Logging

/-- The encoder writes for an object what the hook gives for it. -/
theorem dumps_jsonDefault (payload : Payload) : dumps (jsonDefault payload) = dumps payload := by
  cases payload <;> rfl

/-- A part stands between what comes of the others. -/
theorem commaJoin_around (before after : List Text) :
    ∃ u v, ∀ part, commaJoin (before ++ part :: after) = u ++ part ++ v := by
  induction before with
  | nil =>
    cases after with
    | nil => exact ⟨[], [], fun part => by simp [commaJoin]⟩
    | cons second rest =>
      refine ⟨[], ", ".toList ++ commaJoin (second :: rest), fun part => ?_⟩
      simp [commaJoin, List.intercalate_cons_of_ne_nil]
  | cons first rest ih =>
    obtain ⟨u, v, h⟩ := ih
    refine ⟨first ++ ", ".toList ++ u, v, fun part => ?_⟩
    have hrest := h part
    unfold commaJoin at hrest ⊢
    rw [List.cons_append, List.intercalate_cons_of_ne_nil (by simp), hrest]
    simp [List.append_assoc]

/-- Joined texts with one part different are different. -/
theorem commaJoin_inj {before after : List Text} {part part' : Text}
    (h : commaJoin (before ++ part :: after) = commaJoin (before ++ part' :: after)) :
    part = part' := by
  obtain ⟨u, v, hjoin⟩ := commaJoin_around before after
  rw [hjoin, hjoin, List.append_left_inj, List.append_right_inj] at h
  exact h

/-- The joined text has a comma and a space between parts. -/
theorem length_commaJoin (parts : List Text) :
    (commaJoin parts).length = parts.flatten.length + 2 * (parts.length - 1) := by
  induction parts with
  | nil => rfl
  | cons first rest ih =>
    cases rest with
    | nil => simp [commaJoin]
    | cons second rest =>
      unfold commaJoin at ih ⊢
      rw [List.intercalate_cons_of_ne_nil (List.cons_ne_nil second rest), List.length_append,
        List.length_append, ih]
      simp
      omega

end FunasrApi.Logging
