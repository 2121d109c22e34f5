import FunasrApi.Core.PythonText

/-!
# JSON values

What reading a JSON text gives in Python. An integer and a float are different values,
`True` and `False` are integers, too, and a dictionary is the list of its entries.
-/

namespace FunasrApi.Core

/-- A value of a JSON text. -/
inductive Json
  | null
  | bool (b : Bool)
  | int (n : ℤ)
  /-- A float, by its `repr`. -/
  | float (shown : Text)
  | str (t : Text)
  | list (items : List Json)
  | dict (entries : List (Text × Json))

namespace Json

/-- `bool(value)`. -/
def truth : Json → Bool
  | null => false
  | bool b => b
  | int n => n ≠ 0
  | float shown => shown ≠ "0.0".toList ∧ shown ≠ "-0.0".toList
  | str t => !t.isEmpty
  | list items => !items.isEmpty
  | dict entries => !entries.isEmpty

/-- `isinstance(value, bool)`. -/
def isBool : Json → Bool
  | bool _ => true
  | _ => false

/-- The integer that a value is an instance of; `True` and `False` are `1` and `0`. -/
def int? : Json → Option ℤ
  | bool b => some b.toNat
  | int n => some n
  | _ => none

/-- `len(value)`; `none` when it raises. -/
def len : Json → Option ℕ
  | str t => some t.length
  | list items => some items.length
  | dict entries => some entries.length
  | _ => none

/-- What a `for` loop over a value runs through; `none` when it raises. -/
def iterated : Json → Option (List Json)
  | str t => some (t.map fun c => str [c])
  | list items => some items
  | dict entries => some (entries.map fun entry => str entry.1)
  | _ => none

/-- `value or other`. -/
def orElse (value other : Json) : Json := if value.truth then value else other

/-- The keys of a dictionary. -/
def keys (entries : List (Text × Json)) : List Text := entries.map Prod.fst

/-- `entries.get(key)`. -/
def get (entries : List (Text × Json)) (key : Text) : Json := (entries.lookup key).getD null

/-- A key of a dictionary is found. -/
theorem lookup_of_mem_keys {entries : List (Text × Json)} {key : Text} (h : key ∈ keys entries) :
    ∃ value, entries.lookup key = some value := by
  obtain ⟨entry, hentry, rfl⟩ := List.mem_map.mp h
  refine Option.ne_none_iff_exists'.mp fun hnone => ?_
  exact absurd (List.lookup_eq_none_iff.mp hnone entry hentry) (by simp)

end Json

end FunasrApi.Core
