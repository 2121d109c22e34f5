import FunasrApi.Core.PurePath

/-!
# Reading the configuration

Values come from a YAML mapping, whose sections may be missing or of any shape, and from
environment variables, which go first. Looking up a dotted key with the section's own
value as the default is looking it up in the section.
-/

namespace FunasrApi.Config

open FunasrApi.Core Text

/-- A value that `yaml.safe_load` gives. A key that is not a text is `none`: nobody asks for it. -/
inductive Yaml
  | null
  | bool (b : Bool)
  | int (n : ℤ)
  /-- A float, by its `repr`. -/
  | float (shown : Text)
  | str (t : Text)
  | list (items : List Yaml)
  | dict (entries : List (Option Text × Yaml))
  /-- A value of another class, such as a date, by its truth and its `str`. -/
  | other (truth : Bool) (shown : Text)

/-- The entries of a mapping. -/
abbrev Section := List (Option Text × Yaml)

/-- The environment variables that are set. -/
abbrev Environ := Text → Option Text

namespace Yaml

/-- `bool(value)`. -/
def truth : Yaml → Bool
  | null => false
  | bool b => b
  | int n => n ≠ 0
  | float shown => shown ≠ "0.0".toList ∧ shown ≠ "-0.0".toList
  | str t => !t.isEmpty
  | list items => !items.isEmpty
  | dict entries => !entries.isEmpty
  | other truth _ => truth

/-- `value if isinstance(value, Mapping) else {}`. -/
def mapping : Yaml → Section
  | dict entries => entries
  | _ => []

end Yaml

/-- `section.get(key, default)`: a key without a value still has the value `None`. -/
def Section.get (entries : Section) (key : Text) (default : Yaml) : Yaml :=
  (entries.lookup (some key)).getD default

/-- `key in section`. -/
def Section.has (entries : Section) (key : Text) : Bool := (entries.lookup (some key)).isSome

/-- What a configuration needs of Python: `str` and `repr`, `str.lower`, `int` and `quote_plus`. -/
structure Runtime where
  /-- `str` of a value that is not a text. -/
  str : Yaml → Text
  /-- `repr` of a text. -/
  repr : Text → Text
  lower : Text → Text
  /-- `int(value)`; `none` when it raises. -/
  int : Yaml → Option ℤ
  quotePlus : Text → Text

namespace Runtime

variable (runtime : Runtime)

/-- `str(value)`. -/
def shown : Yaml → Text
  | .str t => t
  | value => runtime.str value

/-- `str(value or fallback)`. -/
def textOr (value : Yaml) (fallback : Text) : Text :=
  if value.truth then runtime.shown value else fallback

/-- Nothing visible is left of `str(value or "")`. -/
def Blank (value : Yaml) : Prop := strip (runtime.textOr value []) = []

instance (value : Yaml) : Decidable (runtime.Blank value) := inferInstanceAs (Decidable (_ = _))

end Runtime

/-- The loop of `ConfigLoader.get` over the parts of the key. -/
def getParts (default : Yaml) : Yaml → List Text → Yaml
  | value, [] => value
  | .dict entries, part :: parts =>
    match Section.get entries part .null with
    | .null => default
    | value => getParts default value parts
  | _, _ :: _ => default

/-- `TypedConfigBuilder._section`. -/
def sectionAt : Yaml → List Text → Section
  | value, [] => value.mapping
  | .dict entries, part :: parts => sectionAt (Section.get entries part .null) parts
  | _, _ :: _ => []

section Loader

variable (config : Section) (environ : Environ)

/-- `ConfigLoader.get`. -/
def get (key : Text) (default : Yaml) : Yaml := getParts default (.dict config) (split '.' key)

/-- `env_or_value`. -/
def envOrValue (envVar : Text) (value : Yaml) : Yaml :=
  match environ envVar with
  | some envValue => .str envValue
  | none => value

/-- `ConfigLoader.get_env` with a variable. -/
def getEnv (key envVar : Text) (default : Yaml) : Yaml :=
  envOrValue environ envVar (get config key default)

end Loader

/-- A key is looked up through the sections as in the last one. -/
theorem getParts_sectionAt (value : Yaml) (parts : List Text) (key : Text) (fallback : Yaml) :
    getParts (Section.get (sectionAt value parts) key fallback) value (parts ++ [key]) =
      Section.get (sectionAt value parts) key fallback := by
  induction parts generalizing value with
  | nil =>
    cases value with
    | dict entries =>
      rw [List.nil_append, getParts, sectionAt, Yaml.mapping, Section.get, Section.get]
      cases entries.lookup (some key) with
      | none => rfl
      | some found => cases found <;> rfl
    | _ => rfl
  | cons part parts ih =>
    cases value with
    | dict entries =>
      rw [List.cons_append, getParts, sectionAt]
      cases hnext : Section.get entries part .null with
      | null => rfl
      | _ => exact ih _
    | _ => rfl

/-- The default of a key being the section's own value, the environment goes before the section
and nothing else is looked at. -/
theorem getEnv_section {config : Section} {parts : List Text} {key dotted : Text}
    (hdotted : split '.' dotted = parts ++ [key]) (environ : Environ) (envVar : Text)
    (fallback : Yaml) :
    getEnv config environ dotted envVar
        (Section.get (sectionAt (.dict config) parts) key fallback) =
      envOrValue environ envVar (Section.get (sectionAt (.dict config) parts) key fallback) := by
  rw [getEnv, get, hdotted, getParts_sectionAt]

end FunasrApi.Config
