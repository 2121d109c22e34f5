import Mathlib.Data.List.Nodup
import Mathlib.Tactic.TypeStar

/-!
# Rows under keys

A list of rows that are read and changed by their keys. Reading commutes with a
translation of the rows that keeps the keys.
-/

namespace FunasrApi.Core.Keyed

variable {κ α β : Type*} [DecidableEq κ] {key : α → κ} {k : κ} {l : List α}

/-- The row under a key. -/
def lookup (key : α → κ) (k : κ) (l : List α) : Option α := l.find? fun a => decide (key a = k)

/-- Change the rows under a key. -/
def change (key : α → κ) (k : κ) (f : α → α) (l : List α) : List α :=
  l.map fun a => if key a = k then f a else a

theorem lookup_eq_none_iff : lookup key k l = none ↔ k ∉ l.map key := by
  simp [lookup]

/-- What is found is a row with the key. -/
theorem lookup_some {a : α} (h : lookup key k l = some a) : a ∈ l ∧ key a = k :=
  ⟨List.mem_of_find?_eq_some h, by simpa using List.find?_some h⟩

/-- Reading commutes with a translation that keeps the keys. -/
theorem lookup_map {key' : β → κ} {g : α → β} (hkey : ∀ a, key' (g a) = key a) :
    lookup key' k (l.map g) = (lookup key k l).map g := by
  unfold lookup
  rw [List.find?_map]
  simp only [Function.comp_def, hkey]

/-- A change that keeps the keys is found under its key. -/
theorem lookup_change {f : α → α} (hkey : ∀ a, key (f a) = key a) :
    lookup key k (change key k f l) = (lookup key k l).map f := by
  induction l with
  | nil => rfl
  | cons a l ih =>
    unfold lookup change at ih ⊢
    rw [List.map_cons]
    by_cases ha : key a = k
    · rw [if_pos ha, List.find?_cons_of_pos (by simpa [hkey] using ha),
        List.find?_cons_of_pos (by simpa using ha), Option.map_some]
    · rw [if_neg ha, List.find?_cons_of_neg (by simpa using ha),
        List.find?_cons_of_neg (by simpa using ha), ih]

/-- A change under another key is not seen. -/
theorem lookup_change_of_ne {k' : κ} (hne : k' ≠ k) {f : α → α} (hkey : ∀ a, key (f a) = key a) :
    lookup key k' (change key k f l) = lookup key k' l := by
  induction l with
  | nil => rfl
  | cons a l ih =>
    unfold lookup change at ih ⊢
    rw [List.map_cons, List.find?_cons, List.find?_cons, ih]
    by_cases ha : key a = k
    · rw [if_pos ha, hkey, ha]
      simp [hne.symm]
    · rw [if_neg ha]

/-- Nor is the removal of the rows under another key. -/
theorem lookup_filter_of_ne {k' : κ} (hne : k' ≠ k) :
    lookup key k' (l.filter fun a => key a ≠ k) = lookup key k' l := by
  induction l with
  | nil => rfl
  | cons a l ih =>
    unfold lookup at ih ⊢
    by_cases ha : key a = k
    · rw [List.filter_cons_of_neg (by simpa using ha), ih, List.find?_cons_of_neg]
      simpa [ha] using hne.symm
    · rw [List.filter_cons_of_pos (by simpa using ha), List.find?_cons, List.find?_cons, ih]

end FunasrApi.Core.Keyed
