import Mathlib.Data.List.Basic

/-!
# Newest-first histories

A history variable lists what happened, the newest entry first, so that one more
event is one more `cons`. The predicate `AtEach` states a law of every entry
against the history that preceded it.
-/

namespace FunasrApi.Core

variable {ε : Type*}

/-- Every entry satisfies `P` against the entries before it. -/
def AtEach (P : ε → List ε → Prop) : List ε → Prop
  | [] => True
  | e :: past => P e past ∧ AtEach P past

instance AtEach.decidable (P : ε → List ε → Prop) [∀ e past, Decidable (P e past)] :
    (h : List ε) → Decidable (AtEach P h)
  | [] => .isTrue trivial
  | e :: past =>
    have := AtEach.decidable P past
    inferInstanceAs (Decidable (P e past ∧ AtEach P past))

@[simp] theorem atEach_nil (P : ε → List ε → Prop) : AtEach P [] := trivial

@[simp] theorem atEach_cons (P : ε → List ε → Prop) (e : ε) (past : List ε) :
    AtEach P (e :: past) ↔ P e past ∧ AtEach P past := Iff.rfl

/-- The law of each entry, read at any position of the history. -/
theorem AtEach.at {P : ε → List ε → Prop} {h : List ε} (ha : AtEach P h) {later past : List ε}
    {e : ε} (he : h = later ++ e :: past) : P e past := by
  subst he
  induction later with
  | nil => exact ha.1
  | cons _ later ih => exact ih ha.2

end FunasrApi.Core
