import Mathlib.Data.Rat.Floor

/-!
# Cutting and rounding numbers to integers

`int()` cuts the fraction of a number off, towards zero, and `round()` takes the
nearest integer, the even one of two. The exact quotient stands for the floating
point one: milliseconds and samples of a session are far below the magnitude at
which the two are cut to different integers.
-/

namespace FunasrApi.Core

/-- `int(q)`: the fraction is cut off towards zero. -/
def truncate (q : ℚ) : ℤ := if 0 ≤ q then ⌊q⌋ else ⌈q⌉

@[simp] theorem truncate_intCast (n : ℤ) : truncate n = n := by
  unfold truncate
  split
  · exact Int.floor_intCast n
  · exact Int.ceil_intCast n

/-- Cutting keeps the order. -/
theorem truncate_mono {p q : ℚ} (h : p ≤ q) : truncate p ≤ truncate q := by
  unfold truncate
  split <;> split
  · exact Int.floor_le_floor h
  · next hp hq => exact absurd (hp.trans h) hq
  · next hp hq =>
    have hp0 : ⌈p⌉ ≤ 0 := Int.ceil_le.mpr (by push_cast; linarith)
    have hq0 : 0 ≤ ⌊q⌋ := Int.floor_nonneg.mpr hq
    omega
  · exact Int.ceil_le_ceil h

/-- An integer bound survives the cut. -/
theorem le_truncate_of_le {q : ℚ} {n : ℤ} (h : (n : ℚ) ≤ q) : n ≤ truncate q := by
  have hle := truncate_mono h
  rwa [truncate_intCast] at hle

/-- The fraction that is cut off is less than one. -/
theorem truncate_of_nonneg {q : ℚ} (h : 0 ≤ q) : (truncate q : ℚ) ≤ q ∧ q < truncate q + 1 := by
  rw [truncate, if_pos h]
  exact ⟨Int.floor_le q, Int.lt_floor_add_one q⟩

/-- `round(q)`: the nearest integer, and half way between two of them the even one. -/
def roundHalfEven (q : ℚ) : ℤ :=
  if q - ⌊q⌋ < 1 / 2 then ⌊q⌋
  else if 1 / 2 < q - ⌊q⌋ then ⌊q⌋ + 1
  else if ⌊q⌋ % 2 = 0 then ⌊q⌋ else ⌊q⌋ + 1

/-- The rounded number is the floor or the one after it. -/
theorem floor_le_roundHalfEven (q : ℚ) : ⌊q⌋ ≤ roundHalfEven q ∧ roundHalfEven q ≤ ⌊q⌋ + 1 := by
  unfold roundHalfEven
  split_ifs <;> omega

/-- Rounding keeps the order. -/
theorem roundHalfEven_mono {p q : ℚ} (h : p ≤ q) : roundHalfEven p ≤ roundHalfEven q := by
  rcases (Int.floor_le_floor h).lt_or_eq with hlt | heq
  · exact (floor_le_roundHalfEven p).2.trans (Int.le_trans hlt (floor_le_roundHalfEven q).1)
  · unfold roundHalfEven
    rw [heq]
    -- with one floor, only the fractions decide
    split_ifs with hp hq hq' _ hp' hq hq' heven hq hq' <;> first | omega | linarith

end FunasrApi.Core
