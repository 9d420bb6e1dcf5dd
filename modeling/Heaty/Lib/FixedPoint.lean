import Mathlib.Tactic

/-! Exact values as scaled integers: limits, and the conversion of a value to an
integer, which drops its fraction. -/

namespace FixedPoint

section Clamp

variable {α : Type*} [LinearOrder α] {lo hi x y c : α}

/-- A value brought between two limits. -/
def clamp (lo hi x : α) : α := min (max x lo) hi

theorem clamp_le (lo hi x : α) : clamp lo hi x ≤ hi := min_le_right _ _

theorem le_clamp (h : lo ≤ hi) (x : α) : lo ≤ clamp lo hi x := le_min (le_max_right _ _) h

theorem clamp_mono (lo hi : α) : Monotone (clamp lo hi) := fun _ _ h =>
  min_le_min_right _ (max_le_max_right _ h)

/-- A bound between the limits tells a value from its clamp no better than the value. -/
theorem clamp_lt_iff (hlo : lo < c) (hhi : c ≤ hi) : clamp lo hi x < c ↔ x < c := by
  simp [clamp, hlo, hhi.not_gt]

end Clamp

variable {K : Type*} [Field K] [LinearOrder K] [IsStrictOrderedRing K] [FloorRing K] {x y s : K}
  {n lo hi : ℤ}

/-- The integer part of a value, toward zero. -/
def trunc (x : K) : ℤ := if 0 ≤ x then ⌊x⌋ else ⌈x⌉

omit [IsStrictOrderedRing K] in
theorem trunc_of_nonneg (h : 0 ≤ x) : trunc x = ⌊x⌋ := if_pos h

omit [IsStrictOrderedRing K] in
theorem trunc_of_neg (h : x < 0) : trunc x = ⌈x⌉ := if_neg h.not_ge

@[simp] theorem trunc_intCast (n : ℤ) : trunc (n : K) = n := by simp [trunc]

omit [IsStrictOrderedRing K] in
theorem trunc_mono : Monotone (trunc : K → ℤ) := by
  intro x y h
  rcases le_or_gt 0 x with hx | hx
  · rw [trunc_of_nonneg hx, trunc_of_nonneg (hx.trans h)]
    exact Int.floor_mono h
  · rw [trunc_of_neg hx]
    rcases le_or_gt 0 y with hy | hy
    · rw [trunc_of_nonneg hy]
      exact (Int.ceil_nonpos.2 hx.le).trans (Int.floor_nonneg.2 hy)
    · rw [trunc_of_neg hy]
      exact Int.ceil_mono h

theorem abs_trunc_sub_lt_one (x : K) : |(trunc x : K) - x| < 1 := by
  rw [abs_lt]
  rcases le_or_gt 0 x with hx | hx
  · have hle := Int.floor_le x
    have hlt := Int.lt_floor_add_one x
    rw [trunc_of_nonneg hx]
    constructor <;> linarith
  · have hle := Int.le_ceil x
    have hlt := Int.ceil_lt_add_one x
    rw [trunc_of_neg hx]
    constructor <;> linarith

/-- Integer limits of a value are limits of its integer part. -/
theorem le_trunc (h : (lo : K) ≤ x) : lo ≤ trunc x := by
  simpa using trunc_mono h

theorem trunc_le (h : x ≤ (hi : K)) : trunc x ≤ hi := by
  simpa using trunc_mono h

/-- Below a positive integer lie the values whose integer part lies below it. -/
theorem trunc_lt_iff (hn : 0 < n) : trunc x < n ↔ x < n := by
  rcases le_or_gt 0 x with hx | hx
  · rw [trunc_of_nonneg hx]
    exact Int.floor_lt
  · have hpos : (0 : K) < n := by exact_mod_cast hn
    rw [trunc_of_neg hx]
    exact iff_of_true ((Int.ceil_nonpos.2 hx.le).trans_lt hn) (hx.trans hpos)

/-- A value as an integer number of parts, `s` of them for each unit, and back. -/
def toFixed (s x : K) : ℤ := trunc (s * x)

def ofFixed (s : K) (n : ℤ) : K := n / s

theorem toFixed_mono (hs : 0 < s) : Monotone (toFixed s) := fun _ _ h =>
  trunc_mono (mul_le_mul_of_nonneg_left h hs.le)

/-- What is lost is less than one part. -/
theorem abs_ofFixed_toFixed_sub_lt (hs : 0 < s) (x : K) :
    |ofFixed s (toFixed s x) - x| < 1 / s := by
  have hlost := abs_trunc_sub_lt_one (s * x)
  have hscaled : ofFixed s (toFixed s x) - x = ((trunc (s * x) : K) - s * x) / s := by
    unfold ofFixed toFixed
    field_simp
  rw [hscaled, abs_div, abs_of_pos hs]
  exact div_lt_div_of_pos_right hlost hs

end FixedPoint
