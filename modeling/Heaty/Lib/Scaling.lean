import Mathlib.Data.Int.Log
import Mathlib.Tactic

/-! Numbers that are multiplied by a factor until they are large enough, and then rounded to
an integer: what is lost by it, and which integers come out. -/

namespace Scaling

variable {K : Type*} [Field K] [LinearOrder K] [IsStrictOrderedRing K] [FloorRing K]
variable {x b bound : K} {n : ℤ}

/-! ## Rounding -/

/-- The nearest integer, and the one farther from zero of two. -/
def roundAway (x : K) : ℤ := if x < 0 then -round (-x) else round x

theorem roundAway_eq (x : K) : roundAway x = if x < 0 then ⌈x - 1 / 2⌉ else ⌊x + 1 / 2⌋ := by
  rw [roundAway, round_eq, round_eq, ← Int.ceil_neg, neg_add, neg_neg, ← sub_eq_add_neg]

theorem abs_roundAway_sub_le (x : K) : |roundAway x - x| ≤ 1 / 2 := by
  rw [roundAway_eq, abs_le]
  split_ifs
  · have hlo := Int.le_ceil (x - 1 / 2)
    have hhi := Int.ceil_lt_add_one (x - 1 / 2)
    constructor <;> linarith
  · have hlo := Int.lt_floor_add_one (x + 1 / 2)
    have hhi := Int.floor_le (x + 1 / 2)
    constructor <;> linarith

@[simp] theorem roundAway_intCast (n : ℤ) : roundAway (n : K) = n := by
  rw [roundAway_eq]
  split_ifs
  · rw [Int.ceil_eq_iff]
    constructor <;> linarith
  · rw [Int.floor_eq_iff]
    constructor <;> linarith

/-- An integer that is not negative bounds the rounded number as it bounds a number below
the middle above it. -/
theorem roundAway_le_iff (hn : 0 ≤ n) : roundAway x ≤ n ↔ x < n + 1 / 2 := by
  have hn' : (0 : K) ≤ n := by exact_mod_cast hn
  rw [roundAway_eq]
  split_ifs with hneg
  · rw [Int.ceil_le]
    constructor <;> intro h <;> linarith
  · rw [← Int.lt_add_one_iff, Int.floor_lt]
    push_cast
    constructor <;> intro h <;> linarith

theorem neg_le_roundAway_iff (hn : 0 ≤ n) : -n ≤ roundAway x ↔ -(n + 1 / 2) < x := by
  have hn' : (0 : K) ≤ n := by exact_mod_cast hn
  rw [roundAway_eq]
  split_ifs with hneg
  · rw [← Int.sub_one_lt_iff, Int.lt_ceil]
    push_cast
    constructor <;> intro h <;> linarith
  · rw [Int.le_floor]
    push_cast
    constructor <;> intro h <;> linarith

/-- A number from the middle under an integer on is not rounded to less, by magnitude. -/
theorem le_abs_roundAway (h : n - 1 / 2 ≤ |x|) : n ≤ |roundAway x| := by
  by_contra hlt
  have hle : |roundAway x| ≤ n - 1 := by omega
  have hnonneg : 0 ≤ n - 1 := (abs_nonneg _).trans hle
  rw [abs_le] at hle
  have hhi := (roundAway_le_iff hnonneg).1 hle.2
  have hlo := (neg_le_roundAway_iff hnonneg).1 hle.1
  have hlt : |x| < n - 1 / 2 := by
    rw [abs_lt]
    push_cast at hhi hlo
    constructor <;> linarith
  exact absurd h hlt.not_ge

/-! ## The factor -/

/-- The number of multiplications after which a number is first large enough. -/
def FirstAbove (b bound x : K) (s : ℕ) : Prop := bound ≤ x * b ^ s ∧ ∀ t < s, x * b ^ t < bound

omit [FloorRing K] in
theorem exists_firstAbove [Archimedean K] (hb : 1 < b) (bound : K) (hx : 0 < x) :
    ∃ s, FirstAbove b bound x s := by
  have hlarge : ∃ s : ℕ, bound ≤ x * b ^ s := by
    obtain ⟨s, hs⟩ := pow_unbounded_of_one_lt (bound / x) hb
    exact ⟨s, ((div_lt_iff₀' hx).1 hs).le⟩
  classical
  exact ⟨Nat.find hlarge, Nat.find_spec hlarge, fun t ht => not_le.1 (Nat.find_min hlarge ht)⟩

omit [IsStrictOrderedRing K] [FloorRing K] in
theorem FirstAbove.le {s t : ℕ} (h : FirstAbove b bound x s) (ht : bound ≤ x * b ^ t) :
    s ≤ t := by
  by_contra hlt
  exact absurd ht (h.2 t (not_le.1 hlt)).not_ge

omit [FloorRing K] in
/-- The last multiplication does not take a number to the bound's own multiple. -/
theorem FirstAbove.lt_mul {s : ℕ} (h : FirstAbove b bound x s) (hb : 0 < b) (hs : 0 < s) :
    x * b ^ s < bound * b := by
  obtain ⟨t, rfl⟩ := Nat.exists_eq_add_of_lt hs
  rw [zero_add, pow_succ, ← mul_assoc]
  exact mul_lt_mul_of_pos_right (h.2 t (by omega)) hb

omit [IsStrictOrderedRing K] [FloorRing K] in
theorem FirstAbove.next {s : ℕ} (h : FirstAbove b bound x (s + 1)) :
    FirstAbove b bound (x * b) s := by
  refine ⟨by rw [mul_assoc, ← pow_succ']; exact h.1, fun t ht => ?_⟩
  rw [mul_assoc, ← pow_succ']
  exact h.2 (t + 1) (by omega)

/-- What a scaled and rounded number stands for is off by at most half a unit. -/
theorem abs_roundAway_div_sub_le (x : K) (s : ℕ) :
    |roundAway (x * 2 ^ s) / 2 ^ s - x| ≤ 1 / 2 ^ (s + 1) := by
  have hpos : (0 : K) < 2 ^ s := pow_pos two_pos s
  have hsplit : (roundAway (x * 2 ^ s) : K) / 2 ^ s - x =
      (roundAway (x * 2 ^ s) - x * 2 ^ s) / 2 ^ s := by
    rw [sub_div, mul_div_cancel_right₀ _ hpos.ne']
  rw [hsplit, abs_div, abs_of_pos hpos, pow_succ', ← div_div, div_le_div_iff_of_pos_right hpos]
  exact abs_roundAway_sub_le _

end Scaling
