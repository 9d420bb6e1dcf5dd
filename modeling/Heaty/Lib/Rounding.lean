import Mathlib.Data.Int.Log
import Mathlib.Tactic

/-! Rounding to the nearest, ties to even, and from it the numbers of a binary floating
point format. -/

namespace Rounding

variable {K : Type*} [Field K] [LinearOrder K] [IsStrictOrderedRing K] [FloorRing K]
variable {x y : K} {n e : ℤ}

/-- The nearest integer, and the even one of two. -/
def roundEven (x : K) : ℤ :=
  if 2 * Int.fract x < 1 then ⌊x⌋
  else if 1 < 2 * Int.fract x then ⌊x⌋ + 1
  else ⌊x⌋ + ⌊x⌋ % 2

/-- An integer bounds what a number is rounded to, when the number is below the middle
above it, or at that middle and the integer is even. -/
theorem roundEven_le_iff (x : K) (n : ℤ) :
    roundEven x ≤ n ↔ 2 * x < 2 * n + 1 ∨ (2 * x = 2 * n + 1 ∧ n % 2 = 0) := by
  have hfloor := Int.floor_add_fract x
  have hlo := Int.fract_nonneg x
  have hhi := Int.fract_lt_one x
  have hcast : ∀ m : ℤ, ⌊x⌋ ≤ m → (⌊x⌋ : K) ≤ m := fun m h => by exact_mod_cast h
  have habove : ∀ m : ℤ, m + 1 ≤ ⌊x⌋ → (m : K) + 1 ≤ ⌊x⌋ := fun m h => by exact_mod_cast h
  unfold roundEven
  split_ifs with hbelow hover
  · constructor
    · intro hle
      have hle := hcast n hle
      exact .inl (by linarith)
    · intro hx
      by_contra hgt
      have hgt := habove n (by omega)
      rcases hx with hx | ⟨hx, -⟩ <;> linarith
  · constructor
    · intro hle
      have hle := hcast (n - 1) (by omega)
      push_cast at hle
      exact .inl (by linarith)
    · intro hx
      by_contra hgt
      have hgt := hcast _ (le_refl _)
      have hle : (n : K) ≤ ⌊x⌋ := by exact_mod_cast (by omega : n ≤ ⌊x⌋)
      rcases hx with hx | ⟨hx, -⟩ <;> linarith
  · have hmiddle : 2 * x = 2 * ⌊x⌋ + 1 := by linarith
    rw [hmiddle]
    have hlt : (2 * (⌊x⌋ : K) + 1 < 2 * n + 1) ↔ ⌊x⌋ < n := by
      rw [add_lt_add_iff_right, mul_lt_mul_iff_right₀ two_pos, Int.cast_lt]
    have heq : (2 * (⌊x⌋ : K) + 1 = 2 * n + 1) ↔ ⌊x⌋ = n := by
      rw [add_left_inj, mul_right_inj' two_ne_zero, Int.cast_inj]
    rw [hlt, heq]
    omega

/-- The same from the other side. -/
theorem le_roundEven_iff (x : K) (n : ℤ) :
    n ≤ roundEven x ↔ 2 * n - 1 < 2 * x ∨ (2 * x = 2 * n - 1 ∧ n % 2 = 0) := by
  have h := roundEven_le_iff x (n - 1)
  have hle : n ≤ roundEven x ↔ ¬ roundEven x ≤ n - 1 := by omega
  have hodd : (n - 1) % 2 = 0 ↔ ¬ n % 2 = 0 := by omega
  have hmiddle : (2 * ((n - 1 : ℤ) : K) + 1) = 2 * n - 1 := by push_cast; ring
  rw [hle, h, hodd, hmiddle, not_or, not_lt, not_and, not_not]
  constructor
  · rintro ⟨hle, heven⟩
    rcases hle.lt_or_eq with hlt | heq
    · exact .inl hlt
    · exact .inr ⟨heq.symm, heven heq.symm⟩
  · rintro (hlt | ⟨heq, heven⟩)
    · exact ⟨hlt.le, fun heq => absurd heq hlt.ne'⟩
    · exact ⟨heq.ge, fun _ => heven⟩

theorem roundEven_le (h : x ≤ n) : roundEven x ≤ n :=
  (roundEven_le_iff x n).2 (.inl (by linarith))

theorem le_roundEven (h : (n : K) ≤ x) : n ≤ roundEven x :=
  (le_roundEven_iff x n).2 (.inl (by linarith))

@[simp] theorem roundEven_intCast (n : ℤ) : roundEven (n : K) = n :=
  le_antisymm (roundEven_le (le_refl _)) (le_roundEven (le_refl _))

@[simp] theorem roundEven_zero : roundEven (0 : K) = 0 := by
  simpa using roundEven_intCast (K := K) 0

/-- No integer is nearer than half a unit. -/
theorem abs_roundEven_sub_le (x : K) : |roundEven x - x| ≤ 1 / 2 := by
  have hhi : 2 * x ≤ 2 * roundEven x + 1 := by
    rcases (roundEven_le_iff x _).1 (le_refl _) with h | ⟨h, -⟩ <;> linarith
  have hlo : 2 * roundEven x - 1 ≤ 2 * x := by
    rcases (le_roundEven_iff x _).1 (le_refl _) with h | ⟨h, -⟩ <;> linarith
  rw [abs_le]
  constructor <;> linarith

/-- A binary floating point format: the bits of a significand, the exponent of the last
place of the smallest number, and the one that is already too large. -/
structure Format where
  precision : ℕ
  emin : ℤ
  emax : ℤ

/-- `float`. -/
def binary32 : Format := ⟨24, -149, 128⟩

/-- `double`. -/
def binary64 : Format := ⟨53, -1074, 1024⟩

namespace Format

variable {f : Format}

/-- The unit in the last place. -/
def ulp (f : Format) (x : K) : K := 2 ^ max (Int.log 2 |x| + 1 - f.precision) f.emin

/-- The nearest number of a format, as long as it is not too large. -/
def round (f : Format) (x : K) : K := roundEven (x / f.ulp x) * f.ulp x

theorem ulp_pos (f : Format) (x : K) : 0 < f.ulp x := zpow_pos two_pos _

@[simp] theorem round_zero (f : Format) : f.round (0 : K) = 0 := by simp [round]

theorem abs_round_sub_le (f : Format) (x : K) : |f.round x - x| ≤ f.ulp x / 2 := by
  have hpos := f.ulp_pos x
  have hx : f.round x - x = (roundEven (x / f.ulp x) - x / f.ulp x) * f.ulp x := by
    rw [round, sub_mul, div_mul_cancel₀ _ hpos.ne']
  have hle := mul_le_mul_of_nonneg_right (abs_roundEven_sub_le (x / f.ulp x)) hpos.le
  rw [one_div_mul_eq_div] at hle
  rwa [hx, abs_mul, abs_of_pos hpos]

/-- Above the smallest numbers, the error is small against the number itself. -/
theorem abs_round_sub_le_mul (hx : x ≠ 0) (hnormal : f.emin ≤ Int.log 2 |x| + 1 - f.precision) :
    |f.round x - x| ≤ |x| * 2 ^ (-f.precision : ℤ) := by
  have hlog := Int.zpow_log_le_self (b := 2) (by decide) (abs_pos.2 hx)
  calc |f.round x - x| ≤ f.ulp x / 2 := f.abs_round_sub_le x
    _ = 2 ^ Int.log 2 |x| * 2 ^ (-f.precision : ℤ) := by
        rw [ulp, max_eq_left hnormal, div_eq_mul_inv, ← zpow_sub_one₀ two_ne_zero,
          ← zpow_add₀ two_ne_zero]
        congr 1
        ring
    _ ≤ |x| * 2 ^ (-f.precision : ℤ) := by
        exact mul_le_mul_of_nonneg_right (by exact_mod_cast hlog) (zpow_pos two_pos _).le

/-- The logarithm of the numbers between two powers. -/
theorem log_eq (hlo : 2 ^ e ≤ x) (hhi : x < 2 ^ (e + 1)) : Int.log 2 |x| = e := by
  have hpos : 0 < x := (zpow_pos two_pos e).trans_le hlo
  rw [abs_of_pos hpos]
  apply le_antisymm
  · exact Int.lt_add_one_iff.1 ((Int.lt_zpow_iff_log_lt (b := 2) (by decide) hpos).1
      (by exact_mod_cast hhi))
  · exact (Int.zpow_le_iff_le_log (b := 2) (by decide) hpos).1 (by exact_mod_cast hlo)

/-- Between two powers of two, the unit is the same. -/
theorem ulp_eq (hlo : 2 ^ e ≤ x) (hhi : x < 2 ^ (e + 1)) (hnormal : f.emin ≤ e + 1 - f.precision) :
    f.ulp x = 2 ^ (e + 1 - f.precision : ℤ) := by
  rw [ulp, log_eq hlo hhi, max_eq_left hnormal]

theorem round_eq (hlo : 2 ^ e ≤ x) (hhi : x < 2 ^ (e + 1))
    (hnormal : f.emin ≤ e + 1 - f.precision) :
    f.round x = roundEven (x / 2 ^ (e + 1 - f.precision : ℤ)) * 2 ^ (e + 1 - f.precision : ℤ) := by
  rw [round, ulp_eq hlo hhi hnormal]

/-- Below a multiple of the unit, the rounded number stays below it. -/
theorem round_le_mul (h : x ≤ n * f.ulp x) : f.round x ≤ n * f.ulp x := by
  have hdiv := roundEven_le ((div_le_iff₀ (f.ulp_pos x)).2 h)
  exact mul_le_mul_of_nonneg_right (by exact_mod_cast hdiv) (f.ulp_pos x).le

theorem mul_le_round (h : n * f.ulp x ≤ x) : n * f.ulp x ≤ f.round x := by
  have hdiv := le_roundEven ((le_div_iff₀ (f.ulp_pos x)).2 h)
  exact mul_le_mul_of_nonneg_right (by exact_mod_cast hdiv) (f.ulp_pos x).le

omit [IsStrictOrderedRing K] in
/-- The powers of two from the unit on are multiples of it. -/
theorem exists_mul_ulp (f : Format) (x : K)
    (h : max (Int.log 2 |x| + 1 - f.precision) f.emin ≤ e) :
    ∃ n : ℤ, (n : K) * f.ulp x = 2 ^ e := by
  obtain ⟨k, hk⟩ := Int.eq_ofNat_of_zero_le (Int.sub_nonneg_of_le h)
  refine ⟨2 ^ k, ?_⟩
  rw [ulp, Int.cast_pow, Int.cast_ofNat, ← zpow_natCast, ← zpow_add₀ two_ne_zero]
  congr 1
  omega

/-- A number does not cross a power of two when it is rounded. -/
theorem zpow_le_round (hprecision : 1 ≤ f.precision) (hemin : f.emin ≤ e) (h : 2 ^ e ≤ x) :
    2 ^ e ≤ f.round x := by
  have hpos : 0 < x := (zpow_pos two_pos e).trans_le h
  have hlog : e ≤ Int.log 2 |x| := by
    rw [abs_of_pos hpos]
    exact (Int.zpow_le_iff_le_log (b := 2) (by decide) hpos).1 (by exact_mod_cast h)
  have hself : (2 : K) ^ Int.log 2 |x| ≤ x := by
    have hself := Int.zpow_log_le_self (b := 2) (by decide) (abs_pos.2 hpos.ne')
    rw [abs_of_pos hpos] at hself ⊢
    exact_mod_cast hself
  obtain ⟨n, hn⟩ := exists_mul_ulp f x (e := Int.log 2 |x|) (by omega)
  calc (2 : K) ^ e ≤ 2 ^ Int.log 2 |x| := zpow_le_zpow_right₀ one_le_two hlog
    _ = n * f.ulp x := hn.symm
    _ ≤ f.round x := mul_le_round (hn.trans_le hself)

theorem round_le_zpow (hprecision : 1 ≤ f.precision) (hemin : f.emin ≤ e) (hpos : 0 ≤ x)
    (h : x ≤ 2 ^ e) : f.round x ≤ 2 ^ e := by
  rcases hpos.eq_or_lt with rfl | hpos
  · rw [round_zero]
    exact (zpow_pos two_pos e).le
  have hlog : Int.log 2 |x| ≤ e := by
    have hmono := Int.log_mono_right (b := 2) hpos h
    rw [abs_of_pos hpos]
    exact hmono.trans (Int.log_zpow (R := K) (by decide) e).le
  obtain ⟨n, hn⟩ := exists_mul_ulp f x (e := e) (by omega)
  rw [← hn] at h ⊢
  exact round_le_mul h

/-- From the middle under an even multiple of the unit on, numbers are rounded to it or more. -/
theorem mul_le_round_of_middle (hprecision : 1 ≤ f.precision)
    (hnormal : f.emin ≤ e + 1 - f.precision) (heven : n % 2 = 0)
    (hlo : 2 ^ e ≤ (n - 1) * (2 : K) ^ (e + 1 - f.precision : ℤ))
    (hhi : n * (2 : K) ^ (e + 1 - f.precision : ℤ) ≤ 2 ^ (e + 1))
    (hmiddle : (n - 1 / 2) * (2 : K) ^ (e + 1 - f.precision : ℤ) ≤ x) :
    n * (2 : K) ^ (e + 1 - f.precision : ℤ) ≤ f.round x := by
  have hpos : (0 : K) < 2 ^ (e + 1 - f.precision : ℤ) := zpow_pos two_pos _
  have hdiv := (le_div_iff₀ hpos).2 hmiddle
  rcases lt_or_ge x (2 ^ (e + 1)) with htop | htop
  · have hunder : (n - 1) * 2 ^ (e + 1 - f.precision : ℤ) ≤ x := by
      rw [← le_div_iff₀ hpos]
      linarith
    have hle : n ≤ roundEven (x / 2 ^ (e + 1 - f.precision : ℤ)) := by
      rw [le_roundEven_iff]
      rcases hdiv.lt_or_eq with h | h
      · exact .inl (by linarith)
      · exact .inr ⟨by linarith, heven⟩
    rw [round_eq (hlo.trans hunder) htop hnormal]
    exact mul_le_mul_of_nonneg_right (by exact_mod_cast hle) hpos.le
  · exact hhi.trans (zpow_le_round hprecision (by omega) htop)

/-- Below it, they are rounded to the multiple before or less. -/
theorem round_le_mul_of_middle (hx : 0 ≤ x) (hprecision : 1 ≤ f.precision)
    (hnormal : f.emin ≤ e + 1 - f.precision)
    (hlo : 2 ^ e ≤ (n - 1) * (2 : K) ^ (e + 1 - f.precision : ℤ))
    (hhi : n * (2 : K) ^ (e + 1 - f.precision : ℤ) ≤ 2 ^ (e + 1))
    (hmiddle : x < (n - 1 / 2) * (2 : K) ^ (e + 1 - f.precision : ℤ)) :
    f.round x ≤ (n - 1) * (2 : K) ^ (e + 1 - f.precision : ℤ) := by
  have hpos : (0 : K) < 2 ^ (e + 1 - f.precision : ℤ) := zpow_pos two_pos _
  have hdiv := (div_lt_iff₀ hpos).2 hmiddle
  rcases lt_or_ge x (2 ^ e) with hbottom | hbottom
  · exact (round_le_zpow hprecision (by omega) hx hbottom.le).trans hlo
  · have hover : x < n * 2 ^ (e + 1 - f.precision : ℤ) := by
      rw [← div_lt_iff₀ hpos]
      linarith
    have hle : roundEven (x / 2 ^ (e + 1 - f.precision : ℤ)) ≤ n - 1 := by
      rw [roundEven_le_iff]
      push_cast
      exact .inl (by linarith)
    rw [round_eq hbottom (hover.trans_le hhi) hnormal]
    exact mul_le_mul_of_nonneg_right (by exact_mod_cast hle) hpos.le

/-- The middle decides whether a number is rounded to less than the multiple, or than any bound
above the one before. -/
theorem round_lt_iff {c : K} (hx : 0 ≤ x) (hprecision : 1 ≤ f.precision)
    (hnormal : f.emin ≤ e + 1 - f.precision) (heven : n % 2 = 0)
    (hlo : 2 ^ e ≤ (n - 1) * (2 : K) ^ (e + 1 - f.precision : ℤ))
    (hhi : n * (2 : K) ^ (e + 1 - f.precision : ℤ) ≤ 2 ^ (e + 1))
    (hbelow : (n - 1) * (2 : K) ^ (e + 1 - f.precision : ℤ) < c)
    (habove : c ≤ n * (2 : K) ^ (e + 1 - f.precision : ℤ)) :
    f.round x < c ↔ x < (n - 1 / 2) * 2 ^ (e + 1 - f.precision : ℤ) := by
  constructor
  · intro hlt
    by_contra hmiddle
    have hle := mul_le_round_of_middle hprecision hnormal heven hlo hhi (not_lt.1 hmiddle)
    exact absurd hlt (habove.trans hle).not_gt
  · intro hmiddle
    exact (round_le_mul_of_middle hx hprecision hnormal hlo hhi hmiddle).trans_lt hbelow

end Format

end Rounding
