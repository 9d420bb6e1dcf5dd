import Heaty.Lib.Scaling
import Heaty.Spec.PixelParameters

/-! What the stored coefficients of the pixels stand for. -/

namespace Heaty.Mlx90640

open Scaling

variable {eeData : ℕ → ℕ} {temps : ℕ → ℚ} {p : ℕ}

/-! ## The two loops -/

theorem foldl_largest (temps : ℕ → ℚ) (is : List ℕ) :
    ∀ temp : ℚ,
      let top := is.foldl (fun temp i => if |temps i| > temp then |temps i| else temp) temp
      temp ≤ top ∧ (∀ i ∈ is, |temps i| ≤ top) ∧ (top = temp ∨ ∃ i ∈ is, |temps i| = top) := by
  induction is with
  | nil => simp
  | cons i is ih =>
    intro temp
    obtain ⟨hle, hall, hsome⟩ := ih (if |temps i| > temp then |temps i| else temp)
    simp only [List.foldl_cons, List.mem_cons, forall_eq_or_imp, exists_eq_or_imp]
    generalize is.foldl (fun temp i => if |temps i| > temp then |temps i| else temp) _ = top at *
    split_ifs at hle hsome with hgt
    · exact ⟨hgt.le.trans hle, ⟨hle, hall⟩, .inr (hsome.imp Eq.symm id)⟩
    · exact ⟨hle, ⟨(not_lt.1 hgt).trans hle, hall⟩, hsome.imp id .inr⟩

theorem largest_spec (temps : ℕ → ℚ) :
    (∀ p < pixelCount, |temps p| ≤ largest temps) ∧
      ∃ p < pixelCount, |temps p| = largest temps := by
  obtain ⟨hle, hall, hsome⟩ :=
    foldl_largest temps (List.range' 1 (pixelCount - 1)) |temps 0|
  have hmem : ∀ i, i ∈ List.range' 1 (pixelCount - 1) ↔ 1 ≤ i ∧ i < pixelCount := by
    intro i
    rw [List.mem_range'_1, pixelCount]
  refine ⟨fun p hp => ?_, ?_⟩
  · rcases Nat.eq_zero_or_pos p with rfl | hpos
    · exact hle
    · exact hall p ((hmem p).2 ⟨hpos, hp⟩)
  · rcases hsome with heq | ⟨p, hp, heq⟩
    · exact ⟨0, by decide, heq.symm⟩
    · exact ⟨p, ((hmem p).1 hp).2, heq⟩

theorem scaleLoop_zero (rounds : ℕ) : ∀ scale, scaleLoop rounds 0 scale = none := by
  induction rounds with
  | zero => exact fun _ => rfl
  | succ rounds ih =>
    intro scale
    rw [scaleLoop, if_pos (by norm_num), zero_mul, ih]

/-- The loop goes round once for each doubling that is needed, and once more. -/
theorem scaleLoop_eq {s : ℕ} :
    ∀ {rounds scale : ℕ} {temp : ℚ}, FirstAbove 2 63.4 temp s → scale + s < 256 →
      scaleLoop rounds temp scale = if s < rounds then some (scale + s) else none := by
  induction s with
  | zero =>
    intro rounds scale temp hfirst hscale
    have habove : ¬ temp < 63.4 := by simpa using hfirst.1
    cases rounds with
    | zero => rfl
    | succ rounds => simp [scaleLoop, habove]
  | succ s ih =>
    intro rounds scale temp hfirst hscale
    have hbelow : temp < 63.4 := by simpa using hfirst.2 0 (Nat.succ_pos s)
    cases rounds with
    | zero => rfl
    | succ rounds =>
      have hnext : (scale + 1) % 256 = scale + 1 := by omega
      rw [scaleLoop, if_pos hbelow, hnext, ih hfirst.next (by omega)]
      simp only [Nat.add_lt_add_iff_right, Nat.add_assoc, Nat.add_comm 1 s]

theorem rounded_eq (x : ℚ) : rounded x = roundAway x := by
  have hhalf : (0.5 : ℚ) = 1 / 2 := by norm_num
  rw [roundAway_eq]
  unfold rounded truncate
  rw [hhalf]
  split_ifs with hneg hdown hup
  · rfl
  · exact absurd (by linarith : x - 1 / 2 < 0) hdown
  · exact absurd hup (by linarith)
  · rfl

/-! ## What is stored -/

theorem storeScaled_zero (hzero : ∀ p < pixelCount, temps p = 0) (rounds : ℕ) :
    storeScaled rounds temps = .doubling := by
  obtain ⟨p, hp, heq⟩ := (largest_spec temps).2
  rw [hzero p hp, abs_zero] at heq
  rw [storeScaled, ← heq, scaleLoop_zero]

def Fits (x : ℚ) : Prop := -128.5 < x ∧ x < 127.5

theorem fits_iff (x : ℚ) : -128 ≤ rounded x ∧ rounded x ≤ 127 ↔ Fits x := by
  have hlo := neg_le_roundAway_iff (x := x) (n := 128) (by norm_num)
  have hhi := roundAway_le_iff (x := x) (n := 127) (by norm_num)
  rw [rounded_eq, hlo, hhi, Fits]
  norm_num

/-- What is stored with a scale, when all of it fits. -/
def scaled (temps : ℕ → ℚ) (s : ℕ) : PixelScale := ⟨fun p => rounded (temps p * 2 ^ s), s⟩

@[simp] theorem scaled_scale (temps : ℕ → ℚ) (s : ℕ) : (scaled temps s).scale = s := rfl

@[simp] theorem scaled_values (temps : ℕ → ℚ) (s p : ℕ) :
    (scaled temps s).values p = roundAway (temps p * 2 ^ s) := rounded_eq _

theorem storeScaled_eq {s rounds : ℕ} (hfirst : FirstAbove 2 63.4 (largest temps) s) (hs : s < 256)
    (hrounds : s < rounds) :
    ((∀ p < pixelCount, Fits (temps p * 2 ^ s)) →
      storeScaled rounds temps = .done (scaled temps s)) ∧
    ((∃ p < pixelCount, ¬ Fits (temps p * 2 ^ s)) → storeScaled rounds temps = .undefined) := by
  have hloop : scaleLoop rounds (largest temps) 0 = some s := by
    rw [scaleLoop_eq hfirst (by omega), if_pos hrounds, Nat.zero_add]
  unfold storeScaled
  rw [hloop]
  constructor
  · intro hall
    exact if_pos fun p hp => (fits_iff _).2 (hall p hp)
  · rintro ⟨p, hp, hnot⟩
    exact if_neg fun hall => hnot ((fits_iff _).1 (hall p hp))

/-- Once the loop has doubled, everything fits: the largest number is then below twice 63.4. -/
theorem fits_of_doubled {s : ℕ} (hfirst : FirstAbove 2 63.4 (largest temps) s) (hs : 0 < s)
    (hp : p < pixelCount) : Fits (temps p * 2 ^ s) := by
  have hpos : (0 : ℚ) < 2 ^ s := pow_pos two_pos s
  have hle := mul_le_mul_of_nonneg_right ((largest_spec temps).1 p hp) hpos.le
  have hlt : |temps p * 2 ^ s| < 126.8 := by
    rw [abs_mul, abs_of_pos hpos]
    exact hle.trans_lt ((hfirst.lt_mul two_pos hs).trans_eq (by norm_num))
  rw [abs_lt] at hlt
  constructor <;> linarith [hlt.1, hlt.2]

theorem exists_large {s : ℕ} (hfirst : FirstAbove 2 63.4 (largest temps) s) :
    ∃ p < pixelCount, 63.4 ≤ |temps p * 2 ^ s| := by
  obtain ⟨p, hp, heq⟩ := (largest_spec temps).2
  refine ⟨p, hp, ?_⟩
  rw [abs_mul, heq, abs_of_pos (pow_pos two_pos s)]
  exact hfirst.1

/-! ## `kv` -/

theorem signedField_bound (word shift bits : ℕ) (hbits : 0 < bits) :
    -2 ^ (bits - 1) ≤ signedField word shift bits ∧
      signedField word shift bits ≤ 2 ^ (bits - 1) - 1 := by
  obtain ⟨b, rfl⟩ := Nat.exists_eq_add_of_lt hbits
  have hsplit : (2 : ℤ) ^ (0 + b + 1) = 2 * 2 ^ b := by rw [zero_add, pow_succ']
  have hpos : (0 : ℤ) < 2 ^ b := pow_pos two_pos b
  have hlo := Int.emod_nonneg ((word : ℤ) / 2 ^ shift) (b := 2 ^ (0 + b + 1)) (by omega)
  have hhi := Int.emod_lt_of_pos ((word : ℤ) / 2 ^ shift) (b := 2 ^ (0 + b + 1)) (by omega)
  simp only [signedField, zero_add, Nat.add_sub_cancel] at *
  split_ifs <;> omega

theorem signedField_eq_zero (word shift bits : ℕ) :
    signedField word shift bits = 0 ↔ word / 2 ^ shift % 2 ^ bits = 0 := by
  have hpos : (0 : ℤ) < 2 ^ (bits - 1) := pow_pos two_pos _
  have hhi := Nat.mod_lt (word / 2 ^ shift) (y := 2 ^ bits) (pow_pos two_pos _)
  have hcast : ((word / 2 ^ shift % 2 ^ bits : ℕ) : ℤ) = word / 2 ^ shift % 2 ^ bits := by
    push_cast
    rfl
  have hhi' : ((word / 2 ^ shift % 2 ^ bits : ℕ) : ℤ) < 2 ^ bits := by exact_mod_cast hhi
  simp only [signedField, ← hcast]
  split_ifs <;> omega

theorem kvT_bound (eeData : ℕ → ℕ) (i : ℕ) : -8 ≤ kvT eeData i ∧ kvT eeData i ≤ 7 := by
  unfold kvT
  split
  · exact signedField_bound _ 12 4 (by decide)
  · exact signedField_bound _ 4 4 (by decide)
  · exact signedField_bound _ 8 4 (by decide)
  · exact signedField_bound _ 0 4 (by decide)

theorem kvT_zero_iff : (∀ p < pixelCount, kvT eeData (split p) = 0) ↔ eeData 52 % 2 ^ 16 = 0 := by
  have hfield := fun shift => signedField_eq_zero (eeData 52) shift 4
  constructor
  · intro h
    have h0 := (hfield 12).1 (h 0 (by decide))
    have h1 := (hfield 4).1 (h 1 (by decide))
    have h2 := (hfield 8).1 (h 32 (by decide))
    have h3 := (hfield 0).1 (h 33 (by decide))
    omega
  · intro h p hp
    unfold kvT
    split <;> rw [hfield] <;> omega

def kvShift (eeData : ℕ → ℕ) : ℕ := eeData 56 / 2 ^ 8 % 2 ^ 4

theorem kvShift_le (eeData : ℕ → ℕ) : kvShift eeData ≤ 15 := by
  unfold kvShift
  omega

theorem kvTemp_eq (eeData : ℕ → ℕ) (p : ℕ) :
    kvTemp eeData p = kvT eeData (split p) / 2 ^ kvShift eeData := rfl

theorem abs_kvTemp (hne : kvT eeData (split p) ≠ 0) :
    1 / 2 ^ kvShift eeData ≤ |kvTemp eeData p| ∧ |kvTemp eeData p| ≤ 8 / 2 ^ kvShift eeData := by
  have hpos : (0 : ℚ) < 2 ^ kvShift eeData := pow_pos two_pos _
  have hbound := kvT_bound eeData (split p)
  have hone : (1 : ℚ) ≤ |(kvT eeData (split p) : ℚ)| := by exact_mod_cast Int.one_le_abs hne
  have height : |(kvT eeData (split p) : ℚ)| ≤ 8 := by
    exact_mod_cast abs_le.2 ⟨hbound.1, by omega⟩
  rw [kvTemp_eq, abs_div, abs_of_pos hpos]
  exact ⟨div_le_div_of_nonneg_right hone hpos.le, div_le_div_of_nonneg_right height hpos.le⟩

theorem largest_kvTemp (hword : eeData 52 % 2 ^ 16 ≠ 0) :
    1 / 2 ^ kvShift eeData ≤ largest (kvTemp eeData) ∧
      largest (kvTemp eeData) ≤ 8 / 2 ^ kvShift eeData := by
  obtain ⟨hall, q, hq, heq⟩ := largest_spec (kvTemp eeData)
  have hsome : ∃ p < pixelCount, kvT eeData (split p) ≠ 0 := by
    by_contra hnone
    push Not at hnone
    exact hword (kvT_zero_iff.1 hnone)
  obtain ⟨p, hp, hne⟩ := hsome
  have hlo := (abs_kvTemp hne).1.trans (hall p hp)
  refine ⟨hlo, ?_⟩
  rw [← heq]
  by_cases hzero : kvT eeData (split q) = 0
  · rw [kvTemp_eq, hzero, Int.cast_zero, zero_div, abs_zero]
    positivity
  · exact (abs_kvTemp hzero).2

/-- `ExtractKvPixelParameters` comes to an end exactly for an EEPROM that has a coefficient at
all, and then loses nothing of any: what is stored stands for the same number. -/
theorem extractKvPixelParameters_exact (eeData : ℕ → ℕ) :
    (eeData 52 % 2 ^ 16 = 0 → ∀ rounds, extractKvPixelParameters rounds eeData = .doubling) ∧
    (eeData 52 % 2 ^ 16 ≠ 0 → ∃ kv : PixelScale,
      (∀ rounds ≥ 22, extractKvPixelParameters rounds eeData = .done kv) ∧ kv.scale ≤ 21 ∧
      (∀ p < pixelCount, kv.values p / 2 ^ kv.scale = kvTemp eeData p) ∧
      ∃ p < pixelCount, 64 ≤ |kv.values p|) := by
  refine ⟨fun hzero rounds => storeScaled_zero (fun p hp => ?_) rounds, fun hword => ?_⟩
  · rw [kvTemp_eq, kvT_zero_iff.2 hzero p hp, Int.cast_zero, zero_div]
  · obtain ⟨hlo, hhi⟩ := largest_kvTemp hword
    have hpos : (0 : ℚ) < 2 ^ kvShift eeData := pow_pos two_pos _
    obtain ⟨s, hfirst⟩ :=
      exists_firstAbove one_lt_two (63.4 : ℚ) ((one_div_pos.2 hpos).trans_le hlo)
    -- 63.4 is more than the eight units that a coefficient has at most
    have hshift : kvShift eeData < s := by
      by_contra hle
      have hpow : (2 : ℚ) ^ s ≤ 2 ^ kvShift eeData :=
        pow_le_pow_right₀ one_le_two (not_lt.1 hle)
      have habove := hfirst.1.trans (mul_le_mul_of_nonneg_right hhi (pow_pos two_pos s).le)
      rw [div_mul_eq_mul_div, le_div_iff₀ hpos] at habove
      linarith
    have hs : s ≤ 21 := by
      apply hfirst.le
      have hunit : (2 : ℚ) ^ kvShift eeData ≤ 2 ^ 15 :=
        pow_le_pow_right₀ one_le_two (kvShift_le eeData)
      have habove := mul_le_mul_of_nonneg_right hlo (pow_pos two_pos 21 : (0 : ℚ) < 2 ^ 21).le
      refine le_trans ?_ habove
      rw [one_div_mul_eq_div, le_div_iff₀ hpos]
      linarith
    have hvalue : ∀ p, kvTemp eeData p * 2 ^ s =
        (kvT eeData (split p) * 2 ^ (s - kvShift eeData) : ℤ) := by
      intro p
      have hsplit : (2 : ℚ) ^ s = 2 ^ (s - kvShift eeData) * 2 ^ kvShift eeData := by
        rw [← pow_add, Nat.sub_add_cancel hshift.le]
      rw [kvTemp_eq, hsplit]
      push_cast
      field_simp
    have hrounded : ∀ p, ((scaled (kvTemp eeData) s).values p : ℚ) = kvTemp eeData p * 2 ^ s := by
      intro p
      rw [scaled_values, hvalue, roundAway_intCast]
    refine ⟨scaled (kvTemp eeData) s, fun rounds hrounds => ?_, hs, fun p hp => ?_, ?_⟩
    · exact (storeScaled_eq hfirst (by omega) (by omega)).1
        fun p hp => fits_of_doubled hfirst (by omega) hp
    · rw [hrounded, scaled_scale]
      exact mul_div_cancel_right₀ _ (pow_pos two_pos s).ne'
    · obtain ⟨p, hp, hlarge⟩ := exists_large hfirst
      refine ⟨p, hp, ?_⟩
      rw [← hrounded] at hlarge
      by_contra hlt
      have hle : |((scaled (kvTemp eeData) s).values p : ℚ)| ≤ 63 := by
        exact_mod_cast (by omega : |(scaled (kvTemp eeData) s).values p| ≤ 63)
      linarith

/-! ## `kta` -/

def ktaShift (eeData : ℕ → ℕ) : ℕ := eeData 56 / 2 ^ 4 % 2 ^ 4 + 8

def ktaUnits (eeData : ℕ → ℕ) (p : ℕ) : ℤ :=
  ktaRC eeData (split p) + signedField (eeData (64 + p)) 1 3 * 2 ^ (eeData 56 % 2 ^ 4)

theorem ktaTemp_eq (eeData : ℕ → ℕ) (p : ℕ) :
    ktaTemp eeData p = ktaUnits eeData p / 2 ^ ktaShift eeData := by
  simp only [ktaTemp, ktaUnits, ktaShift]
  push_cast
  rfl

theorem le_abs_ktaTemp (hne : ktaTemp eeData p ≠ 0) : 1 / 2 ^ 23 ≤ |ktaTemp eeData p| := by
  have hpos : (0 : ℚ) < 2 ^ ktaShift eeData := pow_pos two_pos _
  have hunits : ktaUnits eeData p ≠ 0 := by
    intro hzero
    rw [ktaTemp_eq, hzero, Int.cast_zero, zero_div] at hne
    exact hne rfl
  have hone : (1 : ℚ) ≤ |(ktaUnits eeData p : ℚ)| := by exact_mod_cast Int.one_le_abs hunits
  have hshift : (2 : ℚ) ^ ktaShift eeData ≤ 2 ^ 23 := by
    apply pow_le_pow_right₀ one_le_two
    unfold ktaShift
    omega
  rw [ktaTemp_eq, abs_div, abs_of_pos hpos]
  calc (1 : ℚ) / 2 ^ 23 ≤ 1 / 2 ^ ktaShift eeData := one_div_le_one_div_of_le hpos hshift
    _ ≤ |(ktaUnits eeData p : ℚ)| / 2 ^ ktaShift eeData := div_le_div_of_nonneg_right hone hpos.le

/-- `ExtractKtaPixelParameters` does not come to an end for an EEPROM without a coefficient.
For any other it stores each of them to half a unit of the scale, of which the largest has at
least 63, unless one of them is too large for an `int8_t` even without a scale. -/
theorem extractKtaPixelParameters_rounds (eeData : ℕ → ℕ) :
    ((∀ p < pixelCount, ktaTemp eeData p = 0) →
      ∀ rounds, extractKtaPixelParameters rounds eeData = .doubling) ∧
    ((∃ p < pixelCount, ktaTemp eeData p ≠ 0) →
      ((∀ p < pixelCount, Fits (ktaTemp eeData p)) → ∃ kta : PixelScale,
        (∀ rounds ≥ 30, extractKtaPixelParameters rounds eeData = .done kta) ∧ kta.scale ≤ 29 ∧
        (∀ p < pixelCount,
          |kta.values p / 2 ^ kta.scale - ktaTemp eeData p| ≤ 1 / 2 ^ (kta.scale + 1)) ∧
        ∃ p < pixelCount, 63 ≤ |kta.values p|) ∧
      ((∃ p < pixelCount, ¬ Fits (ktaTemp eeData p)) →
        ∀ rounds > 0, extractKtaPixelParameters rounds eeData = .undefined)) := by
  refine ⟨fun hzero rounds => storeScaled_zero hzero rounds, ?_⟩
  rintro ⟨q, hq, hne⟩
  have hlo : 1 / 2 ^ 23 ≤ largest (ktaTemp eeData) :=
    (le_abs_ktaTemp hne).trans ((largest_spec _).1 q hq)
  obtain ⟨s, hfirst⟩ :=
    exists_firstAbove one_lt_two (63.4 : ℚ) ((by norm_num : (0 : ℚ) < 1 / 2 ^ 23).trans_le hlo)
  have hs : s ≤ 29 := by
    apply hfirst.le
    have habove := mul_le_mul_of_nonneg_right hlo (pow_pos two_pos 29 : (0 : ℚ) < 2 ^ 29).le
    refine le_trans ?_ habove
    norm_num
  have hall : ∀ p < pixelCount, Fits (ktaTemp eeData p) → Fits (ktaTemp eeData p * 2 ^ s) := by
    intro p hp hfits
    rcases Nat.eq_zero_or_pos s with rfl | hpos
    · rwa [pow_zero, mul_one]
    · exact fits_of_doubled hfirst hpos hp
  constructor
  · intro hfits
    refine ⟨scaled (ktaTemp eeData) s, fun rounds hrounds => ?_, hs, fun p _ => ?_, ?_⟩
    · exact (storeScaled_eq hfirst (by omega) (by omega)).1
        fun p hp => hall p hp (hfits p hp)
    · rw [scaled_values, scaled_scale]
      exact abs_roundAway_div_sub_le _ s
    · obtain ⟨p, hp, hlarge⟩ := exists_large hfirst
      refine ⟨p, hp, ?_⟩
      rw [scaled_values]
      exact le_abs_roundAway (by push_cast; linarith)
  · rintro ⟨p, hp, hnot⟩ rounds hrounds
    -- a number that does not fit is not below 63.4, so nothing has been doubled
    obtain rfl : s = 0 := by
      by_contra hpos
      have hbelow := hfirst.2 0 (Nat.pos_of_ne_zero hpos)
      have hle := (largest_spec (ktaTemp eeData)).1 p hp
      rw [pow_zero, mul_one] at hbelow
      have habs := abs_lt.1 (hle.trans_lt hbelow)
      exact hnot ⟨by linarith [habs.1], by linarith [habs.2]⟩
    refine (storeScaled_eq hfirst (by omega) hrounds).2 ⟨p, hp, ?_⟩
    rwa [pow_zero, mul_one]

end Heaty.Mlx90640
