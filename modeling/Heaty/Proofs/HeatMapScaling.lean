import Heaty.Spec.HeatMap

/-! What a temperature becomes on its way from the sensor to a grey level. -/

namespace Heaty.HeatMap

open FixedPoint

variable {entriesCount : ℕ} {data : Fin entriesCount → ℚ} {i : Fin entriesCount} {t : ℚ} {n : ℤ}

theorem toInt16_eq_self (hlo : shrtMin ≤ n) (hhi : n ≤ shrtMax) : toInt16 n = n := by
  unfold shrtMin at hlo
  unfold shrtMax at hhi
  unfold toInt16
  rw [Int.bmod_eq_of_le] <;> omega

theorem toInt8_eq_self_iff (hlo : 0 ≤ n) (hhi : n ≤ ucharMax) : toInt8 n = n ↔ n < 128 := by
  unfold ucharMax at hhi
  rcases lt_or_ge n 128 with hn | hn
  · refine iff_of_true ?_ hn
    unfold toInt8
    rw [Int.bmod_eq_of_le] <;> omega
  · refine iff_of_false ?_ hn.not_gt
    have hwrap : toInt8 n = n - 256 := by
      unfold toInt8
      rw [← Int.sub_bmod_right, Int.bmod_eq_of_le] <;> omega
    omega

def limited (t : ℚ) : ℚ := clamp (-3276) 3276 t

theorem scaled_eq (t : ℚ) : scaled t = 10 * limited t := by
  have hlo : shrtMin.tdiv scaling = -3276 := by decide
  have hhi : shrtMax.tdiv scaling = 3276 := by decide
  rw [scaled, limited, hlo, hhi]
  norm_num [scaling]

theorem limited_mem (t : ℚ) : -3276 ≤ limited t ∧ limited t ≤ 3276 :=
  ⟨le_clamp (by norm_num) t, clamp_le _ _ t⟩

theorem trunc_scaled (t : ℚ) : trunc (scaled t) = toFixed 10 (limited t) := by
  rw [scaled_eq, toFixed]

theorem trunc_scaled_mem (t : ℚ) : -32760 ≤ trunc (scaled t) ∧ trunc (scaled t) ≤ 32760 := by
  obtain ⟨hlo, hhi⟩ := limited_mem t
  rw [scaled_eq]
  constructor
  · apply le_trunc
    push_cast
    linarith
  · apply trunc_le
    push_cast
    linarith

theorem convertAndScaleHeatMap_eq (data : Fin entriesCount → ℚ) (i : Fin entriesCount) :
    convertAndScaleHeatMap data i = toFixed 10 (limited (data i)) := by
  obtain ⟨hlo, hhi⟩ := trunc_scaled_mem (data i)
  rw [convertAndScaleHeatMap, toInt16_eq_self (by unfold shrtMin; omega) (by unfold shrtMax; omega),
    trunc_scaled]

theorem revertHeatMapToFloat_eq (data : Fin entriesCount → ℤ) (i : Fin entriesCount) :
    revertHeatMapToFloat data i = ofFixed 10 (data i) := by
  simp [revertHeatMapToFloat, ofFixed, scaling]

theorem trunc_degrees (n : ℤ) : trunc (degrees n) = ⌊clamp 0 255 (ofFixed (10 : ℚ) n)⌋ := by
  have hdegrees : degrees n = clamp 0 255 (ofFixed (10 : ℚ) n) := by
    simp only [degrees, clamp, ofFixed, scaling, ucharMax]
    rw [← min_div_div_right (by norm_num), ← max_div_div_right (by norm_num)]
    norm_num
  rw [hdegrees, trunc_of_nonneg (le_clamp (by norm_num) _)]

theorem trunc_degrees_mem (n : ℤ) : 0 ≤ trunc (degrees n) ∧ trunc (degrees n) ≤ ucharMax := by
  rw [trunc_degrees]
  constructor
  · exact Int.floor_nonneg.2 (le_clamp (by norm_num) _)
  · unfold ucharMax
    exact Int.floor_le_iff.2 (lt_of_le_of_lt (clamp_le _ _ _) (by norm_num))

theorem trunc_degrees_lt_iff (t : ℚ) :
    trunc (degrees (toFixed 10 (limited t))) < 128 ↔ t < 128 := by
  have hfixed : ofFixed (10 : ℚ) (toFixed 10 (limited t)) < 128 ↔
      toFixed (10 : ℚ) (limited t) < 1280 := by
    unfold ofFixed
    rw [div_lt_iff₀ (by norm_num)]
    norm_cast
  rw [trunc_degrees, Int.floor_lt]
  push_cast
  rw [clamp_lt_iff (by norm_num) (by norm_num), hfixed, toFixed, trunc_lt_iff (by norm_num),
    ← clamp_lt_iff (show (-3276 : ℚ) < 128 by norm_num) (show (128 : ℚ) ≤ 3276 by norm_num)]
  push_cast
  unfold limited
  constructor <;> intro h <;> linarith

/-- The conversions are exact up to what they are meant to drop, and a grey level grows
with the temperature. -/
structure Scales (data : Fin entriesCount → ℚ) : Prop where
  int16 : ∀ i, shrtMin ≤ trunc (scaled (data i)) ∧ trunc (scaled (data i)) ≤ shrtMax ∧
    convertAndScaleHeatMap data i = trunc (scaled (data i))
  close : ∀ i, |revertHeatMapToFloat (convertAndScaleHeatMap data) i -
    clamp (-3276) 3276 (data i)| < 1 / 10
  grey : ∀ i, revertConvertAndScaleHeatMap (convertAndScaleHeatMap data) i =
    ⌊clamp 0 255 (revertHeatMapToFloat (convertAndScaleHeatMap data) i)⌋
  mono : ∀ i j, data i ≤ data j →
    revertConvertAndScaleHeatMap (convertAndScaleHeatMap data) i ≤
      revertConvertAndScaleHeatMap (convertAndScaleHeatMap data) j

theorem int16_of_scaled (data : Fin entriesCount → ℚ) (i : Fin entriesCount) :
    shrtMin ≤ trunc (scaled (data i)) ∧ trunc (scaled (data i)) ≤ shrtMax ∧
      convertAndScaleHeatMap data i = trunc (scaled (data i)) := by
  obtain ⟨hlo, hhi⟩ := trunc_scaled_mem (data i)
  refine ⟨?_, ?_, ?_⟩
  · unfold shrtMin
    omega
  · unfold shrtMax
    omega
  · rw [convertAndScaleHeatMap_eq, trunc_scaled]

theorem close_of_scaled (data : Fin entriesCount → ℚ) (i : Fin entriesCount) :
    |revertHeatMapToFloat (convertAndScaleHeatMap data) i - clamp (-3276) 3276 (data i)| <
      1 / 10 := by
  rw [revertHeatMapToFloat_eq, convertAndScaleHeatMap_eq]
  exact abs_ofFixed_toFixed_sub_lt (by norm_num) _

/-- The grey level of an entry is the whole degrees of what was transmitted exactly for
a temperature below 128 degrees. -/
theorem grey_iff (data : Fin entriesCount → ℚ) (i : Fin entriesCount) :
    revertConvertAndScaleHeatMap (convertAndScaleHeatMap data) i =
        ⌊clamp 0 255 (revertHeatMapToFloat (convertAndScaleHeatMap data) i)⌋ ↔ data i < 128 := by
  obtain ⟨hlo, hhi⟩ := trunc_degrees_mem (convertAndScaleHeatMap data i)
  rw [revertHeatMapToFloat_eq, ← trunc_degrees, revertConvertAndScaleHeatMap,
    toInt8_eq_self_iff hlo hhi, convertAndScaleHeatMap_eq, trunc_degrees_lt_iff]

/-- A heat map is scaled as it should be exactly when it is nowhere hotter than a
signed grey level can say. -/
theorem heatMap_scales_iff (data : Fin entriesCount → ℚ) : Scales data ↔ ∀ i, data i < 128 := by
  constructor
  · intro h i
    exact (grey_iff data i).1 (h.grey i)
  · intro h
    refine ⟨int16_of_scaled data, close_of_scaled data, fun i => (grey_iff data i).2 (h i), ?_⟩
    intro i j hij
    rw [(grey_iff data i).2 (h i), (grey_iff data j).2 (h j), revertHeatMapToFloat_eq,
      revertHeatMapToFloat_eq, convertAndScaleHeatMap_eq, convertAndScaleHeatMap_eq]
    apply Int.floor_mono
    apply clamp_mono
    have hfixed := toFixed_mono (K := ℚ) (s := 10) (by norm_num) (clamp_mono (-3276) 3276 hij)
    exact div_le_div_of_nonneg_right (Int.cast_le.2 hfixed) (by norm_num)

def oven : Fin 2 → ℚ := ![127, 128]

/-- The hotter entry gets the lower grey level. -/
theorem oven_not_scales :
    revertConvertAndScaleHeatMap (convertAndScaleHeatMap oven) = ![127, -128] ∧ ¬ Scales oven := by
  have hgrey : revertConvertAndScaleHeatMap (convertAndScaleHeatMap oven) = ![127, -128] := by
    decide +kernel
  refine ⟨hgrey, fun h => ?_⟩
  have hmono := h.mono 0 1 (by norm_num [oven])
  rw [hgrey] at hmono
  exact absurd hmono (by decide)

end Heaty.HeatMap
