import Heaty.Spec.SensorValue

/-! Which sensor values reach the broker as they are rendered. -/

namespace Heaty.SensorValue

open Rounding (binary32 roundEven)
open Utils (Block cstr overwrite)

variable {v : ℚ} {k : ℕ}

/-- The `float`s below the first one that is rendered with two digits before the point. -/
theorem round_lt_iff (hv : 0 ≤ v) : binary32.round v < 1999 / 200 ↔ v < 20961035 / 2097152 := by
  have hexponent : (3 + 1 - binary32.precision : ℤ) = -20 := by decide
  have hiff := Rounding.Format.round_lt_iff (f := binary32) (e := 3) (n := 10480518)
    (c := 1999 / 200) hv (by decide) (by decide) (by decide)
  rw [hexponent] at hiff
  norm_num at hiff
  exact hiff

theorem round_overflow_iff (hv : 0 ≤ v) :
    binary32.round v < 2 ^ binary32.emax ↔ v < 2 ^ 128 - 2 ^ 103 := by
  have hexponent : (127 + 1 - binary32.precision : ℤ) = 104 := by decide
  have hemax : binary32.emax = 128 := rfl
  have hiff := Rounding.Format.round_lt_iff (f := binary32) (e := 127) (n := 2 ^ 24)
    (c := 2 ^ (128 : ℤ)) hv (by decide) (by decide) (by decide)
  rw [hexponent] at hiff
  rw [hemax]
  norm_num at hiff ⊢
  exact hiff

theorem zero_not_mem_decimals (h : ℕ) : (0 : UInt8) ∉ decimals h := by
  intro hmem
  rcases List.mem_append.1 hmem with hmem | hmem
  · exact absurd (Decimal.isDigit_of_mem hmem) (by decide)
  · rcases List.mem_cons.1 hmem with hpoint | hmem
    · exact absurd hpoint (by decide)
    · exact absurd (Decimal.isDigit_of_mem_padded hmem) (by decide)

theorem length_decimals (h : ℕ) : (decimals h).length = (Decimal.digits (h / 100)).length + 3 := by
  have hpadded : (Decimal.padded 2 (h % 100)).length = 2 :=
    Decimal.length_padded (by decide) (Nat.mod_lt _ (by decide))
  rw [decimals, List.length_append, List.length_cons, hpadded]

theorem length_decimals_le_iff (h : ℕ) : (decimals h).length ≤ 4 ↔ h < 1000 := by
  have hdigits : (Decimal.digits (h / 100)).length ≤ 1 ↔ h / 100 < 10 ^ 1 := by
    rw [Decimal.digits, List.length_map]
    exact Nat.length_toDigits_le_iff (by decide) (by decide)
  rw [length_decimals]
  omega

theorem length_decimals_pos (h : ℕ) : 4 ≤ (decimals h).length := by
  have hdigits := List.length_pos_iff.2 (Decimal.digits_ne_nil (h / 100))
  rw [length_decimals]
  omega

/-- The hundredths that are rendered with one digit before the point. -/
theorem hundredths_lt_iff (m : ℚ) : (roundEven (100 * m)).toNat < 1000 ↔ m < 1999 / 200 := by
  have hmiddle := Rounding.roundEven_le_iff (100 * m) 999
  have hnat : (roundEven (100 * m)).toNat < 1000 ↔ roundEven (100 * m) ≤ 999 := by omega
  rw [hnat, hmiddle]
  norm_num
  constructor <;> intro h <;> linarith

theorem zero_not_mem_rendering (v : ℚ) : (0 : UInt8) ∉ rendering v := by
  rw [rendering, format, List.mem_append, not_or]
  refine ⟨by split_ifs <;> decide, ?_⟩
  cases (toFloat v).magnitude with
  | none => decide
  | some magnitude => exact zero_not_mem_decimals _

/-- A `float` without a number is rendered in four places at most, and a number in four
just where it has no sign and rounds to less than ten. -/
theorem length_rendering_le_iff (v : ℚ) : (rendering v).length ≤ 4 ↔ Short v := by
  have habs := abs_nonneg v
  have hoverflow := round_overflow_iff habs
  have hten := round_lt_iff habs
  rw [rendering, format, toFloat, Short, List.length_append]
  by_cases hfinite : |v| < 2 ^ 128 - 2 ^ 103
  · rw [if_pos (hoverflow.2 hfinite)]
    have hplaces := length_decimals_le_iff (roundEven (100 * binary32.round |v|)).toNat
    have hpos := length_decimals_pos (roundEven (100 * binary32.round |v|)).toNat
    rw [hundredths_lt_iff, hten] at hplaces
    simp only [hfinite.not_ge, or_false, decide_eq_true_eq]
    by_cases hsign : v < 0
    · rw [if_pos hsign]
      exact iff_of_false (by simp only [List.length_singleton]; omega) fun h => hsign.not_ge h.1
    · have hnonneg := not_lt.1 hsign
      rw [abs_of_nonneg hnonneg] at hplaces ⊢
      simpa [hsign, hnonneg] using hplaces
  · rw [if_neg (mt hoverflow.1 hfinite)]
    refine iff_of_true ?_ (.inr (not_lt.1 hfinite))
    dsimp only
    split_ifs <;> decide

/-- In its block, a text that fits is read up to its end, whatever lies behind it. -/
theorem take_strlen {text : Bytes} (hzero : 0 ∉ text) (hfits : (text ++ [0]).length ≤ k)
    (mem behind : Bytes) :
    let message := (overwrite (text ++ [0]) mem).take k ++ behind
    message.take ((cstr message).length + 1) = text ++ [0] := by
  intro message
  obtain ⟨rest, hmessage⟩ : ∃ rest, message = text ++ 0 :: rest := by
    refine ⟨(mem.drop (text ++ [0]).length).take (k - (text ++ [0]).length) ++ behind, ?_⟩
    simp only [message, overwrite]
    rw [List.take_append, List.take_of_length_le hfits]
    simp
  have hlength : (text ++ [0]).length = text.length + 1 := by simp
  rw [hmessage, Utils.cstr_append_zero hzero, List.append_cons, List.take_left' hlength]

/-- A message of a value, if one is submitted, has its topic and its rendering. -/
theorem onStateReady_eq_some_iff {type : SensorsEventType} {result : Block} {msg : Msg} :
    onStateReady type v result = some msg ↔
      topicOf type = some msg.topic ∧
        result.map (overwrite (rendering v ++ [0])) = some msg.message := by
  obtain ⟨topic, message⟩ := msg
  cases type <;> cases result <;> simp [onStateReady, topicOf, valueToString]

/-- A value is delivered as it is rendered just where there is a block for it and it is
short enough for that. -/
theorem delivered_iff (type : SensorsEventType) (val : ℚ) (result : Block) :
    Delivered type val result ↔ topicOf type ≠ none ∧ result ≠ none ∧ Short val := by
  have hlength : (rendering val ++ [0]).length = (rendering val).length + 1 := by simp
  have hfits : (rendering val ++ [0]).length ≤ resultSize ↔ Short val := by
    rw [← length_rendering_le_iff, hlength, resultSize]
    omega
  constructor
  · rintro ⟨hle, msg, hmsg, -⟩
    obtain ⟨htopic, hmessage⟩ := onStateReady_eq_some_iff.1 hmsg
    refine ⟨by simp [htopic], ?_, hfits.1 hle⟩
    rintro rfl
    simp at hmessage
  · rintro ⟨htopic, hresult, hshort⟩
    obtain ⟨topic, htopic⟩ := Option.ne_none_iff_exists'.1 htopic
    obtain ⟨mem, rfl⟩ := Option.ne_none_iff_exists'.1 hresult
    refine ⟨hfits.2 hshort, ⟨topic, overwrite (rendering val ++ [0]) mem⟩,
      onStateReady_eq_some_iff.2 ⟨htopic, rfl⟩, fun behind => ⟨htopic, ?_⟩⟩
    exact take_strlen (zero_not_mem_rendering val) (hfits.2 hshort) mem behind

/-- Twenty degrees need one byte more than the block has. -/
theorem twenty_degrees_overflow :
    ¬ Delivered .envTemperature 20 (some [0, 0, 0, 0, 0]) := by
  have hshort : ¬ Short 20 := by
    rw [Short, not_or]
    constructor <;> norm_num
  exact fun h => hshort ((length_rendering_le_iff 20).1 (by
    have hfits := h.fits
    rw [List.length_append, resultSize] at hfits
    exact Nat.le_of_lt_succ hfits))

end Heaty.SensorValue
