import Mathlib.Algebra.Order.Floor.Semifield
import Heaty.Spec.Exposure

/-! Which exposure times are set in the camera as they are asked for. -/

namespace Heaty.Exposure

open Rounding (binary64)

variable {s : Sensor} {r v : UInt8} {timeMs : UInt32} {t k : ℕ} {x : ℚ}

def clocks : ℚ := 1922 * (4166 / 100)

theorem round_error (h : 2 ^ (-20 : ℤ) ≤ x) : |binary64.round x - x| ≤ x * 2 ^ (-53 : ℤ) := by
  have hpos : 0 < x := (zpow_pos two_pos _).trans_le h
  have hlog : -20 ≤ Int.log 2 |x| := by
    rw [abs_of_pos hpos]
    exact (Int.zpow_le_iff_le_log (b := 2) (by decide) hpos).1 (by exact_mod_cast h)
  have herr := Rounding.Format.abs_round_sub_le_mul (f := binary64) hpos.ne'
    (by simp only [binary64]; omega)
  rwa [abs_of_pos hpos] at herr

theorem div_clocks (x : ℚ) : x / clocks = 100 * x / 8007052 := by
  rw [clocks]
  ring

/-- What `double` makes of the clocks. -/
theorem clocks_near :
    |binary64.round (lineClocks * binary64.round (4166 / 100 : ℚ)) - clocks| ≤ 1 / 10 ^ 9 := by
  have hliteral := round_error (x := 4166 / 100) (by norm_num)
  have hlines : (lineClocks : ℚ) = 1922 := by norm_num [lineClocks]
  rw [hlines, clocks]
  generalize binary64.round (4166 / 100 : ℚ) = literal at *
  rw [abs_le] at hliteral
  norm_num at hliteral
  have hproduct := round_error (x := 1922 * literal) (by norm_num; linarith)
  rw [abs_le] at hproduct ⊢
  norm_num at hproduct ⊢
  constructor <;> linarith

/-- A quotient changes little with its divisor. -/
theorem quotient_near {t rounded : ℚ} (hrounded : 0 < rounded) (ht : 0 ≤ t)
    (hclocks : |rounded - clocks| ≤ 1 / 10 ^ 9) :
    |t / rounded - t / clocks| ≤ t / rounded * (1 / 10 ^ 13) := by
  have hexact : clocks = 80070 + 52 / 100 := by norm_num [clocks]
  have hpos : 0 < clocks := by norm_num [clocks]
  have hdivisor : t / rounded - t / clocks = t / rounded * ((clocks - rounded) / clocks) := by
    field_simp
  have hsmall : |(clocks - rounded) / clocks| ≤ 1 / 10 ^ 13 := by
    rw [abs_div, abs_sub_comm, abs_of_pos hpos, div_le_iff₀ hpos]
    exact hclocks.trans (by norm_num [hexact])
  rw [hdivisor, abs_mul, abs_of_nonneg (div_nonneg ht hrounded.le)]
  exact mul_le_mul_of_nonneg_left hsmall (div_nonneg ht hrounded.le)

/-- The quotient is off by less than any fraction that it stands for. -/
theorem lines_near (tex : UInt32) : |lines tex - tex.toNat / clocks| < 1 / 8007052 := by
  have hclocks := clocks_near
  have htex : (tex.toNat : ℚ) < 2 ^ 32 := by exact_mod_cast tex.toNat_lt
  rw [lines]
  generalize binary64.round (lineClocks * binary64.round (4166 / 100 : ℚ)) = rounded at *
  rcases Nat.eq_zero_or_pos tex.toNat with hzero | hpos
  · simp [hzero]
  have hone : (1 : ℚ) ≤ tex.toNat := by exact_mod_cast hpos
  generalize (tex.toNat : ℚ) = t at *
  have hexact : clocks = 80070 + 52 / 100 := by norm_num [clocks]
  have hlo : 80070 ≤ rounded := by linarith [(abs_le.1 hclocks).1]
  have hhi : rounded ≤ 80071 := by linarith [(abs_le.1 hclocks).2]
  have hrounded : 0 < rounded := by linarith
  have hquotient : t / rounded ≤ 53641 := by
    rw [div_le_iff₀ hrounded]
    linarith
  have hnormal : 2 ^ (-20 : ℤ) ≤ t / rounded := by
    rw [le_div_iff₀ hrounded]
    norm_num
    linarith
  have hround := round_error hnormal
  have hnear := quotient_near hrounded (zero_le_one.trans hone) hclocks
  calc |binary64.round (t / rounded) - t / clocks|
      ≤ |binary64.round (t / rounded) - t / rounded| + |t / rounded - t / clocks| :=
        abs_sub_le _ _ _
    _ ≤ t / rounded * 2 ^ (-53 : ℤ) + t / rounded * (1 / 10 ^ 13) := add_le_add hround hnear
    _ < 1 / 8007052 := by
        norm_num
        linarith

theorem floor_lines (tex : UInt32) (h : ¬ 8007052 ∣ 100 * tex.toNat) :
    ⌊lines tex⌋₊ = 100 * tex.toNat / 8007052 := by
  have hnear := abs_lt.1 (lines_near tex)
  have hdiv := Nat.div_add_mod (100 * tex.toNat) 8007052
  have hpart : 1 ≤ 100 * tex.toNat % 8007052 := by
    rw [Nat.dvd_iff_mod_eq_zero] at h
    omega
  have hrest : 100 * tex.toNat % 8007052 + 1 ≤ 8007052 := Nat.mod_lt _ (by decide)
  generalize 100 * tex.toNat / 8007052 = k at *
  generalize 100 * tex.toNat % 8007052 = part at *
  have hexact : tex.toNat / clocks = k + part / 8007052 := by
    have hcast : (8007052 * k + part : ℚ) = 100 * tex.toNat := by exact_mod_cast hdiv
    rw [div_clocks, ← hcast]
    ring
  have hpart : (1 : ℚ) ≤ part := by exact_mod_cast hpart
  have hrest : (part : ℚ) + 1 ≤ 8007052 := by exact_mod_cast hrest
  rw [hexact] at hnear
  have hk : (0 : ℚ) ≤ k := Nat.cast_nonneg k
  rw [Nat.floor_eq_iff (by linarith)]
  constructor <;> linarith

theorem frameLines_le_lines_iff (tex : UInt32) :
    1248 ≤ ⌊lines tex⌋₊ ↔ 99928009 ≤ tex.toNat := by
  have hnear := abs_lt.1 (lines_near tex)
  rw [div_clocks] at hnear
  rw [Nat.le_floor_iff' (by decide)]
  push_cast
  constructor
  · intro hfull
    by_contra hlt
    have hlt : (tex.toNat : ℚ) ≤ 99928008 := by exact_mod_cast (by omega : tex.toNat ≤ 99928008)
    linarith
  · intro htex
    have htex : (99928009 : ℚ) ≤ tex.toNat := by exact_mod_cast htex
    linarith

theorem exposure_eq (t : ℕ) : exposure t = min 1248 (t * 100000000 / 8007052) := by
  have hdiv : (t * 10 ^ 6 / (1922 * (4166 / 100)) : ℚ) = (t * 100000000 : ℕ) / (8007052 : ℕ) := by
    push_cast
    ring
  rw [exposure, hdiv, Nat.floor_div_eq_div]

theorem exposure_eq_zero_iff (t : ℕ) : exposure t = 0 ↔ t = 0 := by
  rw [exposure_eq]
  omega

theorem tex_toNat (timeMs : UInt32) :
    (tex timeMs).toNat = timeMs.toNat * 1000000 % 4294967296 := by
  rw [tex, UInt32.toNat_mul]
  rfl

theorem floor_lines_lt (tex : UInt32) : ⌊lines tex⌋₊ < 65536 := by
  have hnear := abs_lt.1 (lines_near tex)
  have htex : (tex.toNat : ℚ) < 2 ^ 32 := by exact_mod_cast tex.toNat_lt
  rw [div_clocks] at hnear
  rw [Nat.floor_lt' (by decide)]
  push_cast
  linarith

/-- The sixteen bits hold the quotient, so that nothing is lost before `MIN`. -/
theorem aec_toNat (timeMs : UInt32) :
    (aec timeMs).toNat = min ⌊lines (tex timeMs)⌋₊ 1248 := by
  have hlt := floor_lines_lt (tex timeMs)
  have hofNat : (UInt16.ofNat ⌊lines (tex timeMs)⌋₊).toNat = ⌊lines (tex timeMs)⌋₊ :=
    UInt16.toNat_ofNat_of_lt' hlt
  have hframe : frameLines.toNat = 1248 := rfl
  rw [aec, UInt16.min_def]
  split_ifs with hle
  · rw [UInt16.le_iff_toNat_le, hofNat, hframe] at hle
    rw [hofNat, min_eq_left hle]
  · rw [UInt16.le_iff_toNat_le, hofNat, hframe] at hle
    rw [hframe, min_eq_right (by omega)]

/-- The product of a time that fits is never a whole number of lines. -/
theorem not_dvd_tex (hpos : t ≠ 0) (h : t ≤ 4294) : ¬ 8007052 ∣ 100 * (t * 1000000) := by
  intro hdvd
  have hfactor : 2001763 ∣ 100000000 * t := by
    have hcomm : 100 * (t * 1000000) = 100000000 * t := by ring
    rw [← hcomm]
    exact dvd_trans ⟨4, rfl⟩ hdvd
  have hcoprime : Nat.Coprime 2001763 100000000 := by norm_num
  have hle := Nat.le_of_dvd (Nat.pos_of_ne_zero hpos) (hcoprime.dvd_of_dvd_mul_left hfactor)
  exact absurd (hle.trans h) (by decide)

theorem aec_zero : (aec 0).toNat = 0 := by
  have htex : (tex 0).toNat = 0 := rfl
  simp [aec_toNat, lines, htex]

/-- The register value is that of the exact quotient just where the product is right, or
large enough. -/
theorem aec_eq_iff (timeMs : UInt32) :
    (aec timeMs).toNat = exposure timeMs.toNat ↔ timeMs = 0 ∨ FullTime timeMs := by
  by_cases hzero : timeMs = 0
  · simp [hzero, aec_zero, exposure]
  have hpos : timeMs.toNat ≠ 0 := fun h => hzero (UInt32.toNat_inj.1 h)
  have hfull := frameLines_le_lines_iff (tex timeMs)
  have hfloor := floor_lines (tex timeMs)
  rw [tex_toNat] at hfull hfloor
  rw [aec_toNat, exposure_eq, FullTime]
  by_cases hfits : timeMs.toNat ≤ 4294
  · rw [Nat.mod_eq_of_lt (by omega)] at hfloor
    have hcomm : 100 * (timeMs.toNat * 1000000) = timeMs.toNat * 100000000 := by ring
    rw [hfloor (not_dvd_tex hpos hfits), hcomm, min_comm]
    simp only [hfits, true_or, or_true]
  · have hlong : 1248 ≤ timeMs.toNat * 100000000 / 8007052 :=
      (Nat.le_div_iff_mul_le (by decide)).2 (by omega)
    rw [min_eq_left hlong, min_eq_right_iff, hfull]
    simp only [hzero, hfits, false_or]

@[simp] theorem wrSensorReg8_bank (s : Sensor) (v : UInt8) :
    s.wrSensorReg8 0xff v = { s with bank := v } := by
  simp [Sensor.wrSensorReg8]

/-- Reading a register of the bank of the exposure and writing it back changes that one. -/
theorem update_eq (r : UInt8) (f : UInt8 → UInt8) (hbank : s.bank = 1) (hr : r ≠ 0xff) :
    (s.wrSensorReg8 r (f (s.rdSensorReg8 r))).bank = 1 ∧
      ∀ q, (s.wrSensorReg8 r (f (s.rdSensorReg8 r))).reg q =
        if q = r then f (s.reg r) else s.reg q := by
  simp [Sensor.wrSensorReg8, Sensor.rdSensorReg8, Sensor.reg, hbank, hr]

theorem enableAecAgc_false (s : Sensor) : s.enableAecAgc false = { s with bank := 1 } := by
  simp [Sensor.enableAecAgc]

theorem or_and (x y k : UInt8) : (x ||| y) &&& k = x &&& k ||| y &&& k :=
  UInt8.toBitVec_inj.1 BitVec.and_or_distrib_right

theorem enableAecAgc_true (s : Sensor) : (s.enableAecAgc true).Automatic := by
  have hreg := (update_eq (s := { s with bank := 1 }) 0x13
    (fun temp => temp ||| (1 : UInt8) <<< 0 ||| (1 : UInt8) <<< 2) rfl (by decide)).2 0x13
  rw [if_pos rfl] at hreg
  have hset : (s.enableAecAgc true).reg 0x13 =
      s.reg 0x13 ||| (1 : UInt8) <<< 0 ||| (1 : UInt8) <<< 2 := by
    rw [Sensor.enableAecAgc, wrSensorReg8_bank, wrSensorReg8_bank, if_pos rfl]
    exact hreg
  rw [Sensor.Automatic, hset]
  simp [or_and]

theorem manualExposure_reg (h : aec timeMs ≠ 0) (q : UInt8) :
    (manualExposure s timeMs).reg q =
      if q = 0x45 then s.reg 0x45 &&& (0xE0 : UInt8) ||| (aec timeMs >>> 10 &&& 0x3f).toUInt8
      else if q = 0x10 then (aec timeMs >>> 2 &&& 0xff).toUInt8
      else if q = 0x04 then s.reg 0x04 &&& (0xFC : UInt8) ||| (aec timeMs &&& 0x3).toUInt8
      else s.reg q := by
  rw [manualExposure, if_pos h, enableAecAgc_false]
  simp only [wrSensorReg8_bank]
  generalize aec timeMs = e
  obtain ⟨bank₁, reg₁⟩ := update_eq (s := { s with bank := 1 }) 0x04
    (fun temp => temp &&& (0xFC : UInt8) ||| (e &&& 0x3).toUInt8) rfl (by decide)
  obtain ⟨bank₂, reg₂⟩ := update_eq 0x10
    (fun temp => temp &&& (0 : UInt8) ||| (e >>> 2 &&& 0xff).toUInt8) bank₁ (by decide)
  obtain ⟨-, reg₃⟩ := update_eq 0x45
    (fun temp => temp &&& (0xE0 : UInt8) ||| (e >>> 10 &&& 0x3f).toUInt8) bank₂ (by decide)
  have hsame : ∀ r, Sensor.reg { s with bank := 1 } r = s.reg r := fun r => rfl
  refine (reg₃ q).trans ?_
  simp only [reg₂, reg₁, hsame]
  simp

/-- The bits of the exposure, put together again. -/
theorem toNat_split (e : UInt16) :
    (e &&& 0x3).toUInt8.toNat + 4 * (e >>> 2 &&& 0xff).toUInt8.toNat +
      1024 * (e >>> 10 &&& 0x3f).toUInt8.toNat = e.toNat := by
  have hlt := e.toNat_lt
  have h₁ : e.toNat &&& 3 = e.toNat % 4 := Nat.and_two_pow_sub_one_eq_mod _ 2
  have h₂ : e.toNat >>> 2 &&& 255 = e.toNat >>> 2 % 256 := Nat.and_two_pow_sub_one_eq_mod _ 8
  have h₃ : e.toNat >>> 10 &&& 63 = e.toNat >>> 10 % 64 := Nat.and_two_pow_sub_one_eq_mod _ 6
  simp only [UInt16.toNat_toUInt8, UInt16.toNat_and, UInt16.toNat_shiftRight]
  simp [h₁, h₂, h₃]
  simp only [Nat.shiftRight_eq_div_pow]
  omega

theorem and_bit5 (x : UInt8) : x &&& 0x20 = 0 ∨ x &&& 0x20 = 0x20 := by
  have hbits : ∀ b : BitVec 8, b &&& 0x20 = 0 ∨ b &&& 0x20 = 0x20 := by decide
  exact (hbits x.toBitVec).imp (fun h => UInt8.toBitVec_inj.1 h) fun h => UInt8.toBitVec_inj.1 h

/-- Of the exposure, one bit at most is in the third register. -/
theorem third_bits {e : UInt16} (h : e.toNat ≤ 1248) :
    (e >>> 10 &&& 0x3f).toUInt8 = 0 ∨ (e >>> 10 &&& 0x3f).toUInt8 = 1 := by
  have hsplit := toNat_split e
  have hcases : (e >>> 10 &&& 0x3f).toUInt8.toNat = 0 ∨ (e >>> 10 &&& 0x3f).toUInt8.toNat = 1 := by
    omega
  exact hcases.imp (fun h => UInt8.toNat_inj.1 h) fun h => UInt8.toNat_inj.1 h

theorem aec_le (timeMs : UInt32) : (aec timeMs).toNat ≤ 1248 := by
  rw [aec_toNat]
  exact min_le_right _ _

theorem and_mask (x : UInt8) {m n k : UInt8} (h : m &&& n = k) : x &&& m &&& n = x &&& k := by
  rw [UInt8.and_assoc, h]

theorem manualExposure_first (h : aec timeMs ≠ 0) :
    (manualExposure s timeMs).reg 0x04 =
      s.reg 0x04 &&& (0xFC : UInt8) ||| (aec timeMs).toUInt8 &&& 0x3 := by
  rw [manualExposure_reg h]
  simp

theorem manualExposure_third (h : aec timeMs ≠ 0) :
    (manualExposure s timeMs).reg 0x45 =
      s.reg 0x45 &&& (0xE0 : UInt8) ||| (aec timeMs >>> 10 &&& 0x3f).toUInt8 := by
  rw [manualExposure_reg h, if_pos rfl]

/-- Put together, the registers hold the exposure, and bit 5 of the third one as it was. -/
theorem manualExposure_reassembled (h : aec timeMs ≠ 0) :
    (manualExposure s timeMs).reassembled =
      (aec timeMs).toNat + 1024 * (s.reg 0x45 &&& 0x20).toNat := by
  have hsplit := toNat_split (aec timeMs)
  have hfirst : (manualExposure s timeMs).reg 0x04 &&& 0x03 = (aec timeMs &&& 0x3).toUInt8 := by
    rw [manualExposure_first h, or_and, and_mask (k := 0) _ rfl, and_mask (k := 3) _ rfl]
    simp
  have hsecond : (manualExposure s timeMs).reg 0x10 = (aec timeMs >>> 2 &&& 0xff).toUInt8 := by
    rw [manualExposure_reg h, if_neg (by decide), if_pos rfl]
  have hthird : ((manualExposure s timeMs).reg 0x45 &&& 0x3f).toNat =
      (s.reg 0x45 &&& 0x20).toNat + (aec timeMs >>> 10 &&& 0x3f).toUInt8.toNat := by
    rw [manualExposure_third h, or_and, and_mask (k := 0x20) _ rfl]
    rcases and_bit5 (s.reg 0x45) with hbit | hbit <;>
      rcases third_bits (aec_le timeMs) with hlow | hlow <;>
      rw [hbit, hlow] <;> rfl
  rw [Sensor.reassembled, hfirst, hsecond, hthird]
  omega

theorem manualExposure_upper (h : aec timeMs ≠ 0) :
    (manualExposure s timeMs).reg 0x04 &&& 0xFC = s.reg 0x04 &&& 0xFC ∧
      (manualExposure s timeMs).reg 0x45 &&& 0xE0 = s.reg 0x45 &&& 0xE0 := by
  constructor
  · rw [manualExposure_first h, or_and, and_mask (k := 0xFC) _ rfl, and_mask (k := 0) _ rfl]
    simp
  · rw [manualExposure_third h, or_and, and_mask (k := 0xE0) _ rfl]
    rcases third_bits (aec_le timeMs) with hlow | hlow <;> rw [hlow]
    · simp
    · exact UInt8.or_zero

theorem manualExposure_automatic (h : aec timeMs ≠ 0) :
    (manualExposure s timeMs).Automatic ↔ s.Automatic := by
  rw [Sensor.Automatic, Sensor.Automatic, manualExposure_reg h, if_neg (by decide),
    if_neg (by decide), if_neg (by decide)]

theorem manualExposure_none (h : aec timeMs = 0) : (manualExposure s timeMs).Automatic := by
  rw [manualExposure, if_neg (not_not_intro h)]
  exact enableAecAgc_true s

theorem exposure_le (t : ℕ) : exposure t ≤ 1248 := min_le_left _ _

theorem sets_iff_of_ne (h : aec timeMs ≠ 0) (hpos : 0 < exposure timeMs.toNat) :
    Sets s timeMs (manualExposure s timeMs) ↔
      (aec timeMs).toNat = exposure timeMs.toNat ∧ Ready s := by
  have hvalue := manualExposure_reassembled (s := s) h
  have hauto := manualExposure_automatic (s := s) h
  have hle := exposure_le timeMs.toNat
  constructor
  · intro hsets
    have hreassembled := hsets.value hpos
    rcases and_bit5 (s.reg 0x45) with hbit | hbit
    · rw [hbit, UInt8.toNat_zero, mul_zero, add_zero] at hvalue
      refine ⟨hvalue.symm.trans hreassembled, fun h => ?_, hbit⟩
      exact hpos.ne' (hsets.automatic.1 (hauto.2 h))
    · have hlarge : (0x20 : UInt8).toNat = 32 := rfl
      rw [hbit, hlarge] at hvalue
      omega
  · rintro ⟨hlines, hmanual, hbit⟩
    rw [hbit, hlines, UInt8.toNat_zero, mul_zero, add_zero] at hvalue
    refine ⟨fun _ => hvalue, fun _ => manualExposure_upper h, ?_⟩
    exact iff_of_false (mt hauto.1 hmanual) hpos.ne'

/-- An exposure time is set as it is meant just where it is none, or where the product is
right and the sensor was ready. -/
theorem sets_iff (s : Sensor) (timeMs : UInt32) :
    Sets s timeMs (manualExposure s timeMs) ↔ Settable s timeMs := by
  have haec := aec_eq_iff timeMs
  have hzero : exposure timeMs.toNat = 0 ↔ timeMs = 0 := by
    rw [exposure_eq_zero_iff, ← UInt32.toNat_inj, UInt32.toNat_zero]
  by_cases htime : timeMs = 0
  · have hexposure := hzero.2 htime
    have hnone : aec timeMs = 0 := UInt16.toNat_inj.1 ((haec.2 (.inl htime)).trans hexposure)
    refine iff_of_true ⟨fun h => ?_, fun h => ?_, ?_⟩ (.inl htime)
    · exact absurd hexposure h.ne'
    · exact absurd hexposure h.ne'
    · exact iff_of_true (manualExposure_none hnone) hexposure
  have hpos : 0 < exposure timeMs.toNat := Nat.pos_of_ne_zero (mt hzero.1 htime)
  simp only [Settable, htime, false_or] at haec ⊢
  by_cases hnone : aec timeMs = 0
  · have hfull : ¬ FullTime timeMs := by
      rw [← haec, hnone, UInt16.toNat_zero]
      exact hpos.ne
    refine iff_of_false (fun hsets => ?_) fun h => hfull h.1
    exact hpos.ne' (hsets.automatic.1 (manualExposure_none hnone))
  · rw [sets_iff_of_ne hnone hpos, haec]

theorem exposure_mono {t' : ℕ} (h : t ≤ t') : exposure t ≤ exposure t' := by
  rw [exposure_eq, exposure_eq]
  exact min_le_min_left _ (Nat.div_le_div_right (Nat.mul_le_mul_right _ h))

theorem Sets.programmed_eq {s' : Sensor} (h : Sets s timeMs s') :
    s'.programmed = exposure timeMs.toNat := by
  rw [Sensor.programmed]
  split_ifs with hauto
  · exact (h.automatic.1 hauto).symm
  · exact h.value (Nat.pos_of_ne_zero (mt h.automatic.2 hauto))

/-- Which times are set as they are meant, and that a longer one of them is never set to
less. -/
theorem manualExposure_sets_iff (s : Sensor) (timeMs : UInt32) :
    (Sets s timeMs (manualExposure s timeMs) ↔ Settable s timeMs) ∧
      ∀ s' timeMs', Settable s timeMs → Settable s' timeMs' → timeMs ≤ timeMs' →
        (manualExposure s timeMs).programmed ≤ (manualExposure s' timeMs').programmed := by
  refine ⟨sets_iff s timeMs, fun s' timeMs' h h' hle => ?_⟩
  rw [((sets_iff s timeMs).2 h).programmed_eq, ((sets_iff s' timeMs').2 h').programmed_eq]
  exact exposure_mono (UInt32.le_iff_toNat_le.1 hle)

def clearSensor : Sensor := ⟨0, fun _ _ => 0⟩

theorem manualExposure_sets_iff_clear :
    (manualExposure clearSensor 10).programmed ≤ (manualExposure clearSensor 20).programmed :=
  (manualExposure_sets_iff clearSensor 10).2 _ _ (by decide) (by decide) (by decide)

/-- The product of a time over four seconds is cut to less than a line. -/
theorem overlong_time_unset : ¬ Sets clearSensor 4295 (manualExposure clearSensor 4295) :=
  fun h => absurd ((sets_iff _ _).1 h) (by decide)

end Heaty.Exposure
