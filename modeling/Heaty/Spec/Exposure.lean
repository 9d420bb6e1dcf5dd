import Heaty.Lib.Rounding

/-! The exposure of the camera: `arducam_mini_2mp_manual_exposure` of ArducamMini2MP.c,
with the registers of the sensor that it goes through. -/

namespace Heaty.Exposure

open Rounding (binary64)

/-- The sensor: its bank of registers, which a write to 0xff selects, and what every bank
holds. -/
structure Sensor where
  bank : UInt8
  regs : UInt8 → UInt8 → UInt8

variable (s : Sensor)

namespace Sensor

/-- `arducam_wrSensorReg8_8`. -/
def wrSensorReg8 (regID regDat : UInt8) : Sensor :=
  if regID = 0xff then { s with bank := regDat }
  else { s with regs := fun b r => if b = s.bank ∧ r = regID then regDat else s.regs b r }

/-- `arducam_rdSensorReg8_8`. -/
def rdSensorReg8 (regID : UInt8) : UInt8 := if regID = 0xff then s.bank else s.regs s.bank regID

/-- `arducam_mini_2mp_enable_aec_agc`; when it disables, what it has cleared stays in
`temp`. -/
def enableAecAgc (enable : Bool) : Sensor :=
  let s := s.wrSensorReg8 0xff 0x01
  let temp := s.rdSensorReg8 0x13
  let s :=
    if enable then s.wrSensorReg8 0x13 (temp ||| (1 : UInt8) <<< 0 ||| (1 : UInt8) <<< 2) else s
  s.wrSensorReg8 0xff 0x01

end Sensor

/-- `IMAGE_WIDTH` and `HORIZONTAL_CLOCK_BLANKING`. -/
def lineClocks : ℕ := 1600 + 322

/-- `IMAGE_HEIGHT` and `VERTICAL_LINE_BLANKING`. -/
def frameLines : UInt16 := 1200 + 48

/-- `tex`, a product of 32 bits. -/
def tex (timeMs : UInt32) : UInt32 := timeMs * 1000000

/-- The quotient that `AEC` is taken from, in `double`. -/
def lines (tex : UInt32) : ℚ :=
  let clocks : ℚ := lineClocks * binary64.round (4166 / 100)
  binary64.round (tex.toNat / binary64.round clocks)

/-- `AEC`, after `MIN`. -/
def aec (timeMs : UInt32) : UInt16 := min (UInt16.ofNat ⌊lines (tex timeMs)⌋₊) frameLines

/-- `arducam_mini_2mp_manual_exposure`. -/
def manualExposure (timeMs : UInt32) : Sensor :=
  let AEC := aec timeMs
  if AEC ≠ 0 then
    let exposure1 := (AEC &&& 0x3).toUInt8
    let exposure2 := (AEC >>> 2 &&& 0xff).toUInt8
    let exposure3 := (AEC >>> 10 &&& 0x3f).toUInt8
    let s := s.enableAecAgc false
    let s := s.wrSensorReg8 0xff 0x01
    let s := s.wrSensorReg8 0x04 (s.rdSensorReg8 0x04 &&& 0xFC ||| exposure1)
    let s := s.wrSensorReg8 0x10 (s.rdSensorReg8 0x10 &&& 0 ||| exposure2)
    s.wrSensorReg8 0x45 (s.rdSensorReg8 0x45 &&& 0xE0 ||| exposure3)
  else s.enableAecAgc true

/-- The lines that a time stands for, computed exactly. -/
def exposure (timeMs : ℕ) : ℕ := min 1248 ⌊(timeMs * 10 ^ 6 / (1922 * (4166 / 100)) : ℚ)⌋₊

namespace Sensor

/-- A register of the bank that the exposure is in. -/
def reg (r : UInt8) : UInt8 := s.regs 1 r

/-- The sensor chooses the exposure by itself. -/
def Automatic : Prop := s.reg 0x13 &&& 0x01 ≠ 0

instance : Decidable s.Automatic := inferInstanceAs (Decidable (_ ≠ _))

/-- The exposure, put together from the registers that hold its bits 1 to 0, 9 to 2 and
15 to 10. -/
def reassembled : ℕ :=
  (s.reg 0x04 &&& 0x03).toNat + 4 * (s.reg 0x10).toNat + 1024 * (s.reg 0x45 &&& 0x3f).toNat

/-- The exposure that is in force: none when it is automatic. -/
def programmed : ℕ := if s.Automatic then 0 else s.reassembled

end Sensor

/-- What setting an exposure time is to leave in the sensor. -/
structure Sets (s : Sensor) (timeMs : UInt32) (s' : Sensor) : Prop where
  value : 0 < exposure timeMs.toNat → s'.reassembled = exposure timeMs.toNat
  upper : 0 < exposure timeMs.toNat →
    s'.reg 0x04 &&& 0xFC = s.reg 0x04 &&& 0xFC ∧ s'.reg 0x45 &&& 0xE0 = s.reg 0x45 &&& 0xE0
  automatic : s'.Automatic ↔ exposure timeMs.toNat = 0

/-- The product fits, or what is left of it still stands for a whole frame. -/
def FullTime (timeMs : UInt32) : Prop :=
  timeMs.toNat ≤ 4294 ∨ 99928009 ≤ timeMs.toNat * 1000000 % 4294967296

instance (timeMs : UInt32) : Decidable (FullTime timeMs) := inferInstanceAs (Decidable (_ ∨ _))

/-- Nothing of the sensor's earlier state is in the way: it was not automatic, and bit 5 of
the third register was clear. -/
def Ready (s : Sensor) : Prop := ¬ s.Automatic ∧ s.reg 0x45 &&& 0x20 = 0

instance (s : Sensor) : Decidable (Ready s) := inferInstanceAs (Decidable (_ ∧ _))

/-- The times that a sensor takes as they are meant. -/
def Settable (s : Sensor) (timeMs : UInt32) : Prop := timeMs = 0 ∨ FullTime timeMs ∧ Ready s

instance (s : Sensor) (timeMs : UInt32) : Decidable (Settable s timeMs) :=
  inferInstanceAs (Decidable (_ ∨ _))

end Heaty.Exposure
