import Mathlib.Tactic

/-! sensor_mlx90640.cpp and what it calls of MLX90640_API.cpp: a heat map is put together
from two frames of the sensor. A pixel's temperature is what the vendor's formula makes
of a frame. -/

namespace Heaty.Mlx90640

/-- `mlx90640Frame`, word by word. -/
abbrev Frame := ℕ → ℕ

/-- What the sensor answers during a call of `MLX90640_GetFrameData` once it has data
ready, `none` for a read that is not acknowledged. -/
structure Bus where
  statusRegister : Option ℕ
  statusWritten : Bool
  pixels : Option (ℕ → ℕ)
  aux : Option (ℕ → ℕ)
  controlRegister1 : Option ℕ

/-- The number of pixels, and the words of a frame behind them. -/
def pixelCount : ℕ := 768
def auxCount : ℕ := 64
def controlWord : ℕ := 832
def subPageWord : ℕ := 833

/-- The words that `ValidateAuxData` looks at. -/
def auxChecked : List ℕ :=
  0 :: (List.range' 8 11 ++ List.range' 20 3 ++ List.range' 24 9 ++ List.range' 40 11 ++
    List.range' 52 3 ++ List.range' 56 8)

/-- `ValidateAuxData`. -/
def validateAuxData (auxData : ℕ → ℕ) : ℤ :=
  if auxChecked.any fun i => auxData i = 0x7FFF then -8 else 0

/-- `ValidateFrameData`. -/
def validateFrameData (frameData : Frame) : ℤ :=
  if (List.range 24).any fun line =>
      frameData (32 * line) = 0x7FFF ∧ line % 2 = frameData subPageWord then -8
  else 0

/-- Words of a frame from `start` on, overwritten by others. -/
def storeWords (frameData : Frame) (start count : ℕ) (words : ℕ → ℕ) : Frame := fun i =>
  if start ≤ i ∧ i < start + count then words (i - start) else frameData i

/-- The frame that a call of `MLX90640_GetFrameData` puts together. Auxiliary words that
are not valid are not taken over. -/
def assemble (frameData : Frame) (pixels data : ℕ → ℕ) (controlRegister1 statusRegister : ℕ) :
    Frame :=
  let frameData := storeWords frameData 0 pixelCount pixels
  let frameData := Function.update frameData controlWord controlRegister1
  let frameData := Function.update frameData subPageWord (statusRegister % 2)
  if validateAuxData data = 0 then storeWords frameData pixelCount auxCount data else frameData

/-- `MLX90640_GetFrameData`: its result, and the frame. -/
def getFrameData (bus : Bus) (frameData : Frame) : ℤ × Frame :=
  match bus.statusRegister, bus.pixels, bus.aux, bus.controlRegister1 with
  | some statusRegister, some pixels, some data, some controlRegister1 =>
      let frame := assemble frameData pixels data controlRegister1 statusRegister
      if ¬ bus.statusWritten then (-1, frameData)
      else if validateFrameData frame ≠ 0 then (validateFrameData frame, frame)
      else (frame subPageWord, frame)
  -- what a call that fails has stored by then is not used
  | _, _, _, _ => (-1, frameData)

/-- The patterns of `MLX90640_CalculateTo`. -/
def ilPattern (pixelNumber : ℕ) : ℕ := pixelNumber / 32 - pixelNumber / 64 * 2

def chessPattern (pixelNumber : ℕ) : ℕ :=
  ilPattern pixelNumber ^^^ (pixelNumber - pixelNumber / 2 * 2)

/-- `mode` of `MLX90640_CalculateTo`. -/
def mode (frameData : Frame) : ℕ := (frameData controlWord &&& 0x1000) >>> 5

def pattern (mode pixelNumber : ℕ) : ℕ :=
  if mode = 0 then ilPattern pixelNumber else chessPattern pixelNumber

variable {V : Type}

/-- The block for the heat map, `none` for an entry that nothing was stored in. -/
abbrev HeatMap (V : Type) := Fin pixelCount → Option V

/-- `MLX90640_CalculateTo`. -/
def calculateTo (temperature : Frame → Fin pixelCount → V) (frameData : Frame)
    (result : HeatMap V) : HeatMap V := fun pixelNumber =>
  if pattern (mode frameData) pixelNumber = frameData subPageWord then
    some (temperature frameData pixelNumber)
  else result pixelNumber

/-- `HEAT_MAP_DATA_SIZE`. -/
def heatMapDataSize : ℕ := 4 * 24 * 32

/-- The loop of `read_heat_map`, and whether it came to its end. -/
def readPages (temperature : Frame → Fin pixelCount → V) :
    List Bus → Frame → HeatMap V → Bool × HeatMap V
  | [], _, heatMap => (true, heatMap)
  | bus :: pages, frameData, heatMap =>
      let frame := getFrameData bus frameData
      if frame.1 < 0 then (false, heatMap)
      else readPages temperature pages frame.2 (calculateTo temperature frame.2 heatMap)

/-- The arguments of `notify_heatMap_cb`. -/
structure Notified (V : Type) where
  heatMap : Option (HeatMap V)
  size : ℕ

/-- `read_heat_map`. The frame is not initialised. -/
def readHeatMap (temperature : Frame → Fin pixelCount → V) (allocated : Bool) (garbage : Frame)
    (first second : Bus) : Notified V :=
  if allocated then
    let pages := readPages temperature [first, second] garbage fun _ => none
    ⟨some pages.2, if pages.1 then heatMapDataSize else 0⟩
  else ⟨none, 0⟩

/-- What `notify_heatMap_cb` of sensors_module.c submits. -/
inductive Submitted (V : Type)
  | heatMapDataReady (heatMap : HeatMap V)
  | error (err : ℤ)

/-- `notify_heatMap_cb`; `none` when it follows a NULL pointer. -/
def notifyHeatMapCb (notified : Notified V) : Option (Submitted V) :=
  if notified.size ≠ 0 then notified.heatMap.map .heatMapDataReady else some (.error (-1))

end Heaty.Mlx90640
