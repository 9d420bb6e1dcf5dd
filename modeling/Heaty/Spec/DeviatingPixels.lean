import Mathlib.Tactic
import Heaty.Spec.Mlx90640

/-! The broken and the outlier pixels of the sensor: `ExtractDeviatingPixels` of
MLX90640_API.cpp, which reads them from the EEPROM, and `MLX90640_BadPixelsCorrection`, which
makes up their temperatures from those around them. -/

namespace Heaty.Mlx90640

/-- `brokenPixels` and `outlierPixels` of `paramsMLX90640`, five entries each. -/
structure PixelLists where
  brokenPixels : List ℕ
  outlierPixels : List ℕ
  deriving DecidableEq

/-- An entry that no pixel is stored in. -/
def noPixel : ℕ := 0xFFFF

/-! ## `ExtractDeviatingPixels` -/

/-- The locals and lists of `ExtractDeviatingPixels` in its loop over the pixels. -/
structure Scan where
  pixCnt : ℕ
  brokenPixCnt : ℕ
  outlierPixCnt : ℕ
  pixels : PixelLists

def Scan.start : Scan := ⟨0, 0, 0, List.replicate 5 noPixel, List.replicate 5 noPixel⟩

/-- The loop's body. -/
def Scan.next (eeData : ℕ → ℕ) (s : Scan) : Scan :=
  if eeData (s.pixCnt + 64) = 0 then
    { s with
      pixels := { s.pixels with brokenPixels := s.pixels.brokenPixels.set s.brokenPixCnt s.pixCnt }
      brokenPixCnt := s.brokenPixCnt + 1
      pixCnt := s.pixCnt + 1 }
  else if eeData (s.pixCnt + 64) &&& 0x0001 ≠ 0 then
    { s with
      pixels :=
        { s.pixels with outlierPixels := s.pixels.outlierPixels.set s.outlierPixCnt s.pixCnt }
      outlierPixCnt := s.outlierPixCnt + 1
      pixCnt := s.pixCnt + 1 }
  else { s with pixCnt := s.pixCnt + 1 }

/-- The loop; it goes round at most once for each pixel. -/
def Scan.run (eeData : ℕ → ℕ) : ℕ → Scan → Scan
  | 0, s => s
  | rounds + 1, s =>
      if s.pixCnt < 768 ∧ s.brokenPixCnt < 5 ∧ s.outlierPixCnt < 5 then
        (s.next eeData).run eeData rounds
      else s

/-- `CheckAdjacentPixels`. -/
def checkAdjacentPixels (pix1 pix2 : ℕ) : ℤ :=
  let pixPosDif : ℤ := pix1 - pix2
  if -34 < pixPosDif ∧ pixPosDif < -30 then -6
  else if -2 < pixPosDif ∧ pixPosDif < 2 then -6
  else if 30 < pixPosDif ∧ pixPosDif < 34 then -6
  else 0

/-- Calls of `CheckAdjacentPixels` up to the first that warns. -/
def firstWarn : List (ℕ × ℕ) → ℤ
  | [] => 0
  | (pix1, pix2) :: rest =>
      let warn := checkAdjacentPixels pix1 pix2
      if warn ≠ 0 then warn else firstWarn rest

/-- The pairs of one list, each once. -/
def pairsIn (pixels : List ℕ) (cnt : ℕ) : List (ℕ × ℕ) :=
  (List.range cnt).flatMap fun pixCnt =>
    (List.range' (pixCnt + 1) (cnt - (pixCnt + 1))).map fun i =>
      (pixels.getD pixCnt 0, pixels.getD i 0)

/-- The pairs of two lists. -/
def pairsOf (pixels : List ℕ) (cnt : ℕ) (others : List ℕ) (otherCnt : ℕ) : List (ℕ × ℕ) :=
  (List.range cnt).flatMap fun pixCnt =>
    (List.range otherCnt).map fun i => (pixels.getD pixCnt 0, others.getD i 0)

/-- `ExtractDeviatingPixels`: what it returns, and the lists. -/
def extractDeviatingPixels (eeData : ℕ → ℕ) : ℤ × PixelLists :=
  let s := Scan.start.run eeData 768
  let brokenPixels := s.pixels.brokenPixels
  let outlierPixels := s.pixels.outlierPixels
  let warn :=
    if s.brokenPixCnt > 4 then -3
    else if s.outlierPixCnt > 4 then -4
    else if s.brokenPixCnt + s.outlierPixCnt > 4 then -5
    else
      firstWarn (pairsIn brokenPixels s.brokenPixCnt ++ pairsIn outlierPixels s.outlierPixCnt ++
        pairsOf brokenPixels s.brokenPixCnt outlierPixels s.outlierPixCnt)
  (warn, s.pixels)

/-! ## `MLX90640_BadPixelsCorrection` -/

/-- `IsPixelBad`. -/
def isPixelBad (pixel : ℕ) (params : PixelLists) : Bool :=
  (List.range 5).any fun i =>
    pixel = params.outlierPixels.getD i 0 ∨ pixel = params.brokenPixels.getD i 0

/-- The operations on a `float` that are used; `half` divides by two. -/
structure FloatOps (V : Type) where
  lt : V → V → Bool
  add : V → V → V
  sub : V → V → V
  half : V → V
  fabs : V → V

variable {V : Type}

/-- The body of `GetMedian`'s loops: two values that are out of order change places. -/
def exchange (ops : FloatOps V) (i : ℕ) (values : List V) (j : ℕ) : List V :=
  match values[i]?, values[j]? with
  | some x, some y => if ops.lt y x then (values.set i y).set j x else values
  | _, _ => values

/-- The loops of `GetMedian`. -/
def sortValues (ops : FloatOps V) (values : List V) : List V :=
  (List.range (values.length - 1)).foldl
    (fun sorted i =>
      (List.range' (i + 1) (values.length - (i + 1))).foldl (exchange ops i) sorted) values

/-- `GetMedian`. -/
def getMedian (ops : FloatOps V) (values : List V) : Option V :=
  let sorted := sortValues ops values
  let n := values.length
  if n % 2 = 0 then do
    let upper ← sorted[n / 2]?
    let lower ← sorted[n / 2 - 1]?
    return ops.half (ops.add upper lower)
  else sorted[n / 2]?

/-- An entry of `to`, `none` beside the map. -/
def pixelAt (toMap : Fin pixelCount → V) (pixel : ℤ) : Option V :=
  if h : 0 ≤ pixel ∧ pixel < pixelCount then some (toMap ⟨pixel.toNat, by omega⟩) else none

/-- The mean of two entries. -/
def mean (ops : FloatOps V) (toMap : Fin pixelCount → V) (pixel other : ℤ) : Option V := do
  let a ← pixelAt toMap pixel
  let b ← pixelAt toMap other
  return ops.half (ops.add a b)

/-- What the loop of `MLX90640_BadPixelsCorrection` stores in chess mode. -/
def chessCorrected (ops : FloatOps V) (toMap : Fin pixelCount → V) (pixel line column : ℕ) :
    Option V :=
  if line = 0 then
    if column = 0 then pixelAt toMap 33
    else if column = 31 then pixelAt toMap 62
    else mean ops toMap (pixel + 31) (pixel + 33)
  else if line = 23 then
    if column = 0 then pixelAt toMap 705
    else if column = 31 then pixelAt toMap 734
    else mean ops toMap (pixel - 33) (pixel - 31)
  else if column = 0 then mean ops toMap (pixel - 31) (pixel + 33)
  else if column = 31 then mean ops toMap (pixel - 33) (pixel + 31)
  else do
    let ap0 ← pixelAt toMap (pixel - 33)
    let ap1 ← pixelAt toMap (pixel - 31)
    let ap2 ← pixelAt toMap (pixel + 31)
    let ap3 ← pixelAt toMap (pixel + 33)
    getMedian ops [ap0, ap1, ap2, ap3]

/-- What it stores in interleaved mode. -/
def interleavedCorrected (ops : FloatOps V) (params : PixelLists) (toMap : Fin pixelCount → V)
    (pixel column : ℕ) : Option V :=
  if column = 0 then pixelAt toMap (pixel + 1)
  else if column = 1 ∨ column = 30 then mean ops toMap (pixel - 1) (pixel + 1)
  else if column = 31 then pixelAt toMap (pixel - 1)
  else if ¬ isPixelBad (pixel - 2) params ∧ ¬ isPixelBad (pixel + 2) params then do
    let right ← pixelAt toMap (pixel + 1)
    let right2 ← pixelAt toMap (pixel + 2)
    let left ← pixelAt toMap (pixel - 1)
    let left2 ← pixelAt toMap (pixel - 2)
    let ap0 := ops.sub right right2
    let ap1 := ops.sub left left2
    if ops.lt (ops.fabs ap1) (ops.fabs ap0) then return ops.add left ap1
    else return ops.add right ap0
  else mean ops toMap (pixel - 1) (pixel + 1)

/-- The loop's body: what is stored for a pixel. -/
def corrected (ops : FloatOps V) (mode : ℕ) (params : PixelLists) (toMap : Fin pixelCount → V)
    (pixel : ℕ) : Option V :=
  let line := pixel / 32 % 256
  let column := (pixel - 32 * line) % 256
  if mode = 1 then chessCorrected ops toMap pixel line column
  else interleavedCorrected ops params toMap pixel column

/-- `MLX90640_BadPixelsCorrection`, `none` when it leaves an array. -/
def badPixelsCorrection (ops : FloatOps V) (mode : ℕ) (params : PixelLists) :
    List ℕ → (Fin pixelCount → V) → Option (Fin pixelCount → V)
  | [], _ => none
  | pixel :: pixels, toMap =>
      if pixel = noPixel then some toMap
      else do
        let value ← corrected ops mode params toMap pixel
        if h : pixel < pixelCount then
          badPixelsCorrection ops mode params pixels (Function.update toMap ⟨pixel, h⟩ value)
        else none

end Heaty.Mlx90640
