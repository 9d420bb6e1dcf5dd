import Heaty.Lib.FixedPoint
import Heaty.Spec.Utils

/-! The heat-map conversions of utils.c over exact values, `HeatmapToBase64Image`, and
what analysis_module.c does with a heat map that came over the line. -/

namespace Heaty.HeatMap

open FixedPoint (clamp trunc)
open Utils (Block base64EncodeLen overwrite)

/-- `SHRT_MIN`, `SHRT_MAX` and `UCHAR_MAX`. -/
def shrtMin : ℤ := -32768
def shrtMax : ℤ := 32767
def ucharMax : ℤ := 255

/-- The `scaling` of the three conversions. -/
def scaling : ℤ := 10

/-- What an `int16_t` and an `int8_t` keep of an integer. -/
def toInt16 (n : ℤ) : ℤ := n.bmod 65536
def toInt8 (n : ℤ) : ℤ := n.bmod 256

variable {entriesCount : ℕ}

/-! ## The conversions -/

/-- An entry in `convertAndScaleHeatMap`, before it is stored. The limits are divided as
integers. -/
def scaled (t : ℚ) : ℚ :=
  scaling * clamp ((shrtMin.tdiv scaling : ℤ) : ℚ) ((shrtMax.tdiv scaling : ℤ) : ℚ) t

/-- `convertAndScaleHeatMap`. -/
def convertAndScaleHeatMap (data : Fin entriesCount → ℚ) : Fin entriesCount → ℤ :=
  fun i => toInt16 (trunc (scaled (data i)))

/-- `revertHeatMapToFloat`. -/
def revertHeatMapToFloat (data : Fin entriesCount → ℤ) : Fin entriesCount → ℚ :=
  fun i => data i / scaling

/-- An entry in `revertConvertAndScaleHeatMap`, before it is stored. -/
def degrees (entry : ℤ) : ℚ :=
  clamp (((0 * scaling : ℤ)) : ℚ) ((ucharMax * scaling : ℤ) : ℚ) entry / scaling

/-- `revertConvertAndScaleHeatMap`, whose destination is an array of `int8_t`. -/
def revertConvertAndScaleHeatMap (data : Fin entriesCount → ℤ) : Fin entriesCount → ℤ :=
  fun i => toInt8 (trunc (degrees (data i)))

/-! ## A received heat map -/

/-- An `int16_t` of the payload. -/
def int16At (data : Bytes) (i : ℕ) : ℤ :=
  toInt16 ((data.getD (2 * i) 0).toNat + 256 * (data.getD (2 * i + 1) 0).toNat)

/-- `len / sizeof(int16_t)` as an `uint16_t`. -/
def entriesOf (len : ℕ) : ℕ := len / 2 % 65536

/-- The entries of a payload as the two loops read them. -/
def entries (data : Bytes) : Fin (entriesOf data.length) → ℤ := fun i => int16At data i

/-- `struct roi`. -/
structure Roi where
  x : ℕ
  y : ℕ
  h : ℕ
  w : ℕ

/-- The regions of analysis_impl.c that are analysed. -/
inductive Region
  | gasStove
  | microwaveOven
  | disWasher
  | riceCooker
  | heater
  deriving DecidableEq

def gasStove : Roi := ⟨3, 5, 4, 4⟩
def microwaveOven : Roi := ⟨3, 5, 4, 4⟩
def disWasher : Roi := ⟨3, 5, 4, 4⟩
def riceCooker : Roi := ⟨3, 5, 4, 4⟩
def heater : Roi := ⟨3, 5, 4, 4⟩

def Region.roi : Region → Roi
  | .gasStove => HeatMap.gasStove
  | .microwaveOven => HeatMap.microwaveOven
  | .disWasher => HeatMap.disWasher
  | .riceCooker => HeatMap.riceCooker
  | .heater => HeatMap.heater

/-- The memory that is accessed: the payload, the block allocated for the heat map, and those
that `get_roi` and `get_stats` allocate for a region. -/
inductive Buffer
  | payload
  | heatMap
  | roiArea (region : Region)
  | roiStats (region : Region)
  deriving DecidableEq

/-- An access to some bytes of a buffer. -/
structure Access where
  buffer : Buffer
  pos : ℕ
  size : ℕ
  deriving DecidableEq

/-- The accesses of a loop that converts `int16_t`s to elements of this size. -/
def loopAccesses (count elemSize : ℕ) : List Access :=
  (List.range count).flatMap fun i =>
    [⟨.payload, 2 * i, 2⟩, ⟨.heatMap, elemSize * i, elemSize⟩]

/-- `HEATMAP_WIDTH`. -/
def heatmapWidth : ℕ := 32

/-- The accesses of `get_roi`, which copies the pixels of a region. -/
def getRoi (region : Region) : List Access :=
  let indices := (List.range' region.roi.y region.roi.h).flatMap fun row =>
    (List.range' region.roi.x region.roi.w).map fun col => row * heatmapWidth + col
  indices.zipIdx.flatMap fun (i, counter) =>
    [⟨.heatMap, 4 * i, 4⟩, ⟨.roiArea region, 4 * counter, 4⟩]

/-- The accesses of `get_stats`, which stores the fields `max`, `min`, `mean` and `var`. Its
`entriesCount` is an `uint16_t`. -/
def getStats (region : Region) : List Access :=
  [8, 4, 0, 12].flatMap fun field =>
    [⟨.roiArea region, 0, 4 * (region.roi.w * region.roi.h % 65536)⟩, ⟨.roiStats region, field, 4⟩]

/-- The accesses of `analyze_roi`. What it stores in the history is the whole record. -/
def analyzeRoi (region : Region) : List Access :=
  getRoi region ++ getStats region ++ [⟨.roiStats region, 0, 16⟩]

/-- The accesses of `analyze_heatmap`. -/
def analyzeHeatmap : List Access :=
  [.gasStove, .microwaveOven, .disWasher, .riceCooker, .heater].flatMap analyzeRoi

/-- The accesses of `convertBack_and_analyze`. -/
def convertBackAndAnalyze (data : Bytes) : List Access :=
  loopAccesses (entriesOf data.length) 4 ++ analyzeHeatmap

/-- The bytes of the converted heat map. -/
def greyLevels (data : Bytes) : Bytes :=
  (List.ofFn (revertConvertAndScaleHeatMap (entries data))).map UInt8.ofInt

/-- `width * height` of the image. -/
def imageSize : ℕ := 32 * 24

/-- `encode_base64`, whose `len` is an `uint16_t`: memory from the address it returns. -/
def encodeBase64 (base64 : Base64Api) (encodedData : Block) (data : Bytes) : Option Bytes :=
  let src := data.take (data.length % 65536)
  let encodedDataSize := base64EncodeLen (src.length + 1) % 65536
  let result := base64.encode (encodedDataSize + 1) src
  if result.ret ≠ 0 then none else encodedData.map (overwrite result.stored)

/-- What `HeatmapToBase64Image` meets: the build, its block and the one of
`encode_base64`, and the image `lodepng_encode_memory` makes of a text of pixels. -/
structure ImageEnv where
  thingy91 : Bool
  heatMap : Block
  encodedData : Block
  lodepng : Bytes → Option Bytes

/-- A call of `HeatmapToBase64Image`: its accesses, the pixels the encoder was given, and
what it returns, `none` for NULL. -/
structure ImageCall where
  accesses : List Access
  given : Option Bytes
  ret : Option Bytes

/-- `HeatmapToBase64Image`. The encoder reads `width * height` bytes. -/
def heatmapToBase64Image (base64 : Base64Api) (env : ImageEnv) (data : Bytes) : ImageCall :=
  let image := env.heatMap.map fun mem => (overwrite (greyLevels data) mem).take imageSize
  { accesses := loopAccesses (entriesOf data.length) 1 ++
      (if env.thingy91 then [⟨.heatMap, 200, 1⟩] else []) ++ [⟨.heatMap, 0, imageSize⟩]
    given := image
    ret := (image.bind env.lodepng).bind (encodeBase64 base64 env.encodedData) }

/-- The blocks that were allocated. -/
structure Blocks where
  heatMap : Bool
  area : Region → Bool
  stats : Region → Bool

/-- `HeatmapToBase64Image` has one of its own for the heat map. -/
def ImageEnv.blocks (env : ImageEnv) : Blocks :=
  ⟨env.heatMap.isSome, fun _ => false, fun _ => false⟩

/-- The size of a buffer: that of the payload, and that of a block, if it was allocated. The
heat map has elements of the given size. -/
def bufferSize (len elemSize : ℕ) (blocks : Blocks) : Buffer → ℕ
  | .payload => len
  | .heatMap => if blocks.heatMap then entriesOf len * elemSize else 0
  | .roiArea region => if blocks.area region then region.roi.w * region.roi.h * 4 else 0
  | .roiStats region => if blocks.stats region then 16 else 0

/-- The access lies within its buffer. -/
def Access.Inside (size : Buffer → ℕ) (a : Access) : Prop := a.pos + a.size ≤ size a.buffer

instance (size : Buffer → ℕ) (a : Access) : Decidable (a.Inside size) :=
  inferInstanceAs (Decidable (_ ≤ _))

end Heaty.HeatMap
