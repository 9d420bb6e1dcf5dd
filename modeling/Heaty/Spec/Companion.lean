import Heaty.Lib.Transfer
import Heaty.Spec.Interfaces

/-! The companion's receivers in BleStatemachine.dart. `incommingData` holds only
characters made from bytes, so it is a byte list here; the strings of a decoded
JSON text are lists of UTF-16 code units. -/

namespace Heaty.Companion

abbrev DartString := List UInt16

/-- A string made from bytes. -/
def units (bs : Bytes) : DartString := bs.map UInt8.toUInt16

/-- `dart:convert`. Both throw a FormatException, `none`, for what they cannot
decode. -/
structure DartConvert where
  base64Decode : Bytes → Option Bytes
  jsonDecode : Bytes → Option (Json UInt16)

/-- An object printed without white space. -/
def compactStyle : Json.Style := ⟨[], [], [], []⟩

structure DartConvert.Documented (dart : DartConvert) : Prop where
  base64_encode : ∀ bs, dart.base64Decode (Base64.encode bs) = some bs
  json_print : ∀ members, PlainMembers members → (members.map Prod.fst).Nodup →
    dart.jsonDecode (Json.print compactStyle members) =
      some (Json.flatWith UInt8.toUInt16 members)

/-- `dart:convert` as far as flat objects go. -/
def dartConvert : DartConvert where
  base64Decode := Base64.decode
  jsonDecode text := (Json.readFlat text).map fun r => Json.flatWith UInt8.toUInt16 r.1

theorem dartConvert_documented : dartConvert.Documented where
  base64_encode := Base64.decode_encode
  json_print members h _ := by
    have hstyle : compactStyle.Ok := by
      refine ⟨?_, ?_, ?_, ?_⟩ <;> simp [compactStyle, Json.Blank]
    have hread := Json.readFlat_print hstyle (fun m hm => (h m hm).1) []
    rw [List.append_nil] at hread
    simp only [dartConvert, hread, Option.map_some]

/-- How the body of a `try` ends: it completes, or it throws something that
`on Exception` catches, or an Error, which it does not. -/
inductive Outcome (σ : Type)
  | completed (d : σ)
  | exception (d : σ)
  | error (d : σ)

/-- The `on Exception` clause, `notifyListeners` and the last `reset` of both
processing methods: the state left behind, and the one the listeners see. An Error
leaves the method at once, into a future that nobody awaits. -/
def finish {σ : Type} (reset : σ → σ) : Outcome σ → σ × Option σ
  | .completed d => (reset d, some d)
  | .exception d => (reset (reset d), some (reset d))
  | .error d => (d, none)

/-! ## Heat maps -/

structure HeatMap where
  incommingData : Bytes
  heatmapData : List (List ℤ)
  transferredBytes : ℕ

def HeatMap.start : HeatMap := ⟨[], [[0, 0, 0], [0, 1, 1], [1, 0, 2], [1, 1, 4]], 0⟩

def HeatMap.reset (d : HeatMap) : HeatMap :=
  { d with incommingData := [], transferredBytes := 0 }

/-- `packedData.buffer.asFloat32List(0, packedData.length ~/ 4)`, each float as
its bits. -/
def asFloat32List : Bytes → List ℕ
  | a :: b :: c :: d :: rest =>
      (a.toNat + 256 * b.toNat + 65536 * c.toNat + 16777216 * d.toNat) :: asFloat32List rest
  | _ => []

/-- Neither infinite nor NaN. -/
def isFinite (bits : ℕ) : Bool := bits / 8388608 % 256 ≠ 255

/-- `toInt` of a finite float: truncation, saturating at 64 bits. -/
def toInt (bits : ℕ) : ℤ :=
  let exponent := bits / 8388608 % 256
  let fraction := bits % 8388608
  let mantissa := if exponent = 0 then fraction else fraction + 8388608
  let magnitude : ℕ :=
    if 150 ≤ exponent then mantissa * 2 ^ (exponent - 150) else mantissa / 2 ^ (150 - exponent)
  let z : ℤ := if bits / 2147483648 % 2 = 1 then -magnitude else magnitude
  max (-9223372036854775808) (min 9223372036854775807 z)

/-- The rows and columns the two loops run through. -/
def cells : List (ℕ × ℕ) := (List.range 24).flatMap fun h => (List.range 32).map fun w => (h, w)

/-- The entry they add; `none` when it throws: a RangeError past the end of the
data, an UnsupportedError for a float that is not finite. -/
def heatmapEntry (raw : List ℕ) (h w : ℕ) : Option (List ℤ) :=
  match raw[h * 32 + w]? with
  | none => none
  | some bits => if isFinite bits then some [(h : ℤ), (w : ℤ), toInt bits] else none

/-- `heatmapDataTmp` after the loops. -/
def heatmapRows (raw : List ℕ) : Option (List (List ℤ)) :=
  cells.mapM fun cell => heatmapEntry raw cell.1 cell.2

/-- The body of the `try` in `processHeatmapData`. -/
def HeatMap.tryProcess (dart : DartConvert) (d : HeatMap) : Outcome HeatMap :=
  match dart.base64Decode d.incommingData with
  | none => .exception d
  | some packedData =>
      match heatmapRows (asFloat32List packedData) with
      | none => .error d
      | some rows => .completed { d with heatmapData := rows }

def processHeatmapData (dart : DartConvert) (d : HeatMap) : HeatMap × Option HeatMap :=
  finish HeatMap.reset (d.tryProcess dart)

def heatMapCollector : Transfer.Collector HeatMap UInt8 where
  text := HeatMap.incommingData
  count d n := { d with transferredBytes := d.transferredBytes + n }
  collect d cs := { d with incommingData := d.incommingData ++ cs }
  text_count _ _ := rfl
  text_collect _ _ := rfl

/-- `handleHeatMapTx`, with what the listeners saw if the packet was the last of a
transfer. -/
def handleHeatMapTx (dart : DartConvert) (d : HeatMap) (value : Bytes) :
    HeatMap × Option (Option HeatMap) :=
  Transfer.receive heatMapCollector 0 (processHeatmapData dart) d value

/-! ## Camera images -/

/-- `received` lists the names in the 'Received image' lines of the log. -/
structure CameraImage where
  incommingData : Bytes
  imageData : Bytes
  transferredBytes : ℕ
  name : DartString
  received : List DartString
  deriving DecidableEq

def CameraImage.start : CameraImage := ⟨[], [], 0, [], []⟩

def CameraImage.reset (d : CameraImage) : CameraImage :=
  { d with name := [], incommingData := [], transferredBytes := 0 }

/-- What `.` does not match, as far as bytes go. -/
def isLineTerminator (c : UInt8) : Bool := c = 10 ∨ c = 13

/-- The match of `{.*?}` at the start of a text. -/
def matchHeader : Bytes → Option Bytes
  | 123 :: rest =>
      let inner := rest.takeWhile fun c => c ≠ 125 ∧ ¬ isLineTerminator c
      match rest.drop inner.length with
      | 125 :: _ => some (123 :: inner ++ [125])
      | _ => none
  | _ => none

/-- `headerSearch.firstMatch(...)?.group(1)`. -/
def headerSearch : Bytes → Option Bytes
  | [] => none
  | c :: rest =>
      match matchHeader (c :: rest) with
      | some matched => some matched
      | none => headerSearch rest

/-- `text.replaceFirst(pattern, "")`. -/
def removeFirst (pattern : Bytes) : Bytes → Bytes
  | [] => []
  | c :: rest =>
      if pattern.isPrefixOf (c :: rest) then (c :: rest).drop pattern.length
      else c :: removeFirst pattern rest

/-- `header[key]`, null for an absent key; what is not a map throws an Error, `none`. -/
def index (header : Json UInt16) (key : Bytes) : Option (Json UInt16) :=
  match header with
  | .obj members => some (((members.find? fun m => m.1 = units key).map Prod.snd).getD .null)
  | _ => none

/-- `n == header["size"]`. -/
def sizeIs (header : Json UInt16) (n : ℕ) : Bool :=
  match index header (text "size") with
  | some (.num q) => q = n
  | _ => false

/-- The body of the `try` in `processCameraImageData`. Only a string can be
assigned to `name`. -/
def CameraImage.tryProcess (dart : DartConvert) (d : CameraImage) : Outcome CameraImage :=
  match headerSearch d.incommingData with
  | none => .completed d
  | some matchedText =>
      match dart.jsonDecode matchedText with
      | none => .exception d
      | some header =>
          let d := { d with incommingData := removeFirst matchedText d.incommingData }
          match dart.base64Decode d.incommingData with
          | none => .exception d
          | some imageData =>
              let d := { d with imageData := imageData }
              match index header (text "name") with
              | some (.str name) =>
                  let d := { d with name := name }
                  .completed (if sizeIs header d.imageData.length then
                    { d with received := d.received ++ [name] } else d)
              | _ => .error d

def processCameraImageData (dart : DartConvert) (d : CameraImage) :
    CameraImage × Option CameraImage :=
  finish CameraImage.reset (d.tryProcess dart)

def cameraCollector : Transfer.Collector CameraImage UInt8 where
  text := CameraImage.incommingData
  count d n := { d with transferredBytes := d.transferredBytes + n }
  collect d cs := { d with incommingData := d.incommingData ++ cs }
  text_count _ _ := rfl
  text_collect _ _ := rfl

/-- `handleCameraImageTx`, with what the listeners saw if the packet was the last
of a transfer. -/
def handleCameraImageTx (dart : DartConvert) (d : CameraImage) (value : Bytes) :
    CameraImage × Option (Option CameraImage) :=
  Transfer.receive cameraCollector 0 (processCameraImageData dart) d value

end Heaty.Companion
