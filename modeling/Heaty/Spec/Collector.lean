import Heaty.Lib.Decimal
import Heaty.Spec.Utils
import Heaty.Spec.SerialSend

/-! The data collector: `takeImage` of camera_module.c with the FIFO it reads, and
the handlers of control.c that turn its events and the heat maps into file events
and Bluetooth messages. -/

namespace Heaty.Collector

open Utils

/-! ## camera_module.c -/

structure CameraDataEvent where
  imageSize : ℕ
  isFirst : Bool
  isLast : Bool
  data : Bytes
  deriving DecidableEq

/-- `arducam_mini_2mp_fillBuffer` on the bytes left in the camera: those read, and
those left then. -/
def fillBuffer (left : Bytes) (bufferSize : ℕ) : Bytes × Bytes :=
  (left.take bufferSize, left.drop bufferSize)

/-- `sendImageChunck`, with `CONFIG_CAMERA_IMAGE_CHUNCK_SIZE`. -/
def sendImageChunck (maxChunck imageSize remainingSize : ℕ) (left : Bytes) :
    CameraDataEvent × Bytes :=
  let chunkSize := if remainingSize > maxChunck then maxChunck else remainingSize
  let r := fillBuffer left chunkSize
  (⟨imageSize, remainingSize = imageSize, remainingSize ≤ maxChunck, r.1⟩, r.2)

/-- The loop of `takeImage`, `none` when `fuel` turns do not finish it. -/
def takeImageLoop (maxChunck imageSize : ℕ) : ℕ → Bytes → Option (List CameraDataEvent)
  | 0, left => if left.length ≠ 0 then none else some []
  | fuel + 1, left =>
      if left.length ≠ 0 then
        let r := sendImageChunck maxChunck imageSize left.length left
        (takeImageLoop maxChunck imageSize fuel r.2).map (r.1 :: ·)
      else some []

/-- `takeImage` when the last capture was read out; the FIFO's length register has
23 bits. Every turn that makes progress reads a byte. -/
def takeImage (maxChunck : ℕ) (capture : Bytes) : Option (List CameraDataEvent) :=
  let imageSize := capture.length % 8388608
  takeImageLoop maxChunck imageSize imageSize (capture.take imageSize)

/-! ## control.c -/

/-- The fields of `struct tm` that are read. -/
structure Tm where
  mon : ℕ
  mday : ℕ
  hour : ℕ
  min : ℕ
  sec : ℕ
  mon_lt : mon < 12
  mday_le : mday ≤ 31
  hour_lt : hour < 24
  min_lt : min < 60
  sec_le : sec ≤ 60
  deriving DecidableEq

/-- `CONFIG_DATE_TIME`, `CONFIG_BLE_ENABLE_HEATY_SERVICE` and `CONFIG_FS_MODULE`. The
camera service is enabled, or no camera event is handled at all. -/
structure Build where
  dateTime : Bool
  heatyService : Bool
  fsModule : Bool
  deriving DecidableEq

/-- What a handler meets: what `date_time_now` gives if it succeeds, the uptime,
both in milliseconds, and whether the settings can be saved. -/
structure Env where
  dateTimeNow : Option ℤ
  uptime : ℤ
  saved : Bool
  deriving DecidableEq

/-- The argument of `localtime`. -/
def Env.seconds (env : Env) : ℤ := (env.dateTimeNow.getD env.uptime).tdiv 1000

/-- The static buffer `filename`, and the setting `counter`. -/
structure Control where
  filename : Bytes
  counter : Option Int32

/-- `CONFIG_MAX_PATH_LENGTH` and `MAX_HEADER_LENGTH`. -/
def maxPathLength : ℕ := 20
def maxHeaderLength : ℕ := maxPathLength + 19 + 6

def Control.start : Control := ⟨List.replicate maxPathLength 0, none⟩

/-- `sprintf(filename, ...)`. -/
def Control.sprintf (c : Control) (name : Bytes) : Control :=
  { c with filename := overwrite (name ++ [0]) c.filename }

/-- `getCounter`. -/
def Control.getCounter (c : Control) : Int32 := c.counter.getD 0

/-- `incrementCounter`; the new value is lost when it cannot be saved. -/
def Control.incrementCounter (c : Control) (saved : Bool) : Control :=
  if saved then { c with counter := some (c.getCounter + 1) } else c

/-- `"%02u-%02u-%02u-%02u-%02u"` of the local time, and an extension. -/
def dateName (tm : Tm) (extension : Bytes) : Bytes :=
  Decimal.padded 2 (tm.mon + 1) ++ 45 :: Decimal.padded 2 tm.mday ++ 45 ::
    Decimal.padded 2 tm.hour ++ 45 :: Decimal.padded 2 tm.min ++ 45 ::
    Decimal.padded 2 tm.sec ++ extension

/-- `"%0wd"` of the counter, and an extension. -/
def counterName (w : ℕ) (counter : Int32) (extension : Bytes) : Bytes :=
  Decimal.paddedInt w counter.toInt ++ extension

inductive BtDataType
  | cameraSend
  | heatmapSend
  deriving DecidableEq

inductive FsDataType
  | writeFile
  | appendFile
  deriving DecidableEq

/-- What a handler hands to `EVENT_SUBMIT`. -/
inductive Submission
  | btData (type : BtDataType) (data : Bytes) (useBase64 : Bool)
  | fsData (type : FsDataType) (filePath data : Bytes)
  deriving DecidableEq

/-- `sendEvToBle`. -/
def sendEvToBle (buf : Bytes) (useBase64 : Bool) : Submission := .btData .cameraSend buf useBase64

/-- The text `snprintf` makes; `%d` reads the 32 bits of the size as an `int`. -/
def headerText (filename : Bytes) (imageSize : ℕ) : Bytes :=
  text "\x7b\"name\":\"" ++ filename ++ text "\",\"size\":" ++
    Decimal.int (Int.bmod imageSize 4294967296) ++ text "\x7d"

/-- `sendHeader`. -/
def sendHeader (filename : Bytes) (imageSize : ℕ) : Submission :=
  sendEvToBle (cstr ((headerText (cstr filename) imageSize).take (maxHeaderLength - 1))) false

/-- `sendFinal`. -/
def sendFinal : Submission := sendEvToBle [0] false

/-- `handle_camera_module_data_event`. -/
def Control.handleCameraModuleDataEvent (build : Build) (localtime : ℤ → Tm) (c : Control)
    (env : Env) (event : CameraDataEvent) : Control × List Submission :=
  let c := if build.dateTime then c.sprintf (dateName (localtime env.seconds) (text ".jpg")) else c
  let c := if event.isFirst ∧ ¬ build.dateTime then c.incrementCounter env.saved else c
  let c := if build.dateTime then c else c.sprintf (counterName 5 c.getCounter (text ".jpg"))
  let header := if event.isFirst then [sendHeader c.filename event.imageSize] else []
  let final := if event.isLast then [sendFinal] else []
  let type := if event.isFirst then .writeFile else .appendFile
  (c, header ++ sendEvToBle event.data true :: final ++ [.fsData type c.filename event.data])

/-- `handle_sensors_data_module_event` on a heat map. -/
def Control.handleSensorsDataModuleEvent (build : Build) (localtime : ℤ → Tm) (c : Control)
    (env : Env) (data : Bytes) : Control × List Submission :=
  let bt := if build.heatyService then
      [.btData .heatmapSend data true, .btData .heatmapSend [0] false] else []
  if build.fsModule then
    let c := if build.dateTime then c.sprintf (dateName (localtime env.seconds) (text ".map"))
      else c.sprintf (counterName 4 c.getCounter (text ".map"))
    (c, bt ++ [.fsData .writeFile c.filename data])
  else (c, bt)

/-- An event for the control module, with what its handler meets. -/
inductive Input
  | camera (event : CameraDataEvent) (env : Env)
  | heatMap (data : Bytes) (env : Env)
  deriving DecidableEq

/-- `event_handler` on these events. -/
def Control.handle (build : Build) (localtime : ℤ → Tm) (c : Control) :
    Input → Control × List Submission
  | .camera event env => c.handleCameraModuleDataEvent build localtime env event
  | .heatMap data env => c.handleSensorsDataModuleEvent build localtime env data

/-- Events in order, each with what its handler submits. -/
def Control.run (build : Build) (localtime : ℤ → Tm) :
    Control → List Input → List (Input × List Submission)
  | _, [] => []
  | c, input :: inputs =>
      let r := c.handle build localtime input
      (input, r.2) :: r.1.run build localtime inputs

/-! ## To the peer -/

/-- `serialSend` for each message in turn, on a slot with the `mtu` and stack
contents given for each call. -/
def sendAll (api : Base64Api) (slot : ℕ → ℕ × Bytes) :
    List (Bytes × Bool) → Option (List Bt.Notification)
  | [] => some []
  | msg :: msgs =>
      match Bt.serialSend api (slot 0).1 (slot 0).2 msg.1 msg.2 with
      | none => none
      | some sent => (sendAll api (fun i => slot (i + 1)) msgs).map (sent ++ ·)

end Heaty.Collector
