import Mathlib.Data.Stream.Init
import Heaty.Spec.Collector

/-! `takeImage` of camera_module.c down to the SPI reads of ArducamMini2MP.c, with
the driver's count of the bytes left in the camera. A burst read delivers the bytes
of the camera's FIFO in order. Each capture is one that completes, and the chip
select, the white balance and the delays are left out. -/

namespace Heaty.Arducam

open Collector (CameraDataEvent)

/-- `SPI_TRANSFER_MAX_LENGTH`. -/
def spiTransferMaxLength : ℕ := 240

/-- What the camera has captured: the length its registers show, and what burst
reads deliver. -/
structure Capture where
  length : ℕ
  fifo : Stream' UInt8

/-- The image. -/
def Capture.bytes (capture : Capture) : Bytes := capture.fifo.take capture.length

/-- The register `FIFO_SIZE1`, `FIFO_SIZE2` or `FIFO_SIZE3`. -/
def Capture.fifoSize (capture : Capture) (i : ℕ) : UInt8 :=
  UInt8.ofNat (capture.length / 256 ^ (i - 1))

/-- `arducam_read_fifo_length`. -/
def readFifoLength (capture : Capture) : ℕ :=
  let len1 := (capture.fifoSize 1).toNat
  let len2 := (capture.fifoSize 2).toNat
  let len3 := (capture.fifoSize 3).toNat &&& 0x7f
  (((len3 <<< 16) ||| (len2 <<< 8)) ||| len1) &&& 0x07fffff

/-- The driver's static variable, and what burst reads deliver next. -/
structure Camera where
  mBytesLeftInCamera : ℕ
  fifo : Stream' UInt8

/-- An SPI read into an event's buffer: the size of the buffer, where the read
starts in it, and how long it is. -/
structure SpiRead where
  bufferSize : ℕ
  offset : ℕ
  length : ℕ
  deriving DecidableEq

/-- `arducam_mini_2mp_startSingleCapture` when the camera captures this; `none` when
the last capture was not read out, for which it returns 0. -/
def Camera.startSingleCapture (c : Camera) (capture : Capture) : Option Camera :=
  if c.mBytesLeftInCamera = 0 then some ⟨readFifoLength capture, capture.fifo⟩ else none

/-- What the loop of `fillBuffer` stores, reads and leaves to be read. -/
structure Filled where
  stored : Bytes
  reads : List SpiRead
  fifo : Stream' UInt8

/-- The loop of `arducam_mini_2mp_fillBuffer` from `i` on, `none` when `fuel` turns do
not finish it. -/
def fillLoop (bufferSize bytesToRead : ℕ) : ℕ → ℕ → Stream' UInt8 → Option Filled
  | 0, i, fifo => if i < bytesToRead then none else some ⟨[], [], fifo⟩
  | fuel + 1, i, fifo =>
      if i < bytesToRead then
        let transactionLength :=
          if bytesToRead - i > spiTransferMaxLength then spiTransferMaxLength else bytesToRead - i
        let rest := fillLoop bufferSize bytesToRead fuel (i + transactionLength)
          (fifo.drop transactionLength)
        rest.map fun r =>
          ⟨fifo.take transactionLength ++ r.stored, ⟨bufferSize, i, transactionLength⟩ :: r.reads,
            r.fifo⟩
      else some ⟨[], [], fifo⟩

/-- `arducam_mini_2mp_fillBuffer`; what it returns is the number of bytes stored. -/
def Camera.fillBuffer (c : Camera) (bufferSize : ℕ) : Option (Camera × Filled) :=
  if c.mBytesLeftInCamera = 0 then some (c, ⟨[], [], c.fifo⟩)
  else
    let bytesToRead :=
      if c.mBytesLeftInCamera > bufferSize then bufferSize else c.mBytesLeftInCamera
    (fillLoop bufferSize bytesToRead bytesToRead 0 c.fifo).map fun r =>
      (⟨c.mBytesLeftInCamera - bytesToRead, r.fifo⟩, r)

/-- `sendImageChunck`. -/
def Camera.sendImageChunck (maxChunck : ℕ) (c : Camera) (imageSize remainingSize : ℕ) :
    Option (Camera × CameraDataEvent × List SpiRead) :=
  let chunkSize := if remainingSize > maxChunck then maxChunck else remainingSize
  (c.fillBuffer chunkSize).map fun r =>
    (r.1, ⟨imageSize, remainingSize = imageSize, remainingSize ≤ maxChunck, r.2.stored⟩, r.2.reads)

/-- What a `takeImage` run leaves: the driver, the events it submitted, the SPI reads
it made, and whether it found the last capture not read out. -/
structure Taken where
  camera : Camera
  events : List CameraDataEvent
  reads : List SpiRead
  notReadOut : Bool

/-- The loop of `takeImage`, `none` when `fuel` turns do not finish it. -/
def Camera.takeImageLoop (maxChunck imageSize : ℕ) : ℕ → Camera → ℕ → Option Taken
  | 0, c, remainingSize => if remainingSize ≠ 0 then none else some ⟨c, [], [], false⟩
  | fuel + 1, c, remainingSize =>
      if remainingSize ≠ 0 then
        match c.sendImageChunck maxChunck imageSize remainingSize with
        | none => none
        | some (c, event, reads) =>
            (takeImageLoop maxChunck imageSize fuel c c.mBytesLeftInCamera).map fun r =>
              { r with events := event :: r.events, reads := reads ++ r.reads }
      else some ⟨c, [], [], false⟩

/-- `takeImage` when the camera captures this. A turn that makes progress reads a
byte, so that as many turns are enough for a run that returns at all. -/
def Camera.takeImage (maxChunck : ℕ) (c : Camera) (capture : Capture) : Option Taken :=
  match c.startSingleCapture capture with
  | none => some ⟨c, [], [], true⟩
  | some c => c.takeImageLoop maxChunck c.mBytesLeftInCamera c.mBytesLeftInCamera
      c.mBytesLeftInCamera

/-- One `takeImage` run after another. -/
def Camera.takeImages (maxChunck : ℕ) : Camera → List Capture → Option (List Taken)
  | _, [] => some []
  | c, capture :: captures =>
      match c.takeImage maxChunck capture with
      | none => none
      | some taken => (takeImages maxChunck taken.camera captures).map (taken :: ·)

end Heaty.Arducam
