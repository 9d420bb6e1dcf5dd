import Heaty.Spec.Collector
import Heaty.Spec.CompressData
import Heaty.Spec.HeatMap
import Heaty.Spec.McuExchange

/-! `prepareAndSendHeatmap` of commCtrl_module.c: a heat map and its terminator, as
messages for the Bluetooth module, and the converted heat map for the nRF9160. -/

namespace Heaty.CommCtrl

open Collector (Submission)
open HeatMap (convertAndScaleHeatMap)
open Memory (KMalloc null)

/-- `sendToBle`. -/
def sendToBle (data : Bytes) : List Submission :=
  [.btData .heatmapSend data true, .btData .heatmapSend [0] false]

/-- The messages among what was submitted that the heaty service sends. -/
def heatmapMessages (submitted : List Submission) : List (Bytes × Bool) :=
  submitted.filterMap fun
    | .btData .heatmapSend data useBase64 => some (data, useBase64)
    | _ => none

@[simp] theorem heatmapMessages_sendToBle (data : Bytes) :
    heatmapMessages (sendToBle data) = [(data, true), ([0], false)] := rfl

/-- `sendToNrf9160`, of a buffer and a size. -/
def sendToNrf9160 (data : Bytes) (size : ℕ) (type : Mcu.EventType) : List Mcu.ModuleEvent :=
  if size > 0 then [⟨type, false, data.take size⟩] else []

/-- An `int16_t` in memory. -/
def int16Bytes (n : ℤ) : Bytes := [UInt8.ofInt n, UInt8.ofInt (n / 256)]

/-- `dataptr[i]`. The value of a `float` is left open; a NaN may be given any below the
limits of the conversion, as `fmax` makes it the lower one. -/
def floatAt (float : Bytes → ℚ) (data : Bytes) (i : ℕ) : ℚ := float ((data.drop (4 * i)).take 4)

/-- `len / sizeof(float)`; the `len` is an `uint16_t`. -/
def entriesCount (data : Bytes) : ℕ := data.length % 65536 / 4

/-- The block `heatMap` after `convertAndScaleHeatMap`. -/
def heatMapBytes (float : Bytes → ℚ) (data : Bytes) : Bytes :=
  (List.ofFn (convertAndScaleHeatMap fun i : Fin (entriesCount data) =>
    floatAt float data i)).flatMap int16Bytes

/-- What `prepareAndSendHeatmap` did: its calls of the memory hooks, and the events for
the Bluetooth module and for the nRF9160. -/
structure Prepared where
  calls : List Memory.Call
  ble : List Submission
  nrf9160 : List Mcu.ModuleEvent

/-- The address that `my_malloc` returns. -/
def address (result : KMalloc) : Memory.Addr := (result.map Prod.fst).getD null

/-- `prepareAndSendHeatmap`, with what its two allocations meet; `none` when it follows a
NULL pointer. The heat map is written without a check. -/
def prepareAndSendHeatmap (lz4 : Option Lz4Api) (float : Bytes → ℚ) (heatMap heatMapComp : KMalloc)
    (data : Bytes) : Option Prepared :=
  if heatMap = none ∧ entriesCount data ≠ 0 then none
  else
    let comp := Utils.compressData lz4 (heatMapBytes float data) heatMapComp
    some
      { calls := .malloc (entriesCount data * 2) .commCtrlHeatmapData heatMap :: comp.calls ++
          [.free (address heatMap), .free comp.dst]
        ble := if comp.size > 0 then sendToBle (data.take (data.length % 65536)) else []
        nrf9160 :=
          if comp.size > 0 then sendToNrf9160 comp.mem comp.size .heatMapDataReady else [] }

end Heaty.CommCtrl
