import Mathlib.Data.List.DropRight
import Heaty.Lib.LittleEndian
import Heaty.Lib.RingQueue
import Heaty.Spec.HeatMap

/-! The statistics of the regions of a heat map and their histories: analysis_impl.c, over
Zephyr's ring buffers and the statistics of CMSIS, which it calls. A `float` is given by its
bits. -/

namespace Heaty.Analysis

open HeatMap (Region Roi heatmapWidth)

/-! ## What it calls -/

/-- What a ring buffer stands for: its size, what is in it, where in its memory that starts,
and how much of its front is claimed. -/
structure RingState where
  capacity : ℕ
  contents : Bytes
  first : ℕ
  claimed : ℕ

/-- Zephyr's sys/ring_buffer.h, with what a buffer stands for. -/
structure RingBufApi where
  Buf : Type
  state : Buf → RingState
  declare : ℕ → Buf
  spaceGet : Buf → ℕ
  getClaim : Buf → ℕ → Buf
  getFinish : Buf → ℕ → Buf
  put : Buf → Bytes → Buf

/-- A claim is granted as far as one run of memory goes, what was claimed can be given up,
and as much is put as fits. -/
structure RingBufApi.Documented (api : RingBufApi) : Prop where
  length_le : ∀ b, (api.state b).contents.length ≤ (api.state b).capacity
  declare : ∀ n, api.state (api.declare n) = ⟨n, [], 0, 0⟩
  spaceGet : ∀ b, api.spaceGet b = (api.state b).capacity - (api.state b).contents.length
  getClaim : ∀ b n, (api.state b).claimed = 0 →
    api.state (api.getClaim b n) =
      { api.state b with
        claimed := min n (min (api.state b).contents.length
          ((api.state b).capacity - (api.state b).first)) }
  getFinish : ∀ b n, n ≤ (api.state b).claimed →
    api.state (api.getFinish b n) =
      ⟨(api.state b).capacity, (api.state b).contents.drop n,
        ((api.state b).first + n) % (api.state b).capacity, 0⟩
  put : ∀ b bytes, api.state (api.put b bytes) =
    { api.state b with
      contents := (api.state b).contents ++
        bytes.take ((api.state b).capacity - (api.state b).contents.length) }

/-- What a queue in a ring of bytes stands for. -/
def stateOf (r : RingQueue UInt8) : RingState := ⟨r.capacity, r.contents, r.first, r.claimed⟩

/-- A buffer over memory whose bytes are clear at first. -/
def zephyrRingBuf : RingBufApi where
  Buf := RingQueue UInt8
  state := stateOf
  declare n := .declare n fun _ => 0
  spaceGet := RingQueue.space
  getClaim := RingQueue.claim
  getFinish := RingQueue.finish
  put := RingQueue.put

theorem stateOf_claim (r : RingQueue UInt8) (n : ℕ) (h : r.claimed = 0) :
    stateOf (r.claim n) =
      { stateOf r with claimed := min n (min r.contents.length (r.capacity - r.first)) } := by
  rw [stateOf, r.claimed_claim h]
  rfl

theorem stateOf_finish (r : RingQueue UInt8) (n : ℕ) (h : n ≤ r.claimed) :
    stateOf (r.finish n) = ⟨r.capacity, r.contents.drop n, (r.first + n) % r.capacity, 0⟩ := by
  rw [stateOf, r.capacity_finish, r.contents_finish h, r.first_finish h, r.claimed_finish h]

theorem stateOf_put (r : RingQueue UInt8) (bytes : Bytes) :
    stateOf (r.put bytes) =
      { stateOf r with
        contents := r.contents ++ bytes.take (r.capacity - r.contents.length) } := by
  obtain ⟨hcapacity, hfirst, hclaimed⟩ := r.put_frame bytes
  rw [stateOf, hcapacity, hfirst, hclaimed, r.contents_put, RingQueue.space, r.length_contents]
  rfl

theorem zephyrRingBuf_documented : zephyrRingBuf.Documented where
  length_le := fun r : RingQueue UInt8 => r.length_contents.trans_le r.used_le
  declare _ := rfl
  spaceGet := fun r : RingQueue UInt8 => congrArg (r.capacity - ·) r.length_contents.symm
  getClaim := stateOf_claim
  getFinish := stateOf_finish
  put := stateOf_put

/-- The statistics of CMSIS that are used: functions of the numbers, in their order. -/
structure Cmsis where
  armMaxF32 : List UInt32 → UInt32
  armMinF32 : List UInt32 → UInt32
  armMeanF32 : List UInt32 → UInt32
  armVarF32 : List UInt32 → UInt32

/-! ## analysis_impl.c -/

/-- `struct stats`. -/
structure Stats where
  mean : UInt32
  min : UInt32
  max : UInt32
  var : UInt32
  deriving DecidableEq

/-- The memory of a record. -/
def Stats.bytes (s : Stats) : Bytes :=
  [s.mean, s.min, s.max, s.var].flatMap fun x => LittleEndian.bytes 4 x.toNat

/-- `sizeof(struct stats)`. -/
def sizeofStats : ℕ := 16

/-- The indices of the heat map that `get_roi` reads, in its order. -/
def roiIndices (roi : Roi) : List ℕ :=
  (List.range' roi.y roi.h).flatMap fun row =>
    (List.range' roi.x roi.w).map fun col => row * heatmapWidth + col

/-- `get_roi`. -/
def getRoi (roi : Roi) (heatMap : ℕ → UInt32) : List UInt32 := (roiIndices roi).map heatMap

/-- `get_stats`, whose `entriesCount` is an `uint16_t`. -/
def getStats (cmsis : Cmsis) (area : List UInt32) (entriesCount : ℕ) : Stats :=
  let entries := area.take (entriesCount % 65536)
  { max := cmsis.armMaxF32 entries
    min := cmsis.armMinF32 entries
    mean := cmsis.armMeanF32 entries
    var := cmsis.armVarF32 entries }

/-- `appendToHistory`. -/
def appendToHistory (api : RingBufApi) (history : api.Buf) (stat : Stats) : api.Buf :=
  let history :=
    if api.spaceGet history = 0 then api.getFinish (api.getClaim history sizeofStats) sizeofStats
    else history
  api.put history stat.bytes

/-- Whether `my_malloc` has memory for the pixels of a region and for their statistics. -/
structure Memory where
  area : Bool
  stats : Bool

/-- `analyze_roi`; `none` when it would follow NULL. -/
def analyzeRoi (api : RingBufApi) (cmsis : Cmsis) (roi : Roi) (history : api.Buf)
    (heatMap : ℕ → UInt32) (memory : Memory) : Option api.Buf :=
  if memory.area then
    let roiArea := getRoi roi heatMap
    if memory.stats then
      some (appendToHistory api history (getStats cmsis roiArea (roi.w * roi.h)))
    else none
  else none

/-- Calls of `analyze_roi`, one after another. -/
def analyzeRois (api : RingBufApi) (cmsis : Cmsis) (roi : Roi) (history : api.Buf)
    (calls : List ((ℕ → UInt32) × Memory)) : Option api.Buf :=
  calls.foldlM (fun history call => analyzeRoi api cmsis roi history call.1 call.2) history

/-- `analyze_heatmap`, with the history of each region. -/
def analyzeHeatmap (api : RingBufApi) (cmsis : Cmsis) (histories : Region → api.Buf)
    (heatMap : ℕ → UInt32) (memory : Region → Memory) : Option (Region → api.Buf) :=
  [.gasStove, .microwaveOven, .disWasher, .riceCooker, .heater].foldlM
    (fun histories region =>
      (analyzeRoi api cmsis region.roi (histories region) heatMap (memory region)).map
        (Function.update histories region)) histories

/-- A heat map, and the memory there is for each region when it is analysed. -/
abbrev HeatmapCall := (ℕ → UInt32) × (Region → Memory)

/-- Calls of `analyze_heatmap`, one after another. -/
def analyzeHeatmaps (api : RingBufApi) (cmsis : Cmsis) (histories : Region → api.Buf)
    (calls : List HeatmapCall) : Option (Region → api.Buf) :=
  calls.foldlM (fun histories call => analyzeHeatmap api cmsis histories call.1 call.2) histories

/-! ## What it is for -/

/-- The region lies on the map of 32 by 24 pixels. -/
def OnMap (roi : Roi) : Prop := roi.x + roi.w ≤ 32 ∧ roi.y + roi.h ≤ 24

instance (roi : Roi) : Decidable (OnMap roi) := inferInstanceAs (Decidable (_ ∧ _))

/-- The pixels of a region, row by row. -/
def pixels (roi : Roi) (heatMap : ℕ → UInt32) : List UInt32 :=
  (List.range (roi.w * roi.h)).map fun i =>
    heatMap (32 * (roi.y + i / roi.w) + (roi.x + i % roi.w))

/-- The statistics of a region. -/
def record (cmsis : Cmsis) (roi : Roi) (heatMap : ℕ → UInt32) : Stats where
  mean := cmsis.armMeanF32 (pixels roi heatMap)
  min := cmsis.armMinF32 (pixels roi heatMap)
  max := cmsis.armMaxF32 (pixels roi heatMap)
  var := cmsis.armVarF32 (pixels roi heatMap)

/-- A history of so many records holds the last ones, as they lie in memory. -/
def Keeps (size : ℕ) (records : List Stats) (contents : Bytes) : Prop :=
  contents = (records.rtake size).flatMap Stats.bytes

end Heaty.Analysis
