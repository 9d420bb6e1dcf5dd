import Heaty.Lib.Keyed
import Heaty.Lib.Run
import Heaty.Spec.Utils

/-! memory_hook.c and memory_statistics.c with `CONFIG_HEAP_MEMORY_STATISTICS`. What
`k_malloc` returns comes from the environment; the nodes of the statistics list are always
obtained. -/

namespace Heaty.Memory

open Utils (overwrite)

/-- Addresses, 0 for NULL. -/
abbrev Addr := ℕ
def null : Addr := 0

/-- `enum memory_hook_statistics_id`. -/
inductive StatisticsId
  | analysisValString
  | cjson
  | cjsonPreallocString
  | commCtrlDataToNrf9160
  | commCtrlHeaderString
  | commCtrlHeatmapData
  | commCtrlNullString
  | diagMemfaultBase64Data
  | diagMemfaultData
  | httpsClientHeader
  | lodepng
  | mcuExchangeUartRx
  | sensorHeatmapData
  | shellHeatmapData
  | utilsCompressData
  | utilsDecodedBase64
  | utilsDynData
  | utilsEncodeBase64Message
  | utilsEncodeMessage
  | utilsHeatmapData
  | eventManager
  | msgDyndata
  | fsReadBuffer
  | bleData
  deriving DecidableEq, Repr

/-- `struct memory_stat_list`. Its `len` is an `uint16_t`. -/
structure MemoryStatList where
  key : Addr
  id : StatisticsId
  len : ℕ
  deriving DecidableEq

/-- What `memset` to 0 makes of a record. -/
def MemoryStatList.zero : MemoryStatList := ⟨null, .analysisValString, 0⟩

/-! ## memory_statistics.c -/

/-- The variables of memory_statistics.c, and the values that `inUse` has had. -/
structure Stats where
  memoryStats : List MemoryStatList
  inUse : ℕ
  inUsePeak : ℕ
  seen : List ℕ

def Stats.start : Stats := ⟨[], 0, 0, [0]⟩

/-- A new value of `inUse`, a `size_t`. -/
def Stats.count (s : Stats) (inUse : ℕ) : Stats :=
  { s with
    inUse := inUse % 4294967296
    inUsePeak := max s.inUsePeak (inUse % 4294967296)
    seen := inUse % 4294967296 :: s.seen }

/-- `mapPutStat`. -/
def Stats.mapPutStat (s : Stats) (key : Addr) (stats : MemoryStatList) : Stats :=
  { s.count (s.inUse + stats.len) with memoryStats := s.memoryStats ++ [{ stats with key := key }] }

/-- `mapGetStat`. -/
def Stats.mapGetStat (s : Stats) (key : Addr) : MemoryStatList :=
  (Keyed.lookup MemoryStatList.key key s.memoryStats).getD .zero

/-- `mapRemoveStat`. -/
def Stats.mapRemoveStat (s : Stats) (key : Addr) : Stats :=
  match Keyed.lookup MemoryStatList.key key s.memoryStats with
  | none => s
  | some stats =>
      { s.count (s.inUse + 4294967296 - stats.len) with
        memoryStats := Keyed.remove MemoryStatList.key key s.memoryStats }

/-- `mapGetSize`, which counts in an `uint16_t`. -/
def Stats.mapGetSize (s : Stats) : ℕ := s.memoryStats.length % 65536

/-- What another thread does to the map in one step. -/
inductive MapStep
  | put (key : Addr) (stats : MemoryStatList)
  | remove (key : Addr)

def Stats.apply (s : Stats) : MapStep → Stats
  | .put key stats => s.mapPutStat key stats
  | .remove key => s.mapRemoveStat key

/-- The list after steps of other threads. -/
def Stats.after (s : Stats) (others : List MapStep) : List MemoryStatList :=
  (others.foldl Stats.apply s).memoryStats

/-- A call of `getMemoryStats`: how many records its array was allocated for and how many
it copied, the indices of the array that were written, and what it returns. -/
structure Snapshot where
  allocated : ℕ
  copied : ℕ
  written : List ℕ
  size : ℕ

/-- `getMemoryStats`, with the steps of other threads between its two critical sections,
and whether the array was allocated. The index is an `uint16_t`. -/
def Stats.getMemoryStats (s : Stats) (others : List MapStep) (obtained : Bool) : Snapshot :=
  let size := s.mapGetSize
  let stats := s.after others
  { allocated := if obtained then size else 0
    copied := stats.length
    written := if obtained then (List.range stats.length).map (· % 65536) else []
    size := size }

/-! ## memory_hook.c -/

/-- A block that was allocated and not freed. -/
structure Block where
  addr : Addr
  id : StatisticsId
  data : Bytes
  deriving DecidableEq

/-- The blocks, the statistics, and the addresses given to `k_free`, the last one first. -/
structure Heap where
  live : List Block
  stats : Stats
  freed : List Addr

def Heap.start : Heap := ⟨[], .start, []⟩

/-- What `k_malloc` returns: NULL, or an address and what lies there. -/
abbrev KMalloc := Option (Addr × Bytes)

/-- `my_malloc`. -/
def Heap.myMalloc (h : Heap) (size : ℕ) (id : StatisticsId) (result : KMalloc) : Addr × Heap :=
  let stats : MemoryStatList := ⟨null, id, size % 65536⟩
  match result with
  | none => (null, { h with stats := h.stats.mapPutStat null stats })
  | some (ptr, data) =>
      (ptr, { h with live := ⟨ptr, id, data⟩ :: h.live, stats := h.stats.mapPutStat ptr stats })

/-- `my_free`. -/
def Heap.myFree (h : Heap) (ptr : Addr) : Heap :=
  { live := Keyed.remove Block.addr ptr h.live
    stats := h.stats.mapRemoveStat ptr
    freed := ptr :: h.freed }

/-- Bytes stored at the start of a block. -/
def Heap.store (h : Heap) (ptr : Addr) (bytes : Bytes) : Heap :=
  { h with
    live := h.live.map fun b =>
      if b.addr = ptr then { b with data := overwrite bytes b.data } else b }

/-- The first bytes of a block. -/
def Heap.load (h : Heap) (ptr : Addr) (size : ℕ) : Bytes :=
  match Keyed.lookup Block.addr ptr h.live with
  | none => []
  | some b => b.data.take size

/-- `my_realloc`. -/
def Heap.myRealloc (h : Heap) (ptr : Addr) (newSize : ℕ) (id : StatisticsId) (result : KMalloc) :
    Addr × Heap :=
  let originalLength := (h.stats.mapGetStat ptr).len
  if newSize = 0 then (null, h.myFree ptr)
  else if ptr = null then h.myMalloc newSize id result
  else if newSize ≤ originalLength then (ptr, h)
  else
    let new := h.myMalloc newSize id result
    if new.1 ≠ null then
      (new.1, (new.2.store new.1 (new.2.load ptr originalLength)).myFree ptr)
    else new

/-! ## Runs -/

/-- The bytes in all blocks. -/
def Heap.total (h : Heap) : ℕ := (h.live.map (·.data.length)).sum

/-- `k_malloc` gives out an address that is not in use, and the blocks have room beside
each other. -/
def Heap.Returns (h : Heap) (size : ℕ) (result : KMalloc) : Prop :=
  match result with
  | none => True
  | some (ptr, data) =>
      ptr ≠ null ∧ ptr ∉ h.live.map Block.addr ∧ data.length = size ∧ h.total + size < 4294967296

instance (h : Heap) (size : ℕ) (result : KMalloc) : Decidable (h.Returns size result) :=
  match result with
  | none => isTrue trivial
  | some _ => inferInstanceAs (Decidable (_ ∧ _))

/-- A pointer that may be freed. -/
def Heap.Owned (h : Heap) (ptr : Addr) : Prop := ptr = null ∨ ptr ∈ h.live.map Block.addr

instance (h : Heap) (ptr : Addr) : Decidable (h.Owned ptr) := inferInstanceAs (Decidable (_ ∨ _))

/-- A call of one of the hooks, or some bytes that an owner stores in its block. -/
inductive Call
  | malloc (size : ℕ) (id : StatisticsId) (result : KMalloc)
  | free (ptr : Addr)
  | realloc (ptr : Addr) (newSize : ℕ) (id : StatisticsId) (result : KMalloc)
  | store (b : Block) (bytes : Bytes)

def Heap.step (h : Heap) : Call → Option Heap
  | .malloc size id result =>
      if size < 4294967296 ∧ h.Returns size result then some (h.myMalloc size id result).2
      else none
  | .free ptr => if h.Owned ptr then some (h.myFree ptr) else none
  | .realloc ptr newSize id result =>
      if newSize < 4294967296 ∧ h.Owned ptr ∧ h.Returns newSize result then
        some (h.myRealloc ptr newSize id result).2
      else none
  | .store b bytes =>
      if b ∈ h.live ∧ bytes.length ≤ b.data.length then some (h.store b.addr bytes) else none

def heap : Lts Heap Call where
  init := .start
  step := Heap.step

end Heaty.Memory
