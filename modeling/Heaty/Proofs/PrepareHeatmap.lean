import Heaty.Lib.LittleEndian
import Heaty.Proofs.MemoryStatistics
import Heaty.Spec.CommCtrl

/-! When `prepareAndSendHeatmap` frees what was allocated for it just once, and sends the
nRF9160 what `compressData` made of the heat map. -/

namespace Heaty.CommCtrl

open HeatMap (convertAndScaleHeatMap int16At toInt16)
open Memory (Addr Heap KMalloc StatisticsId heap null)
open Utils (compressData overwrite overwrite_eq_self_iff)

variable {lz4 : Option Lz4Api} {api : Lz4Api} {float : Bytes → ℚ} {heatMap heatMapComp : KMalloc}
  {data src : Bytes} {calls : List Memory.Call} {size size' : ℕ} {h : Heap}
  {id : StatisticsId} {call : Prepared}

/-- The buffers that calls of the memory hooks allocate, and the pointers they free. -/
def allocated (calls : List Memory.Call) : List Addr :=
  calls.flatMap fun
    | .malloc _ _ result => (result.map Prod.fst).toList
    | _ => []

def freed (calls : List Memory.Call) : List Addr :=
  calls.flatMap fun
    | .free ptr => [ptr]
    | _ => []

/-- The bytes that `compressData` produces, `none` if it has no buffer or LZ4 fails. -/
def produced (lz4 : Option Lz4Api) (src : Bytes) (result : KMalloc) : Option Bytes :=
  if result = none then none
  else
    match lz4 with
    | none => some src
    | some api =>
        let compressed := api.compressDefault (api.compressBound src.length) src
        if compressed.ret ≤ 0 then none else some compressed.stored

/-- The nRF9160 is told of bytes only. -/
def eventsOf : Option Bytes → List Mcu.ModuleEvent
  | none | some [] => []
  | some bytes => [⟨.heatMapDataReady, false, bytes⟩]

def decompressData (lz4 : Option Lz4Api) (data : Bytes) : Option Bytes :=
  match lz4 with
  | none => some data
  | some api => api.decompress data

/-- Every buffer is freed once and no other one, NULL being none, and the nRF9160 is sent
just what was produced, from which it gets the heat map back. -/
structure Contract (lz4 : Option Lz4Api) (heatMapComp : KMalloc) (heatMap : Bytes)
    (call : Prepared) : Prop where
  frees : ((freed call.calls).filter (· ≠ null)).Perm (allocated call.calls)
  sent : call.nrf9160 = eventsOf (produced lz4 heatMap heatMapComp)
  inverse : ∀ event ∈ call.nrf9160, decompressData lz4 event.data = some heatMap

def Gives (size : ℕ) (result : KMalloc) : Prop :=
  ∀ ptr mem, result = some (ptr, mem) → ptr ≠ null ∧ mem.length = size

def capacity (lz4 : Option Lz4Api) (srcSize : ℕ) : ℕ :=
  match lz4 with
  | none => srcSize
  | some api => api.compressBound srcSize

def Lz4Fails (lz4 : Option Lz4Api) (heatMapComp : KMalloc) (src : Bytes) : Prop :=
  ∃ api, lz4 = some api ∧ heatMapComp ≠ none ∧
    (api.compressDefault (api.compressBound src.length) src).ret ≤ 0

/-- In the plain build, and where there is no buffer to write to, nothing is asked for.
LZ4 has to fill its buffer. -/
def Fills (lz4 : Option Lz4Api) (heatMapComp : KMalloc) (src : Bytes) : Prop :=
  ∀ api, lz4 = some api → heatMapComp ≠ none →
    (api.compressDefault (api.compressBound src.length) src).ret = api.compressBound src.length

@[simp] theorem heatMapBytes_length (float : Bytes → ℚ) (data : Bytes) :
    (heatMapBytes float data).length = entriesCount data * 2 := by
  simp [heatMapBytes, int16Bytes, List.length_flatMap, Function.comp_def]

theorem getD_int16Bytes {l : List ℤ} {i : ℕ} (hi : i < l.length) :
    (l.flatMap int16Bytes).getD (2 * i) 0 = UInt8.ofInt (l.get ⟨i, hi⟩) ∧
      (l.flatMap int16Bytes).getD (2 * i + 1) 0 = UInt8.ofInt (l.get ⟨i, hi⟩ / 256) := by
  induction l generalizing i with
  | nil => exact absurd hi (Nat.not_lt_zero i)
  | cons n l ih =>
    cases i with
    | zero => exact ⟨rfl, rfl⟩
    | succ i => exact ih (Nat.lt_of_succ_lt_succ hi)

theorem toInt16_int16Bytes (n : ℤ) :
    toInt16 ((UInt8.ofInt n).toNat + 256 * (UInt8.ofInt (n / 256)).toNat) = toInt16 n := by
  have hmod : n % 256 + 256 * (n / 256 % 256) = n % 65536 := by omega
  rw [LittleEndian.toNat_ofInt, LittleEndian.toNat_ofInt, hmod, toInt16, toInt16]
  exact Int.emod_bmod n 65536

/-- Read as `int16_t`s, as the nRF9160 does, the heat map is the one that was converted. -/
theorem int16At_heatMapBytes (float : Bytes → ℚ) (data : Bytes) (i : Fin (entriesCount data)) :
    int16At (heatMapBytes float data) i =
      convertAndScaleHeatMap (fun i : Fin (entriesCount data) => floatAt float data i) i := by
  have hi : (i : ℕ) < (List.ofFn (convertAndScaleHeatMap fun i : Fin (entriesCount data) =>
      floatAt float data i)).length := by simp
  obtain ⟨hlo, hhi⟩ := getD_int16Bytes hi
  rw [int16At, heatMapBytes, hlo, hhi, toInt16_int16Bytes]
  simp only [List.get_eq_getElem, List.getElem_ofFn, convertAndScaleHeatMap, toInt16,
    Int.bmod_bmod]

theorem entriesCount_le (data : Bytes) : entriesCount data * 2 ≤ 32766 := by
  unfold entriesCount
  omega

theorem compressBound_entries (h : api.Documented) (data : Bytes) :
    0 < api.compressBound (entriesCount data * 2) ∧
      api.compressBound (entriesCount data * 2) < 65536 := by
  have hcount := entriesCount_le data
  rw [h.bound _ (hcount.trans (by decide))]
  omega

theorem capacity_lt (hlz4 : ∀ api, lz4 = some api → api.Documented) (data : Bytes) :
    capacity lz4 (entriesCount data * 2) < 65536 := by
  cases lz4 with
  | none => exact (entriesCount_le data).trans_lt (by decide)
  | some api => exact (compressBound_entries (hlz4 api rfl) data).2

theorem filter_address (h : Gives size heatMap) :
    [address heatMap].filter (· ≠ null) = (heatMap.map Prod.fst).toList := by
  rcases heatMap with _ | ⟨ptr, mem⟩
  · rfl
  · simp [address, (h ptr mem rfl).1]

theorem address_eq_null_iff (h : Gives size heatMap) : address heatMap = null ↔ heatMap = none := by
  rcases heatMap with _ | ⟨ptr, mem⟩
  · exact iff_of_true rfl rfl
  · exact iff_of_false (h ptr mem rfl).1 (by simp)

/-! ## `compressData` -/

theorem compressData_dst (lz4 : Option Lz4Api) (src : Bytes) (heatMapComp : KMalloc) :
    (compressData lz4 src heatMapComp).dst = address heatMapComp := by
  rcases heatMapComp with _ | ⟨dst, mem⟩
  · cases lz4 <;> rfl
  · cases lz4 with
    | none => rfl
    | some api =>
      unfold compressData
      dsimp only
      split_ifs <;> rfl

theorem compressData_freed (h : Gives size heatMapComp) :
    null ∉ freed (compressData lz4 src heatMapComp).calls := by
  rcases heatMapComp with _ | ⟨dst, mem⟩
  · cases lz4 <;> exact List.not_mem_nil
  · cases lz4 with
    | none => exact List.not_mem_nil
    | some api =>
      have hdst := (h dst mem rfl).1
      unfold compressData
      dsimp only
      split_ifs
      · simpa [freed] using hdst.symm
      · exact List.not_mem_nil

/-- The caller may free `*dst` unless LZ4 has failed, which has freed it. -/
theorem compressData_owned_iff (h : Gives size heatMapComp) :
    (((freed (compressData lz4 src heatMapComp).calls ++
        [(compressData lz4 src heatMapComp).dst]).filter (· ≠ null)).Perm
      (allocated (compressData lz4 src heatMapComp).calls)) ↔ ¬ Lz4Fails lz4 heatMapComp src := by
  rcases heatMapComp with _ | ⟨dst, mem⟩
  · refine iff_of_true ?_ fun ⟨_, _, hne, _⟩ => hne rfl
    rcases lz4 with _ | api <;> simp [compressData, freed, allocated]
  · have hdst : dst ≠ null := (h dst mem rfl).1
    rcases lz4 with _ | api
    · refine iff_of_true ?_ fun ⟨_, heq, _⟩ => nomatch heq
      simp [compressData, freed, allocated, hdst]
    · by_cases hret : (api.compressDefault (api.compressBound src.length) src).ret ≤ 0
      · -- `*dst` is freed twice
        refine iff_of_false (fun hperm => ?_) fun hno => hno ⟨api, rfl, by simp, hret⟩
        have hlength := hperm.length_eq
        simp [compressData, hret, freed, allocated, hdst] at hlength
      · refine iff_of_true ?_ fun ⟨_, heq, _, hfails⟩ => hret (Option.some.inj heq ▸ hfails)
        simp [compressData, hret, freed, allocated, hdst]

theorem compressData_calls (hok : ¬ Lz4Fails lz4 heatMapComp src) :
    (compressData lz4 src heatMapComp).calls =
      [.malloc (capacity lz4 src.length) .utilsCompressData heatMapComp] := by
  rcases heatMapComp with _ | ⟨dst, mem⟩
  · cases lz4 <;> rfl
  · cases lz4 with
    | none => rfl
    | some api =>
      have hret : ¬ (api.compressDefault (api.compressBound src.length) src).ret ≤ 0 :=
        fun hret => hok ⟨api, rfl, by simp, hret⟩
      simp only [compressData, if_neg hret, capacity]

/-- LZ4's buffer is decompressed to what was compressed just when there is nothing in it
behind that. -/
theorem decompress_overwrite_iff (h : api.Documented) {mem : Bytes}
    (hret : 0 < (api.compressDefault size src).ret)
    (hlen : (api.compressDefault size src).stored.length ≤ mem.length) :
    api.decompress (overwrite (api.compressDefault size src).stored mem) = some src ↔
      (api.compressDefault size src).stored.length = mem.length := by
  constructor
  · intro hsame
    by_contra hne
    refine h.decompress_longer size src _ hret ?_ hsame
    rw [Ne, List.drop_eq_nil_iff]
    omega
  · intro hfull
    rw [(overwrite_eq_self_iff _ mem).2 hfull.ge]
    exact h.decompress_stored size src hret

/-- The whole buffer is what LZ4 has produced, and is decompressed, just when it is
filled. -/
theorem buffer_iff (h : api.Documented) {mem : Bytes} (hmem : mem.length = size)
    (hret : 0 < (api.compressDefault size src).ret) :
    (api.compressDefault size src).stored =
          (overwrite (api.compressDefault size src).stored mem).take size ∧
        api.decompress ((overwrite (api.compressDefault size src).stored mem).take size) =
          some src ↔
      (api.compressDefault size src).ret = size := by
  have hlen : (api.compressDefault size src).stored.length ≤ mem.length := by
    rw [hmem]
    exact h.room size src
  have hwhole : (overwrite (api.compressDefault size src).stored mem).take size =
      overwrite (api.compressDefault size src).stored mem :=
    List.take_of_length_le (by rw [Utils.length_overwrite hlen, hmem])
  have hfull : mem.length ≤ (api.compressDefault size src).stored.length ↔
      (api.compressDefault size src).stored.length = mem.length := ⟨hlen.antisymm, Eq.ge⟩
  rw [hwhole, eq_comm, overwrite_eq_self_iff, hfull, decompress_overwrite_iff h hret hlen, and_self,
    hmem, ← h.count size src hret, Nat.cast_inj]

def sentOf (comp : Utils.Compressed) : List Mcu.ModuleEvent :=
  sendToNrf9160 comp.mem comp.size .heatMapDataReady

theorem eventsOf_of_ne_nil (h : src ≠ []) :
    eventsOf (some src) = [⟨.heatMapDataReady, false, src⟩] := by
  cases src with
  | nil => exact absurd rfl h
  | cons => rfl

theorem mem_eventsOf {event : Mcu.ModuleEvent} (h : event ∈ eventsOf (some src)) :
    event.data = src := by
  cases src with
  | nil => cases h
  | cons => rw [List.mem_singleton.1 h]

/-- What is sent of a buffer that `compressData` returns is what it produced, and can be
decompressed, just when LZ4 has filled it. -/
theorem compressData_sent_iff (hlz4 : ∀ api, lz4 = some api → api.Documented)
    (hgives : Gives (capacity lz4 src.length) heatMapComp)
    (hsmall : ∀ api, lz4 = some api → 0 < api.compressBound src.length ∧
      api.compressBound src.length < 65536)
    (hok : ¬ Lz4Fails lz4 heatMapComp src) :
    (sentOf (compressData lz4 src heatMapComp) = eventsOf (produced lz4 src heatMapComp) ∧
      ∀ event ∈ sentOf (compressData lz4 src heatMapComp),
        decompressData lz4 event.data = some src) ↔ Fills lz4 heatMapComp src := by
  rcases heatMapComp with _ | ⟨dst, mem⟩
  · have hnone : sentOf (compressData lz4 src none) = [] := by
      cases lz4 <;> rfl
    refine iff_of_true ?_ fun _ _ hne => absurd rfl hne
    simp [hnone, produced, eventsOf]
  · rcases lz4 with _ | api
    · have hsent : sentOf (compressData none src (some (dst, mem))) = eventsOf (some src) := by
        rw [sentOf, compressData, sendToNrf9160, Utils.take_overwrite]
        cases src <;> rfl
      refine iff_of_true ⟨hsent, fun event hevent => ?_⟩ fun _ heq => by cases heq
      rw [hsent] at hevent
      rw [mem_eventsOf hevent, decompressData]
    · have hret : 0 < (api.compressDefault (api.compressBound src.length) src).ret := by
        by_contra hneg
        exact hok ⟨api, rfl, by simp, not_lt.1 hneg⟩
      have hfills : Fills (some api) (some (dst, mem)) src ↔
          (api.compressDefault (api.compressBound src.length) src).ret =
            api.compressBound src.length := by
        simp [Fills]
      have hstored : (api.compressDefault (api.compressBound src.length) src).stored ≠ [] := by
        intro hnil
        have hcount := (hlz4 api rfl).count _ _ hret
        rw [hnil, List.length_nil] at hcount
        omega
      obtain ⟨hpos, hlt⟩ := hsmall api rfl
      have hmem : mem.length = api.compressBound src.length := (hgives dst mem rfl).2
      have hproduced : produced (some api) src (some (dst, mem)) =
          some (api.compressDefault (api.compressBound src.length) src).stored := by
        simp [produced, not_le.2 hret]
      rw [hfills, ← buffer_iff (hlz4 api rfl) hmem hret, hproduced, eventsOf_of_ne_nil hstored]
      simp [sentOf, sendToNrf9160, compressData, not_le.2 hret, Nat.mod_eq_of_lt hlt, hpos,
        decompressData, eq_comm]

/-! ## `prepareAndSendHeatmap` -/

def Obtained (heatMap : KMalloc) (data : Bytes) : Prop := heatMap ≠ none ∨ entriesCount data = 0

theorem prepareAndSendHeatmap_of_obtained (h : Obtained heatMap data) (lz4 : Option Lz4Api)
    (float : Bytes → ℚ) (heatMapComp : KMalloc) :
    ∃ call, prepareAndSendHeatmap lz4 float heatMap heatMapComp data = some call := by
  have hnot : ¬ (heatMap = none ∧ entriesCount data ≠ 0) := by
    rintro ⟨hnone, hcount⟩
    exact h.elim (absurd hnone) hcount
  exact ⟨_, if_neg hnot⟩

/-- What a call frees and sends, by what `compressData` left. -/
structure Follows (heatMap : KMalloc) (comp : Utils.Compressed) (call : Prepared) : Prop where
  allocated : allocated call.calls = (heatMap.map Prod.fst).toList ++ allocated comp.calls
  freed : freed call.calls = freed comp.calls ++ [address heatMap, comp.dst]
  sent : call.nrf9160 = sentOf comp

theorem prepareAndSendHeatmap_follows
    (h : prepareAndSendHeatmap lz4 float heatMap heatMapComp data = some call) :
    Obtained heatMap data ∧
      Follows heatMap (compressData lz4 (heatMapBytes float data) heatMapComp) call := by
  unfold prepareAndSendHeatmap at h
  split_ifs at h with hnull
  cases h
  refine ⟨?_, ?_, ?_, ?_⟩
  · rwa [Obtained, Ne, ← not_not (a := entriesCount data = 0), ← not_and_or]
  · simp [allocated]
  · simp [freed]
  · by_cases hsize : 0 < (compressData lz4 (heatMapBytes float data) heatMapComp).size
    · simp [sentOf, hsize]
    · simp [sentOf, sendToNrf9160, hsize]

/-- The two frees of the caller do not depend on their order. -/
theorem Follows.frees_iff {comp : Utils.Compressed} (h : Follows heatMap comp call)
    (hgives : Gives size heatMap) :
    ((CommCtrl.freed call.calls).filter (· ≠ null)).Perm (CommCtrl.allocated call.calls) ↔
      ((CommCtrl.freed comp.calls ++ [comp.dst]).filter (· ≠ null)).Perm
        (CommCtrl.allocated comp.calls) := by
  have hswap : (CommCtrl.freed call.calls).Perm
      ([address heatMap] ++ (CommCtrl.freed comp.calls ++ [comp.dst])) := by
    rw [h.freed]
    exact List.perm_middle
  rw [h.allocated, (hswap.filter _).congr_left, List.filter_append, filter_address hgives]
  exact List.perm_append_left_iff _

def blockOf (id : StatisticsId) (result : KMalloc) : List Memory.Block :=
  (result.map fun r => ⟨r.1, id, r.2⟩).toList

theorem myMalloc_live (h : Heap) (size : ℕ) (id : StatisticsId) (result : KMalloc) :
    (h.myMalloc size id result).2.live = blockOf id result ++ h.live := by
  rcases result with _ | ⟨ptr, mem⟩ <;> rfl

theorem run_malloc (hrun : heap.Run calls h) (hsize : size < 4294967296)
    (hreturns : h.Returns size heatMap) (id : StatisticsId) :
    heap.Run (calls ++ [.malloc size id heatMap]) (h.myMalloc size id heatMap).2 :=
  .snoc hrun trivial (if_pos ⟨hsize, hreturns⟩)

theorem run_free {ptr : Addr} (hrun : heap.Run calls h) (howned : h.Owned ptr) :
    heap.Run (calls ++ [.free ptr]) (h.myFree ptr) := .snoc hrun trivial (if_pos howned)

theorem myFree_address {rest : List Memory.Block} (hinv : Memory.Inv h)
    (hlive : h.live.Perm (blockOf id heatMap ++ rest)) :
    h.Owned (address heatMap) ∧ (h.myFree (address heatMap)).live.Perm rest := by
  rcases heatMap with _ | ⟨ptr, mem⟩
  · exact ⟨Or.inl rfl, by rwa [address, Option.map_none, Option.getD_none, Memory.myFree_null hinv]⟩
  · have hb : ⟨ptr, id, mem⟩ ∈ h.live := hlive.mem_iff.2 List.mem_cons_self
    exact ⟨Or.inr (List.mem_map_of_mem hb),
      ((Memory.myFree_live_perm hinv hb).symm.trans hlive).cons_inv⟩

theorem prepareAndSendHeatmap_calls (hok : ¬ Lz4Fails lz4 heatMapComp (heatMapBytes float data))
    (hcall : prepareAndSendHeatmap lz4 float heatMap heatMapComp data = some call) :
    call.calls = [.malloc (entriesCount data * 2) .commCtrlHeatmapData heatMap,
      .malloc (capacity lz4 (entriesCount data * 2)) .utilsCompressData heatMapComp,
      .free (address heatMap), .free (address heatMapComp)] := by
  unfold prepareAndSendHeatmap at hcall
  split_ifs at hcall
  cases hcall
  rw [compressData_calls hok, compressData_dst, heatMapBytes_length]
  rfl

/-- In a run of the memory hooks a call can be made unless LZ4 fails, and it leaves the
blocks that there were. -/
theorem prepareAndSendHeatmap_run (hrun : heap.Run calls h)
    (hlz4 : ∀ api, lz4 = some api → api.Documented)
    (hreturns : h.Returns (entriesCount data * 2) heatMap)
    (hreturns' : (h.myMalloc (entriesCount data * 2) .commCtrlHeatmapData heatMap).2.Returns
      (capacity lz4 (entriesCount data * 2)) heatMapComp)
    (hok : ¬ Lz4Fails lz4 heatMapComp (heatMapBytes float data))
    (hcall : prepareAndSendHeatmap lz4 float heatMap heatMapComp data = some call) :
    ∃ h', heap.Run (calls ++ call.calls) h' ∧ h'.live.Perm h.live := by
  have hsize := (entriesCount_le data).trans_lt (show 32766 < 4294967296 by decide)
  have hsize' := (capacity_lt hlz4 data).trans (show 65536 < 4294967296 by decide)
  have hrun₂ := run_malloc (run_malloc hrun hsize hreturns .commCtrlHeatmapData) hsize' hreturns'
    .utilsCompressData
  have hlive : ((h.myMalloc (entriesCount data * 2) .commCtrlHeatmapData heatMap).2.myMalloc
      (capacity lz4 (entriesCount data * 2)) .utilsCompressData heatMapComp).2.live.Perm
        (blockOf .commCtrlHeatmapData heatMap ++ (blockOf .utilsCompressData heatMapComp ++
          h.live)) := by
    rw [myMalloc_live, myMalloc_live]
    exact List.perm_append_comm_assoc _ _ _
  obtain ⟨howned, hlive₁⟩ := myFree_address (Memory.inv_of_run hrun₂) hlive
  have hrun₃ := run_free hrun₂ howned
  obtain ⟨howned', hlive₂⟩ := myFree_address (Memory.inv_of_run hrun₃) hlive₁
  refine ⟨_, ?_, hlive₂⟩
  rw [prepareAndSendHeatmap_calls hok hcall]
  simpa using run_free hrun₃ howned'

theorem null_freed_iff (h : Follows heatMap (compressData lz4 src heatMapComp) call)
    (hgives : Gives size heatMap) (hgives' : Gives size' heatMapComp) :
    null ∈ freed call.calls ↔ heatMap = none ∨ heatMapComp = none := by
  rw [h.freed, List.mem_append, List.mem_pair, compressData_dst, eq_comm,
    address_eq_null_iff hgives, eq_comm (a := null), address_eq_null_iff hgives']
  exact or_iff_right (compressData_freed hgives')

theorem fills_not_fails (hlz4 : ∀ api, lz4 = some api → api.Documented)
    (h : Fills lz4 heatMapComp (heatMapBytes float data)) :
    ¬ Lz4Fails lz4 heatMapComp (heatMapBytes float data) := by
  rintro ⟨api, heq, hne, hret⟩
  have hfull := h api heq hne
  have hpos := (compressBound_entries (hlz4 api heq) data).1
  rw [heatMapBytes_length] at hfull hret
  omega

/-- A call frees and sends what it should exactly when it got its buffer and LZ4, if it is
used, fills the other one. NULL is freed where an allocation failed. -/
theorem prepareAndSendHeatmap_contract_iff (hlz4 : ∀ api, lz4 = some api → api.Documented)
    (hgives : Gives (entriesCount data * 2) heatMap)
    (hgives' : Gives (capacity lz4 (entriesCount data * 2)) heatMapComp) :
    ((∃ call, prepareAndSendHeatmap lz4 float heatMap heatMapComp data = some call ∧
        Contract lz4 heatMapComp (heatMapBytes float data) call) ↔
      Obtained heatMap data ∧ Fills lz4 heatMapComp (heatMapBytes float data)) ∧
      ∀ call, prepareAndSendHeatmap lz4 float heatMap heatMapComp data = some call →
        (null ∈ freed call.calls ↔ heatMap = none ∨ heatMapComp = none) := by
  have hsmall (api : Lz4Api) (heq : lz4 = some api) := compressBound_entries (hlz4 api heq) data
  rw [← heatMapBytes_length float] at hgives' hsmall
  refine ⟨⟨?_, ?_⟩, fun call hcall =>
    null_freed_iff (prepareAndSendHeatmap_follows hcall).2 hgives hgives'⟩
  · rintro ⟨call, hcall, hcontract⟩
    obtain ⟨hobtained, hfollows⟩ := prepareAndSendHeatmap_follows hcall
    have hok := (compressData_owned_iff hgives').1 ((hfollows.frees_iff hgives).1 hcontract.frees)
    refine ⟨hobtained, (compressData_sent_iff hlz4 hgives' hsmall hok).1 ?_⟩
    rw [← hfollows.sent]
    exact ⟨hcontract.sent, hcontract.inverse⟩
  · rintro ⟨hobtained, hfills⟩
    obtain ⟨call, hcall⟩ := prepareAndSendHeatmap_of_obtained hobtained lz4 float heatMapComp
    have hfollows := (prepareAndSendHeatmap_follows hcall).2
    have hok := fills_not_fails hlz4 hfills
    have hsent := (compressData_sent_iff hlz4 hgives' hsmall hok).2 hfills
    rw [← hfollows.sent] at hsent
    exact ⟨call, hcall, (hfollows.frees_iff hgives).2 ((compressData_owned_iff hgives').2 hok),
      hsent.1, hsent.2⟩

def twenty (bytes : Bytes) : ℚ := if bytes = [0, 0, 160, 65] then 20 else 0

def oneEntry : Bytes := [0, 0, 160, 65]

theorem gives_replicate {ptr : Addr} (hptr : ptr ≠ null) (size : ℕ) :
    Gives size (some (ptr, List.replicate size 0)) := by
  rintro _ _ ⟨⟩
  exact ⟨hptr, List.length_replicate⟩

/-- The plain build does it right, and the other one for want of a buffer only. -/
theorem prepareAndSendHeatmap_contract_twenty :
    (∃ call, prepareAndSendHeatmap none twenty (some (100, List.replicate 2 0))
        (some (200, List.replicate 2 0)) oneEntry = some call ∧
      Contract none (some (200, List.replicate 2 0)) (heatMapBytes twenty oneEntry) call) ∧
    ∃ call, prepareAndSendHeatmap (some literalLz4) twenty (some (100, List.replicate 2 0)) none
        oneEntry = some call ∧
      Contract (some literalLz4) none (heatMapBytes twenty oneEntry) call := by
  have hdoc : ∀ api, some literalLz4 = some api → api.Documented := by
    rintro _ ⟨⟩
    exact literalLz4_documented
  have hheatMap : Gives (entriesCount oneEntry * 2) (some (100, List.replicate 2 0)) :=
    gives_replicate (by decide) 2
  have hcomp : Gives (capacity none (entriesCount oneEntry * 2)) (some (200, List.replicate 2 0)) :=
    gives_replicate (by decide) 2
  constructor
  · refine (prepareAndSendHeatmap_contract_iff (by simp) hheatMap hcomp).1.2 ⟨?_, ?_⟩
    · exact Or.inl (by simp)
    · simp [Fills]
  · refine (prepareAndSendHeatmap_contract_iff hdoc hheatMap ?_).1.2 ⟨?_, ?_⟩
    · simp [Gives]
    · exact Or.inl (by simp)
    · simp [Fills]

def failingLz4 : Lz4Api := { literalLz4 with compressDefault := fun _ _ => ⟨0, []⟩ }

/-- The nRF9160 gets a buffer of 18 bytes of which LZ4 has filled three; and the buffer is
freed twice where LZ4 fails. -/
theorem lz4_build_breaks :
    (¬ ∃ call, prepareAndSendHeatmap (some literalLz4) twenty (some (100, List.replicate 2 0))
        (some (200, List.replicate 18 0)) oneEntry = some call ∧
      Contract (some literalLz4) (some (200, List.replicate 18 0)) (heatMapBytes twenty oneEntry)
        call) ∧
    ¬ ∃ call, prepareAndSendHeatmap (some failingLz4) twenty (some (100, List.replicate 2 0))
        (some (200, List.replicate 18 0)) oneEntry = some call ∧
      Contract (some failingLz4) (some (200, List.replicate 18 0)) (heatMapBytes twenty oneEntry)
        call := by
  constructor
  · rintro ⟨call, hcall, hcontract⟩
    have hfollows := (prepareAndSendHeatmap_follows hcall).2
    have hsent := hfollows.sent.symm.trans hcontract.sent
    exact absurd hsent (by decide +kernel)
  · rintro ⟨call, hcall, hcontract⟩
    have hfollows := (prepareAndSendHeatmap_follows hcall).2
    have hlength := hcontract.frees.length_eq
    rw [hfollows.freed, hfollows.allocated] at hlength
    exact absurd hlength (by decide +kernel)

end Heaty.CommCtrl
