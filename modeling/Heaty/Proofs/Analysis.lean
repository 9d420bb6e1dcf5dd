import Heaty.Lib.Run
import Heaty.Spec.Analysis

/-! The histories of the regions hold the last statistics, each of all the pixels of its
region. -/

namespace Heaty.Analysis

open HeatMap (Region Roi heatmapWidth)

variable {api : RingBufApi} {cmsis : Cmsis} {roi : Roi} {history : api.Buf}
variable {stat : Stats} {records : List Stats} {size : ℕ}

/-! ## The pixels of a region -/

/-- The loops of `get_roi` go over a region row by row. -/
theorem roiIndices_eq (roi : Roi) :
    roiIndices roi =
      (List.range (roi.w * roi.h)).map fun i => 32 * (roi.y + i / roi.w) + (roi.x + i % roi.w) := by
  obtain ⟨x, y, h, w⟩ := roi
  simp only [roiIndices, heatmapWidth]
  induction h with
  | zero => simp
  | succ h ih =>
    rw [List.range'_concat, List.flatMap_append, ih, Nat.mul_succ, List.range_add, List.map_append,
      List.flatMap_singleton, List.range'_eq_map_range, List.map_map, List.map_map]
    congr 1
    apply List.map_congr_left
    intro i hi
    have hi := List.mem_range.1 hi
    have hdiv : (w * h + i) / w = h := by
      rw [Nat.mul_add_div (by omega), Nat.div_eq_of_lt hi, add_zero]
    have hmod : (w * h + i) % w = i := by
      rw [Nat.mul_add_mod, Nat.mod_eq_of_lt hi]
    simp only [Function.comp_apply, hdiv, hmod]
    ring

theorem getRoi_eq_pixels (roi : Roi) (heatMap : ℕ → UInt32) :
    getRoi roi heatMap = pixels roi heatMap := by
  rw [getRoi, roiIndices_eq, List.map_map]
  rfl

theorem roiIndices_lt (hroi : OnMap roi) : ∀ i ∈ roiIndices roi, i < 768 := by
  obtain ⟨hx, hy⟩ := hroi
  intro i hi
  obtain ⟨row, hrow, hi⟩ := List.mem_flatMap.1 hi
  obtain ⟨col, hcol, rfl⟩ := List.mem_map.1 hi
  rw [List.mem_range'_1] at hrow hcol
  rw [heatmapWidth]
  omega

theorem getRoi_accesses (region : Region) :
    HeatMap.getRoi region = (roiIndices region.roi).zipIdx.flatMap fun x =>
      [⟨.heatMap, 4 * x.1, 4⟩, ⟨.roiArea region, 4 * x.2, 4⟩] := rfl

theorem getStats_eq_record (hroi : OnMap roi) (cmsis : Cmsis) (heatMap : ℕ → UInt32) :
    getStats cmsis (getRoi roi heatMap) (roi.w * roi.h) = record cmsis roi heatMap := by
  have hcount : roi.w * roi.h ≤ 32 * 24 :=
    Nat.mul_le_mul (by have := hroi.1; omega) (by have := hroi.2; omega)
  have hlength : (pixels roi heatMap).length = roi.w * roi.h := by simp [pixels]
  have htake : (pixels roi heatMap).take (roi.w * roi.h % 65536) = pixels roi heatMap := by
    rw [Nat.mod_eq_of_lt (by omega), ← hlength, List.take_length]
  rw [getStats, getRoi_eq_pixels, htake]
  rfl

/-! ## A history -/

theorem length_bytes (s : Stats) : s.bytes.length = sizeofStats := by
  simp [Stats.bytes, sizeofStats]

theorem value_field (x : UInt32) :
    LittleEndian.value (LittleEndian.bytes 4 x.toNat) = x.toNat := by
  have hlt : (x.toNat : ℤ) < 256 ^ 4 := by exact_mod_cast x.toNat_lt
  have hvalue := LittleEndian.value_bytes 4 x.toNat
  rw [Int.emod_eq_of_lt (Int.natCast_nonneg _) hlt] at hvalue
  exact_mod_cast hvalue

/-- The memory of a record holds its four fields, one after another. -/
theorem bytes_fields (s : Stats) :
    LittleEndian.value (s.bytes.take 4) = s.mean.toNat ∧
      LittleEndian.value ((s.bytes.drop 4).take 4) = s.min.toNat ∧
      LittleEndian.value ((s.bytes.drop 8).take 4) = s.max.toNat ∧
      LittleEndian.value ((s.bytes.drop 12).take 4) = s.var.toNat := by
  have hfields : s.bytes.take 4 = LittleEndian.bytes 4 s.mean.toNat ∧
      (s.bytes.drop 4).take 4 = LittleEndian.bytes 4 s.min.toNat ∧
      (s.bytes.drop 8).take 4 = LittleEndian.bytes 4 s.max.toNat ∧
      (s.bytes.drop 12).take 4 = LittleEndian.bytes 4 s.var.toNat := ⟨rfl, rfl, rfl, rfl⟩
  obtain ⟨hmean, hmin, hmax, hvar⟩ := hfields
  rw [hmean, hmin, hmax, hvar]
  exact ⟨value_field _, value_field _, value_field _, value_field _⟩

theorem bytes_injective : Function.Injective Stats.bytes := by
  intro s t h
  obtain ⟨hmean, hmin, hmax, hvar⟩ := bytes_fields s
  obtain ⟨hmean', hmin', hmax', hvar'⟩ := bytes_fields t
  rw [h] at hmean hmin hmax hvar
  cases s
  cases t
  simp only [Stats.mk.injEq, ← UInt32.toNat_inj]
  exact ⟨hmean.symm.trans hmean', hmin.symm.trans hmin', hmax.symm.trans hmax',
    hvar.symm.trans hvar'⟩

theorem length_records (records : List Stats) :
    (records.flatMap Stats.bytes).length = sizeofStats * records.length := by
  induction records with
  | nil => rfl
  | cons s records ih =>
    rw [List.flatMap_cons, List.length_append, length_bytes, ih, List.length_cons]
    ring

/-- The last of a list that becomes longer: all of them, or one less of those before. -/
theorem rtake_concat {α : Type*} (l : List α) (x : α) {n : ℕ} (hn : 0 < n) :
    (l ++ [x]).rtake n = (if l.length < n then l else (l.rtake n).tail) ++ [x] := by
  obtain ⟨n, rfl⟩ := Nat.exists_eq_succ_of_ne_zero hn.ne'
  rw [List.rtake_concat_succ]
  congr 1
  split_ifs with hlt
  · rw [List.rtake, Nat.sub_eq_zero_of_le (by omega), List.drop_zero]
  · rw [List.rtake, List.rtake, List.tail_drop]
    congr 1
    omega

/-- A history between two calls: its records are whole, and the first of them starts at a
multiple of their size, so that it lies in one run. -/
structure Holds (size : ℕ) (records : List Stats) (s : RingState) : Prop where
  capacity : s.capacity = sizeofStats * size
  contents : Keeps size records s.contents
  aligned : sizeofStats ∣ s.first
  first_lt : s.first < s.capacity
  unclaimed : s.claimed = 0

theorem Holds.declare (h : api.Documented) (hsize : 1 ≤ size) :
    Holds size [] (api.state (api.declare (sizeofStats * size))) := by
  rw [h.declare]
  exact ⟨rfl, by simp [Keeps], dvd_zero _, Nat.mul_pos (by decide) hsize, rfl⟩

theorem Holds.length_contents {s : RingState} (h : Holds size records s) :
    s.contents.length = sizeofStats * min size records.length := by
  rw [h.contents, length_records, List.rtake, List.length_drop]
  congr 1
  omega

/-- The first record of a full history is claimed as a whole. -/
theorem Holds.claim (h : api.Documented) (hholds : Holds size records (api.state history))
    (hfull : size ≤ records.length) :
    api.state (api.getClaim history sizeofStats) =
      { api.state history with claimed := sizeofStats } := by
  have hlength := hholds.length_contents
  have hfirst := hholds.first_lt
  have hcapacity := hholds.capacity
  obtain ⟨k, hk⟩ := hholds.aligned
  rw [min_eq_left hfull] at hlength
  rw [hcapacity, hk] at hfirst
  have hroom : sizeofStats * k + sizeofStats ≤ sizeofStats * size :=
    Nat.mul_le_mul_left sizeofStats (Nat.lt_of_mul_lt_mul_left hfirst)
  have hrun : min sizeofStats (min (api.state history).contents.length
      ((api.state history).capacity - (api.state history).first)) = sizeofStats := by
    rw [hlength, hcapacity, hk]
    omega
  rw [h.getClaim history sizeofStats hholds.unclaimed, hrun]

theorem Holds.evict (h : api.Documented) (hholds : Holds size records (api.state history))
    (hfull : size ≤ records.length) :
    api.state (api.getFinish (api.getClaim history sizeofStats) sizeofStats) =
      ⟨sizeofStats * size, (records.rtake size).tail.flatMap Stats.bytes,
        ((api.state history).first + sizeofStats) % (sizeofStats * size), 0⟩ := by
  have hclaim := hholds.claim h hfull
  have hle : sizeofStats ≤ (api.state (api.getClaim history sizeofStats)).claimed := by
    rw [hclaim]
  have hdrop : ((records.rtake size).flatMap Stats.bytes).drop sizeofStats =
      (records.rtake size).tail.flatMap Stats.bytes := by
    cases records.rtake size with
    | nil => rfl
    | cons s rest =>
      rw [List.flatMap_cons, ← length_bytes s, List.drop_left, List.tail_cons]
  rw [h.getFinish _ _ hle, hclaim, hholds.capacity, hholds.contents, hdrop]

/-- Where a record was given up, the next one is put as a whole. -/
theorem Holds.append_full (h : api.Documented) (hsize : 1 ≤ size)
    (hholds : Holds size records (api.state history)) (hfull : size ≤ records.length)
    (stat : Stats) :
    Holds size (records ++ [stat]) (api.state (api.put
      (api.getFinish (api.getClaim history sizeofStats) sizeofStats) stat.bytes)) := by
  have hconcat := rtake_concat records stat hsize
  rw [if_neg (not_lt.2 hfull)] at hconcat
  have hrest : ((records.rtake size).tail.flatMap Stats.bytes).length =
      sizeofStats * (size - 1) := by
    rw [length_records, List.length_tail, List.rtake, List.length_drop]
    congr 1
    omega
  have hroom : stat.bytes.length ≤ sizeofStats * size - sizeofStats * (size - 1) := by
    rw [length_bytes, sizeofStats]
    omega
  rw [h.put, hholds.evict h hfull]
  dsimp only
  rw [hrest, List.take_of_length_le hroom]
  refine ⟨rfl, ?_, ?_, ?_, rfl⟩
  · rw [Keeps, hconcat, List.flatMap_append, List.flatMap_singleton]
  · exact (Nat.dvd_mod_iff (dvd_mul_right _ _)).2 (dvd_add hholds.aligned dvd_rfl)
  · exact Nat.mod_lt _ (Nat.mul_pos (by decide) hsize)

theorem Holds.append_space (h : api.Documented)
    (hholds : Holds size records (api.state history)) (hspace : records.length < size)
    (stat : Stats) :
    Holds size (records ++ [stat]) (api.state (api.put history stat.bytes)) := by
  have hlength := hholds.length_contents
  have hcapacity := hholds.capacity
  have hcontents := hholds.contents
  have hconcat := rtake_concat records stat (Nat.zero_lt_of_lt hspace)
  have hall : records.rtake size = records := by
    rw [List.rtake, Nat.sub_eq_zero_of_le hspace.le, List.drop_zero]
  have hroom : stat.bytes.length ≤
      (api.state history).capacity - (api.state history).contents.length := by
    rw [hcapacity, hlength, length_bytes, sizeofStats]
    omega
  rw [if_pos hspace] at hconcat
  rw [Keeps, hall] at hcontents
  rw [h.put, List.take_of_length_le hroom]
  refine ⟨hcapacity, ?_, hholds.aligned, hholds.first_lt, hholds.unclaimed⟩
  rw [Keeps, hconcat, List.flatMap_append, List.flatMap_singleton, hcontents]

/-- A record is appended as a whole, at the cost of the first one when there is no space. -/
theorem Holds.append (h : api.Documented) (hsize : 1 ≤ size)
    (hholds : Holds size records (api.state history)) (stat : Stats) :
    Holds size (records ++ [stat]) (api.state (appendToHistory api history stat)) := by
  have hspace : api.spaceGet history = 0 ↔ size ≤ records.length := by
    rw [h.spaceGet, hholds.length_contents, hholds.capacity, sizeofStats]
    omega
  rw [appendToHistory]
  split_ifs with hnone
  · exact hholds.append_full h hsize (hspace.1 hnone) stat
  · exact hholds.append_space h (not_le.1 (mt hspace.2 hnone)) stat

/-! ## Calls -/

theorem analyzeRoi_eq_some_iff {heatMap : ℕ → UInt32} {memory : Memory} {history' : api.Buf} :
    analyzeRoi api cmsis roi history heatMap memory = some history' ↔
      (memory.area ∧ memory.stats) ∧ appendToHistory api history
        (getStats cmsis (getRoi roi heatMap) (roi.w * roi.h)) = history' := by
  rw [analyzeRoi]
  dsimp only
  split_ifs with harea hstats <;> simp [*]

theorem Holds.analyzeRoi (h : api.Documented) (hroi : OnMap roi) (hsize : 1 ≤ size)
    {heatMap : ℕ → UInt32} {memory : Memory} {history' : api.Buf}
    (hholds : Holds size records (api.state history))
    (hcall : analyzeRoi api cmsis roi history heatMap memory = some history') :
    Holds size (records ++ [record cmsis roi heatMap]) (api.state history') := by
  obtain ⟨-, rfl⟩ := analyzeRoi_eq_some_iff.1 hcall
  rw [← getStats_eq_record hroi]
  exact hholds.append h hsize _

theorem analyzeRois_holds (h : api.Documented) (hroi : OnMap roi) (hsize : 1 ≤ size)
    (calls : List ((ℕ → UInt32) × Memory))
    (hrun : analyzeRois api cmsis roi (api.declare (sizeofStats * size)) calls = some history) :
    Holds size (calls.map fun call => record cmsis roi call.1) (api.state history) := by
  refine Lts.invariant_of_foldlM
    (fun calls history => Holds size (calls.map fun call => record cmsis roi call.1)
      (api.state history)) (Holds.declare h hsize) ?_ hrun
  intro calls history call next hholds hcall
  rw [List.map_append, List.map_singleton]
  exact hholds.analyzeRoi h hroi hsize hcall

theorem analyzeRois_isSome_iff (calls : List ((ℕ → UInt32) × Memory)) :
    (analyzeRois api cmsis roi history calls).isSome ↔
      ∀ call ∈ calls, call.2.area ∧ call.2.stats := by
  induction calls generalizing history with
  | nil => simp [analyzeRois]
  | cons call calls ih =>
    rw [analyzeRois, List.foldlM_cons, List.forall_mem_cons, Option.bind_eq_bind]
    cases hcall : analyzeRoi api cmsis roi history call.1 call.2 with
    | none =>
      have hmemory : ¬ (call.2.area ∧ call.2.stats) := fun hmemory => by
        rw [analyzeRoi_eq_some_iff.2 ⟨hmemory, rfl⟩] at hcall
        cases hcall
      exact iff_of_false (by simp) fun h => hmemory h.1
    | some next =>
      obtain ⟨hmemory, -⟩ := analyzeRoi_eq_some_iff.1 hcall
      rw [Option.bind_some]
      exact ih.trans (and_iff_right hmemory).symm

/-- On any region of the map and with any size of its history, whatever heat maps are
analysed, only pixels of the map are read, a run goes through as long as there is memory,
and the history then holds the last records, each of all the pixels of the region in their
order. -/
theorem analyzeRois_keeps (h : api.Documented) (cmsis : Cmsis) (roi : Roi) (hroi : OnMap roi)
    (size : ℕ) (hsize : 1 ≤ size) (calls : List ((ℕ → UInt32) × Memory)) :
    let history := api.declare (sizeofStats * size)
    (∀ i ∈ roiIndices roi, i < 768) ∧
      ((analyzeRois api cmsis roi history calls).isSome ↔
        ∀ call ∈ calls, call.2.area ∧ call.2.stats) ∧
      ∀ history', analyzeRois api cmsis roi history calls = some history' →
        Keeps size (calls.map fun call => record cmsis roi call.1)
          (api.state history').contents := by
  intro history
  refine ⟨roiIndices_lt hroi, analyzeRois_isSome_iff calls, fun history' hrun => ?_⟩
  exact (analyzeRois_holds h hroi hsize calls hrun).contents

def firstPixel : Cmsis where
  armMaxF32 := fun l => l.headD 0
  armMinF32 := fun l => l.headD 0
  armMeanF32 := fun l => l.headD 0
  armVarF32 := fun l => l.headD 0

def threeMaps : List ((ℕ → UInt32) × Memory) :=
  [1, 2, 3].map fun t => (fun _ => t, ⟨true, true⟩)

/-- The statistics of three heat maps, in a history of two. -/
theorem analyzeRois_keeps_three :
    ∃ history, analyzeRois zephyrRingBuf firstPixel HeatMap.gasStove
        (zephyrRingBuf.declare (sizeofStats * 2)) threeMaps = some history ∧
      Keeps 2 (threeMaps.map fun call => record firstPixel HeatMap.gasStove call.1)
        (zephyrRingBuf.state history).contents := by
  obtain ⟨-, hsome, hkeeps⟩ := analyzeRois_keeps zephyrRingBuf_documented firstPixel
    HeatMap.gasStove (by decide) 2 (by decide) threeMaps
  obtain ⟨history, hrun⟩ := Option.isSome_iff_exists.1 (hsome.2 (by simp [threeMaps]))
  exact ⟨history, hrun, hkeeps history hrun⟩

/-! ## All regions -/

/-- A fold that goes over the entries of a function changes each entry by its own step. -/
theorem foldlM_update {ι β : Type*} [DecidableEq ι] (f : ι → β → Option β) {l : List ι}
    (hl : l.Nodup) {s s' : ι → β}
    (h : l.foldlM (fun s i => (f i (s i)).map (Function.update s i)) s = some s') (i : ι) :
    if i ∈ l then f i (s i) = some (s' i) else s' i = s i := by
  induction l generalizing s with
  | nil =>
    cases h
    simp
  | cons j l ih =>
    rw [List.nodup_cons] at hl
    rw [List.foldlM_cons, Option.bind_eq_bind, Option.bind_eq_some_iff] at h
    obtain ⟨next, hstep, hrest⟩ := h
    obtain ⟨b, hb, rfl⟩ := Option.map_eq_some_iff.1 hstep
    have hi := ih hl.2 hrest
    by_cases hij : i = j
    · subst hij
      rw [if_neg hl.1, Function.update_self] at hi
      rw [if_pos List.mem_cons_self, hb, hi]
    · rw [Function.update_of_ne hij] at hi
      simpa [hij] using hi

/-- Of a heat map, each history gets the record of its own region. -/
theorem analyzeHeatmap_region {histories histories' : Region → api.Buf} {heatMap : ℕ → UInt32}
    {memory : Region → Memory}
    (h : analyzeHeatmap api cmsis histories heatMap memory = some histories') (region : Region) :
    analyzeRoi api cmsis region.roi (histories region) heatMap (memory region) =
      some (histories' region) := by
  rw [analyzeHeatmap] at h
  have hnodup : [Region.gasStove, .microwaveOven, .disWasher, .riceCooker, .heater].Nodup := by
    decide
  have hregion := foldlM_update (fun (region : Region) (history : api.Buf) =>
    analyzeRoi api cmsis region.roi history heatMap (memory region)) hnodup h region
  have hmem : region ∈ [Region.gasStove, .microwaveOven, .disWasher, .riceCooker, .heater] := by
    cases region <;> decide
  rw [if_pos hmem] at hregion
  exact hregion

/-- After any run of heat maps, every region's history holds its last records. -/
theorem analyzeHeatmaps_keeps (h : api.Documented) (hsize : 1 ≤ size) (calls : List HeatmapCall)
    {histories : Region → api.Buf}
    (hrun : analyzeHeatmaps api cmsis (fun _ => api.declare (sizeofStats * size)) calls =
      some histories) (region : Region) :
    Keeps size (calls.map fun call => record cmsis region.roi call.1)
      (api.state (histories region)).contents := by
  have hroi : OnMap region.roi := by cases region <;> decide
  have hstep : ∀ (calls : List HeatmapCall) (histories : Region → api.Buf) (call : HeatmapCall)
      next, Holds size (calls.map fun call => record cmsis region.roi call.1)
        (api.state (histories region)) →
      analyzeHeatmap api cmsis histories call.1 call.2 = some next →
      Holds size ((calls ++ [call]).map fun call => record cmsis region.roi call.1)
        (api.state (next region)) := by
    intro calls histories call next hholds hcall
    rw [List.map_append, List.map_singleton]
    exact hholds.analyzeRoi h hroi hsize (analyzeHeatmap_region hcall region)
  refine (Lts.invariant_of_foldlM
    (fun (calls : List HeatmapCall) (histories : Region → api.Buf) =>
      Holds size (calls.map fun call : HeatmapCall => record cmsis region.roi call.1)
        (api.state (histories region))) ?_ hstep hrun).contents
  exact Holds.declare h hsize

end Heaty.Analysis
