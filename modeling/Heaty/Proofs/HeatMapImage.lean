import Heaty.Spec.HeatMap
import Heaty.Spec.McuExchange

/-! When a received heat map is analysed and made an image of without leaving the
payload and the blocks allocated for it. -/

namespace Heaty.HeatMap

open Utils (overwrite)

variable {base64 : Base64Api} {env : ImageEnv} {data : Bytes} {blocks : Blocks} {a : Access}
  {count elemSize len : ℕ} {size : Buffer → ℕ}

/-- The `len` that came over the line is an `uint16_t`. -/
theorem parseMessage_len {cjson : CJsonApi} {parseEnv : Utils.ParseEnv} {message : Bytes}
    {p : Utils.Parsed} (h : Utils.parseMessage base64 cjson parseEnv message = some p) :
    p.len < 65536 := by
  cases htype : cjson.getObjectItemCaseSensitive (cjson.parse message) (text "type") with
  | none => simp [Utils.parseMessage, htype] at h
  | some jsonType =>
    cases hdata : cjson.getObjectItemCaseSensitive (cjson.parse message) (text "data") with
    | none => simp [Utils.parseMessage, htype, hdata] at h
    | some jsonData =>
      cases hlen : cjson.getObjectItemCaseSensitive (cjson.parse message) (text "len") with
      | none => simp [Utils.parseMessage, htype, hdata, hlen] at h
      | some jsonLen =>
        cases hstring : cjson.valuestring jsonData with
        | none => simp [Utils.parseMessage, htype, hdata, hlen, hstring] at h
        | some payload =>
          simp only [Utils.parseMessage, htype, hdata, hlen, hstring] at h
          split_ifs at h
          all_goals
            cases h
            dsimp only
            omega

theorem dispatch_length {garbage : Bytes} {p : Utils.Parsed} {handled : Mcu.Handled}
    (h : Mcu.dispatch garbage p = some handled) : handled.event.data.length ≤ p.len := by
  by_cases htype : p.type = Mcu.EventType.heatMapDataReady.number
  · rw [Mcu.dispatch, if_pos htype] at h
    cases hdata : p.decodedData with
    | none =>
      simp only [hdata] at h
      split_ifs at h
      cases h
      exact Nat.zero_le _
    | some mem =>
      simp only [hdata] at h
      cases h
      exact List.length_take_le _ _
  · rw [Mcu.dispatch, if_neg htype] at h
    split_ifs at h <;> cases h <;> exact List.length_take_le _ _

theorem entriesOf_of_handled {cjson : CJsonApi} {parseEnv : Utils.ParseEnv}
    {garbage message : Bytes} {handled : Mcu.Handled}
    (h : Mcu.handleMessage base64 cjson parseEnv garbage message = some handled) :
    entriesOf handled.event.data.length = handled.event.data.length / 2 := by
  obtain ⟨p, hp, hhandled⟩ := Option.bind_eq_some_iff.1 h
  have hlen := parseMessage_len hp
  have hdata := dispatch_length hhandled
  unfold entriesOf
  omega

def pixels (data : Bytes) : Bytes :=
  (List.ofFn (revertConvertAndScaleHeatMap fun i : Fin imageSize => int16At data i)).map UInt8.ofInt

/-- A payload that was handled by both functions: they access nothing but their buffers,
and the encoder is given the pixels of an image that the payload holds. -/
structure ImageSafe (base64 : Base64Api) (env : ImageEnv) (blocks : Blocks) (data : Bytes) :
    Prop where
  analysis : ∀ a ∈ convertBackAndAnalyze data, a.Inside (bufferSize data.length 4 blocks)
  image : ∀ a ∈ (heatmapToBase64Image base64 env data).accesses,
    a.Inside (bufferSize data.length 1 env.blocks)
  outcome : 2 * imageSize ≤ data.length ∧
      (heatmapToBase64Image base64 env data).given = some (pixels data) ∨
    (heatmapToBase64Image base64 env data).given = none ∧
      (heatmapToBase64Image base64 env data).ret = none

def Blocks.All (blocks : Blocks) : Prop :=
  blocks.heatMap = true ∧ ∀ region, blocks.area region = true ∧ blocks.stats region = true

theorem entriesOf_le (len : ℕ) : 2 * entriesOf len ≤ len := by
  unfold entriesOf
  omega

theorem loopAccesses_inside (hblocks : blocks.heatMap = true)
    (ha : a ∈ loopAccesses (entriesOf len) elemSize) :
    a.Inside (bufferSize len elemSize blocks) := by
  obtain ⟨i, hi, ha⟩ := List.mem_flatMap.1 ha
  have hlt : i < entriesOf len := List.mem_range.1 hi
  have hle := entriesOf_le len
  rcases List.mem_pair.1 ha with rfl | rfl
  · simp only [Access.Inside, bufferSize]
    omega
  · have hmul : (i + 1) * elemSize ≤ entriesOf len * elemSize := Nat.mul_le_mul_right _ hlt
    simp only [Access.Inside, bufferSize, hblocks, if_true]
    linarith

/-- The regions lie in the first nine rows, and what is made of them fits its blocks. -/
theorem analyzeHeatmap_inside (hblocks : blocks.All) (ha : a ∈ analyzeHeatmap)
    (hlen : imageSize ≤ entriesOf len) : a.Inside (bufferSize len 4 blocks) := by
  have hregions : ∀ a ∈ analyzeHeatmap,
      a.Inside (bufferSize (2 * imageSize) 4 ⟨true, fun _ => true, fun _ => true⟩) :=
    List.all_iff_forall_prop.1 (by decide)
  refine (hregions a ha).trans ?_
  obtain ⟨hheatMap, hregion⟩ := hblocks
  cases a.buffer with
  | payload => exact (Nat.mul_le_mul_left 2 hlen).trans (entriesOf_le len)
  | heatMap =>
    simp only [bufferSize, hheatMap, if_true]
    exact Nat.mul_le_mul_right 4 hlen
  | roiArea region => simp [bufferSize, (hregion region).1]
  | roiStats region => simp [bufferSize, (hregion region).2]

theorem convertBackAndAnalyze_inside (hblocks : blocks.All)
    (hlen : imageSize ≤ entriesOf data.length) (ha : a ∈ convertBackAndAnalyze data) :
    a.Inside (bufferSize data.length 4 blocks) := by
  rcases List.mem_append.1 ha with ha | ha
  · exact loopAccesses_inside hblocks.1 ha
  · exact analyzeHeatmap_inside hblocks ha hlen

theorem heatmapToBase64Image_inside (hmem : env.heatMap.isSome = true)
    (hlen : imageSize ≤ entriesOf data.length)
    (ha : a ∈ (heatmapToBase64Image base64 env data).accesses) :
    a.Inside (bufferSize data.length 1 env.blocks) := by
  simp only [heatmapToBase64Image, List.mem_append, List.mem_singleton] at ha
  rcases ha with (ha | ha) | rfl
  · exact loopAccesses_inside hmem ha
  · -- the probe of pixel 200
    unfold imageSize at hlen
    split_ifs at ha
    · rw [List.mem_singleton] at ha
      subst ha
      simp only [Access.Inside, bufferSize, ImageEnv.blocks, hmem, if_true]
      omega
    · cases ha
  · simp only [Access.Inside, bufferSize, ImageEnv.blocks, hmem, if_true]
    omega

theorem greyLevels_take (hlen : imageSize ≤ entriesOf data.length) (mem : Bytes) :
    (overwrite (greyLevels data) mem).take imageSize = pixels data := by
  have hgrey : (greyLevels data).length = entriesOf data.length := by simp [greyLevels]
  rw [overwrite, List.take_append_of_le_length (hgrey ▸ hlen)]
  apply List.ext_getElem
  · rw [List.length_take, hgrey, Nat.min_eq_left hlen]
    simp [pixels]
  · intro i hi hi'
    simp [greyLevels, pixels, revertConvertAndScaleHeatMap, entries]

theorem imageSafe_of_entries (hblocks : blocks.All) (hmem : env.heatMap ≠ none)
    (hlen : imageSize ≤ entriesOf data.length) : ImageSafe base64 env blocks data := by
  have hsome := Option.isSome_iff_ne_none.2 hmem
  obtain ⟨mem, hmem⟩ := Option.ne_none_iff_exists'.1 hmem
  refine ⟨fun a ha => convertBackAndAnalyze_inside hblocks hlen ha,
    fun a ha => heatmapToBase64Image_inside hsome hlen ha, Or.inl ⟨?_, ?_⟩⟩
  · exact (Nat.mul_le_mul_left 2 hlen).trans (entriesOf_le _)
  · simp only [heatmapToBase64Image, hmem, Option.map_some, greyLevels_take hlen]

theorem allocated_of_inside {allocated : Bool} {n pos size : ℕ} (hsize : 0 < size)
    (h : pos + size ≤ if allocated then n else 0) : allocated = true ∧ pos + size ≤ n := by
  split_ifs at h with hallocated
  · exact ⟨hallocated, h⟩
  · omega

theorem all_of_inside
    (h : ∀ a ∈ convertBackAndAnalyze data, a.Inside (bufferSize data.length 4 blocks)) :
    blocks.All := by
  have hpixel (region : Region) : ⟨.roiArea region, 0, 4⟩ ∈ analyzeHeatmap ∧
      ⟨.roiStats region, 0, 16⟩ ∈ analyzeHeatmap := by
    cases region <;> decide
  have hmap := h ⟨.heatMap, 4 * (5 * heatmapWidth + 3), 4⟩ (List.mem_append_right _ (by decide))
  refine ⟨(allocated_of_inside (by decide) hmap).1, fun region => ⟨?_, ?_⟩⟩
  · have harea := h _ (List.mem_append_right _ (hpixel region).1)
    exact (allocated_of_inside (Nat.succ_pos 3) harea).1
  · have hstats := h _ (List.mem_append_right _ (hpixel region).2)
    exact (allocated_of_inside (Nat.succ_pos 15) hstats).1

/-- The image is made safely exactly when the payload holds all its entries and all blocks
were allocated. -/
theorem heatMap_imageSafe_iff :
    ImageSafe base64 env blocks data ↔
      blocks.All ∧ env.heatMap ≠ none ∧ imageSize ≤ entriesOf data.length := by
  constructor
  · intro h
    have hencoder := h.image ⟨.heatMap, 0, imageSize⟩ (by simp [heatmapToBase64Image])
    obtain ⟨hmem, hlen⟩ := allocated_of_inside (by decide) hencoder
    exact ⟨all_of_inside h.analysis, Option.isSome_iff_ne_none.1 hmem, by simpa using hlen⟩
  · rintro ⟨hblocks, hmem, hlen⟩
    exact imageSafe_of_entries hblocks hmem hlen

def imageEnv : ImageEnv where
  thingy91 := true
  heatMap := some []
  encodedData := some []
  lodepng := some

/-- A payload of one entry is read behind its end, though all was allocated. -/
theorem one_entry_not_safe :
    ¬ ImageSafe zephyrBase64 imageEnv ⟨true, fun _ => true, fun _ => true⟩ [20, 0] := by
  intro h
  exact absurd (h.image ⟨.heatMap, 0, imageSize⟩ (by decide)) (by decide)

end Heaty.HeatMap
