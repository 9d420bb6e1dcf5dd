import Heaty.Spec.Companion

/-! When the companion finds its way back to the start of a transfer. An Error that
is no Exception leaves the collected text in place, so the property depends on
which texts make the processing methods throw one. -/

namespace Heaty.Companion

variable {dart : DartConvert}

/-! ## Heat maps -/

/-- Enough bytes for the 24 rows of 32 floats, all of them finite. -/
def GridOk (packed : Bytes) : Prop :=
  3072 ≤ packed.length ∧ ∀ bits ∈ (asFloat32List packed).take 768, isFinite bits = true

def HeatMapClears (dart : DartConvert) (text : Bytes) : Prop :=
  text = [] ∨ dart.base64Decode text = none ∨
    ∃ packed, dart.base64Decode text = some packed ∧ GridOk packed

theorem length_asFloat32List (packed : Bytes) :
    (asFloat32List packed).length = packed.length / 4 := by
  induction packed using asFloat32List.induct with
  | case1 a b c d rest ih =>
    simp only [asFloat32List, List.length_cons, ih]
    omega
  | case2 packed h =>
    rw [asFloat32List.eq_2 _ h, List.length_nil]
    match packed with
    | [] | [_] | [_, _] | [_, _, _] => simp
    | a :: b :: c :: d :: rest => exact absurd rfl (h a b c d rest)

theorem mapM_isSome {α β : Type} {f : α → Option β} {l : List α} :
    (l.mapM f).isSome = true ↔ ∀ x ∈ l, (f x).isSome = true := by
  induction l with
  | nil => simp
  | cons x l ih =>
    rw [List.forall_mem_cons, ← ih, List.mapM_cons]
    cases f x <;> cases l.mapM f <;> simp

theorem mem_cells {cell : ℕ × ℕ} : cell ∈ cells ↔ cell.1 < 24 ∧ cell.2 < 32 := by
  obtain ⟨h, w⟩ := cell
  simp [cells]

theorem heatmapEntry_isSome (raw : List ℕ) (h w : ℕ) :
    (heatmapEntry raw h w).isSome = true ↔
      ∃ bits, raw[h * 32 + w]? = some bits ∧ isFinite bits = true := by
  simp only [heatmapEntry]
  cases raw[h * 32 + w]? with
  | none => simp
  | some bits => cases hfinite : isFinite bits <;> simp [hfinite]

theorem heatmapRows_isSome (packed : Bytes) :
    (heatmapRows (asFloat32List packed)).isSome = true ↔ GridOk packed := by
  rw [heatmapRows, mapM_isSome]
  simp only [heatmapEntry_isSome]
  have hlen := length_asFloat32List packed
  constructor
  · intro h
    have hat (i : ℕ) (hi : i < 768) :
        ∃ bits, (asFloat32List packed)[i]? = some bits ∧ isFinite bits = true := by
      have hmem : (i / 32, i % 32) ∈ cells := mem_cells.2 ⟨by omega, by omega⟩
      have hindex : i / 32 * 32 + i % 32 = i := by omega
      simpa only [hindex] using h _ hmem
    refine ⟨?_, fun bits hbits => ?_⟩
    · obtain ⟨bits, hbits, -⟩ := hat 767 (by decide)
      have hlt := (List.getElem?_eq_some_iff.1 hbits).1
      omega
    · obtain ⟨i, hi, rfl⟩ := List.mem_take_iff_getElem.1 hbits
      obtain ⟨bits, hbits, hfinite⟩ := hat i (by omega)
      rw [List.getElem?_eq_getElem (by omega)] at hbits
      rwa [Option.some.inj hbits]
  · rintro ⟨hbytes, hfinite⟩ cell hcell
    obtain ⟨hrow, hcol⟩ := mem_cells.1 hcell
    have hi : cell.1 * 32 + cell.2 < 768 := by omega
    refine ⟨_, List.getElem?_eq_getElem (by omega), hfinite _ ?_⟩
    exact List.mem_take_iff_getElem.2 ⟨_, by omega, rfl⟩

theorem processHeatmapData_clears (d : HeatMap) :
    (processHeatmapData dart d).1.incommingData = [] ↔ HeatMapClears dart d.incommingData := by
  simp only [processHeatmapData, HeatMap.tryProcess, HeatMapClears]
  cases hdecode : dart.base64Decode d.incommingData with
  | none => simp [finish, HeatMap.reset]
  | some packed =>
    have hgrid := heatmapRows_isSome packed
    cases hrows : heatmapRows (asFloat32List packed) with
    | none =>
      simp only [hrows, Option.isSome_none, Bool.false_eq_true, false_iff] at hgrid
      simp [finish, hrows, hgrid]
    | some rows =>
      simp only [hrows, Option.isSome_some, true_iff] at hgrid
      simp [finish, HeatMap.reset, hrows, hgrid]

/-! ## Camera images -/

def CameraClears (dart : DartConvert) (imageText : Bytes) : Prop :=
  headerSearch imageText = none ∨
    ∃ matchedText, headerSearch imageText = some matchedText ∧
      (dart.jsonDecode matchedText = none ∨ removeFirst matchedText imageText = [] ∨
        dart.base64Decode (removeFirst matchedText imageText) = none ∨
        ∃ header name, dart.jsonDecode matchedText = some header ∧
          index header (text "name") = some (.str name))

theorem processCameraImageData_clears (d : CameraImage) :
    (processCameraImageData dart d).1.incommingData = [] ↔ CameraClears dart d.incommingData := by
  simp only [processCameraImageData, CameraImage.tryProcess, CameraClears]
  cases hsearch : headerSearch d.incommingData with
  | none => simp [finish, CameraImage.reset]
  | some matchedText =>
    cases hjson : dart.jsonDecode matchedText with
    | none => simp [finish, CameraImage.reset, hjson]
    | some header =>
      cases hdecode : dart.base64Decode (removeFirst matchedText d.incommingData) with
      | none => simp [finish, CameraImage.reset, hjson, hdecode]
      | some imageData =>
        cases hname : index header (text "name") with
        | none => simp [finish, hdecode, hjson, hname]
        | some value =>
          cases value with
          | str name => simp [finish, CameraImage.reset, hjson, hdecode, hname]
          | _ => simp [finish, hdecode, hjson, hname]

/-! ## Whole transfers -/

/-- A heat map that finds nothing collected is decoded as it was sent, however it
is cut into packets. -/
theorem heatMap_transfer (hdart : dart.Documented) {d : HeatMap} (hd : d.incommingData = [])
    {bs : Bytes} (hgrid : GridOk bs) {packets : List Bytes}
    (hpackets : packets.flatten = Base64.encode bs ++ [0]) :
    ∃ h, (Transfer.run (handleHeatMapTx dart) d packets).2 = [some h] ∧
      heatmapRows (asFloat32List bs) = some h.heatmapData := by
  obtain ⟨t, -, htext, -, hresults⟩ := Transfer.run_transfer heatMapCollector
    (processHeatmapData dart) d (I := fun _ => True) (fun _ _ _ => trivial)
    (fun _ _ _ => trivial) trivial (Base64.zero_notMem_encode bs) hpackets
  have htext' : t.incommingData = Base64.encode bs := by
    have h : t.incommingData = d.incommingData ++ Base64.encode bs := htext
    rwa [hd, List.nil_append] at h
  obtain ⟨rows, hrows⟩ := Option.isSome_iff_exists.1 ((heatmapRows_isSome bs).2 hgrid)
  refine ⟨{ t with heatmapData := rows }, ?_, hrows⟩
  have hprocess : (processHeatmapData dart t).2 = some { t with heatmapData := rows } := by
    simp only [processHeatmapData, HeatMap.tryProcess, htext', hdart.base64_encode, hrows, finish]
  rw [← hprocess]
  exact hresults

/-- Headers that the search finds as a whole at the start of a text, and that do
not end a packet early. -/
def HeaderOk (header : Bytes) : Prop :=
  ∃ inner, header = 123 :: inner ++ [125] ∧
    ∀ c ∈ inner, c ≠ 125 ∧ isLineTerminator c = false ∧ c ≠ 0

theorem headerSearch_header {header : Bytes} (h : HeaderOk header) (rest : Bytes) :
    headerSearch (header ++ rest) = some header := by
  obtain ⟨inner, rfl, hinner⟩ := h
  have htake : (inner ++ 125 :: rest).takeWhile
      (fun c => decide (c ≠ 125 ∧ ¬ isLineTerminator c = true)) = inner := by
    rw [List.takeWhile_append_of_pos (fun c hc => by simp [hinner c hc])]
    simp
  have htext : 123 :: inner ++ [125] ++ rest = 123 :: (inner ++ 125 :: rest) := by simp
  have hmatch : matchHeader (123 :: (inner ++ 125 :: rest)) = some (123 :: inner ++ [125]) := by
    simp only [matchHeader, htake, List.drop_left]
  rw [htext, headerSearch, hmatch]

theorem removeFirst_prefix {pattern : Bytes} (hne : pattern ≠ []) (rest : Bytes) :
    removeFirst pattern (pattern ++ rest) = rest := by
  cases pattern with
  | nil => exact absurd rfl hne
  | cons c pattern =>
    have hprefix : (c :: pattern).isPrefixOf (c :: (pattern ++ rest)) = true :=
      List.isPrefixOf_iff_prefix.2 (List.prefix_append (c :: pattern) rest)
    rw [List.cons_append, removeFirst, if_pos hprefix, ← List.cons_append, List.drop_left]

/-- An image that finds nothing collected is decoded as it was sent, under the name
in its header, however it is cut into packets. -/
theorem cameraImage_transfer (hdart : dart.Documented) {d : CameraImage}
    (hd : d.incommingData = []) {header bs : Bytes} (hheader : HeaderOk header)
    {json : Json UInt16} {name : DartString} (hjson : dart.jsonDecode header = some json)
    (hname : index json (text "name") = some (.str name)) {packets : List Bytes}
    (hpackets : packets.flatten = header ++ Base64.encode bs ++ [0]) :
    ∃ img, (Transfer.run (handleCameraImageTx dart) d packets).2 = [some img] ∧
      img.name = name ∧ img.imageData = bs ∧
      img.received = if sizeIs json bs.length then d.received ++ [name] else d.received := by
  have hbody : 0 ∉ header ++ Base64.encode bs := by
    obtain ⟨inner, rfl, hinner⟩ := hheader
    simp only [List.mem_append, List.mem_cons, not_or]
    exact ⟨⟨⟨by decide, fun h => (hinner 0 h).2.2 rfl⟩, by decide⟩, Base64.zero_notMem_encode bs⟩
  obtain ⟨t, hreceived, htext, -, hresults⟩ := Transfer.run_transfer cameraCollector
    (processCameraImageData dart) d (I := fun t => t.received = d.received)
    (fun _ _ h => h) (fun _ _ h => h) rfl hbody hpackets
  have htext' : t.incommingData = header ++ Base64.encode bs := by
    have h : t.incommingData = d.incommingData ++ (header ++ Base64.encode bs) := htext
    rwa [hd, List.nil_append] at h
  have hne : header ≠ [] := by
    obtain ⟨inner, rfl, -⟩ := hheader
    simp
  have hprocess : ∃ img, (processCameraImageData dart t).2 = some img ∧
      img.name = name ∧ img.imageData = bs ∧
      img.received = if sizeIs json bs.length then t.received ++ [name] else t.received := by
    simp only [processCameraImageData, CameraImage.tryProcess, htext', headerSearch_header hheader,
      hjson, removeFirst_prefix hne, hdart.base64_encode, hname, finish]
    refine ⟨_, rfl, ?_, ?_, ?_⟩ <;> split_ifs <;> rfl
  obtain ⟨img, himg, hfields⟩ := hprocess
  rw [hreceived] at hfields
  refine ⟨img, ?_, hfields⟩
  rw [← himg]
  exact hresults

/-! ## Any packets -/

theorem heatMap_emptied_iff (d : HeatMap) (packets : List Bytes) :
    Transfer.Emptied heatMapCollector 0 (handleHeatMapTx dart) d packets ↔
      Transfer.AllTexts heatMapCollector 0 (handleHeatMapTx dart) d packets (HeatMapClears dart) :=
  Transfer.emptied_iff heatMapCollector _ d processHeatmapData_clears

theorem camera_emptied_iff (d : CameraImage) (packets : List Bytes) :
    Transfer.Emptied cameraCollector 0 (handleCameraImageTx dart) d packets ↔
      Transfer.AllTexts cameraCollector 0 (handleCameraImageTx dart) d packets
        (CameraClears dart) :=
  Transfer.emptied_iff cameraCollector _ d processCameraImageData_clears

/-- The receivers start every transfer afresh just when every text they were given
is one that processing leaves nothing of, and then the next transfer is decoded as
it was sent. -/
theorem companion_resyncs_iff (hdart : dart.Documented) :
    (∀ (d : HeatMap) (packets : List Bytes),
      Transfer.Emptied heatMapCollector 0 (handleHeatMapTx dart) d packets ↔
        Transfer.AllTexts heatMapCollector 0 (handleHeatMapTx dart) d packets
          (HeatMapClears dart)) ∧
    (∀ (d : CameraImage) (packets : List Bytes),
      Transfer.Emptied cameraCollector 0 (handleCameraImageTx dart) d packets ↔
        Transfer.AllTexts cameraCollector 0 (handleCameraImageTx dart) d packets
          (CameraClears dart)) ∧
    (∀ (d : HeatMap) (pre : List Bytes) (packet : Bytes) (transfer : List Bytes) (bs : Bytes),
      Transfer.Ends 0 packet →
      Transfer.AllTexts heatMapCollector 0 (handleHeatMapTx dart) d (pre ++ [packet])
        (HeatMapClears dart) →
      GridOk bs → transfer.flatten = Base64.encode bs ++ [0] →
      ∃ h, (Transfer.run (handleHeatMapTx dart) d (pre ++ [packet] ++ transfer)).2 =
          (Transfer.run (handleHeatMapTx dart) d (pre ++ [packet])).2 ++ [some h] ∧
        heatmapRows (asFloat32List bs) = some h.heatmapData) ∧
    ∀ (d : CameraImage) (pre : List Bytes) (packet : Bytes) (transfer : List Bytes)
      (header bs : Bytes) (json : Json UInt16) (name : DartString), Transfer.Ends 0 packet →
      Transfer.AllTexts cameraCollector 0 (handleCameraImageTx dart) d (pre ++ [packet])
        (CameraClears dart) →
      HeaderOk header → dart.jsonDecode header = some json →
      index json (text "name") = some (.str name) →
      transfer.flatten = header ++ Base64.encode bs ++ [0] →
      ∃ img, (Transfer.run (handleCameraImageTx dart) d (pre ++ [packet] ++ transfer)).2 =
          (Transfer.run (handleCameraImageTx dart) d (pre ++ [packet])).2 ++ [some img] ∧
        img.name = name ∧ img.imageData = bs := by
  refine ⟨heatMap_emptied_iff, camera_emptied_iff, ?_, ?_⟩
  · intro d pre packet transfer bs hends hclears hgrid hflat
    have hempty := (heatMap_emptied_iff d _).2 hclears pre packet List.prefix_rfl hends
    obtain ⟨h, hresults, hrows⟩ := heatMap_transfer hdart hempty hgrid hflat
    exact ⟨h, by rw [Transfer.run_append, hresults], hrows⟩
  · intro d pre packet transfer header bs json name hends hclears hheader hjson hname hflat
    have hempty := (camera_emptied_iff d _).2 hclears pre packet List.prefix_rfl hends
    obtain ⟨img, hresults, himg, hdata, -⟩ :=
      cameraImage_transfer hdart hempty hheader hjson hname hflat
    exact ⟨img, by rw [Transfer.run_append, hresults], himg, hdata⟩

def smallMembers : List (Bytes × Json.Scalar) :=
  [(text "name", .str (text "a")), (text "size", .int 3)]

def smallHeader : Bytes := Json.print compactStyle smallMembers

theorem smallMembers_plain : PlainMembers smallMembers := by
  simp only [PlainMembers, smallMembers, List.forall_mem_cons, Json.PlainMember]
  have hkeys : (∀ c ∈ text "name", Json.isPlain c = true) ∧
      ∀ c ∈ text "size", Json.isPlain c = true :=
    ⟨List.all_iff_forall_prop.1 (by decide), List.all_iff_forall_prop.1 (by decide)⟩
  exact ⟨⟨⟨hkeys.1, by simp [Json.isPlain, text]⟩, by simp⟩, ⟨⟨hkeys.2, by simp⟩, by simp [IsInt]⟩,
    by simp⟩

/-- After a packet that is no base64 at all, a small image is decoded. -/
theorem companion_resyncs_small :
    Transfer.AllTexts cameraCollector 0 (handleCameraImageTx dartConvert) .start
        [text "\x7b\x7d?" ++ [0]] (CameraClears dartConvert) ∧
      ∃ img, (Transfer.run (handleCameraImageTx dartConvert) .start
          ([text "\x7b\x7d?" ++ [0]] ++ [smallHeader, text "AQID" ++ [0]])).2 =
            (Transfer.run (handleCameraImageTx dartConvert) .start
              [text "\x7b\x7d?" ++ [0]]).2 ++ [some img] ∧
        img.name = units (text "a") ∧ img.imageData = [1, 2, 3] := by
  have hclears : Transfer.AllTexts cameraCollector 0 (handleCameraImageTx dartConvert) .start
      ([] ++ [text "\x7b\x7d?" ++ [0]]) (CameraClears dartConvert) := by
    intro pre packet hprefix _
    rcases List.prefix_concat_iff.1 hprefix with h | h
    · obtain ⟨rfl, h⟩ := List.append_inj' h rfl
      cases h
      exact Or.inr ⟨text "\x7b\x7d", rfl, Or.inr (Or.inr (Or.inl rfl))⟩
    · simp at h
  refine ⟨hclears, ?_⟩
  have hcode : Base64.encode [1, 2, 3] = text "AQID" := by decide
  exact (companion_resyncs_iff dartConvert_documented).2.2.2 .start [] _
    [smallHeader, text "AQID" ++ [0]] smallHeader [1, 2, 3] _ _ rfl hclears
    ⟨text "\"name\":\"a\",\"size\":3", rfl, List.all_iff_forall_prop.1 (by decide)⟩
    (dartConvert_documented.json_print _ smallMembers_plain (by decide)) rfl
    (by simp [hcode])

/-- Three bytes are too few for a heat map and a header may lack a name: the text
stays, and the next transfer is decoded with it in front. -/
theorem companion_keeps_text :
    ¬ Transfer.Emptied heatMapCollector 0 (handleHeatMapTx dartConvert) .start
        [text "AAAA" ++ [0]] ∧
      ¬ Transfer.Emptied cameraCollector 0 (handleCameraImageTx dartConvert) .start
        [text "\x7b\x7dAAAA" ++ [0]] ∧
      ∃ img, (Transfer.run (handleCameraImageTx dartConvert) .start
          [text "\x7b\x7dAAAA" ++ [0], smallHeader, text "AQID" ++ [0]]).2 = [none, some img] ∧
        img.imageData = [0, 0, 0, 1, 2, 3] := by
  have hrun : (Transfer.run (handleCameraImageTx dartConvert) .start
      [text "\x7b\x7dAAAA" ++ [0], smallHeader, text "AQID" ++ [0]]).2 =
        [none, some ⟨text "AAAAAQID", [0, 0, 0, 1, 2, 3], 33, units (text "a"), []⟩] := by
    decide +kernel
  refine ⟨fun h => ?_, fun h => ?_, _, hrun, rfl⟩
  · have hempty := h [] _ List.prefix_rfl rfl
    exact absurd hempty (by decide)
  · have hempty := h [] _ List.prefix_rfl rfl
    exact absurd hempty (by decide)

end Heaty.Companion
