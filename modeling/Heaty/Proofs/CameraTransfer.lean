import Heaty.Proofs.ImagePath
import Heaty.Proofs.Resync
import Heaty.Proofs.SendText

/-! An image from the camera to the companion. The FIFO is read in chunks, each
chunk is sent in pieces, and the companion decodes all of it at once; this works
because chunks and pieces consist of whole triples up to the last one. A chunk
has to fit the 16-bit length that `serialSend` takes. -/

namespace Heaty.Collector

open Companion Utils

/-! ## The chunks -/

/-- The events for the bytes left in the camera: whole chunks up to the last. -/
inductive Chunks (maxChunck imageSize : ℕ) : Bytes → List CameraDataEvent → Prop
  | last {left : Bytes} : left ≠ [] → left.length ≤ maxChunck →
      Chunks maxChunck imageSize left [⟨imageSize, left.length = imageSize, true, left⟩]
  | more {left : Bytes} {events : List CameraDataEvent} : maxChunck < left.length →
      Chunks maxChunck imageSize (left.drop maxChunck) events →
      Chunks maxChunck imageSize left
        (⟨imageSize, left.length = imageSize, false, left.take maxChunck⟩ :: events)

section Chunks

variable {maxChunck imageSize : ℕ} {left : Bytes} {events : List CameraDataEvent}

theorem takeImageLoop_chunks (hmax : 0 < maxChunck) (fuel : ℕ) (hne : left ≠ [])
    (hfuel : left.length ≤ fuel) :
    ∃ events, takeImageLoop maxChunck imageSize fuel left = some events ∧
      Chunks maxChunck imageSize left events := by
  have hempty (fuel : ℕ) : takeImageLoop maxChunck imageSize fuel [] = some [] := by
    cases fuel <;> rfl
  induction fuel generalizing left with
  | zero => exact absurd (List.eq_nil_of_length_eq_zero (by omega)) hne
  | succ fuel ih =>
    have hpos : 0 < left.length := List.length_pos_iff.2 hne
    by_cases hlast : left.length ≤ maxChunck
    · refine ⟨_, ?_, .last hne hlast⟩
      simp [takeImageLoop, sendImageChunck, fillBuffer, hne, hlast, Nat.not_lt.2 hlast, hempty]
    · have hmore : maxChunck < left.length := Nat.lt_of_not_le hlast
      have hne' : left.drop maxChunck ≠ [] := by
        rw [← List.length_pos_iff, List.length_drop]
        omega
      obtain ⟨events, hevents, hchunks⟩ := ih hne' (by rw [List.length_drop]; omega)
      refine ⟨_, ?_, .more hmore hchunks⟩
      simp [takeImageLoop, sendImageChunck, fillBuffer, hne, hlast, hmore, hevents]

theorem takeImage_chunks {maxChunck : ℕ} (hmax : 0 < maxChunck) {image : Bytes} (hne : image ≠ [])
    (hlen : image.length ≤ 8388607) :
    ∃ events, takeImage maxChunck image = some events ∧
      Chunks maxChunck image.length image events := by
  have hsize : image.length % 8388608 = image.length := Nat.mod_eq_of_lt (by omega)
  simp only [takeImage, hsize, List.take_length]
  exact takeImageLoop_chunks hmax _ hne le_rfl

theorem Chunks.length_le (h : Chunks maxChunck imageSize left events) :
    ∀ e ∈ events, e.data.length ≤ min left.length maxChunck := by
  induction h with
  | last hne hlast => simp [hlast]
  | more hmore _ ih =>
    rw [List.forall_mem_cons]
    refine ⟨by rw [List.length_take]; omega, fun e he => ?_⟩
    have hle := ih e he
    rw [List.length_drop] at hle
    omega

theorem Chunks.short (hfits : min left.length maxChunck ≤ 65535)
    (h : Chunks maxChunck imageSize left events) :
    ∀ m ∈ events.flatMap chunkMessages, m.1.length < 65536 := by
  intro m hm
  obtain ⟨e, he, hm⟩ := List.mem_flatMap.1 hm
  rcases List.mem_cons.1 hm with rfl | hm
  · exact (h.length_le e he).trans_lt (by omega)
  · split_ifs at hm
    · rw [List.mem_singleton.1 hm]
      decide
    · simp at hm

theorem Chunks.isFirst_eq_false (h : Chunks maxChunck imageSize left events)
    (hlt : left.length < imageSize) : ∀ e ∈ events, e.isFirst = false := by
  induction h with
  | last hne hlast => simpa using hlt.ne
  | more hmore _ ih =>
    rw [List.forall_mem_cons]
    refine ⟨by simpa using hlt.ne, ih ?_⟩
    rw [List.length_drop]
    omega

theorem Chunks.head (hmax : 0 < maxChunck) (h : Chunks maxChunck left.length left events) :
    ∃ first rest, events = first :: rest ∧ first.isFirst = true ∧
      first.imageSize = left.length ∧ ∀ e ∈ rest, e.isFirst = false := by
  cases h with
  | last hne hlast => exact ⟨_, [], rfl, by simp, rfl, by simp⟩
  | more hmore h =>
    exact ⟨_, _, rfl, by simp, rfl, h.isFirst_eq_false (by rw [List.length_drop]; omega)⟩

theorem Chunks.pad_notMem (h3 : 3 ∣ maxChunck) (h : Chunks maxChunck imageSize left events) :
    ∀ e ∈ events, e.isLast = false → Base64.pad ∉ Base64.encode e.data := by
  induction h with
  | last hne hlast => simp
  | more hmore _ ih =>
    rw [List.forall_mem_cons]
    refine ⟨fun _ => Base64.pad_notMem_encode ?_, ih⟩
    rwa [List.length_take, Nat.min_eq_left hmore.le]

/-- The chunks' texts and the final byte. -/
theorem Chunks.text_eq (h3 : 3 ∣ maxChunck) (h : Chunks maxChunck imageSize left events) :
    (events.flatMap fun e => (chunkMessages e).flatMap fun m => Bt.wire m.2 m.1) =
      Base64.encode left ++ [0] := by
  induction h with
  | last hne hlast => simp [chunkMessages, Bt.wire]
  | @more left events hmore _ ih =>
    have hsplit : Base64.encode left =
        Base64.encode (left.take maxChunck) ++ Base64.encode (left.drop maxChunck) := by
      rw [← Base64.encode_append _ _ (by rwa [List.length_take, Nat.min_eq_left hmore.le]),
        List.take_append_drop]
    rw [List.flatMap_cons, ih, hsplit]
    simp [chunkMessages, Bt.wire]

end Chunks

/-! ## The messages -/

/-- What arrives of a list of messages, each cut to its 16-bit length. -/
theorem sendAll_text {api : Base64Api} (hapi : api.Documented) (msgs : List (Bytes × Bool))
    (slot : ℕ → ℕ × Bytes) (hmtu : ∀ i, Bt.MtuOk (slot i).1) :
    ∃ sent, sendAll api slot msgs = some sent ∧
      (sent.map Bt.Notification.value).flatten =
        msgs.flatMap fun m => Bt.wire m.2 (m.1.take (m.1.length % 65536)) := by
  induction msgs generalizing slot with
  | nil => exact ⟨[], rfl, rfl⟩
  | cons msg msgs ih =>
    obtain ⟨first, hfirst, htext⟩ :=
      Bt.serialSend_text hapi (hmtu 0) (slot 0).2 msg.1 msg.2
    obtain ⟨sent, hsent, htexts⟩ := ih (fun i => slot (i + 1)) fun i => hmtu (i + 1)
    refine ⟨first ++ sent, by simp [sendAll, hfirst, hsent], ?_⟩
    rw [List.map_append, List.flatten_append, htext, htexts, List.flatMap_cons]

theorem flatMap_wire_take {msgs : List (Bytes × Bool)} (h : ∀ m ∈ msgs, m.1.length < 65536) :
    (msgs.flatMap fun m => Bt.wire m.2 (m.1.take (m.1.length % 65536))) =
      msgs.flatMap fun m => Bt.wire m.2 m.1 := by
  refine List.flatMap_congr fun m hm => ?_
  rw [Nat.mod_eq_of_lt (h m hm), List.take_length]

/-! ## The header -/

theorem int_bmod {n : ℕ} (h : n ≤ 8388607) : Int.bmod n 4294967296 = n :=
  Int.bmod_eq_of_le (by omega) (by omega)

def headerMembers (name : Bytes) (imageSize : ℕ) : List (Bytes × Json.Scalar) :=
  [(text "name", .str name), (text "size", .int imageSize)]

section Header

variable {name : Bytes} {imageSize : ℕ}

theorem length_headerText (hname : NameOk name) (hsize : imageSize ≤ 8388607) :
    (headerText name imageSize).length ≤ maxHeaderLength - 1 := by
  have hdigits : (Decimal.digits imageSize).length ≤ 7 :=
    Decimal.length_digits_le (by decide) (by omega)
  have hint : Decimal.int (imageSize : ℤ) = Decimal.digits imageSize := by
    rw [Decimal.int, if_neg (by omega), Int.natAbs_natCast]
  have hopen : (text "\x7b\"name\":\"").length = 9 := by decide
  have hmid : (text "\",\"size\":").length = 9 := by decide
  have hclose : (text "\x7d").length = 1 := by decide
  have hlen := hname.length
  simp only [headerText, int_bmod hsize, hint, List.length_append, hopen, hmid, hclose,
    maxHeaderLength, maxPathLength]
  omega

theorem cstr_headerText (hname : NameOk name) (hsize : imageSize ≤ 8388607) :
    cstr ((headerText name imageSize).take (maxHeaderLength - 1)) = headerText name imageSize := by
  rw [List.take_of_length_le (length_headerText hname hsize)]
  exact cstr_eq_self (zero_notMem_headerText hname imageSize)

theorem headerText_ok (hname : NameOk name) : HeaderOk (headerText name imageSize) := by
  refine ⟨headerInner name imageSize, headerText_eq name imageSize, fun c hc => ?_⟩
  obtain ⟨hge, hne⟩ := headerInner_chars hname imageSize c hc
  refine ⟨hne, ?_, ?_⟩
  · simp only [isLineTerminator, decide_eq_false_iff_not]
    rintro (rfl | rfl) <;> exact absurd hge (by decide)
  · rintro rfl
    exact absurd hge (by decide)

theorem headerText_print (hsize : imageSize ≤ 8388607) :
    headerText name imageSize = Json.print compactStyle (headerMembers name imageSize) := by
  have hopen : text "\x7b\"name\":\"" = 123 :: 34 :: (text "name" ++ [34, 58, 34]) := by decide
  have hmid : text "\",\"size\":" = 34 :: 44 :: 34 :: (text "size" ++ [34, 58]) := by decide
  have hclose : text "\x7d" = [125] := by decide
  simp only [headerText, int_bmod hsize, hopen, hmid, hclose, headerMembers, compactStyle,
    Json.print, Json.printMembers, Json.printMember, Json.Scalar.print, List.cons_append,
    List.append_assoc, List.nil_append, List.append_nil]

theorem headerMembers_plain (hname : NameOk name) (hsize : imageSize ≤ 8388607) :
    PlainMembers (headerMembers name imageSize) := by
  simp only [PlainMembers, headerMembers, List.forall_mem_cons, Json.PlainMember]
  refine ⟨⟨⟨List.all_iff_forall_prop.1 (by decide), fun s hs c hc => ?_⟩, fun z hz => by cases hz⟩,
    ⟨⟨List.all_iff_forall_prop.1 (by decide), fun s hs => by cases hs⟩, fun z hz => ?_⟩, by simp⟩
  · cases hs
    exact (hname.plain c hc).1
  · cases hz
    exact ⟨by omega, by omega⟩

theorem headerMembers_nodup (name : Bytes) (imageSize : ℕ) :
    ((headerMembers name imageSize).map Prod.fst).Nodup := by
  simp only [headerMembers, List.map_cons, List.map_nil]
  decide

theorem index_header (name : Bytes) (imageSize n : ℕ) :
    index (Json.flatWith UInt8.toUInt16 (headerMembers name imageSize)) (text "name") =
        some (.str (units name)) ∧
      sizeIs (Json.flatWith UInt8.toUInt16 (headerMembers name imageSize)) n =
        decide (imageSize = n) := by
  have hjson : Json.flatWith UInt8.toUInt16 (headerMembers name imageSize) =
      .obj [(units (text "name"), .str (units name)), (units (text "size"), .num imageSize)] := rfl
  have hne : decide (units (text "name") = units (text "size")) = false := by decide
  constructor
  · simp only [index, hjson, List.find?_cons, decide_true, Option.map_some, Option.getD_some]
  · simp only [sizeIs, index, hjson, List.find?_cons, hne, decide_true, Option.map_some,
      Option.getD_some, Nat.cast_inj]

end Header

/-! ## The whole way -/

/-- Fed to the companion, the notifications are one transfer: its listeners see the
image under the file's name, and its size is the one in the header. -/
def Delivered (dart : DartConvert) (d : CameraImage) (fileName image : Bytes)
    (sent : List Bt.Notification) : Prop :=
  ∃ img, (Transfer.run (handleCameraImageTx dart) d (sent.map Bt.Notification.value)).2 =
      [some img] ∧
    img.name = units fileName ∧ img.imageData = image ∧
    img.received = d.received ++ [units fileName]

/-- Notifications that carry a header, the text of some bytes and the final byte make
the companion process these bytes. -/
theorem companion_of_text {dart : DartConvert} (hdart : dart.Documented) {d : CameraImage}
    (hd : d.incommingData = []) {name data : Bytes} {imageSize : ℕ} (hname : NameOk name)
    (hsize : imageSize ≤ 8388607) {packets : List Bytes}
    (hpackets : packets.flatten = headerText name imageSize ++ (Base64.encode data ++ [0])) :
    ∃ img, (Transfer.run (handleCameraImageTx dart) d packets).2 = [some img] ∧
      img.name = units name ∧ img.imageData = data ∧
      img.received =
        if imageSize = data.length then d.received ++ [units name] else d.received := by
  obtain ⟨hindex, hsizeIs⟩ := index_header name imageSize data.length
  have hjson := hdart.json_print _ (headerMembers_plain hname hsize)
    (headerMembers_nodup name imageSize)
  rw [← headerText_print hsize] at hjson
  rw [← List.append_assoc] at hpackets
  obtain ⟨img, hresults, himg, hdata, hreceived⟩ :=
    cameraImage_transfer hdart hd (headerText_ok hname) hjson hindex hpackets
  refine ⟨img, hresults, himg, hdata, ?_⟩
  rw [hreceived, hsizeIs]
  simp

theorem run_image_messages (build : Build) (localtime : ℤ → Tm) (c : Control)
    {first : CameraDataEvent} {rest : List CameraDataEvent} (inputs : List Input)
    (hinputs : (cameraInputs inputs).map Prod.fst = first :: rest)
    (hfirst : first.isFirst = true) (hrest : ∀ e ∈ rest, e.isFirst = false)
    (hsize : first.imageSize ≤ 8388607) :
    ∃ name, NameOk name ∧
      (chunkFiles (c.run build localtime inputs)).head?.map (fun file => file.2.1) = some name ∧
      cameraMessages (c.run build localtime inputs) =
        (headerText name first.imageSize, false) :: (first :: rest).flatMap chunkMessages := by
  obtain ⟨⟨e, env⟩, pairs, hcamera, rfl, rfl⟩ := List.map_eq_cons_iff.1 hinputs
  obtain ⟨counter, hfiles, hmessages⟩ := run_image build localtime c inputs
    hcamera hfirst fun x hx => hrest x.1 (List.mem_map_of_mem hx)
  have hname := chunkPath_ok build localtime counter env
  refine ⟨chunkPath build localtime counter env, hname, by rw [hfiles]; rfl, ?_⟩
  rw [hmessages, cstr_headerText hname hsize, List.flatMap_cons, List.flatMap_map]

/-- An image whose chunks fit 16-bit lengths is delivered, whatever heat maps come
between its chunks. -/
theorem camera_delivers {api : Base64Api} (hapi : api.Documented) {dart : DartConvert}
    (hdart : dart.Documented) (build : Build) (localtime : ℤ → Tm) (c : Control) (maxChunck : ℕ)
    (hmax : 0 < maxChunck) (h3 : 3 ∣ maxChunck) (image : Bytes) (hne : 1 ≤ image.length)
    (hlen : image.length ≤ 0x7FFFFF) (hfits : min image.length maxChunck ≤ 65535)
    (slot : ℕ → ℕ × Bytes) (hmtu : ∀ i, Bt.MtuOk (slot i).1) (d : CameraImage)
    (hd : d.incommingData = []) :
    ∃ events, takeImage maxChunck image = some events ∧
      (∀ e ∈ events, e.isLast = false → Base64.pad ∉ Base64.encode e.data) ∧
      ∀ inputs, (cameraInputs inputs).map Prod.fst = events →
        ∃ fileName sent,
          (chunkFiles (c.run build localtime inputs)).head?.map (fun file => file.2.1) =
            some fileName ∧
          (headerText fileName image.length).length < maxHeaderLength ∧
          sendAll api slot (cameraMessages (c.run build localtime inputs)) = some sent ∧
          Delivered dart d fileName image sent := by
  obtain ⟨events, hevents, hchunks⟩ :=
    takeImage_chunks hmax (List.length_pos_iff.1 hne) hlen
  refine ⟨events, hevents, hchunks.pad_notMem h3, fun inputs hinputs => ?_⟩
  obtain ⟨first, rest, rfl, hfirst, hsize, hrest⟩ := hchunks.head hmax
  obtain ⟨name, hname, hfile, hmessages⟩ := run_image_messages build localtime c inputs hinputs
    hfirst hrest (hsize ▸ hlen)
  rw [hsize] at hmessages
  have hheader := length_headerText hname hlen
  obtain ⟨sent, hsent, htext⟩ :=
    sendAll_text hapi (cameraMessages (c.run build localtime inputs)) slot hmtu
  have hshort : ∀ m ∈ cameraMessages (c.run build localtime inputs), m.1.length < 65536 := by
    rw [hmessages, List.forall_mem_cons]
    exact ⟨hheader.trans_lt (by decide), hchunks.short hfits⟩
  rw [flatMap_wire_take hshort, hmessages, List.flatMap_cons, List.flatMap_assoc,
    hchunks.text_eq h3] at htext
  obtain ⟨img, hresults, himg, hdata, hreceived⟩ := companion_of_text hdart hd hname hlen htext
  rw [if_pos rfl] at hreceived
  exact ⟨name, sent, hfile, hheader.trans_lt (by decide), hsent,
    img, hresults, himg, hdata, hreceived⟩

def fourBytes : List Input :=
  [.camera ⟨4, true, false, [1, 2, 3]⟩ ⟨none, 1000, true⟩, .heatMap [7] ⟨none, 1200, true⟩,
    .camera ⟨4, false, true, [4]⟩ ⟨none, 1900, true⟩]

/-- An image of four bytes is delivered over the smallest `mtu`. -/
theorem camera_delivers_four_bytes :
    ∃ sent, sendAll zephyrBase64 (fun _ => (5, []))
        (cameraMessages (Control.start.run ⟨true, true, true⟩ januaryTime fourBytes)) = some sent ∧
      Delivered dartConvert .start (text "01-01-00-00-01.jpg") [1, 2, 3, 4] sent := by
  obtain ⟨events, hevents, -, hinputs⟩ := camera_delivers zephyrBase64_documented
    dartConvert_documented ⟨true, true, true⟩ januaryTime .start 3 (by decide) (by decide)
    [1, 2, 3, 4] (by decide) (by decide) (by decide) (fun _ => (5, []))
    (fun _ => ⟨by decide, by decide, by decide⟩) .start rfl
  obtain ⟨fileName, sent, hfile, -, hsent, hdelivered⟩ :=
    hinputs fourBytes (Option.some.inj (hevents.symm.trans (by decide)).symm)
  have hname : (chunkFiles (Control.start.run ⟨true, true, true⟩ januaryTime fourBytes)).head?.map
      (fun file => file.2.1) = some (text "01-01-00-00-01.jpg") := by decide
  rw [hname] at hfile
  cases hfile
  exact ⟨sent, hsent, hdelivered⟩

def hugeImage : Bytes := List.replicate 65538 0

def hugeEvent : CameraDataEvent := ⟨65538, true, true, hugeImage⟩

theorem takeImage_huge : takeImage 65538 hugeImage = some [hugeEvent] := by
  have hlen : hugeImage.length = 65538 := List.length_replicate
  obtain ⟨events, hevents, hchunks⟩ := takeImage_chunks (show 0 < 65538 by decide)
    (List.length_pos_iff.1 (by omega : 0 < hugeImage.length)) (by omega)
  rw [hevents, hugeEvent]
  cases hchunks with
  | last hne hlast => simp only [hlen, decide_true]
  | more hmore _ => exact absurd hmore (by omega)

/-- Only two bytes of it arrive. -/
theorem camera_delivers_two_bytes :
    takeImage 65538 hugeImage = some [hugeEvent] ∧
      ∃ sent img, sendAll zephyrBase64 (fun _ => (21, []))
          (cameraMessages (Control.start.run ⟨true, true, true⟩ januaryTime
            [.camera hugeEvent ⟨none, 1000, true⟩])) = some sent ∧
        (Transfer.run (handleCameraImageTx dartConvert) .start
          (sent.map Bt.Notification.value)).2 = [some img] ∧
        img.imageData = [0, 0] ∧
        ∀ fileName, ¬ Delivered dartConvert .start fileName hugeImage sent := by
  refine ⟨takeImage_huge, ?_⟩
  have hinputs : (cameraInputs [.camera hugeEvent ⟨none, 1000, true⟩]).map Prod.fst =
      [hugeEvent] := rfl
  obtain ⟨name, hname, -, hmessages⟩ := run_image_messages ⟨true, true, true⟩ januaryTime .start
    _ hinputs rfl (by simp) (by decide)
  obtain ⟨sent, hsent, htext⟩ := sendAll_text zephyrBase64_documented
    (cameraMessages (Control.start.run ⟨true, true, true⟩ januaryTime
      [.camera hugeEvent ⟨none, 1000, true⟩]))
    (fun _ => (21, [])) fun _ => ⟨by decide, by decide, by decide⟩
  have hheader : (headerText name 65538).length % 65536 = (headerText name 65538).length :=
    Nat.mod_eq_of_lt ((length_headerText hname (by decide)).trans_lt (by decide))
  have hcut : hugeImage.take (hugeImage.length % 65536) = [0, 0] := by
    rw [hugeImage, List.length_replicate, List.take_replicate]
    rfl
  have hpackets : (sent.map Bt.Notification.value).flatten =
      headerText name 65538 ++ (Base64.encode [0, 0] ++ [0]) := by
    rw [htext, hmessages]
    simp only [List.flatMap_cons, List.flatMap_nil, List.append_nil, chunkMessages, hugeEvent,
      if_true, Bt.wire, hheader, List.take_length, Bool.false_eq_true, if_false, hcut]
    rfl
  obtain ⟨img, hresults, -, hdata, -⟩ := companion_of_text dartConvert_documented (d := .start) rfl
    hname (by decide) hpackets
  refine ⟨sent, img, hsent, hresults, hdata, ?_⟩
  rintro fileName ⟨img', hresults', -, hdata', -⟩
  rw [hresults] at hresults'
  cases hresults'
  have hlen : ([0, 0] : Bytes).length = hugeImage.length := by rw [← hdata, hdata']
  rw [hugeImage, List.length_replicate] at hlen
  exact absurd hlen (by decide)

end Heaty.Collector
