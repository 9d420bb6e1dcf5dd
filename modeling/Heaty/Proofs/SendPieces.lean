import Heaty.Proofs.CameraTransfer
import Heaty.Spec.CommCtrl

/-! What each iteration of a `serialSend` call reads, stores and sends on a slot with
a fixed `mtu`, and what the companion makes of a heat map sent so. -/

namespace Heaty.Bt

variable {api : Base64Api} {mtu : ℕ} {c : Call} {copies : List ℕ} {sent : List Notification}

def Call.heads (api : Base64Api) (mtu : ℕ) : ℕ → Call → List Call
  | 0, _ => []
  | fuel + 1, c => if c.running then c :: (c.iterate api mtu).call.heads api mtu fuel else []

theorem loop_heads (fuel : ℕ) {c : Call} {sent : List Notification}
    (h : c.loop api mtu fuel = some sent) :
    sent = (c.heads api mtu fuel).map fun c => (c.iterate api mtu).sent := by
  induction fuel generalizing c sent with
  | zero =>
    cases hrun : c.running with
    | true => simp [Call.loop, hrun] at h
    | false =>
      simp only [Call.loop, hrun, Bool.false_eq_true, if_false, Option.some.injEq] at h
      simp [Call.heads, ← h]
  | succ fuel ih =>
    cases hrun : c.running with
    | false =>
      simp only [Call.loop, hrun, Bool.false_eq_true, if_false, Option.some.injEq] at h
      simp [Call.heads, hrun, ← h]
    | true =>
      simp only [Call.loop, hrun, if_true, Option.map_eq_some_iff] at h
      obtain ⟨rest, hrest, rfl⟩ := h
      rw [Call.heads, if_pos hrun, List.map_cons, ← ih hrest]

def Call.piece (c : Call) (mtu : ℕ) : Bytes := (c.data.drop c.pos).take (c.transactionLength mtu)

/-- An iteration reads bytes of its message, its offset does not wrap, and it sends
bytes that it stored in its array, no more than the mode allows. -/
structure IterationOk (api : Base64Api) (mtu : ℕ) (c : Call) : Prop where
  inside : c.pos + c.transactionLength mtu ≤ c.data.length
  noWrap : c.offset + c.transactionLength mtu < 65536
  copied : (c.iterate api mtu).copied ≤ mtu
  size : (c.iterate api mtu).sent.size ≤ if c.useBase64 then mtu - 1 else mtu
  value : (c.iterate api mtu).sent.value.length = (c.iterate api mtu).sent.size
  written : c.useBase64 = true →
    (c.iterate api mtu).sent.value <+: (api.encode mtu (c.piece mtu)).stored

theorem encode_piece (hapi : api.Documented) (h : CallOk c copies) (hreads : CallReads c)
    (hrun : c.running) (hmtu : MtuOk c.chunkSize) (hb : c.useBase64 = true) :
    (Base64.encode (c.piece c.chunkSize)).length + 1 ≤ c.chunkSize ∧
      api.encode c.chunkSize (c.piece c.chunkSize) =
        ⟨0, (Base64.encode (c.piece c.chunkSize)).length,
          Base64.encode (c.piece c.chunkSize) ++ [0]⟩ := by
  obtain ⟨hpiece, hlen⟩ := piece_eq hreads h
  have hpos := transactionLength_pos h hrun (rawOk_self hmtu)
  have hfits := (transactionLength_cases hmtu h hb).1
  obtain ⟨hmod, hge, -⟩ := hmtu
  rw [← hpiece] at hlen
  have hne : c.piece c.chunkSize ≠ [] := by
    rw [← List.length_pos_iff, Call.piece, hlen]
    exact hpos
  have hroom : (Base64.encode (c.piece c.chunkSize)).length + 1 ≤ c.chunkSize := by
    rw [Base64.encode_length, Call.piece, hlen]
    omega
  exact ⟨hroom, hapi.encode_fits _ _ hne hroom⟩

theorem iteration_ok (hapi : api.Documented) (h : CallOk c copies) (hreads : CallReads c)
    (hrun : c.running) (hmtu : MtuOk c.chunkSize) : IterationOk api c.chunkSize c := by
  obtain ⟨hpiece, hlen⟩ := piece_eq hreads h
  have hrest := transactionLength_le_rest c c.chunkSize
  have hcopied := iterate_copied_le hapi h hrun (rawOk_self hmtu)
  have hvalue := iterate_value hapi h hreads hrun hmtu
  have hbytes := hreads.bytes
  have hsize := h.size
  have hoff := h.offset
  have hinside : c.pos + c.transactionLength c.chunkSize ≤ c.data.length := by
    rw [hreads.pos]
    omega
  have hnoWrap : c.offset + c.transactionLength c.chunkSize < 65536 := by omega
  rw [← hpiece] at hvalue
  cases hb : c.useBase64 with
  | true =>
    obtain ⟨hroom, hencode⟩ := encode_piece hapi h hreads hrun hmtu hb
    have hsent : (c.iterate api c.chunkSize).sent.size =
        (Base64.encode (c.piece c.chunkSize)).length := by
      simp only [Call.iterate, hb, if_true]
      rw [← Call.piece, hencode]
    have htext : (c.iterate api c.chunkSize).sent.value =
        Base64.encode (c.piece c.chunkSize) := by
      rw [hvalue, hb]
      rfl
    refine ⟨hinside, hnoWrap, hcopied, ?_, by rw [htext, hsent], fun _ => ?_⟩
    · rw [hsent, hb, if_pos rfl]
      omega
    · rw [htext, hencode]
      exact List.prefix_append _ _
  | false =>
    have hsent : (c.iterate api c.chunkSize).sent.size = c.transactionLength c.chunkSize := by
      simp only [Call.iterate, hb, Bool.false_eq_true, if_false]
    refine ⟨hinside, hnoWrap, hcopied, ?_, ?_, fun h => absurd h (by simp [hb])⟩
    · rw [hsent, hb]
      simp only [Call.transactionLength, hb, Bool.false_eq_true, if_false]
      split_ifs <;> omega
    · rw [hvalue, hsent, hb]
      simp only [wire, Bool.false_eq_true, if_false]
      rw [hpiece, hlen]

/-- Every iteration of a loop is one, and only the last one's text is padded. -/
theorem heads_ok (hapi : api.Documented) (fuel : ℕ) {c : Call} {copies : List ℕ}
    (h : CallOk c copies) (hreads : CallReads c) (hmtu : MtuOk c.chunkSize) :
    (∀ head ∈ c.heads api c.chunkSize fuel, IterationOk api c.chunkSize head) ∧
      ∀ n ∈ ((c.heads api c.chunkSize fuel).map
          fun head => (head.iterate api c.chunkSize).sent).dropLast,
        c.useBase64 = true → Base64.pad ∉ n.value := by
  induction fuel generalizing c copies with
  | zero => simp [Call.heads]
  | succ fuel ih =>
    cases hrun : c.running with
    | false => simp [Call.heads, hrun]
    | true =>
      obtain ⟨hbytes, hchunk, -, hb, -⟩ := iterate_call_fields api c c.chunkSize
      have hoff := iterate_offset api h c.chunkSize
      obtain ⟨hpiece, hlen⟩ := piece_eq hreads h
      obtain ⟨hrest, hpads⟩ := ih (iterate_ok hapi h hrun (rawOk_self hmtu))
        (iterate_rest api h hreads).1 (by rwa [hchunk])
      rw [hchunk, hb] at hpads
      rw [hchunk] at hrest
      rw [Call.heads, if_pos hrun]
      refine ⟨List.forall_mem_cons.2 ⟨iteration_ok hapi h hreads hrun hmtu, hrest⟩, ?_⟩
      intro n hn hbase
      rw [List.map_cons] at hn
      generalize hmore : ((c.iterate api c.chunkSize).call.heads api c.chunkSize fuel).map
        (fun head => (head.iterate api c.chunkSize).sent) = more at hn hpads
      cases more with
      | nil => simp at hn
      | cons n' more =>
        rw [List.dropLast_cons_cons, List.mem_cons] at hn
        rcases hn with rfl | hn
        · -- another piece follows, so that this one was cut and consists of triples
          have hnext : (c.iterate api c.chunkSize).call.running = true := by
            cases hstop : (c.iterate api c.chunkSize).call.running with
            | true => rfl
            | false => cases fuel <;> simp [Call.heads, hstop] at hmore
          have hlt : c.offset + c.transactionLength c.chunkSize < c.bytesToSend := by
            simpa [Call.running, hoff, hbytes] using hnext
          have hdvd : 3 ∣ c.transactionLength c.chunkSize := by
            rcases (transactionLength_cases hmtu h hbase).2 with hdvd | hlast
            · exact hdvd
            · omega
          rw [iterate_value hapi h hreads hrun hmtu, hbase]
          exact Base64.pad_notMem_encode (by rwa [hlen])
        · exact hpads n hn hbase

structure Sends (api : Base64Api) (mtu : ℕ) (stack data : Bytes) (useBase64 : Bool)
    (sent : List Notification) : Prop where
  text : (sent.map Notification.value).flatten = wire useBase64 data
  calls : sent = ((Call.enter data useBase64 mtu stack).heads api mtu data.length).map
    fun c => (c.iterate api mtu).sent
  iterations : ∀ c ∈ (Call.enter data useBase64 mtu stack).heads api mtu data.length,
    IterationOk api mtu c
  padded : ∀ n ∈ sent.dropLast, useBase64 = true → Base64.pad ∉ n.value
  empty : data = [] → sent = []

theorem serialSend_sends (hapi : api.Documented) (hmtu : MtuOk mtu) (stack : Bytes)
    {data : Bytes} (hlen : data.length ≤ 65535) (useBase64 : Bool) :
    ∃ sent, serialSend api mtu stack data useBase64 = some sent ∧
      Sends api mtu stack data useBase64 sent := by
  obtain ⟨sent, hsent, htext⟩ := serialSend_text hapi hmtu stack data useBase64
  have hmod : data.length % 65536 = data.length := Nat.mod_eq_of_lt (by omega)
  have hreads : CallReads (Call.enter data useBase64 mtu stack) := ⟨rfl, Nat.mod_le _ _⟩
  obtain ⟨hheads, hpads⟩ := heads_ok hapi data.length
    (enter_ok data useBase64 stack (Or.inr hmtu)) hreads hmtu
  have hbytes : (Call.enter data useBase64 mtu stack).bytesToSend = data.length := hmod
  have hcalls := hsent
  rw [serialSend, hbytes] at hcalls
  have heq := loop_heads _ hcalls
  rw [hmod, List.take_length] at htext
  refine ⟨sent, hsent, htext, heq, hheads, ?_, ?_⟩
  · rw [heq]
    exact hpads
  · rintro rfl
    rw [heq]
    rfl

/-- On a slot whose MTU exchange is done a message is sent whole, in pieces that the
array holds; the companion gets a heat map and its terminator as one transfer and
decodes what was sent. -/
theorem serialSend_heatMap {dart : Companion.DartConvert} (hapi : api.Documented)
    (hdart : dart.Documented) (hmtu : MtuOk mtu) (data : Bytes) (hlen : data.length ≤ 65535) :
    (∀ stack useBase64, ∃ sent, serialSend api mtu stack data useBase64 = some sent ∧
      Sends api mtu stack data useBase64 sent) ∧
    ∀ (slot : ℕ → ℕ × Bytes) (d : Companion.HeatMap), (∀ i, (slot i).1 = mtu) →
      d.incommingData = [] → ∃ sent t,
        Collector.sendAll api slot (CommCtrl.heatmapMessages (CommCtrl.sendToBle data)) =
          some sent ∧
        (Transfer.run (Companion.handleHeatMapTx dart) d (sent.map Notification.value)).2 =
          [(Companion.processHeatmapData dart t).2] ∧
        dart.base64Decode t.incommingData = some data ∧
        (Companion.GridOk data → ∃ h, (Companion.processHeatmapData dart t).2 = some h ∧
          Companion.heatmapRows (Companion.asFloat32List data) = some h.heatmapData) := by
  refine ⟨fun stack useBase64 => serialSend_sends hapi hmtu stack hlen useBase64,
    fun slot d hslot hd => ?_⟩
  obtain ⟨sent, hsent, htext⟩ := Collector.sendAll_text hapi
    (CommCtrl.heatmapMessages (CommCtrl.sendToBle data)) slot fun i => by rwa [hslot i]
  have hshort : ∀ m ∈ CommCtrl.heatmapMessages (CommCtrl.sendToBle data),
      m.1.length < 65536 := by
    rw [CommCtrl.heatmapMessages_sendToBle, List.forall_mem_cons]
    exact ⟨by simp only; omega, by simp⟩
  rw [Collector.flatMap_wire_take hshort] at htext
  have hpackets : (sent.map Notification.value).flatten = Base64.encode data ++ [0] := by
    rw [htext]
    rfl
  obtain ⟨t, -, hcollected, -, hresults⟩ := Transfer.run_transfer Companion.heatMapCollector
    (Companion.processHeatmapData dart) d (I := fun _ => True) (fun _ _ _ => trivial)
    (fun _ _ _ => trivial) trivial (Base64.zero_notMem_encode data) hpackets
  have hdecode : dart.base64Decode t.incommingData = some data := by
    have h : t.incommingData = d.incommingData ++ Base64.encode data := hcollected
    rw [h, hd, List.nil_append, hdart.base64_encode]
  refine ⟨sent, t, hsent, hresults, hdecode, fun hgrid => ?_⟩
  obtain ⟨h, hh, hrows⟩ := Companion.heatMap_transfer hdart hd hgrid hpackets
  refine ⟨h, ?_, hrows⟩
  have hsame := hresults.symm.trans hh
  simpa using hsame

/-- Eight bytes in pieces of three. -/
theorem serialSend_heatMap_eight :
    (∃ sent, serialSend zephyrBase64 5 [] [1, 2, 3, 4, 5, 6, 7, 8] true = some sent ∧
      sent.map Notification.size = [4, 4, 4] ∧
      Sends zephyrBase64 5 [] [1, 2, 3, 4, 5, 6, 7, 8] true sent) ∧
    ∃ sent t,
      Collector.sendAll zephyrBase64 (fun _ => (5, []))
        (CommCtrl.heatmapMessages (CommCtrl.sendToBle [1, 2, 3, 4, 5, 6, 7, 8])) = some sent ∧
      (Transfer.run (Companion.handleHeatMapTx Companion.dartConvert) Companion.HeatMap.start
          (sent.map Notification.value)).2 =
        [(Companion.processHeatmapData Companion.dartConvert t).2] ∧
      Companion.dartConvert.base64Decode t.incommingData = some [1, 2, 3, 4, 5, 6, 7, 8] := by
  have hmtu : MtuOk 5 := ⟨rfl, by decide, by decide⟩
  have h := serialSend_heatMap zephyrBase64_documented Companion.dartConvert_documented
    hmtu [1, 2, 3, 4, 5, 6, 7, 8] (by decide)
  obtain ⟨sent, hsent, hsends⟩ := h.1 [] true
  obtain ⟨all, t, hall, hresults, hdecode, -⟩ :=
    h.2 (fun _ => (5, [])) Companion.HeatMap.start (fun _ => rfl) rfl
  refine ⟨⟨sent, hsent, ?_, hsends⟩, all, t, hall, hresults, hdecode⟩
  have hsizes : (serialSend zephyrBase64 5 [] [1, 2, 3, 4, 5, 6, 7, 8] true).map
      (List.map Notification.size) = some [4, 4, 4] := by decide
  rw [hsent] at hsizes
  simpa using hsizes

end Heaty.Bt
