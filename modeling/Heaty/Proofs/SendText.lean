import Heaty.Proofs.SendBounds

/-! What a `serialSend` call on a slot with a fixed `mtu` sends, taken together: the
message itself, or its base64 text. Every piece but the last consists of whole
triples, so the pieces' texts make up the text of the whole. -/

namespace Heaty.Bt

def wire (useBase64 : Bool) (data : Bytes) : Bytes :=
  if useBase64 then Base64.encode data else data

variable {api : Base64Api} {c : Call} {copies : List ℕ}

@[simp] theorem wire_nil (useBase64 : Bool) : wire useBase64 [] = [] := by
  cases useBase64 <;> rfl

def Call.rest (c : Call) : Bytes := (c.data.take c.bytesToSend).drop c.offset

structure CallReads (c : Call) : Prop where
  pos : c.pos = c.offset
  bytes : c.bytesToSend ≤ c.data.length

theorem rawOk_self (hmtu : MtuOk c.chunkSize) : RawOk c c.chunkSize := by
  intro _
  have := hmtu.ge
  exact ⟨by omega, Or.inl le_rfl⟩

theorem piece_eq (hreads : CallReads c) (h : CallOk c copies) :
    (c.data.drop c.pos).take (c.transactionLength c.chunkSize) =
        c.rest.take (c.transactionLength c.chunkSize) ∧
      (c.rest.take (c.transactionLength c.chunkSize)).length =
        c.transactionLength c.chunkSize := by
  have hlen := transactionLength_le_rest c c.chunkSize
  have hbytes := hreads.bytes
  have hoff := h.offset
  constructor
  · rw [Call.rest, hreads.pos, List.drop_take, List.take_take, Nat.min_eq_left hlen]
  · simp only [Call.rest, List.length_take, List.length_drop]
    omega

/-- A piece is followed by others only if it consists of whole triples. -/
theorem transactionLength_cases (hmtu : MtuOk c.chunkSize) (h : CallOk c copies)
    (hb : c.useBase64 = true) :
    c.transactionLength c.chunkSize ≤ c.chunkSize / 4 * 3 ∧
      (3 ∣ c.transactionLength c.chunkSize ∨
        c.transactionLength c.chunkSize = c.bytesToSend - c.offset) := by
  have hdec := h.decoded hmtu
  simp only [Call.transactionLength, hb, if_true, hdec]
  split_ifs with hgt
  · exact ⟨le_rfl, Or.inl (Dvd.intro_left _ rfl)⟩
  · exact ⟨by omega, Or.inr rfl⟩

theorem iterate_value (hapi : api.Documented) (h : CallOk c copies) (hreads : CallReads c)
    (hrun : c.running) (hmtu : MtuOk c.chunkSize) :
    (c.iterate api c.chunkSize).sent.value =
      wire c.useBase64 (c.rest.take (c.transactionLength c.chunkSize)) := by
  obtain ⟨hpiece, hlen⟩ := piece_eq hreads h
  have hpos := transactionLength_pos h hrun (rawOk_self hmtu)
  cases hb : c.useBase64 with
  | true =>
    have hfits := (transactionLength_cases hmtu h hb).1
    obtain ⟨hmod, hge, -⟩ := hmtu
    have hne : c.rest.take (c.transactionLength c.chunkSize) ≠ [] := by
      rw [← List.length_pos_iff, hlen]
      exact hpos
    have hroom : (Base64.encode (c.rest.take (c.transactionLength c.chunkSize))).length + 1 ≤
        c.chunkSize := by
      rw [Base64.encode_length, hlen]
      omega
    simp only [Call.iterate, hb, if_true, hpiece, hapi.encode_fits _ _ hne hroom, wire]
    rw [List.append_assoc, List.take_left]
  | false =>
    simp only [Call.iterate, hb, Bool.false_eq_true, if_false, hpiece, wire]
    rw [List.take_left' hlen]

theorem iterate_rest (api : Base64Api) (h : CallOk c copies) (hreads : CallReads c) :
    CallReads (c.iterate api c.chunkSize).call ∧
      (c.iterate api c.chunkSize).call.rest =
        c.rest.drop (c.transactionLength c.chunkSize) := by
  obtain ⟨hbytes, -, -, -, hdata, -, hpos⟩ := iterate_call_fields api c c.chunkSize
  have hoff := iterate_offset api h c.chunkSize
  refine ⟨⟨by rw [hpos, hoff, hreads.pos], by rw [hbytes, hdata]; exact hreads.bytes⟩, ?_⟩
  rw [Call.rest, Call.rest, hbytes, hdata, hoff, List.drop_drop]

theorem wire_split (h : CallOk c copies) (hreads : CallReads c) (hmtu : MtuOk c.chunkSize) :
    wire c.useBase64 (c.rest.take (c.transactionLength c.chunkSize)) ++
        wire c.useBase64 (c.rest.drop (c.transactionLength c.chunkSize)) =
      wire c.useBase64 c.rest := by
  obtain ⟨-, hlen⟩ := piece_eq hreads h
  conv_rhs => rw [← List.take_append_drop (c.transactionLength c.chunkSize) c.rest]
  cases hb : c.useBase64 with
  | false => rfl
  | true =>
    rcases (transactionLength_cases hmtu h hb).2 with hdvd | hlast
    · exact (Base64.encode_append _ _ (by rwa [hlen])).symm
    · have hnil : c.rest.drop (c.transactionLength c.chunkSize) = [] := by
        apply List.drop_of_length_le
        simp only [Call.rest, List.length_drop, List.length_take]
        omega
      rw [hnil, wire_nil, List.append_nil, List.append_nil]

theorem rest_eq_nil (hstop : c.running = false) : c.rest = [] := by
  apply List.drop_of_length_le
  simp only [Call.running, decide_eq_false_iff_not] at hstop
  simp only [List.length_take]
  omega

/-- A loop with enough fuel returns, and has sent the rest. -/
theorem loop_text (hapi : api.Documented) (fuel : ℕ) {c : Call} {copies : List ℕ}
    (h : CallOk c copies) (hreads : CallReads c) (hmtu : MtuOk c.chunkSize)
    (hfuel : c.bytesToSend - c.offset ≤ fuel) :
    ∃ sent, c.loop api c.chunkSize fuel = some sent ∧
      (sent.map Notification.value).flatten = wire c.useBase64 c.rest := by
  induction fuel generalizing c copies with
  | zero =>
    have hstop : c.running = false := by
      simp only [Call.running, decide_eq_false_iff_not]
      omega
    exact ⟨[], by simp [Call.loop, hstop], by simp [rest_eq_nil hstop]⟩
  | succ fuel ih =>
    cases hrun : c.running with
    | false => exact ⟨[], by simp [Call.loop, hrun], by simp [rest_eq_nil hrun]⟩
    | true =>
      obtain ⟨hbytes, hchunk, -, hb, -⟩ := iterate_call_fields api c c.chunkSize
      have hoff := iterate_offset api h c.chunkSize
      have hok := iterate_ok hapi h hrun (rawOk_self hmtu)
      obtain ⟨hreads', hrest⟩ := iterate_rest api h hreads
      have hpos := transactionLength_pos h hrun (rawOk_self hmtu)
      obtain ⟨sent, hsent, htext⟩ := ih hok hreads' (by rwa [hchunk])
        (by rw [hbytes, hoff]; omega)
      rw [hchunk] at hsent
      refine ⟨(c.iterate api c.chunkSize).sent :: sent, by simp [Call.loop, hrun, hsent], ?_⟩
      rw [List.map_cons, List.flatten_cons, htext, iterate_value hapi h hreads hrun hmtu, hrest, hb]
      exact wire_split h hreads hmtu

/-- A whole call. The length of its message is taken as a `uint16_t`. -/
theorem serialSend_text (hapi : api.Documented) {mtu : ℕ} (hmtu : MtuOk mtu) (stack data : Bytes)
    (useBase64 : Bool) :
    ∃ sent, serialSend api mtu stack data useBase64 = some sent ∧
      (sent.map Notification.value).flatten =
        wire useBase64 (data.take (data.length % 65536)) := by
  have hreads : CallReads (Call.enter data useBase64 mtu stack) := ⟨rfl, Nat.mod_le _ _⟩
  exact loop_text hapi _ (enter_ok data useBase64 stack (Or.inr hmtu)) hreads hmtu (Nat.sub_le _ _)

end Heaty.Bt
