import Heaty.Proofs.Conns

/-! Every `serialSend` call returns and stays inside its array, in every run in
which a call starts on a slot whose MTU exchange is done and a raw call's slot is
not rewritten under it. What the MTU exchange leaves in a slot is an invariant of
all runs; what a call may do is an invariant of its own loop. -/

namespace Heaty.Bt

variable {Conn : Type}

/-- What `exchange_func` leaves in a slot: room for whole base64 quadruples and
one more byte. -/
structure MtuOk (mtu : ℕ) : Prop where
  mod : mtu % 4 = 1
  ge : 5 ≤ mtu
  lt : mtu < 65536

def SlotsOk (conns : List (BtConnMyInfo Conn)) : Prop :=
  ∀ slot ∈ conns, slot.mtu = 0 ∨ MtuOk slot.mtu

theorem fixMtu_eq {mtu : ℕ} (hge : 4 ≤ mtu) (hlt : mtu < 65536) :
    fixMtu 4 mtu = mtu - (mtu + 3) % 4 := by
  have hpred {n : ℕ} (h1 : 0 < n) (h2 : n < 65536) : (n + 65535) % 65536 = n - 1 := by omega
  have hcases : mtu % 4 = 0 ∨ mtu % 4 = 1 ∨ mtu % 4 = 2 ∨ mtu % 4 = 3 := by omega
  rcases hcases with h | h | h | h
  · rw [fixMtu, if_pos (by omega), hpred (by omega) hlt, fixMtu, if_pos (by omega),
      hpred (by omega) (by omega), fixMtu, if_pos (by omega), hpred (by omega) (by omega),
      fixMtu, if_neg (by omega)]
    omega
  · rw [fixMtu, if_neg (by omega)]
    omega
  · rw [fixMtu, if_pos (by omega), hpred (by omega) hlt, fixMtu, if_neg (by omega)]
    omega
  · rw [fixMtu, if_pos (by omega), hpred (by omega) hlt, fixMtu, if_pos (by omega),
      hpred (by omega) (by omega), fixMtu, if_neg (by omega)]
    omega

theorem fixMtu_ok {gattMtu : ℕ} (hge : 23 ≤ gattMtu) (hlt : gattMtu < 65536) :
    MtuOk (fixMtu 4 ((gattMtu + 65533) % 65536)) := by
  have hsub : (gattMtu + 65533) % 65536 = gattMtu - 3 := by omega
  rw [hsub, fixMtu_eq (by omega) (by omega)]
  exact ⟨by omega, by omega, by omega⟩

/-! ## The slots -/

section Slots

open Slots

theorem connected_slotsOk {m : Module Conn} (h : SlotsOk m.conns) (conn : Conn) (err : UInt8) :
    SlotsOk (m.connected conn err).conns := by
  unfold Module.connected
  split_ifs
  · exact h
  · exact forall_updateFirst h fun _ _ _ => Or.inl rfl

variable [DecidableEq Conn]

theorem exchangeFunc_slotsOk {m : Module Conn} (h : SlotsOk m.conns) (conn : Conn) (err : UInt8)
    {gattMtu : ℕ} (hge : 23 ≤ gattMtu) (hlt : gattMtu < 65536) :
    SlotsOk (m.exchangeFunc conn err gattMtu).conns := by
  have hfix := fixMtu_ok hge hlt
  unfold Module.exchangeFunc
  split_ifs
  · refine forall_updateFirst h fun slot _ _ => ?_
    generalize fixMtu 4 ((gattMtu + 65533) % 65536) = mtu at hfix
    exact Or.inr hfix
  · exact h

theorem disconnected_slotsOk {m : Module Conn} (h : SlotsOk m.conns) (conn : Conn) :
    SlotsOk (m.disconnected conn).conns := by
  simp only [Module.disconnected]
  split_ifs <;> exact forall_updateFirst h fun _ _ _ => Or.inl rfl

theorem cccWrite_slotsOk {m : Module Conn} (h : SlotsOk m.conns) (conn : Conn) (value : UInt16) :
    SlotsOk (m.cccWrite conn value).conns := by
  unfold Module.cccWrite
  split
  · exact forall_updateFirst h fun slot hslot _ => h slot hslot
  · exact h

end Slots

/-! ## One call -/

theorem stored_length_le {api : Base64Api} (hapi : api.Documented) (dlen : ℕ) (src : Bytes) :
    (api.encode dlen src).stored.length ≤ 4 * ((src.length + 2) / 3) + 1 := by
  by_cases hne : src = []
  · rw [hne, hapi.encode_nil]
    exact Nat.zero_le _
  by_cases hroom : (Base64.encode src).length + 1 ≤ dlen
  · rw [hapi.encode_fits dlen src hne hroom]
    simp [Base64.encode_length]
  · rw [(hapi.encode_short dlen src hne (by omega)).2]
    exact Nat.zero_le _

theorem enter_decodedChunkSize (data : Bytes) (useBase64 : Bool) {mtu : ℕ} (h : MtuOk mtu)
    (stack : Bytes) : (Call.enter data useBase64 mtu stack).decodedChunkSize = mtu / 4 * 3 := by
  obtain ⟨hmod, hge, hlt⟩ := h
  simp only [Call.enter, base64DecodeLen]
  rw [Int.tdiv_eq_ediv_of_nonneg (by omega)]
  omega

/-- The loop invariant of a call, with the sizes it has copied so far. -/
structure CallOk (c : Call) (copies : List ℕ) : Prop where
  size : c.bytesToSend < 65536
  offset : c.offset ≤ c.bytesToSend
  mtu : c.bytesToSend = 0 ∨ MtuOk c.chunkSize
  decoded : MtuOk c.chunkSize → c.decodedChunkSize = c.chunkSize / 4 * 3
  progress : copies.length ≤ c.offset
  fits : ∀ n ∈ copies, n ≤ c.chunkSize

/-- The slot a raw iteration reads was not rewritten to something its array has
no room for. -/
def RawOk (c : Call) (mtu : ℕ) : Prop :=
  c.useBase64 = false →
    mtu ≠ 0 ∧ (mtu ≤ c.chunkSize ∨ c.bytesToSend - c.offset ≤ c.chunkSize)

theorem enter_ok (data : Bytes) (useBase64 : Bool) {mtu : ℕ} (stack : Bytes)
    (h : data.length % 65536 = 0 ∨ MtuOk mtu) :
    CallOk (Call.enter data useBase64 mtu stack) [] where
  size := Nat.mod_lt _ (by decide)
  offset := Nat.zero_le _
  mtu := h
  decoded hmtu := enter_decodedChunkSize data useBase64 hmtu stack
  progress := le_rfl
  fits := by simp

section Iteration

variable {api : Base64Api} {c : Call} {copies : List ℕ} {mtu : ℕ}

theorem transactionLength_le_rest (c : Call) (mtu : ℕ) :
    c.transactionLength mtu ≤ c.bytesToSend - c.offset := by
  simp only [Call.transactionLength]
  split_ifs <;> omega

theorem transactionLength_pos (h : CallOk c copies) (hrun : c.running) (hraw : RawOk c mtu) :
    0 < c.transactionLength mtu := by
  have hlt : c.offset < c.bytesToSend := by simpa [Call.running] using hrun
  have hmtu : MtuOk c.chunkSize := h.mtu.resolve_left (by omega)
  have hge := hmtu.ge
  have hdec := h.decoded hmtu
  unfold Call.transactionLength
  cases hb : c.useBase64 with
  | true =>
    simp only [if_true]
    split_ifs <;> omega
  | false =>
    have := (hraw hb).1
    simp only [Bool.false_eq_true, if_false]
    split_ifs <;> omega

theorem iterate_call_fields (api : Base64Api) (c : Call) (mtu : ℕ) :
    (c.iterate api mtu).call.bytesToSend = c.bytesToSend ∧
      (c.iterate api mtu).call.chunkSize = c.chunkSize ∧
      (c.iterate api mtu).call.decodedChunkSize = c.decodedChunkSize ∧
      (c.iterate api mtu).call.useBase64 = c.useBase64 ∧
      (c.iterate api mtu).call.data = c.data ∧
      (c.iterate api mtu).call.offset = (c.offset + c.transactionLength mtu) % 65536 ∧
      (c.iterate api mtu).call.pos = c.pos + c.transactionLength mtu := by
  unfold Call.iterate
  split_ifs <;> exact ⟨rfl, rfl, rfl, rfl, rfl, rfl, rfl⟩

/-- The `uint16_t` offset does not wrap: it stays at or below `bytesToSend`. -/
theorem iterate_offset (api : Base64Api) (h : CallOk c copies) (mtu : ℕ) :
    (c.iterate api mtu).call.offset = c.offset + c.transactionLength mtu := by
  have hrest := transactionLength_le_rest c mtu
  have hsize := h.size
  have hbound := h.offset
  rw [(iterate_call_fields api c mtu).2.2.2.2.2.1]
  exact Nat.mod_eq_of_lt (by omega)

/-- An iteration stays inside the array. In base64 mode this holds whatever the
slot's `mtu` is by now, since the piece was cut for the array. -/
theorem iterate_copied_le (hapi : api.Documented) (h : CallOk c copies) (hrun : c.running)
    (hraw : RawOk c mtu) : (c.iterate api mtu).copied ≤ c.chunkSize := by
  have hlt : c.offset < c.bytesToSend := by simpa [Call.running] using hrun
  have hmtu : MtuOk c.chunkSize := h.mtu.resolve_left (by omega)
  have hdec := h.decoded hmtu
  obtain ⟨hmod, hge, -⟩ := hmtu
  cases hb : c.useBase64 with
  | true =>
    have hlen : c.transactionLength mtu ≤ c.decodedChunkSize := by
      simp only [Call.transactionLength, hb, if_true]
      split_ifs <;> omega
    have hpiece : ((c.data.drop c.pos).take (c.transactionLength mtu)).length ≤
        c.transactionLength mtu := List.length_take_le _ _
    have hstored := stored_length_le hapi mtu ((c.data.drop c.pos).take (c.transactionLength mtu))
    simp only [Call.iterate, hb, if_true]
    omega
  | false =>
    have hroom := (hraw hb).2
    simp only [Call.iterate, Call.transactionLength, hb, Bool.false_eq_true, if_false]
    split_ifs <;> omega

theorem iterate_ok (hapi : api.Documented) (h : CallOk c copies) (hrun : c.running)
    (hraw : RawOk c mtu) :
    CallOk (c.iterate api mtu).call (copies ++ [(c.iterate api mtu).copied]) := by
  obtain ⟨hbytes, hchunk, hdec, -⟩ := iterate_call_fields api c mtu
  have hoff := iterate_offset api h mtu
  have hpos := transactionLength_pos h hrun hraw
  have hrest := transactionLength_le_rest c mtu
  have hle := iterate_copied_le hapi h hrun hraw
  have hbound := h.offset
  have hprog := h.progress
  refine ⟨by rw [hbytes]; exact h.size, ?_, by rw [hbytes, hchunk]; exact h.mtu,
    by rw [hchunk, hdec]; exact h.decoded, ?_, ?_⟩
  · rw [hoff, hbytes]
    omega
  · rw [hoff, List.length_append, List.length_singleton]
    omega
  · rw [hchunk]
    intro n hn
    rcases List.mem_append.1 hn with hn | hn
    · exact h.fits n hn
    · rw [List.mem_singleton.1 hn]
      exact hle

/-- Without progress an iteration comes back to where it started. -/
theorem iterate_stuck (hapi : api.Documented) (hlen : c.transactionLength mtu = 0)
    (hoff : c.offset < 65536) : (c.iterate api mtu).call = c := by
  simp only [Call.iterate, hlen, List.take_zero, hapi.encode_nil, List.nil_append,
    List.length_nil, List.drop_zero, Nat.add_zero, Nat.mod_eq_of_lt hoff]
  split_ifs <;> rfl

end Iteration

/-! ## All runs -/

section Runs

variable [DecidableEq Conn] {cfg : Config} {api : Base64Api} {s s' : BleSys Conn}

/-- A call starts with something to send only after the slot's MTU exchange, and
a raw call's slot is not rewritten under it. -/
def SendOk (s : BleSys Conn) : Event Conn → Prop
  | .thread _ _ =>
      match s.thread with
      | .idle => True
      | .slots msg i => ∀ slot, s.bt.conns[i]? = some slot → msg.selects slot →
          msg.data.length % 65536 = 0 ∨ slot.mtu ≠ 0
      | .sending _ i call _ => ∀ slot, s.bt.conns[i]? = some slot → call.running →
          RawOk call slot.mtu
  | _ => True

/-- A call works on a slot of the table, so that its next step is possible. It has
made at most `bytesToSend` iterations and returns once it has made that many,
and no iteration has stored more than the array holds. -/
def SendSafe (s : BleSys Conn) : Prop :=
  ∀ msg i call copies, s.thread = .sending msg i call copies →
    i < s.bt.conns.length ∧
    copies.length ≤ call.bytesToSend ∧
    (copies.length = call.bytesToSend → call.running = false) ∧
    ∀ n ∈ copies, n ≤ call.chunkSize

structure SendInv (s : BleSys Conn) : Prop where
  slots : SlotsOk s.bt.conns
  call : ∀ msg i call copies, s.thread = .sending msg i call copies →
    i < s.bt.conns.length ∧ CallOk call copies

omit [DecidableEq Conn] in
theorem SendInv.safe (h : SendInv s) : SendSafe s := by
  intro msg i call copies ht
  obtain ⟨hi, hc⟩ := h.call msg i call copies ht
  have hprog := hc.progress
  have hoff := hc.offset
  refine ⟨hi, by omega, fun he => ?_, hc.fits⟩
  simp only [Call.running, decide_eq_false_iff_not]
  omega

omit [DecidableEq Conn] in
theorem SendInv.of_same (h : SendInv s) (hs : SlotsOk s'.bt.conns)
    (hlen : s'.bt.conns.length = s.bt.conns.length) (ht : s'.thread = s.thread) : SendInv s' :=
  ⟨hs, fun msg i call copies hc => hlen ▸ h.call msg i call copies (ht ▸ hc)⟩

omit [DecidableEq Conn] in
theorem onMessage_sendInv (h : SendInv s) (hidle : s.thread = .idle) (msg : Msg) :
    SendInv (s.onMessage msg) := by
  refine ⟨by rw [(onMessage_frame s msg).1]; exact h.slots, ?_⟩
  intro msg' i call copies ht
  unfold BleSys.onMessage at ht
  split at ht <;> simp [hidle] at ht

omit [DecidableEq Conn] in
theorem threadStep_sendInv (hapi : api.Documented) (h : SendInv s) {stack : Bytes} {cbErr : ℤ}
    (hok : ∀ slot msg i, s.thread = .slots msg i → s.bt.conns[i]? = some slot → msg.selects slot →
      msg.data.length % 65536 = 0 ∨ slot.mtu ≠ 0)
    (hraw : ∀ slot msg i call copies, s.thread = .sending msg i call copies →
      s.bt.conns[i]? = some slot → call.running → RawOk call slot.mtu)
    (hs : s.threadStep api stack cbErr = some s') : SendInv s' := by
  have hconns : s'.bt.conns = s.bt.conns := by
    obtain ⟨-, -, codes, hbt⟩ := threadStep_frame hs
    rw [hbt]
  refine ⟨hconns ▸ h.slots, ?_⟩
  rw [hconns]
  cases ht : s.thread with
  | idle => simp [BleSys.threadStep, ht] at hs
  | slots msg i =>
    cases hslot : s.bt.conns[i]? with
    | none =>
      simp only [BleSys.threadStep, ht, hslot, Option.some.injEq] at hs
      subst hs
      exact fun _ _ _ _ hc => by simp at hc
    | some slot =>
      simp only [BleSys.threadStep, ht, hslot] at hs
      split_ifs at hs with hsel
      · cases hs
        intro msg' i' call copies hc
        cases hc
        refine ⟨(List.getElem?_eq_some_iff.1 hslot).1, enter_ok _ _ _ ?_⟩
        rcases hok slot msg i ht hslot hsel.1 with h0 | hne
        · exact Or.inl h0
        · exact Or.inr ((h.slots slot (List.mem_of_getElem? hslot)).resolve_left hne)
      · cases hs
        exact fun _ _ _ _ hc => by simp at hc
  | sending msg i call copies =>
    cases hslot : s.bt.conns[i]? with
    | none => simp [BleSys.threadStep, ht, hslot] at hs
    | some slot =>
      simp only [BleSys.threadStep, ht, hslot] at hs
      obtain ⟨hi, hcall⟩ := h.call msg i call copies ht
      split at hs
      · rename_i hrun
        cases hs
        intro msg' i' call' copies' hc
        cases hc
        exact ⟨hi, iterate_ok hapi hcall hrun (hraw slot msg i call copies ht hslot hrun)⟩
      · cases hs
        exact fun _ _ _ _ hc => by simp at hc

theorem step_sendInv (hapi : api.Documented) (e : Event Conn) (h : SendInv s) (hok : SendOk s e)
    (hs : BleSys.step cfg api s e = some s') : SendInv s' := by
  cases stepped hs with
  | connected => exact h.of_same (connected_slotsOk h.slots _ _) (by simp) rfl
  | failed => exact h.of_same (connected_slotsOk h.slots _ _) (by simp) rfl
  | disconnected => exact h.of_same (disconnected_slotsOk h.slots _) (by simp) rfl
  | exchangeFunc hmtu hlt =>
    exact h.of_same (exchangeFunc_slotsOk h.slots _ _ hmtu hlt) (by simp) rfl
  | cccWrite => exact h.of_same (cccWrite_slotsOk h.slots _ _) (by simp) rfl
  | advertise => exact h.of_same (by simpa using h.slots) (by simp) rfl
  | btReady => exact h.of_same (by simpa using h.slots) (by simp) rfl
  | dequeue hidle => exact onMessage_sendInv h hidle _
  | thread hthread =>
    refine threadStep_sendInv hapi h (fun slot msg i ht => ?_)
      (fun slot msg i call copies ht => ?_) hthread
    · simp only [SendOk, ht] at hok
      exact hok slot
    · simp only [SendOk, ht] at hok
      exact hok slot
  | peerConn => exact h.of_same h.slots rfl rfl
  | error => exact h.of_same h.slots rfl rfl

omit [DecidableEq Conn] in
theorem start_sendInv : SendInv (BleSys.start cfg : BleSys Conn) := by
  refine ⟨fun slot hslot => Or.inl ?_, fun _ _ _ _ hc => by simp [BleSys.start] at hc⟩
  rw [List.eq_of_mem_replicate hslot]

/-- In every run whose steps are `SendOk`, every `serialSend` call is safe. -/
theorem serialSend_safe (hapi : api.Documented) {evs : List (Event Conn)}
    (h : (bleSys Conn cfg api).RunOf SendOk evs s) : SendSafe s :=
  (h.invariant SendInv start_sendInv fun _ e _ hi hok hs => step_sendInv hapi e hi hok hs).safe

/-- A heat map sent after the MTU exchange: the call of one iteration. -/
theorem serialSend_safe_heatMap :
    ∃ s, (bleSys ℕ ⟨1, true⟩ zephyrBase64).RunOf SendOk
        [.btReady 0 0, .connected 7 0, .exchangeFunc 7 0 23,
          .dequeue (.data ⟨.heatMap, true, [1, 2]⟩), .thread [] 0, .thread [] 0] s ∧
      (∃ call, s.thread = .sending ⟨.heatMap, true, [1, 2]⟩ 0 call [5]) ∧ SendSafe s := by
  have hrun : ∃ s, (bleSys ℕ ⟨1, true⟩ zephyrBase64).RunOf SendOk
      [.btReady 0 0, .connected 7 0, .exchangeFunc 7 0 23,
        .dequeue (.data ⟨.heatMap, true, [1, 2]⟩), .thread [] 0, .thread [] 0] s ∧
      ∃ call, s.thread = .sending ⟨.heatMap, true, [1, 2]⟩ 0 call [5] := by
    refine ⟨_, .snoc (.snoc (.snoc (.snoc (.snoc (.snoc .nil trivial rfl) trivial rfl) trivial rfl)
      trivial rfl) ?_ rfl) ?_ rfl, ?_⟩
    · rintro slot h -
      cases h
      exact Or.inr (by decide)
    · rintro slot - - h
      cases h
    · exact ⟨_, rfl⟩
  obtain ⟨s, hs, hcall⟩ := hrun
  exact ⟨s, hs, hcall, serialSend_safe zephyrBase64_documented hs⟩

def stuckCall : Call := Call.enter [1] true 0 []

theorem stuckCall_run (k : ℕ) :
    ∃ s copies, (bleSys ℕ ⟨1, true⟩ zephyrBase64).Run
        ([.btReady 0 0, .connected 7 0, .dequeue (.data ⟨.heatMap, true, [1]⟩), .thread [] 0] ++
          List.replicate k (.thread [] 0)) s ∧
      s.bt.conns = [{ conn := some 7 }] ∧
      s.thread = .sending ⟨.heatMap, true, [1]⟩ 0 stuckCall copies ∧ copies.length = k := by
  induction k with
  | zero =>
    refine ⟨_, [],
      .snoc (.snoc (.snoc (.snoc .nil trivial rfl) trivial rfl) trivial rfl) trivial rfl,
      rfl, rfl, rfl⟩
  | succ k ih =>
    obtain ⟨s, copies, hrun, hconns, ht, hk⟩ := ih
    have hstuck : (stuckCall.iterate zephyrBase64 0).call = stuckCall :=
      iterate_stuck zephyrBase64_documented (by decide) (by decide)
    have hok : (stuckCall.iterate zephyrBase64 0).base64Failed = false := by decide
    have hstep : ∃ s', (bleSys ℕ ⟨1, true⟩ zephyrBase64).step s (.thread [] 0) = some s' ∧
        s'.bt.conns = s.bt.conns ∧ s'.thread = .sending ⟨.heatMap, true, [1]⟩ 0 stuckCall
          (copies ++ [(stuckCall.iterate zephyrBase64 0).copied]) := by
      have hrunning : stuckCall.running = true := by decide
      simp only [bleSys, BleSys.step, BleSys.threadStep, ht, hconns, List.getElem?_cons_zero,
        hrunning, if_true, hok, hstuck]
      exact ⟨_, rfl, hconns, rfl⟩
    obtain ⟨s', hs, hconns', ht'⟩ := hstep
    refine ⟨s', _, ?_, hconns'.trans hconns, ht', by simp [hk]⟩
    rw [List.replicate_succ', ← List.append_assoc]
    exact .snoc hrun trivial hs

/-- A heat map queued between `connected` and the MTU exchange is never sent; a
bridge message whose slot gets its `mtu` after the array was declared is
copied past the end of the array. -/
theorem serialSend_unsafe :
    (∀ k, ∃ s copies, (bleSys ℕ ⟨1, true⟩ zephyrBase64).Run
        ([.btReady 0 0, .connected 7 0, .dequeue (.data ⟨.heatMap, true, [1]⟩), .thread [] 0] ++
          List.replicate k (.thread [] 0)) s ∧
      s.thread = .sending ⟨.heatMap, true, [1]⟩ 0 stuckCall copies ∧ copies.length = k ∧
      stuckCall.running = true ∧ (2 ≤ k → ¬ SendSafe s)) ∧
    ∃ s, (bleSys ℕ ⟨1, true⟩ zephyrBase64).Run
        [.btReady 0 0, .connected 7 0, .cccWrite 7 1, .dequeue (.data ⟨.uart, false, [1, 2]⟩),
          .thread [] 0, .exchangeFunc 7 0 23, .thread [] 0] s ∧
      (∃ call, s.thread = .sending ⟨.uart, false, [1, 2]⟩ 0 call [2] ∧ call.chunkSize = 0) ∧
      ¬ SendSafe s := by
  refine ⟨fun k => ?_, ?_⟩
  · obtain ⟨s, copies, hrun, -, ht, hk⟩ := stuckCall_run k
    refine ⟨s, copies, hrun, ht, hk, by decide, fun hge hsafe => ?_⟩
    have hle := (hsafe _ _ _ _ ht).2.1
    have hbytes : stuckCall.bytesToSend = 1 := by decide
    omega
  · refine ⟨_, .snoc (.snoc (.snoc (.snoc (.snoc (.snoc (.snoc .nil trivial rfl) trivial rfl)
      trivial rfl) trivial rfl) trivial rfl) trivial rfl) trivial rfl, ⟨_, rfl, rfl⟩,
      fun hsafe => ?_⟩
    have hfits := (hsafe _ _ _ _ rfl).2.2.2 2 (by decide)
    exact absurd hfits (by decide)

end Runs

end Heaty.Bt
