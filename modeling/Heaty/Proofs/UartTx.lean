import Heaty.Spec.UartTx

/-! What the UART sends. In every run the wire has, in their order, the bytes that the calls of
`uart_tx_enqueue` took in, up to what is still in the ring buffer. While no transfer fails
nothing stays behind there, and a failure or an abort can stop the transmission for good. -/

namespace Heaty.Uart

open Analysis (RingBufApi RingState)

variable {api : TxRingApi} {bufSize : ℕ}

/-! ## The ring buffer -/

/-- The cells that lie behind the start of the queue, as far as the end of the memory. -/
theorem TxRingApi.Documented.getElem (hdoc : api.Documented) (b : api.Buf) {i : ℕ}
    (hi : i < (api.state b).contents.length)
    (hend : (api.state b).first + i < (api.state b).capacity) :
    api.memory b ((api.state b).first + i) = (api.state b).contents[i] := by
  have hcell := congrArg (fun bytes => bytes[i]?) (hdoc.memory b)
  simp only [List.getElem?_map, List.getElem?_eq_getElem hi,
    List.getElem?_range hi, Option.map_some, Option.some.injEq] at hcell
  rw [hcell, Nat.mod_eq_of_lt hend]

namespace TxState

variable {s : TxState api}

theorem ring_uartTxFinish (hdoc : api.Documented) {n : ℕ} (h : n ≤ s.ring.claimed) :
    (s.uartTxFinish n).ring =
      ⟨s.ring.capacity, s.ring.contents.drop n, (s.ring.first + n) % s.ring.capacity, 0⟩ :=
  hdoc.getFinish s.rb n h

theorem ring_getClaim (hdoc : api.Documented) (bufSize : ℕ) (h : s.ring.claimed = 0) :
    (s.getClaim bufSize).ring =
      ⟨s.ring.capacity, s.ring.contents, s.ring.first, min (sizeofTxBuf bufSize)
        (min s.ring.contents.length (s.ring.capacity - s.ring.first))⟩ :=
  hdoc.getClaim s.rb _ h

theorem ring_put (hdoc : api.Documented) (data : Bytes) {written : ℕ}
    (h : written ≤ s.ring.capacity - s.ring.contents.length) :
    (s.put data written).ring = ⟨s.ring.capacity, s.ring.contents ++ data.take written,
      s.ring.first, s.ring.claimed⟩ := by
  have htake : (data.take written).take (s.ring.capacity - s.ring.contents.length) =
      data.take written := by rw [List.take_take, min_eq_right h]
  rw [← htake]
  exact hdoc.put s.rb (data.take written)

theorem uartTxStart_frame (s : TxState api) (bufSize : ℕ) (err : ℤ) :
    (s.uartTxStart bufSize err).thread = s.thread ∧
      (s.uartTxStart bufSize err).started = s.started ∧
      (s.uartTxStart bufSize err).log = s.log ∧ (s.uartTxStart bufSize err).wire = s.wire := by
  unfold uartTxStart uartTx
  split_ifs <;> exact ⟨rfl, rfl, rfl, rfl⟩

theorem ring_uartTxStart (hdoc : api.Documented) (bufSize : ℕ) (h : s.ring.claimed = 0) (err : ℤ) :
    (s.uartTxStart bufSize err).ring.capacity = s.ring.capacity ∧
      (s.uartTxStart bufSize err).ring.contents = s.ring.contents := by
  have hclaim := s.ring_getClaim hdoc bufSize h
  unfold uartTxStart uartTx
  split_ifs with herr
  · have hcapacity := congrArg RingState.capacity hclaim
    have hcontents := congrArg RingState.contents hclaim
    exact ⟨hcapacity, hcontents⟩
  · have hfinish := (s.getClaim bufSize).ring_uartTxFinish hdoc (Nat.zero_le _)
    rw [hfinish, List.drop_zero, hclaim]
    exact ⟨rfl, rfl⟩

theorem sent_none (h : s.driver = none) : s.sent = 0 := by simp [sent, h]

theorem sent_eq {t : Transfer} (h : s.driver = some t) : s.sent = t.sent := by simp [sent, h]

end TxState

/-! ## The steps -/

inductive TxStepped (bufSize : ℕ) (s : TxState api) : TxEvent → TxState api → Prop
  | enqueue {data : Bytes} : s.thread = .idle → TxStepped bufSize s (.enqueue data)
      { s with thread := .putting data (min data.length (api.spaceGet s.rb)) }
  | look {data : Bytes} {written : ℕ} : s.thread = .putting data written →
      TxStepped bufSize s .look
        { s with thread := .putting data (min data.length (api.spaceGet s.rb)) }
  | put {data : Bytes} {written : ℕ} : s.thread = .putting data written →
      TxStepped bufSize s .put (s.put data written)
  | setStarted : s.thread = .written → TxStepped bufSize s .setStarted
      { s with started := true, thread := if s.started then .idle else .starting }
  | getClaim : s.thread = .starting → TxStepped bufSize s .getClaim
      { s.getClaim bufSize with
        thread := .claimed (s.getClaim bufSize).ring.first (s.getClaim bufSize).ring.claimed }
  | uartTx {buf len : ℕ} {err : ℤ} : s.thread = .claimed buf len →
      ¬(err = 0 ∧ s.driver.isSome = true) → TxStepped bufSize s (.uartTx err)
        { s.uartTx buf len err with thread := if err = 0 then .idle else .failed }
  | clearStarted : s.thread = .failed → TxStepped bufSize s .clearStarted
      { s with started := false, thread := .idle }
  | txByte {t : Transfer} : s.driver = some t → t.sent < t.len → TxStepped bufSize s .txByte
      { s with
        driver := some { t with sent := t.sent + 1 }
        wire := s.wire ++ [api.memory s.rb (t.buf + t.sent)] }
  | txDone {t : Transfer} {err : ℤ} : s.driver = some t → t.sent = t.len →
      TxStepped bufSize s (.txDone err) (s.txDone bufSize t.len err)
  | txAborted {t : Transfer} : s.driver = some t →
      TxStepped bufSize s .txAborted (s.txAborted t.sent)

theorem txStepped {s s' : TxState api} {e : TxEvent} (h : s.step bufSize e = some s') :
    TxStepped bufSize s e s' := by
  cases e with
  | enqueue data =>
    simp only [TxState.step, Option.ite_none_right_eq_some, Option.some.injEq] at h
    exact h.2 ▸ .enqueue h.1
  | look =>
    cases hthread : s.thread <;> simp only [TxState.step, hthread, reduceCtorEq] at h
    exact Option.some.inj h ▸ .look hthread
  | put =>
    cases hthread : s.thread <;> simp only [TxState.step, hthread, reduceCtorEq] at h
    exact Option.some.inj h ▸ .put hthread
  | setStarted =>
    simp only [TxState.step, Option.ite_none_right_eq_some, Option.some.injEq] at h
    exact h.2 ▸ .setStarted h.1
  | getClaim =>
    simp only [TxState.step, Option.ite_none_right_eq_some, Option.some.injEq] at h
    exact h.2 ▸ .getClaim h.1
  | uartTx err =>
    cases hthread : s.thread <;> simp only [TxState.step, hthread, reduceCtorEq] at h
    simp only [Option.ite_none_left_eq_some, Option.some.injEq] at h
    exact h.2 ▸ .uartTx hthread h.1
  | clearStarted =>
    simp only [TxState.step, Option.ite_none_right_eq_some, Option.some.injEq] at h
    exact h.2 ▸ .clearStarted h.1
  | txByte =>
    cases hdriver : s.driver <;> simp only [TxState.step, hdriver, reduceCtorEq] at h
    simp only [Option.ite_none_right_eq_some, Option.some.injEq] at h
    exact h.2 ▸ .txByte hdriver h.1
  | txDone err =>
    cases hdriver : s.driver <;> simp only [TxState.step, hdriver, reduceCtorEq] at h
    simp only [Option.ite_none_right_eq_some, Option.some.injEq] at h
    exact h.2 ▸ .txDone hdriver h.1
  | txAborted =>
    cases hdriver : s.driver <;> simp only [TxState.step, hdriver, reduceCtorEq] at h
    exact Option.some.inj h ▸ .txAborted hdriver

/-! ## The invariant -/

@[simp] def TxThread.Starts : TxThread → Prop
  | .idle | .putting _ _ | .written => False
  | .starting | .claimed _ _ | .failed => True

def TxState.part (s : TxState api) : Option (ℕ × ℕ) :=
  match s.driver, s.thread with
  | some t, _ => some (t.buf, t.len)
  | none, .claimed buf len => some (buf, len)
  | none, _ => none

/-- A part of the ring buffer that the driver may read: it starts with the queue and ends
within the queue and the memory. -/
def Readable (r : RingState) (buf len : ℕ) : Prop :=
  buf = r.first ∧ len = r.claimed ∧ len ≤ r.contents.length ∧ len ≤ r.capacity - r.first

/-- One of the thread and the driver at a time has a part of the ring buffer, and what was taken
in is on the wire or still to be sent. -/
structure TxInv (bufSize : ℕ) (s : TxState api) : Prop where
  capacity : s.ring.capacity = sizeofTxBuf bufSize
  first : 0 < s.ring.capacity → s.ring.first < s.ring.capacity
  exclusive : s.thread.Starts → s.driver = none
  started : s.thread.Starts ∨ s.driver ≠ none → s.started = true
  unclaimed : s.part = none → s.ring.claimed = 0
  part : ∀ buf len, s.part = some (buf, len) → Readable s.ring buf len
  sent : ∀ t, s.driver = some t → t.sent ≤ t.len
  room : ∀ data written, s.thread = .putting data written →
    written ≤ data.length ∧ written ≤ s.ring.capacity - s.ring.contents.length
  accepted : s.accepted = s.wire ++ s.unsent
  log : ∀ call ∈ s.log, call.written ≤ call.data.length ∧
    call.result = TxState.enqueueResult call.written call.data.length

namespace TxInv

variable {s s' : TxState api}

theorem start (hdoc : api.Documented) : TxInv bufSize (.start api bufSize) := by
  have hring : (TxState.start api bufSize).ring = ⟨sizeofTxBuf bufSize, [], 0, 0⟩ :=
    hdoc.declare _
  refine ⟨by rw [hring], by rw [hring]; exact id, fun h => h.elim, ?_, fun _ => by rw [hring],
    nofun, nofun, nofun, ?_, nofun⟩
  · rintro (h | h)
    · exact h.elim
    · exact absurd rfl h
  · rw [TxState.unsent, hring]
    rfl

/-- A step of the thread that leaves the ring buffer and the driver alone. -/
theorem of_thread (h : TxInv bufSize s) (hrb : s'.rb = s.rb) (hdriver : s'.driver = s.driver)
    (hlog : s'.log = s.log) (hwire : s'.wire = s.wire) (hpart : s'.part = s.part)
    (hexclusive : s'.thread.Starts → s.driver = none)
    (hstarted : s'.thread.Starts ∨ s.driver ≠ none → s'.started = true)
    (hroom : ∀ data written, s'.thread = .putting data written →
      written ≤ data.length ∧ written ≤ s.ring.capacity - s.ring.contents.length) :
    TxInv bufSize s' := by
  have hring : s'.ring = s.ring := by simp only [TxState.ring, hrb]
  have haccepted : s'.accepted = s.accepted := by simp only [TxState.accepted, hlog]
  have hunsent : s'.unsent = s.unsent := by simp only [TxState.unsent, TxState.sent, hring, hdriver]
  refine ⟨by rw [hring]; exact h.capacity, by rw [hring]; exact h.first,
    by rw [hdriver]; exact hexclusive, by rw [hdriver]; exact hstarted,
    by rw [hpart, hring]; exact h.unclaimed, by rw [hpart, hring]; exact h.part,
    by rw [hdriver]; exact h.sent, by rw [hring]; exact hroom,
    by rw [haccepted, hwire, hunsent]; exact h.accepted, by rw [hlog]; exact h.log⟩

theorem part_eq {s : TxState api} (hthread : ¬ s.thread.Starts) :
    s.part = s.driver.map fun t => (t.buf, t.len) := by
  unfold TxState.part
  split <;> simp_all

theorem look (hdoc : api.Documented) (h : TxInv bufSize s) {data : Bytes}
    (hthread : s.thread = .idle ∨ ∃ written, s.thread = .putting data written) :
    TxInv bufSize
      { s with thread := .putting data (min data.length (api.spaceGet s.rb)) } := by
  refine h.of_thread rfl rfl rfl rfl ?_ nofun (fun hor => ?_) ?_
  · rw [part_eq (by simp), part_eq]
    rcases hthread with hthread | ⟨written, hthread⟩ <;> simp [hthread]
  · exact h.started (hor.imp_left fun hstarts => hstarts.elim)
  · rintro _ _ ⟨⟩
    exact ⟨min_le_left _ _, (min_le_right _ _).trans (hdoc.spaceGet s.rb).le⟩

theorem put (hdoc : api.Documented) (h : TxInv bufSize s) {data : Bytes} {written : ℕ}
    (hthread : s.thread = .putting data written) : TxInv bufSize (s.put data written) := by
  obtain ⟨hlen, hroom⟩ := h.room _ _ hthread
  have hring := s.ring_put hdoc data hroom
  have hthread' : (s.put data written).thread = if written = 0 then .idle else .written := rfl
  have hnot : ¬ (s.put data written).thread.Starts := by
    rw [hthread']
    split_ifs <;> exact id
  have hpart : (s.put data written).part = s.part := by
    rw [part_eq hnot, part_eq (by rw [hthread]; exact id)]
    rfl
  have hreadable : ∀ buf len, s.part = some (buf, len) →
      Readable (s.put data written).ring buf len := by
    intro buf len hp
    obtain ⟨hbuf, hclaimed, hle, hend⟩ := h.part _ _ hp
    rw [hring]
    exact ⟨hbuf, hclaimed, hle.trans (by simp), hend⟩
  have hunsent : (s.put data written).unsent = s.unsent ++ data.take written := by
    have hsent : s.sent ≤ s.ring.contents.length := by
      cases hd : s.driver with
      | none => simp [s.sent_none hd]
      | some t =>
        have hp : s.part = some (t.buf, t.len) := by simp [TxState.part, hd]
        rw [s.sent_eq hd]
        exact (h.sent t hd).trans (h.part _ _ hp).2.2.1
    rw [TxState.unsent, hring]
    exact List.drop_append_of_le_length hsent
  refine ⟨by rw [hring]; exact h.capacity, by rw [hring]; exact h.first,
    fun hs => absurd hs hnot, fun hs => h.started (Or.inr (hs.resolve_left hnot)),
    by rw [hpart, hring]; exact h.unclaimed, by rw [hpart]; exact hreadable, h.sent, ?_, ?_, ?_⟩
  · intro data' written' hput
    rw [hthread'] at hput
    split_ifs at hput
  · rw [hunsent, ← List.append_assoc]
    have haccepted : (s.put data written).accepted = s.accepted ++ data.take written := by
      simp [TxState.accepted, TxState.put]
    rw [haccepted, h.accepted]
    rfl
  · intro call hcall
    rcases List.mem_append.1 hcall with hcall | hcall
    · exact h.log call hcall
    · rw [List.mem_singleton.1 hcall]
      exact ⟨hlen, rfl⟩

/-- A start of the queue stays where it is when nothing is given up. -/
theorem first_mod (h : TxInv bufSize s) : s.ring.first % s.ring.capacity = s.ring.first := by
  rcases Nat.eq_zero_or_pos s.ring.capacity with hzero | hpos
  · rw [hzero, Nat.mod_zero]
  · exact Nat.mod_eq_of_lt (h.first hpos)

/-- The front of the queue is claimed, while nobody else has a part of it. -/
theorem getClaim (hdoc : api.Documented) (h : TxInv bufSize s) (hthread : s.thread = .starting) :
    TxInv bufSize { s.getClaim bufSize with
      thread := .claimed (s.getClaim bufSize).ring.first (s.getClaim bufSize).ring.claimed } := by
  have hstarts : s.thread.Starts := by
    rw [hthread]
    trivial
  have hdriver := h.exclusive hstarts
  have hpart : s.part = none := by simp [TxState.part, hdriver, hthread]
  have hring := s.ring_getClaim hdoc bufSize (h.unclaimed hpart)
  have hunsent : (s.getClaim bufSize).unsent = s.unsent := by rw [TxState.unsent, hring]; rfl
  have hring' : ({ s.getClaim bufSize with
      thread := .claimed (s.getClaim bufSize).ring.first (s.getClaim bufSize).ring.claimed } :
      TxState api).ring = _ := hring
  refine ⟨?_, ?_, fun _ => hdriver, fun _ => h.started (Or.inl hstarts), fun hp => ?_,
    fun buf len hp => ?_, h.sent, nofun, ?_, h.log⟩
  · rw [hring']
    exact h.capacity
  · rw [hring']
    exact h.first
  · simp [TxState.part, TxState.getClaim, hdriver] at hp
  · have heq : (s.getClaim bufSize).ring.first = buf ∧ (s.getClaim bufSize).ring.claimed = len := by
      simpa [TxState.part, TxState.getClaim, hdriver] using hp
    obtain ⟨rfl, rfl⟩ := heq
    rw [hring', hring]
    exact ⟨rfl, rfl, (min_le_right _ _).trans (min_le_left _ _),
      (min_le_right _ _).trans (min_le_right _ _)⟩
  · exact h.accepted.trans (congrArg (s.wire ++ ·) hunsent.symm)

/-- The driver gets what was claimed, or it is given back. -/
theorem uartTx (hdoc : api.Documented) (h : TxInv bufSize s) {buf len : ℕ}
    (hthread : s.thread = .claimed buf len) (err : ℤ) :
    TxInv bufSize
      { s.uartTx buf len err with thread := if err = 0 then .idle else .failed } := by
  have hstarts : s.thread.Starts := by
    rw [hthread]
    trivial
  have hdriver := h.exclusive hstarts
  have hstarted := h.started (Or.inl hstarts)
  have hpart : s.part = some (buf, len) := by simp [TxState.part, hdriver, hthread]
  unfold TxState.uartTx
  split_ifs with herr
  · refine ⟨h.capacity, h.first, fun hs => hs.elim, fun _ => hstarted, nofun, ?_, ?_, nofun, ?_,
      h.log⟩
    · rintro _ _ ⟨⟩
      exact h.part _ _ hpart
    · rintro _ ⟨⟩
      exact Nat.zero_le _
    · have haccepted := h.accepted
      rw [TxState.unsent, TxState.sent_none hdriver] at haccepted
      exact haccepted
  · have hring := s.ring_uartTxFinish hdoc (Nat.zero_le _)
    rw [List.drop_zero, add_zero, h.first_mod] at hring
    have hring' : ({ s.uartTxFinish 0 with thread := .failed } : TxState api).ring = _ := hring
    refine ⟨?_, ?_, fun _ => hdriver, fun _ => hstarted, fun _ => ?_, fun _ _ hp => ?_, h.sent,
      nofun, ?_, h.log⟩
    · rw [hring']
      exact h.capacity
    · rw [hring']
      exact h.first
    · rw [hring']
    · simp [TxState.part, TxState.uartTxFinish, hdriver] at hp
    · have hunsent : (s.uartTxFinish 0).unsent = s.unsent := by rw [TxState.unsent, hring]; rfl
      exact h.accepted.trans (congrArg (s.wire ++ ·) hunsent.symm)

/-- The driver is done with its part, and what it sent of that leaves the queue. -/
theorem finish (hdoc : api.Documented) (h : TxInv bufSize s) {t : Transfer}
    (hdriver : s.driver = some t) :
    TxInv bufSize ({ s with driver := none }.uartTxFinish t.sent) := by
  have hnot : ¬ s.thread.Starts := fun hs => by simp [h.exclusive hs] at hdriver
  have hpart : s.part = some (t.buf, t.len) := by simp [TxState.part, hdriver]
  obtain ⟨-, hclaimed, hle, -⟩ := h.part _ _ hpart
  have hsent := h.sent t hdriver
  have hring : ({ s with driver := none }.uartTxFinish t.sent).ring = _ :=
    s.ring_uartTxFinish hdoc (hclaimed ▸ hsent)
  have hpart' : ({ s with driver := none }.uartTxFinish t.sent).part = none := part_eq hnot
  refine ⟨?_, fun hpos => ?_, fun hs => absurd hs hnot, fun _ => h.started (Or.inr ?_),
    fun _ => ?_, fun _ _ hp => ?_, nofun, fun data written hput => ?_, ?_, h.log⟩
  · rw [hring]
    exact h.capacity
  · rw [hring] at hpos ⊢
    exact Nat.mod_lt _ hpos
  · simp [hdriver]
  · rw [hring]
  · rw [hpart'] at hp
    cases hp
  · obtain ⟨hlen, hroom⟩ := h.room _ _ hput
    rw [hring, List.length_drop]
    exact ⟨hlen, hroom.trans (Nat.sub_le_sub_left (Nat.sub_le _ _) _)⟩
  · have hunsent : ({ s with driver := none }.uartTxFinish t.sent).unsent = s.unsent := by
      rw [TxState.unsent, hring, TxState.unsent, s.sent_eq hdriver]
      rfl
    exact h.accepted.trans (congrArg (s.wire ++ ·) hunsent.symm)

/-- A start in the interrupt is one of the thread, between two of its operations. -/
theorem uartTxStart (hdoc : api.Documented) (h : TxInv bufSize s) (hdriver : s.driver = none)
    (hstarted : s.started = true) (hnot : ¬ s.thread.Starts) (err : ℤ) :
    TxInv bufSize (s.uartTxStart bufSize err) := by
  have hstarting : TxInv bufSize { s with thread := .starting } := by
    refine h.of_thread rfl rfl rfl rfl ?_ (fun _ => hdriver) (fun _ => hstarted) nofun
    rw [part_eq hnot]
    simp [TxState.part, hdriver]
  obtain ⟨s', hs', hrb, hdriver', hlog, hwire, hpart⟩ : ∃ s', TxInv bufSize s' ∧
      (s.uartTxStart bufSize err).rb = s'.rb ∧ (s.uartTxStart bufSize err).driver = s'.driver ∧
      s.log = s'.log ∧ s.wire = s'.wire ∧
      s'.part = s'.driver.map fun t => (t.buf, t.len) := by
    refine ⟨_, (hstarting.getClaim hdoc rfl).uartTx hdoc rfl err, ?_⟩
    unfold TxState.uartTxStart TxState.uartTx
    split_ifs
    · exact ⟨rfl, rfl, rfl, rfl, rfl⟩
    · refine ⟨rfl, rfl, rfl, rfl, ?_⟩
      simp [TxState.part, TxState.uartTxFinish, TxState.getClaim, hdriver]
  obtain ⟨hthread, hstarted', hlog', hwire'⟩ := s.uartTxStart_frame bufSize err
  have hring' : s'.ring = (s.uartTxStart bufSize err).ring := by simp only [TxState.ring, hrb]
  obtain ⟨hcapacity, hcontents⟩ := s.ring_uartTxStart hdoc bufSize
    (h.unclaimed ((part_eq hnot).trans (by simp [hdriver]))) err
  refine hs'.of_thread hrb hdriver' (hlog'.trans hlog) (hwire'.trans hwire) ?_ ?_ ?_ ?_
  · rw [part_eq (hthread ▸ hnot), hpart, hdriver']
  · exact fun hs => absurd (hthread ▸ hs) hnot
  · exact fun _ => hstarted'.trans hstarted
  · intro data written hput
    rw [hring', hcapacity, hcontents]
    exact h.room _ _ (hthread ▸ hput)

theorem stop (h : TxInv bufSize s) (hdriver : s.driver = none) (hnot : ¬ s.thread.Starts) :
    TxInv bufSize { s with started := false } :=
  h.of_thread rfl rfl rfl rfl rfl h.exclusive
    (fun hor => absurd hdriver (hor.resolve_left hnot)) h.room

theorem txByte (hdoc : api.Documented) (h : TxInv bufSize s) {t : Transfer}
    (hdriver : s.driver = some t) (hlt : t.sent < t.len) :
    TxInv bufSize { s with
      driver := some { t with sent := t.sent + 1 }
      wire := s.wire ++ [api.memory s.rb (t.buf + t.sent)] } := by
  have hnot : ¬ s.thread.Starts := fun hs => by simp [h.exclusive hs] at hdriver
  have hpart : s.part = some (t.buf, t.len) := by simp [TxState.part, hdriver]
  obtain ⟨hbuf, -, hle, hend⟩ := h.part _ _ hpart
  refine ⟨h.capacity, h.first, fun hs => absurd hs hnot,
    fun _ => h.started (Or.inr (by simp [hdriver])), nofun, ?_, ?_, h.room, ?_, h.log⟩
  · rintro _ _ ⟨⟩
    exact h.part _ _ hpart
  · rintro _ ⟨⟩
    exact hlt
  · have hbyte : api.memory s.rb (t.buf + t.sent) = s.ring.contents[t.sent] := by
      have hinside : s.ring.first + t.sent < s.ring.capacity := by omega
      rw [hbuf]
      exact hdoc.getElem s.rb (hlt.trans_le hle) hinside
    have hunsent : s.unsent = s.ring.contents[t.sent] :: s.ring.contents.drop (t.sent + 1) := by
      rw [TxState.unsent, s.sent_eq hdriver, List.drop_eq_getElem_cons]
    rw [hbyte, List.append_assoc]
    exact h.accepted.trans (congrArg (s.wire ++ ·) hunsent)

theorem txDone (hdoc : api.Documented) (h : TxInv bufSize s) {t : Transfer}
    (hdriver : s.driver = some t) (hsent : t.sent = t.len) (err : ℤ) :
    TxInv bufSize (s.txDone bufSize t.len err) := by
  have hnot : ¬ s.thread.Starts := fun hs => by simp [h.exclusive hs] at hdriver
  have hfinish := h.finish hdoc hdriver
  rw [hsent] at hfinish
  unfold TxState.txDone
  dsimp only
  split_ifs
  · exact hfinish.stop rfl hnot
  · exact hfinish.uartTxStart hdoc rfl (h.started (Or.inr (by simp [hdriver]))) hnot err

theorem step (hdoc : api.Documented) (h : TxInv bufSize s) {e : TxEvent}
    (hs : s.step bufSize e = some s') : TxInv bufSize s' := by
  cases txStepped hs with
  | enqueue hthread => exact h.look hdoc (Or.inl hthread)
  | look hthread => exact h.look hdoc (Or.inr ⟨_, hthread⟩)
  | put hthread => exact h.put hdoc hthread
  | setStarted hthread =>
    have hnot : ¬ s.thread.Starts := by simp [hthread]
    refine h.of_thread rfl rfl rfl rfl ?_ (fun hstarts => ?_) (fun _ => rfl) fun _ _ hput => ?_
    · rw [part_eq hnot, TxState.part]
      cases s.driver <;> cases s.started <;> rfl
    · by_contra hdriver
      simp [h.started (Or.inr hdriver)] at hstarts
    · dsimp only at hput
      split_ifs at hput
  | getClaim hthread => exact h.getClaim hdoc hthread
  | uartTx hthread => exact h.uartTx hdoc hthread _
  | clearStarted hthread =>
    have hdriver := h.exclusive (by simp [hthread])
    refine h.of_thread rfl rfl rfl rfl ?_ nofun (fun hor => ?_) nofun
    · simp [TxState.part, hdriver, hthread]
    · exact absurd hdriver (hor.resolve_left id)
  | txByte hdriver hlt => exact h.txByte hdoc hdriver hlt
  | txDone hdriver hsent => exact h.txDone hdoc hdriver hsent _
  | txAborted hdriver =>
    exact (h.finish hdoc hdriver).stop rfl fun hs => by simp [h.exclusive hs] at hdriver

theorem result_eq_zero (h : TxInv bufSize s) {call : Enqueued} (hcall : call ∈ s.log) :
    call.result = 0 ↔ call.written ≠ 0 ∧ call.written = call.data.length := by
  rw [(h.log call hcall).2, TxState.enqueueResult]
  split_ifs <;> simp_all [enomem]

end TxInv

theorem txInv_of_run (hdoc : api.Documented) {evs : List TxEvent} {s : TxState api}
    (h : (txSys api bufSize).Run evs s) : TxInv bufSize s :=
  h.invariant _ (.start hdoc) fun _ _ _ hinv _ hs => hinv.step hdoc hs

/-- Whatever transfers fail or are aborted, what the calls of `uart_tx_enqueue` took in is, in
their order, on the wire or, behind that, still in the ring buffer; each call took in a front
part of its data and returned 0 just when that was all of it and not empty. -/
theorem tx_in_order (hdoc : api.Documented) {evs : List TxEvent} {s : TxState api}
    (h : (txSys api bufSize).Run evs s) :
    s.accepted = s.wire ++ s.unsent ∧
      ∀ call ∈ s.log, call.written ≤ call.data.length ∧
        (call.result = 0 ↔ call.data.take call.written = call.data ∧ call.data ≠ []) := by
  have hinv := txInv_of_run hdoc h
  refine ⟨hinv.accepted, fun call hcall => ⟨(hinv.log call hcall).1, ?_⟩⟩
  rw [hinv.result_eq_zero hcall, List.take_eq_self_iff, ← List.length_pos_iff_ne_nil]
  have hle := (hinv.log call hcall).1
  omega

/-- Five bytes come where four fit; the first transfer of three is aborted after one byte, and
the next one runs to the end of the memory while two more bytes go round it. -/
theorem tx_in_order_abort :
    ∃ s, (txSys zephyrTxRing 1).Run
        [.enqueue [1, 2, 3], .put, .setStarted, .getClaim, .uartTx 0, .txByte, .enqueue [4, 5], .put,
          .txAborted, .setStarted, .getClaim, .uartTx 0, .txByte, .enqueue [6, 7], .put] s ∧
      s.wire = [1, 2] ∧ s.ring.contents = [2, 3, 4, 6] ∧ s.accepted = s.wire ++ s.unsent := by
  have hrun : ∃ s, (txSys zephyrTxRing 1).exec
        [.enqueue [1, 2, 3], .put, .setStarted, .getClaim, .uartTx 0, .txByte, .enqueue [4, 5], .put,
          .txAborted, .setStarted, .getClaim, .uartTx 0, .txByte, .enqueue [6, 7], .put] = some s ∧
      s.wire = [1, 2] ∧ s.ring.contents = [2, 3, 4, 6] := ⟨_, rfl, rfl, rfl⟩
  obtain ⟨s, hs, hwire, hcontents⟩ := hrun
  have hrun := Lts.run_of_exec hs
  exact ⟨s, hrun, hwire, hcontents, (tx_in_order zephyrTxRing_documented hrun).1⟩

/-! ## While nothing fails -/

namespace TxInv

variable {s s' : TxState api}

theorem claimed_pos (hdoc : api.Documented) (h : TxInv bufSize s) (hpart : s.part = none)
    (hcontents : s.ring.contents ≠ []) : 0 < (s.getClaim bufSize).ring.claimed := by
  have hlen := List.length_pos_iff_ne_nil.2 hcontents
  have hle : s.ring.contents.length ≤ s.ring.capacity := hdoc.length_le s.rb
  have hfirst := h.first (hlen.trans_le hle)
  have hcapacity := h.capacity
  rw [s.ring_getClaim hdoc bufSize (h.unclaimed hpart)]
  simp only [lt_min_iff]
  omega

/-- After a transfer the driver gets the next one, unless the queue is empty. -/
theorem txDone_spec (hdoc : api.Documented) (h : TxInv bufSize s) {t : Transfer}
    (hdriver : s.driver = some t) (hsent : t.sent = t.len) :
    (s.txDone bufSize t.len 0).thread = s.thread ∧
      (s.txDone bufSize t.len 0).accepted = s.accepted ∧
      (s.txDone bufSize t.len 0).unsent = s.unsent ∧
      ((s.txDone bufSize t.len 0).driver = none ∧
          (s.txDone bufSize t.len 0).ring.contents = [] ∧
          (s.txDone bufSize t.len 0).started = false ∨
        ∃ buf len, (s.txDone bufSize t.len 0).driver = some ⟨buf, len, 0⟩ ∧ 0 < len) := by
  have hnot : ¬ s.thread.Starts := fun hs => by simp [h.exclusive hs] at hdriver
  have hfinish := h.finish hdoc hdriver
  have hdone := h.txDone hdoc hdriver hsent 0
  rw [hsent] at hfinish
  have hframe : (s.txDone bufSize t.len 0).thread = s.thread ∧
      (s.txDone bufSize t.len 0).accepted = s.accepted ∧
      (s.txDone bufSize t.len 0).wire = s.wire := by
    unfold TxState.txDone TxState.uartTxStart TxState.uartTx
    dsimp only
    split_ifs <;> exact ⟨rfl, rfl, rfl⟩
  obtain ⟨hthread, haccepted, hwire⟩ := hframe
  refine ⟨hthread, haccepted, ?_, ?_⟩
  · -- the same bytes were taken in, and the same are on the wire
    have hsame := hdone.accepted
    rw [haccepted, hwire, h.accepted] at hsame
    exact (List.append_cancel_left hsame).symm
  · by_cases hempty : ({ s with driver := none }.uartTxFinish t.len).ring.contents = []
    · left
      simp only [TxState.txDone, if_pos hempty]
      exact ⟨rfl, hempty, trivial⟩
    · right
      have hpos := hfinish.claimed_pos hdoc (part_eq hnot) hempty
      have hnext : s.txDone bufSize t.len 0 =
          ({ s with driver := none }.uartTxFinish t.len).uartTxStart bufSize 0 := if_neg hempty
      rw [hnext]
      exact ⟨_, _, rfl, hpos⟩

end TxInv

/-- Where the driver sends nothing, there is nothing to send or the thread is about to start. -/
def Awake (s : TxState api) : Prop :=
  s.driver = none → s.thread = .starting ∨ (∃ buf len, s.thread = .claimed buf len) ∨
    s.started = false ∧ (s.ring.contents = [] ∨ s.thread = .written)

namespace Awake

variable {s s' : TxState api}

theorem start (hdoc : api.Documented) : Awake (.start api bufSize) := by
  intro _
  have hring : (TxState.start api bufSize).ring = _ := hdoc.declare _
  exact Or.inr (Or.inr ⟨rfl, Or.inl (congrArg RingState.contents hring)⟩)

theorem stopped (h : Awake s) (hdriver : s.driver = none) (hthread : ¬ s.thread.Starts) :
    s.started = false ∧ (s.ring.contents = [] ∨ s.thread = .written) := by
  rcases h hdriver with hs | ⟨buf, len, hs⟩ | hs
  · simp [hs] at hthread
  · simp [hs] at hthread
  · exact hs

theorem step (hdoc : api.Documented) (h : Awake s) (hinv : TxInv bufSize s) {e : TxEvent}
    (hok : e.Succeeds) (hs : s.step bufSize e = some s') : Awake s' := by
  cases txStepped hs with
  | enqueue hthread =>
    intro hdriver
    obtain ⟨hstarted, hempty⟩ := h.stopped hdriver (by simp [hthread])
    exact Or.inr (Or.inr ⟨hstarted, Or.inl (hempty.resolve_right (by simp [hthread]))⟩)
  | look hthread =>
    intro hdriver
    obtain ⟨hstarted, hempty⟩ := h.stopped hdriver (by simp [hthread])
    exact Or.inr (Or.inr ⟨hstarted, Or.inl (hempty.resolve_right (by simp [hthread]))⟩)
  | @put data written hthread =>
    intro hdriver
    obtain ⟨hstarted, hempty⟩ := h.stopped hdriver (by simp [hthread])
    refine Or.inr (Or.inr ⟨hstarted, ?_⟩)
    rcases Nat.eq_zero_or_pos written with rfl | hpos
    · left
      rw [s.ring_put hdoc data (hinv.room _ _ hthread).2]
      simpa using hempty.resolve_right (by simp [hthread])
    · right
      exact if_neg hpos.ne'
  | setStarted hthread =>
    intro hdriver
    obtain ⟨hstarted, -⟩ := h.stopped hdriver (by simp [hthread])
    exact Or.inl (by simp [hstarted])
  | getClaim => exact fun _ => Or.inr (Or.inl ⟨_, _, rfl⟩)
  | uartTx =>
    cases hok
    exact nofun
  | clearStarted hthread =>
    intro hdriver
    obtain hs | ⟨_, _, hs⟩ | ⟨hs, -⟩ := h hdriver
    · simp [hthread] at hs
    · simp [hthread] at hs
    · simp [hinv.started (Or.inl (by simp [hthread]))] at hs
  | txByte => exact nofun
  | txDone hdriver hsent =>
    cases hok
    obtain ⟨-, -, -, ⟨-, hempty, hstarted⟩ | ⟨_, _, hsome, -⟩⟩ := hinv.txDone_spec hdoc hdriver hsent
    · exact fun _ => Or.inr (Or.inr ⟨hstarted, Or.inl hempty⟩)
    · exact fun hnone => by simp [hsome] at hnone
  | txAborted => exact hok.elim

end Awake

/-! ## Until everything is sent -/

def TxState.backlog (s : TxState api) : ℕ :=
  match s.driver with
  | none => 2 * s.unsent.length
  | some t => 2 * (s.unsent.length - (t.len - t.sent)) + (t.len - t.sent) + 1

section Backlog

variable {s s' : TxState api}

theorem TxInv.rest_le (h : TxInv bufSize s) {t : Transfer} (hdriver : s.driver = some t) :
    t.len - t.sent ≤ s.unsent.length := by
  have hpart : s.part = some (t.buf, t.len) := by simp [TxState.part, hdriver]
  obtain ⟨-, -, hle, -⟩ := h.part _ _ hpart
  rw [TxState.unsent, s.sent_eq hdriver, List.length_drop]
  omega

theorem backlog_le (h : TxInv bufSize s) : s.backlog ≤ 2 * s.unsent.length + 1 := by
  unfold TxState.backlog
  cases hdriver : s.driver with
  | none => simp
  | some t =>
    have hrest := h.rest_le hdriver
    dsimp only
    omega

/-- The driver brings what is still to be sent down, and takes in nothing. -/
theorem drives_step (hdoc : api.Documented) (h : TxInv bufSize s) {e : TxEvent} (hok : e.Drives)
    (hs : s.step bufSize e = some s') :
    s'.thread = s.thread ∧ s'.accepted = s.accepted ∧ s'.backlog < s.backlog := by
  have hinv := h.step hdoc hs
  cases txStepped hs with
  | @txByte t hdriver hlt =>
    refine ⟨rfl, rfl, ?_⟩
    have hrest := h.rest_le hdriver
    have hrest' := hinv.rest_le rfl
    have haccepted := congrArg List.length (h.accepted.symm.trans hinv.accepted)
    simp only [List.length_append, List.length_singleton] at haccepted
    simp only [TxState.backlog, hdriver]
    dsimp only at hrest'
    omega
  | @txDone t err hdriver hsent =>
    cases hok
    obtain ⟨hthread, haccepted, hunsent, hnext⟩ := h.txDone_spec hdoc hdriver hsent
    refine ⟨hthread, haccepted, ?_⟩
    rcases hnext with ⟨hnone, hempty, -⟩ | ⟨buf, len, hsome, hpos⟩
    · simp [TxState.backlog, hnone, hdriver, TxState.unsent, hempty]
    · have hrest := hinv.rest_le hsome
      rw [hunsent] at hrest
      simp only [TxState.backlog, hsome, hdriver, hunsent, hsent]
      dsimp only at hrest
      omega
  | _ => exact hok.elim

theorem drives_none (hinv : TxInv bufSize s)
    (h : ∀ e : TxEvent, e.Drives → s.step bufSize e = none) : s.driver = none := by
  cases hdriver : s.driver with
  | none => rfl
  | some t =>
    have hsent := hinv.sent t hdriver
    have hbyte := h .txByte trivial
    have hdone := h (.txDone 0) rfl
    simp only [TxState.step, hdriver, ite_eq_right_iff, reduceCtorEq, imp_false] at hbyte hdone
    omega

end Backlog

/-- While no transfer is refused or aborted, the driver alone brings everything that was taken
in to the wire: outside `uart_tx_enqueue` it goes on for two events a byte at most, and where
it stops nothing is left. -/
theorem tx_delivers (hdoc : api.Documented) {evs evs' : List TxEvent} {s s' : TxState api}
    (h : (txSys api bufSize).RunOf (fun _ e => e.Succeeds) evs s) (hidle : s.thread = .idle)
    (h' : ((txSys api bufSize).after s).RunOf (fun _ e => e.Drives) evs' s') :
    evs'.length ≤ 2 * s.unsent.length + 1 ∧
      ((∀ e : TxEvent, e.Drives → s'.step bufSize e = none) → s'.wire = s.accepted) := by
  have hinv := txInv_of_run hdoc h.run
  have hdrives : (s'.thread = .idle ∧ s'.accepted = s.accepted ∧ TxInv bufSize s') ∧
      evs'.length + s'.backlog ≤ s.backlog := by
    refine h'.length_le
      (fun t : TxState api => t.thread = .idle ∧ t.accepted = s.accepted ∧ TxInv bufSize t)
      ⟨hidle, rfl, hinv⟩ ?_
    rintro t e t' ⟨hthread, haccepted, ht⟩ hok hs
    obtain ⟨hthread', haccepted', hlt⟩ := drives_step hdoc ht hok hs
    exact ⟨⟨hthread'.trans hthread, haccepted'.trans haccepted, ht.step hdoc hs⟩, hlt⟩
  obtain ⟨⟨hthread, haccepted, hinv'⟩, hlen⟩ := hdrives
  have hbacklog := backlog_le hinv
  refine ⟨by omega, fun hstop => ?_⟩
  have hrun := h.append (h'.mono fun _ e he => by cases e <;> first | exact he | exact he.elim)
  have hawake : TxInv bufSize s' ∧ Awake s' := by
    refine hrun.invariant (fun t => TxInv bufSize t ∧ Awake t) ⟨.start hdoc, .start hdoc⟩ ?_
    rintro t e t' ⟨ht, hawake⟩ hok hs
    exact ⟨ht.step hdoc hs, hawake.step hdoc ht hok hs⟩
  have hdriver := drives_none hinv' hstop
  obtain ⟨-, hempty⟩ := hawake.2.stopped hdriver (by simp [hthread])
  have hunsent : s'.unsent = [] := by
    rw [TxState.unsent, hempty.resolve_right (by simp [hthread]), List.drop_nil]
  rw [← haccepted, hinv'.accepted, hunsent, List.append_nil]

/-- A call puts two bytes, and the driver sends them and stops. -/
theorem tx_delivers_two :
    ∃ s s', (txSys zephyrTxRing 1).RunOf (fun _ e => e.Succeeds)
        [.enqueue [1, 2], .put, .setStarted, .getClaim, .uartTx 0] s ∧
      ((txSys zephyrTxRing 1).after s).RunOf (fun _ e => e.Drives)
        [.txByte, .txByte, .txDone 0] s' ∧ s'.wire = s.accepted := by
  have hrun : ∃ s, (txSys zephyrTxRing 1).RunOf (fun _ e => e.Succeeds)
      [.enqueue [1, 2], .put, .setStarted, .getClaim, .uartTx 0] s ∧ s.thread = .idle ∧
      ∃ s', ((txSys zephyrTxRing 1).after s).RunOf (fun _ e => e.Drives)
        [.txByte, .txByte, .txDone 0] s' ∧ s'.driver = none := by
    refine ⟨_, .snoc (.snoc (.snoc (.snoc (.snoc .nil trivial rfl) trivial rfl) trivial rfl)
      trivial rfl) rfl rfl, rfl, _, .snoc (.snoc (.snoc .nil trivial rfl) trivial rfl) rfl rfl, rfl⟩
  obtain ⟨s, hs, hidle, s', hs', hdriver⟩ := hrun
  refine ⟨s, s', hs, hs', (tx_delivers zephyrTxRing_documented hs hidle hs').2 fun e he => ?_⟩
  cases e <;> first | exact he.elim | simp [TxState.step, hdriver]

/-! ## For good -/

/-- The driver sends nothing, and no call of `uart_tx_enqueue` starts it. -/
structure Stalled (s : TxState api) : Prop where
  driver : s.driver = none
  thread : ¬ s.thread.Starts
  stuck : s.started = true ∨ s.ring.contents.length = s.ring.capacity ∧ s.thread ≠ .written

theorem Stalled.step (hdoc : api.Documented) {s s' : TxState api} (h : Stalled s)
    (hinv : TxInv bufSize s) {e : TxEvent} (hs : s.step bufSize e = some s') :
    Stalled s' ∧ s'.wire = s.wire := by
  have hdriver := h.driver
  have hthread := h.thread
  cases txStepped hs with
  | enqueue => exact ⟨⟨hdriver, id, h.stuck.imp_right fun hfull => ⟨hfull.1, by simp⟩⟩, rfl⟩
  | look => exact ⟨⟨hdriver, id, h.stuck.imp_right fun hfull => ⟨hfull.1, by simp⟩⟩, rfl⟩
  | @put data written hput =>
    have hring := s.ring_put hdoc data (hinv.room _ _ hput).2
    refine ⟨⟨hdriver, ?_, ?_⟩, rfl⟩
    · change ¬ (if written = 0 then TxThread.idle else TxThread.written).Starts
      split_ifs <;> simp
    · refine h.stuck.imp_right fun hfull => ?_
      have hzero : written = 0 := by
        have hroom := (hinv.room _ _ hput).2
        omega
      rw [hring, hzero]
      exact ⟨by simpa using hfull.1, by simp [TxState.put]⟩
  | setStarted hwritten =>
    have hstarted : s.started = true := h.stuck.resolve_right fun hfull => hfull.2 hwritten
    exact ⟨⟨hdriver, by simp [hstarted], Or.inl rfl⟩, rfl⟩
  | getClaim hstarting => simp [hstarting] at hthread
  | uartTx hclaimed => simp [hclaimed] at hthread
  | clearStarted hfailed => simp [hfailed] at hthread
  | txByte hsome => simp [hdriver] at hsome
  | txDone hsome => simp [hdriver] at hsome
  | txAborted hsome => simp [hdriver] at hsome

/-- A thread that starts with something to send gets the driver to send it. -/
theorem starting_sends (hdoc : api.Documented) {s : TxState api} (hinv : TxInv bufSize s)
    (hthread : s.thread = .starting) (hcontents : s.ring.contents ≠ []) :
    ∃ evs s' byte, ((txSys api bufSize).after s).Run evs s' ∧ s'.wire = s.wire ++ [byte] := by
  have hdriver := hinv.exclusive (by simp [hthread])
  have hpart : s.part = none := by simp [TxState.part, hthread, hdriver]
  have hpos := hinv.claimed_pos hdoc hpart hcontents
  let claim := s.getClaim bufSize
  let t : Transfer := ⟨claim.ring.first, claim.ring.claimed, 0⟩
  have hclaim : s.step bufSize .getClaim = some { claim with thread := .claimed t.buf t.len } :=
    if_pos hthread
  have hsend : { claim with thread := .claimed t.buf t.len }.step bufSize (.uartTx 0) =
      some { claim with driver := some t, thread := .idle } := if_neg (by simp [claim, hdriver,
        TxState.getClaim])
  have hbyte : { claim with driver := some t, thread := .idle }.step bufSize .txByte =
      some { claim with
        driver := some ⟨t.buf, t.len, 1⟩
        thread := .idle
        wire := s.wire ++ [api.memory claim.rb t.buf] } := if_pos hpos
  have hrun : ((txSys api bufSize).after s).Run [] s := .nil
  have hclaimed := hrun.snoc (e := TxEvent.getClaim) trivial hclaim
  have hsends := hclaimed.snoc (e := TxEvent.uartTx 0) trivial hsend
  exact ⟨_, _, _, hsends.snoc (e := TxEvent.txByte) trivial hbyte, rfl⟩

/-- With room and `uart_tx_started` clear, one more byte gets the driver to send. -/
theorem exists_sends (hdoc : api.Documented) {s : TxState api} (hinv : TxInv bufSize s)
    (hidle : s.thread = .idle) (hstarted : s.started = false)
    (hroom : s.ring.contents.length < s.ring.capacity) :
    ∃ evs s' byte, ((txSys api bufSize).after s).Run evs s' ∧ s'.wire = s.wire ++ [byte] := by
  have hspace : min [(0 : UInt8)].length (api.spaceGet s.rb) = 1 := by
    have hget : api.spaceGet s.rb = s.ring.capacity - s.ring.contents.length := hdoc.spaceGet s.rb
    rw [hget, List.length_singleton]
    omega
  let looking : TxState api := { s with thread := .putting [0] 1 }
  let put := looking.put [0] 1
  have hlook : s.step bufSize (.enqueue [0]) = some looking := by
    simp only [TxState.step, hidle, hspace, if_true]
    rfl
  have hput : looking.step bufSize .put = some put := rfl
  have hstart : put.step bufSize .setStarted =
      some { put with started := true, thread := .starting } := by
    simp [TxState.step, looking, put, TxState.put, hstarted]
  have hcontents : put.ring.contents ≠ [] := by
    have hone : 1 ≤ looking.ring.capacity - looking.ring.contents.length := Nat.sub_pos_of_lt hroom
    rw [looking.ring_put hdoc [0] hone]
    simp
  have hrun : ((txSys api bufSize).after s).Run [] s := .nil
  have hlooking := hrun.snoc (e := TxEvent.enqueue [0]) trivial hlook
  have hstarting :=
    (hlooking.snoc (e := TxEvent.put) trivial hput).snoc (e := TxEvent.setStarted) trivial hstart
  obtain ⟨evs, s', byte, hsends, hwire⟩ := starting_sends hdoc
    (((hinv.step hdoc hlook).step hdoc hput).step hdoc hstart) rfl hcontents
  exact ⟨_, s', byte, hstarting.append hsends, hwire⟩

/-- Where the thread and the driver are at rest, nothing is ever sent again just when
`uart_tx_started` is set, which a failed restart leaves behind, or when the ring buffer is
full, which an abort can leave behind. -/
theorem tx_stalls_iff (hdoc : api.Documented) {evs : List TxEvent} {s : TxState api}
    (h : (txSys api bufSize).Run evs s) (hquiet : s.Quiet) :
    (∀ evs' s', ((txSys api bufSize).after s).Run evs' s' → s'.wire = s.wire) ↔
      s.started = true ∨ s.ring.contents.length = s.ring.capacity := by
  have hinv := txInv_of_run hdoc h
  obtain ⟨hidle, hdriver⟩ := hquiet
  constructor
  · intro hnever
    by_contra hnot
    obtain ⟨hstarted, hfull⟩ := not_or.1 hnot
    have hroom := lt_of_le_of_ne (hdoc.length_le s.rb) hfull
    obtain ⟨evs', s', byte, hrun, hwire⟩ :=
      exists_sends hdoc hinv hidle (Bool.eq_false_of_not_eq_true hstarted) hroom
    simp [hnever _ _ hrun] at hwire
  · intro hstuck evs' s' hrun
    have hstalled : Stalled s :=
      ⟨hdriver, by simp [hidle], hstuck.imp_right fun hfull => ⟨hfull, by simp [hidle]⟩⟩
    have hall : TxInv bufSize s' ∧ Stalled s' ∧ s'.wire = s.wire := by
      refine hrun.invariant (fun t => TxInv bufSize t ∧ Stalled t ∧ t.wire = s.wire)
        ⟨hinv, hstalled, rfl⟩ ?_
      rintro t e t' ⟨ht, hst, hwire⟩ - hs
      obtain ⟨hst', hwire'⟩ := hst.step hdoc ht hs
      exact ⟨ht.step hdoc hs, hst', hwire'.trans hwire⟩
    exact hall.2.2

/-- The restart after a transfer fails: the byte that came meanwhile is never sent. -/
theorem tx_stalls_iff_restart :
    ∃ s, (txSys zephyrTxRing 1).Run
        [.enqueue [1], .put, .setStarted, .getClaim, .uartTx 0, .txByte, .enqueue [2], .put,
          .txDone (-5), .setStarted] s ∧
      s.wire = [1] ∧ s.unsent = [2] ∧
      ∀ evs' s', ((txSys zephyrTxRing 1).after s).Run evs' s' → s'.wire = s.wire := by
  have hrun : ∃ s, (txSys zephyrTxRing 1).exec
        [.enqueue [1], .put, .setStarted, .getClaim, .uartTx 0, .txByte, .enqueue [2], .put,
          .txDone (-5), .setStarted] = some s ∧
      s.wire = [1] ∧ s.unsent = [2] ∧ s.Quiet ∧ s.started = true :=
    ⟨_, rfl, rfl, rfl, ⟨rfl, rfl⟩, rfl⟩
  obtain ⟨s, hs, hwire, hunsent, hquiet, hstarted⟩ := hrun
  have hrun := Lts.run_of_exec hs
  exact ⟨s, hrun, hwire, hunsent,
    (tx_stalls_iff zephyrTxRing_documented hrun hquiet).2 (Or.inl hstarted)⟩

end Heaty.Uart
