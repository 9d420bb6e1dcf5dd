import Heaty.Spec.UartRx

/-! What the UART receives. Every block of the slab is free or has as many references as its
counter says, whatever the driver and the thread do in between. The subscribers read all that
the driver received, in its order, and nothing leaks. While nothing goes wrong reception is on
just when there is a subscriber. -/

namespace Heaty.Uart

open RefPool

/-! ## Addresses -/

namespace RxConfig

variable (cfg : RxConfig)

theorem blockStartGet_bufOf {off : ℕ} (h : off < cfg.bufSize) (block : ℕ) :
    cfg.blockStartGet (cfg.bufOf block + off) = block := by
  have hlt : headerSize + off < cfg.blockSize := by
    unfold blockSize
    omega
  rw [blockStartGet, bufOf, add_assoc, Nat.mul_comm, Nat.mul_add_div (Nat.zero_lt_of_lt hlt),
    Nat.div_eq_of_lt hlt, add_zero]

theorem blockStartGet_self (block : ℕ) : cfg.blockStartGet (cfg.bufOf block) = block :=
  cfg.blockStartGet_bufOf cfg.bufSize_pos block

theorem blockStartGet_mul (block : ℕ) : cfg.blockStartGet (block * cfg.blockSize) = block :=
  Nat.mul_div_cancel _ (Nat.add_pos_left (by decide) _)

end RxConfig

/-- An event points to bytes of one buffer. -/
def DataEvent.Within (cfg : RxConfig) (event : DataEvent) : Prop :=
  ∃ block off, event.buf = cfg.bufOf block + off ∧ 0 < event.len ∧ off + event.len ≤ cfg.bufSize

theorem DataEvent.Within.block {cfg : RxConfig} {event : DataEvent} (h : event.Within cfg) {i : ℕ}
    (hi : i < event.len) : cfg.blockStartGet (event.buf + i) = cfg.blockStartGet event.buf := by
  obtain ⟨block, off, hbuf, hpos, hle⟩ := h
  rw [hbuf, add_assoc, cfg.blockStartGet_bufOf (by omega), cfg.blockStartGet_bufOf (by omega)]

namespace RxState

variable {memory : ℕ → UInt8} {buf len : ℕ} {byte : UInt8}

@[simp] theorem bytesAt_zero (memory : ℕ → UInt8) (buf : ℕ) : bytesAt memory buf 0 = [] := rfl

theorem bytesAt_succ (memory : ℕ → UInt8) (buf len : ℕ) :
    bytesAt memory buf (len + 1) = bytesAt memory buf len ++ [memory (buf + len)] := by
  simp [bytesAt, List.range_succ]

theorem bytesAt_update {addr : ℕ} (h : ∀ i < len, buf + i ≠ addr) :
    bytesAt (Function.update memory addr byte) buf len = bytesAt memory buf len :=
  List.map_congr_left fun i hi => Function.update_of_ne (h i (List.mem_range.1 hi)) _ _

end RxState

/-! ## The steps -/

inductive RxStepped (cfg : RxConfig) (s : RxState) : RxEvent → RxState → Prop
  | submit {state : Bt.PeerConnState} {baudrate : ℕ} : RxStepped cfg s (.submit state baudrate)
      { s with queue := s.queue ++ [.peerConn state baudrate] }
  | takeData {event : DataEvent} {queue : List BridgeEvent} {errs : BaudrateErrs}
      {callbackErr disableErr : ℤ} {block : ℕ} :
      s.thread = .idle → s.queue = .data event :: queue →
      RxStepped cfg s (.take errs callbackErr disableErr block)
        { s with queue := queue, thread := .handling event }
  | takePeer {state : Bt.PeerConnState} {baudrate : ℕ} {queue : List BridgeEvent}
      {errs : BaudrateErrs} {callbackErr disableErr : ℤ} {block : ℕ} :
      s.thread = .idle → s.queue = .peerConn state baudrate :: queue → s.Offers block →
      RxStepped cfg s (.take errs callbackErr disableErr block)
        ({ s with queue := queue }.peerConn state baudrate errs callbackErr disableErr block)
  | read {event : DataEvent} : s.thread = .handling event → RxStepped cfg s .read
      { s with
        delivered := s.delivered ++ RxState.bytesAt s.memory event.buf event.len
        thread := .unref event.buf }
  | dec {buf : ℕ} : s.thread = .unref buf → RxStepped cfg s .dec
      { s with
        slab := s.slab.dec (cfg.blockStartGet buf)
        thread := if s.slab.refs (cfg.blockStartGet buf) = 1
          then .freeing (cfg.blockStartGet buf) else .idle }
  | free {block : ℕ} : s.thread = .freeing block → RxStepped cfg s .free
      { s with slab := s.slab.release block, thread := .idle }
  | enablingFails {block : ℕ} {err : ℤ} : s.thread = .enabling block →
      err ≠ 0 ∨ s.driver.enabled = true → RxStepped cfg s (.rxEnable err)
        { s with thread := .unref (block * cfg.blockSize) }
  | enablingSucceeds {block : ℕ} : s.thread = .enabling block → s.driver.enabled = false →
      RxStepped cfg s (.rxEnable 0) { s.rxEnabled cfg block with thread := .idle }
  | rxByte {c : RxBuf} {byte : UInt8} : s.driver.current = some c → c.pos < cfg.bufSize →
      RxStepped cfg s (.rxByte byte)
        { s with
          memory := Function.update s.memory (c.buf + c.pos) byte
          driver := { s.driver with current := some { c with pos := c.pos + 1 } }
          received := s.received ++ [byte] }
  | rxRdy {c : RxBuf} : s.driver.current = some c → c.reported < c.pos →
      RxStepped cfg s .rxRdy (s.rxRdy cfg c)
  | bufRequest {block : ℕ} {err : ℤ} : s.driver.current.isSome = true → s.driver.next = none →
      s.Offers block → RxStepped cfg s (.bufRequest block err) (s.bufRequest cfg block err)
  | bufReleased {c : RxBuf} : s.driver.current = some c → c.reported = c.pos →
      c.pos = cfg.bufSize ∨ s.driver.stopping = true →
      RxStepped cfg s .bufReleased (s.bufReleased cfg c)
  | nextReleased {buf : ℕ} : s.driver.next = some buf → s.driver.stopping = true →
      s.driver.current = none → RxStepped cfg s .nextReleased
        { s.uartRxBufUnref cfg buf with driver := { s.driver with next := none } }
  | disabled {callbackErr err : ℤ} {block : ℕ} : s.driver.enabled = true →
      s.driver.stopping = true → s.driver.current = none → s.driver.next = none →
      s.Offers block → RxStepped cfg s (.disabled callbackErr block err)
        (s.disabled cfg callbackErr block err)
  | stopped : s.driver.enabled = true → RxStepped cfg s .stopped
      { s with enableRxRetry := true, driver := { s.driver with stopping := true } }

theorem rxStepped {cfg : RxConfig} {s s' : RxState} {e : RxEvent} (h : s.step cfg e = some s') :
    RxStepped cfg s e s' := by
  cases e with
  | submit state baudrate => exact Option.some.inj h ▸ .submit
  | take errs callbackErr disableErr block =>
    simp only [RxState.step, Option.ite_none_right_eq_some] at h
    obtain ⟨hthread, h⟩ := h
    split at h
    · cases h
    · exact Option.some.inj h ▸ .takeData hthread ‹_›
    · simp only [Option.ite_none_right_eq_some, Option.some.injEq] at h
      exact h.2 ▸ .takePeer hthread ‹_› h.1
  | read =>
    cases hthread : s.thread <;> simp only [RxState.step, hthread, reduceCtorEq] at h
    exact Option.some.inj h ▸ .read hthread
  | dec =>
    cases hthread : s.thread <;> simp only [RxState.step, hthread, reduceCtorEq] at h
    exact Option.some.inj h ▸ .dec hthread
  | free =>
    cases hthread : s.thread <;> simp only [RxState.step, hthread, reduceCtorEq] at h
    exact Option.some.inj h ▸ .free hthread
  | rxEnable err =>
    cases hthread : s.thread <;> simp only [RxState.step, hthread, reduceCtorEq] at h
    split_ifs at h with hfails
    · exact Option.some.inj h ▸ .enablingFails hthread hfails
    · obtain ⟨herr, hoff⟩ := not_or.1 hfails
      obtain rfl := not_not.1 herr
      exact Option.some.inj h ▸ .enablingSucceeds hthread (Bool.eq_false_of_not_eq_true hoff)
  | rxByte byte =>
    cases hcurrent : s.driver.current <;> simp only [RxState.step, hcurrent, reduceCtorEq] at h
    simp only [Option.ite_none_right_eq_some, Option.some.injEq] at h
    exact h.2 ▸ .rxByte hcurrent h.1
  | rxRdy =>
    cases hcurrent : s.driver.current <;> simp only [RxState.step, hcurrent, reduceCtorEq] at h
    simp only [Option.ite_none_right_eq_some, Option.some.injEq] at h
    exact h.2 ▸ .rxRdy hcurrent h.1
  | bufRequest block err =>
    simp only [RxState.step, Option.ite_none_right_eq_some, Option.some.injEq] at h
    obtain ⟨⟨hcurrent, hnext, hoffers⟩, rfl⟩ := h
    exact .bufRequest hcurrent hnext hoffers
  | bufReleased =>
    cases hcurrent : s.driver.current <;> simp only [RxState.step, hcurrent, reduceCtorEq] at h
    simp only [Option.ite_none_right_eq_some, Option.some.injEq] at h
    exact h.2 ▸ .bufReleased hcurrent h.1.1 h.1.2
  | nextReleased =>
    cases hnext : s.driver.next <;> simp only [RxState.step, hnext, reduceCtorEq] at h
    simp only [Option.ite_none_right_eq_some, Option.some.injEq] at h
    exact h.2 ▸ .nextReleased hnext h.1.1 h.1.2
  | disabled callbackErr block err =>
    simp only [RxState.step, Option.ite_none_right_eq_some, Option.some.injEq] at h
    obtain ⟨⟨hon, hstopping, hcurrent, hnext, hoffers⟩, rfl⟩ := h
    exact .disabled hon hstopping hcurrent hnext hoffers
  | stopped =>
    simp only [RxState.step, Option.ite_none_right_eq_some, Option.some.injEq] at h
    exact h.2 ▸ .stopped h.1

/-! ## References -/

def RxThread.used (cfg : RxConfig) : RxThread → Multiset ℕ
  | .handling event => {cfg.blockStartGet event.buf}
  | .unref buf => {cfg.blockStartGet buf}
  | .idle | .freeing _ | .enabling _ => 0

def RxThread.fresh : RxThread → Multiset ℕ
  | .enabling block => {block}
  | _ => 0

def RxThread.dying : RxThread → Finset ℕ
  | .freeing block => {block}
  | _ => ∅

def pointedTo (cfg : RxConfig) (queue : List BridgeEvent) : Multiset ℕ :=
  (queue.filterMap BridgeEvent.dataEvent).map fun event => cfg.blockStartGet event.buf

namespace RxState

variable (cfg : RxConfig) (s : RxState)

/-- The blocks with data: that of the current buffer, and those that were reported. -/
def used : Multiset ℕ :=
  (s.driver.current.elim 0 fun c => {cfg.blockStartGet c.buf}) + s.thread.used cfg +
    pointedTo cfg s.queue

/-- The blocks that were given out for reception and have no data yet. -/
def fresh : Multiset ℕ :=
  (s.driver.next.elim 0 fun buf => {cfg.blockStartGet buf}) + s.thread.fresh

/-- The references to blocks, of the driver, the thread and the events. -/
def held : Multiset ℕ := s.used cfg + s.fresh cfg

variable {cfg s}

variable (cfg) in
theorem mem_used_of_current {c : RxBuf} (h : s.driver.current = some c) :
    cfg.blockStartGet c.buf ∈ s.used cfg := by simp [used, h]

theorem mem_used_of_event {event : DataEvent} (h : event ∈ s.events) :
    cfg.blockStartGet event.buf ∈ s.used cfg := by
  rcases List.mem_append.1 h with h | h
  · cases hthread : s.thread <;> simp only [hthread, List.not_mem_nil, List.mem_singleton] at h
    simp [used, hthread, h, RxThread.used]
  · exact Multiset.mem_add.2 (Or.inr (Multiset.mem_coe.2 (List.mem_map_of_mem h)))

end RxState

/-! ## The invariant -/

/-- The references are counted; a block without data has one; the events point to bytes that
were reported, and their bytes come between those that were read and those that are to be
reported. -/
structure RxInv (cfg : RxConfig) (s : RxState) : Prop where
  counts : Counts cfg.blocks s.slab (s.held cfg) s.thread.dying
  current : ∀ c, s.driver.current = some c →
    (∃ block, c.buf = cfg.bufOf block) ∧ c.reported ≤ c.pos ∧ c.pos ≤ cfg.bufSize
  next : ∀ buf, s.driver.next = some buf → ∃ block, buf = cfg.bufOf block
  nodup : (s.fresh cfg).Nodup
  fresh : ∀ block ∈ s.fresh cfg, block ∉ s.used cfg
  within : ∀ event ∈ s.events, event.Within cfg
  reported : ∀ event ∈ s.events, ∀ c, s.driver.current = some c →
    cfg.blockStartGet event.buf = cfg.blockStartGet c.buf →
      event.buf + event.len ≤ c.buf + c.reported
  bytes : s.received = s.delivered ++ s.unread ++ s.unreported
  off : s.driver.enabled = false → s.driver = ⟨false, false, none, none⟩

namespace RxInv

variable {cfg : RxConfig} {s s' : RxState}

theorem start (cfg : RxConfig) (baudrate : ℕ) : RxInv cfg (.start cfg baudrate) where
  counts := Counts.start _ _
  current := nofun
  next := nofun
  nodup := Multiset.nodup_zero
  fresh := nofun
  within := nofun
  reported := nofun
  bytes := rfl
  off _ := rfl

/-- A step that leaves the buffers and the data events where they are. -/
theorem of_same (h : RxInv cfg s)
    (hcounts : Counts cfg.blocks s'.slab (s.held cfg) s.thread.dying)
    (hmemory : s'.memory = s.memory) (hcurrent : s'.driver.current = s.driver.current)
    (hnext : s'.driver.next = s.driver.next) (hthread : s'.thread = s.thread)
    (hqueue : s'.queue.filterMap BridgeEvent.dataEvent = s.queue.filterMap BridgeEvent.dataEvent)
    (hreceived : s'.received = s.received) (hdelivered : s'.delivered = s.delivered)
    (hoff : s'.driver.enabled = false → s'.driver = ⟨false, false, none, none⟩) :
    RxInv cfg s' := by
  have hused : s'.used cfg = s.used cfg := by
    simp only [RxState.used, pointedTo, hcurrent, hthread, hqueue]
  have hfresh : s'.fresh cfg = s.fresh cfg := by simp only [RxState.fresh, hnext, hthread]
  have hevents : s'.events = s.events := by simp only [RxState.events, hthread, hqueue]
  have hunreported : s'.unreported = s.unreported := by
    simp only [RxState.unreported, hcurrent, hmemory]
  refine ⟨?_, by rw [hcurrent]; exact h.current, by rw [hnext]; exact h.next,
    by rw [hfresh]; exact h.nodup, by rw [hfresh, hused]; exact h.fresh,
    by rw [hevents]; exact h.within, by rw [hevents, hcurrent]; exact h.reported, ?_, hoff⟩
  · rw [RxState.held, hused, hfresh, hthread]
    exact hcounts
  · rw [hreceived, hdelivered, RxState.unread, hevents, hmemory, hunreported]
    exact h.bytes

theorem alloc (h : RxInv cfg s) {block : ℕ} (hfree : block ∈ s.slab.free) :
    Counts cfg.blocks (s.slab.alloc block) (block ::ₘ s.held cfg) s.thread.dying ∧
      block ∉ s.used cfg ∧ block ∉ s.fresh cfg := by
  have hheld := ((h.counts.free block).1 hfree).2.1
  rw [RxState.held, Multiset.mem_add, not_or] at hheld
  exact ⟨h.counts.alloc hfree, hheld⟩

theorem alloc_unref (h : RxInv cfg s) {block : ℕ} (hfree : block ∈ s.slab.free) :
    Counts cfg.blocks ((s.slab.alloc block).unref block) (s.held cfg) s.thread.dying :=
  (h.counts.alloc hfree).unref ((h.counts.free block).1 hfree).2.2

theorem rxByte (h : RxInv cfg s) {c : RxBuf} (hcurrent : s.driver.current = some c)
    (hlt : c.pos < cfg.bufSize) (byte : UInt8) :
    RxInv cfg { s with
      memory := Function.update s.memory (c.buf + c.pos) byte
      driver := { s.driver with current := some { c with pos := c.pos + 1 } }
      received := s.received ++ [byte] } := by
  obtain ⟨⟨block, hbuf⟩, hle, -⟩ := h.current c hcurrent
  have hused : RxState.used cfg { s with
      memory := Function.update s.memory (c.buf + c.pos) byte
      driver := { s.driver with current := some { c with pos := c.pos + 1 } }
      received := s.received ++ [byte] } = s.used cfg := by simp [RxState.used, hcurrent]
  refine ⟨?_, ?_, h.next, h.nodup, ?_, h.within, ?_, ?_, fun hoff => ?_⟩
  · rw [RxState.held, hused]
    exact h.counts
  · rintro _ ⟨⟩
    exact ⟨⟨block, hbuf⟩, hle.trans (Nat.le_succ _), hlt⟩
  · rw [hused]
    exact h.fresh
  · rintro event hevent _ ⟨⟩
    exact h.reported event hevent c hcurrent
  · -- no event has the address of the byte
    have hbytes : ∀ event ∈ s.events,
        RxState.bytesAt (Function.update s.memory (c.buf + c.pos) byte) event.buf event.len =
          RxState.bytesAt s.memory event.buf event.len := by
      refine fun event hevent => RxState.bytesAt_update fun i hi haddr => ?_
      have hblock := (h.within event hevent).block hi
      rw [haddr, hbuf, cfg.blockStartGet_bufOf hlt, ← cfg.blockStartGet_self block,
        ← hbuf] at hblock
      have hend := h.reported event hevent c hcurrent hblock.symm
      omega
    have hrest : RxState.bytesAt (Function.update s.memory (c.buf + c.pos) byte)
        (c.buf + c.reported) (c.pos + 1 - c.reported) = s.unreported ++ [byte] := by
      have hlast : c.buf + c.reported + (c.pos - c.reported) = c.buf + c.pos := by omega
      rw [Nat.succ_sub hle, RxState.bytesAt_succ, hlast, Function.update_self,
        RxState.bytesAt_update fun i hi => by omega, RxState.unreported, hcurrent]
      rfl
    have hunread : s.events.flatMap _ = s.unread := List.flatMap_congr hbytes
    change s.received ++ [byte] = s.delivered ++ s.events.flatMap _ ++ RxState.bytesAt _ _ _
    rw [hunread, hrest, h.bytes]
    simp only [List.append_assoc]
  · rw [h.off hoff] at hcurrent
    cases hcurrent

/-- What was received and not reported becomes an event, with a reference to its block. -/
theorem rxRdy (h : RxInv cfg s) {c : RxBuf} (hcurrent : s.driver.current = some c)
    (hlt : c.reported < c.pos) : RxInv cfg (s.rxRdy cfg c) := by
  obtain ⟨⟨block, hbuf⟩, hle, hpos⟩ := h.current c hcurrent
  have hmem := RxState.mem_used_of_current cfg hcurrent
  have hblock : cfg.blockStartGet (c.buf + c.reported) = cfg.blockStartGet c.buf := by
    rw [hbuf, cfg.blockStartGet_bufOf (by omega), cfg.blockStartGet_self]
  have hused : (s.rxRdy cfg c).used cfg = cfg.blockStartGet c.buf ::ₘ s.used cfg := by
    simp only [RxState.used, RxState.rxRdy, pointedTo, hcurrent, List.filterMap_append,
      List.map_append, ← Multiset.coe_add, Option.elim_some]
    simp only [BridgeEvent.dataEvent, List.filterMap_cons, List.filterMap_nil, List.map_cons,
      List.map_nil, hblock, Multiset.coe_singleton, ← Multiset.singleton_add]
    abel
  have hevents : (s.rxRdy cfg c).events =
      s.events ++ [⟨c.buf + c.reported, c.pos - c.reported⟩] := by
    simp [RxState.events, RxState.rxRdy, BridgeEvent.dataEvent]
  refine ⟨?_, ?_, h.next, h.nodup, fun b hb => ?_, fun event hevent => ?_, ?_, ?_, fun hoff => ?_⟩
  · rw [RxState.held, hused, Multiset.cons_add]
    exact h.counts.ref (Multiset.mem_add.2 (Or.inl hmem))
  · rintro _ ⟨⟩
    exact ⟨⟨block, hbuf⟩, le_refl _, hpos⟩
  · rw [hused, Multiset.mem_cons, not_or]
    exact ⟨fun heq => h.fresh b hb (heq ▸ hmem), h.fresh b hb⟩
  · rw [hevents] at hevent
    rcases List.mem_append.1 hevent with hevent | hevent
    · exact h.within event hevent
    · rw [List.mem_singleton.1 hevent]
      exact ⟨block, c.reported, by rw [hbuf], by simp only; omega, by simp only; omega⟩
  · rintro event hevent _ ⟨⟩ heq
    rw [hevents] at hevent
    rcases List.mem_append.1 hevent with hevent | hevent
    · have hend := h.reported event hevent c hcurrent heq
      exact hend.trans (Nat.add_le_add_left hle _)
    · rw [List.mem_singleton.1 hevent]
      simp only
      omega
  · have hunread : (s.rxRdy cfg c).unread = s.unread ++ s.unreported := by
      rw [RxState.unread, hevents, List.flatMap_append, List.flatMap_singleton,
        RxState.unreported, hcurrent]
      rfl
    have hunreported : (s.rxRdy cfg c).unreported = [] := by
      simp [RxState.unreported, RxState.rxRdy]
    rw [hunread, hunreported, List.append_nil, ← List.append_assoc]
    exact h.bytes
  · rw [h.off hoff] at hcurrent
    cases hcurrent

/-- A block is given out for reception. -/
theorem of_alloc (h : RxInv cfg s) {block : ℕ} (hfree : block ∈ s.slab.free)
    (hslab : s'.slab = s.slab.alloc block) (hfresh : s'.fresh cfg = block ::ₘ s.fresh cfg)
    (hused : s'.used cfg = s.used cfg) (hdying : s'.thread.dying = s.thread.dying)
    (hcurrent : s'.driver.current = s.driver.current)
    (hnext : ∀ buf, s'.driver.next = some buf → ∃ block, buf = cfg.bufOf block)
    (hevents : s'.events = s.events) (hmemory : s'.memory = s.memory)
    (hreceived : s'.received = s.received) (hdelivered : s'.delivered = s.delivered)
    (hoff : s'.driver.enabled = false → s'.driver = ⟨false, false, none, none⟩) :
    RxInv cfg s' := by
  obtain ⟨hcounts, hunused, hnew⟩ := h.alloc hfree
  have hunreported : s'.unreported = s.unreported := by
    simp only [RxState.unreported, hcurrent, hmemory]
  refine ⟨?_, by rw [hcurrent]; exact h.current, hnext, ?_, fun b hb => ?_,
    by rw [hevents]; exact h.within, by rw [hevents, hcurrent]; exact h.reported, ?_, hoff⟩
  · rw [RxState.held, hused, hfresh, Multiset.add_cons, hslab, hdying]
    exact hcounts
  · rw [hfresh]
    exact Multiset.nodup_cons.2 ⟨hnew, h.nodup⟩
  · rw [hused]
    rw [hfresh, Multiset.mem_cons] at hb
    rcases hb with rfl | hb
    · exact hunused
    · exact h.fresh b hb
  · rw [hreceived, hdelivered, RxState.unread, hevents, hmemory, hunreported]
    exact h.bytes

theorem bufRequest (h : RxInv cfg s) {block : ℕ} (hcurrent : s.driver.current.isSome = true)
    (hnext : s.driver.next = none) (hoffers : s.Offers block) (err : ℤ) :
    RxInv cfg (s.bufRequest cfg block err) := by
  have hon : s.driver.enabled ≠ false := fun hoff => by rw [h.off hoff] at hcurrent; cases hcurrent
  unfold RxState.bufRequest
  split_ifs with hempty
  · exact h
  · have hfree := hoffers.resolve_right hempty
    dsimp only
    split_ifs
    · have hcounts : Counts cfg.blocks
          ((s.slab.alloc block).unref (cfg.blockStartGet (block * cfg.blockSize))) (s.held cfg)
          s.thread.dying := by
        rw [cfg.blockStartGet_mul]
        exact h.alloc_unref hfree
      exact h.of_same hcounts rfl rfl rfl rfl rfl rfl rfl h.off
    · refine h.of_alloc hfree rfl ?_ rfl rfl rfl ?_ rfl rfl rfl rfl fun hoff => absurd hoff hon
      · simp [RxState.fresh, hnext, cfg.blockStartGet_self]
      · rintro _ ⟨⟩
        exact ⟨block, rfl⟩

/-- A reference goes in the interrupt: its block is not the one the thread is about to free. -/
theorem unref_counts (h : RxInv cfg s) {block : ℕ} {held : Multiset ℕ}
    (hheld : s.held cfg = block ::ₘ held) :
    Counts cfg.blocks (s.slab.unref block) held s.thread.dying := by
  have hcounts := h.counts
  rw [hheld] at hcounts
  exact hcounts.unref fun hdying =>
    (hcounts.mem_of_dying block hdying).2 (Multiset.mem_cons_self _ _)

/-- The current buffer is released, and the next one takes its place if reception goes on. -/
theorem bufReleased (h : RxInv cfg s) {c : RxBuf} (hcurrent : s.driver.current = some c)
    (hreported : c.reported = c.pos) : RxInv cfg (s.bufReleased cfg c) := by
  have hon : s.driver.enabled ≠ false := fun hoff => by rw [h.off hoff] at hcurrent; cases hcurrent
  have hunreported : s.unreported = [] := by
    simp [RxState.unreported, hcurrent, hreported]
  have hbytes := h.bytes
  rw [hunreported, List.append_nil] at hbytes
  -- the references of the thread and the events
  have hused : s.used cfg =
      cfg.blockStartGet c.buf ::ₘ (s.thread.used cfg + pointedTo cfg s.queue) := by
    rw [RxState.used, hcurrent, Option.elim_some, Multiset.singleton_add, Multiset.cons_add]
  have hsub : ∀ b ∈ s.thread.used cfg + pointedTo cfg s.queue, b ∈ s.used cfg := fun b hb => by
    rw [hused]
    exact Multiset.mem_cons_of_mem hb
  have hcounts := h.unref_counts (by rw [RxState.held, hused, Multiset.cons_add])
  have hstop : ∀ stopping, RxInv cfg { s with
      slab := s.slab.unref (cfg.blockStartGet c.buf)
      driver := ⟨s.driver.enabled, stopping, none, s.driver.next⟩ } := by
    intro stopping
    refine ⟨?_, by simp, h.next, h.nodup, fun b hb hmem => ?_, h.within, by simp, ?_,
      fun hoff => absurd hoff hon⟩
    · simpa [RxState.held, RxState.used, RxState.fresh] using hcounts
    · refine h.fresh b hb (hsub b ?_)
      simpa [RxState.used] using hmem
    · exact hbytes.trans (List.append_nil _).symm
  unfold RxState.bufReleased
  dsimp only
  split_ifs with hstopping
  · exact hstop s.driver.stopping
  · cases hnext : s.driver.next with
    | none =>
      have hnone := hstop true
      rw [hnext] at hnone
      simpa [RxState.uartRxBufUnref, hnext] using hnone
    | some buf =>
      obtain ⟨block, hbuf⟩ := h.next buf hnext
      have hfresh : s.fresh cfg = block ::ₘ s.thread.fresh := by
        rw [RxState.fresh, hnext, Option.elim_some, hbuf, cfg.blockStartGet_self,
          Multiset.singleton_add]
      have hunused : block ∉ s.used cfg := h.fresh block (hfresh ▸ Multiset.mem_cons_self _ _)
      have hnodup := h.nodup
      rw [hfresh, Multiset.nodup_cons] at hnodup
      simp only [RxState.uartRxBufUnref, hnext]
      refine ⟨?_, ?_, by simp, ?_, fun b hb hmem => ?_, h.within, ?_, ?_,
        fun hoff => absurd hoff hon⟩
      · have hheld : s.thread.used cfg + pointedTo cfg s.queue + s.fresh cfg =
            {block} + s.thread.used cfg + pointedTo cfg s.queue + s.thread.fresh := by
          rw [hfresh, ← Multiset.singleton_add]
          abel
        rw [hheld] at hcounts
        simpa [RxState.held, RxState.used, RxState.fresh, hbuf, cfg.blockStartGet_self] using hcounts
      · rintro _ ⟨⟩
        exact ⟨⟨block, hbuf⟩, le_refl _, Nat.zero_le _⟩
      · simpa [RxState.fresh] using hnodup.2
      · have hb' : b ∈ s.thread.fresh := by simpa [RxState.fresh] using hb
        have hmem' : b = block ∨ b ∈ s.thread.used cfg + pointedTo cfg s.queue := by
          simpa [RxState.used, hbuf, cfg.blockStartGet_self, or_assoc] using hmem
        rcases hmem' with rfl | hmem'
        · exact hnodup.1 hb'
        · exact h.fresh b (hfresh ▸ Multiset.mem_cons_of_mem hb') (hsub b hmem')
      · -- the block of the new buffer has no data yet
        rintro event hevent _ ⟨⟩ heq
        have hmem : cfg.blockStartGet event.buf ∈ s.used cfg :=
          RxState.mem_used_of_event (s := s) hevent
        rw [heq, hbuf, cfg.blockStartGet_self] at hmem
        exact absurd hmem hunused
      · exact hbytes.trans (List.append_nil _).symm

theorem nextReleased (h : RxInv cfg s) {buf : ℕ} (hnext : s.driver.next = some buf)
    (hcurrent : s.driver.current = none) :
    RxInv cfg { s.uartRxBufUnref cfg buf with driver := { s.driver with next := none } } := by
  have hon : s.driver.enabled ≠ false := fun hoff => by rw [h.off hoff] at hnext; cases hnext
  have hfresh : s.fresh cfg = cfg.blockStartGet buf ::ₘ s.thread.fresh := by
    rw [RxState.fresh, hnext, Option.elim_some, Multiset.singleton_add]
  have hcounts := h.unref_counts (by rw [RxState.held, hfresh, Multiset.add_cons])
  have hnodup := h.nodup
  rw [hfresh, Multiset.nodup_cons] at hnodup
  refine ⟨?_, h.current, by simp, ?_, fun b hb => h.fresh b ?_, h.within, h.reported, h.bytes,
    fun hoff => absurd hoff hon⟩
  · simpa [RxState.held, RxState.used, RxState.fresh, RxState.uartRxBufUnref, hcurrent]
      using hcounts
  · simpa [RxState.fresh, RxState.uartRxBufUnref] using hnodup.2
  · rw [hfresh]
    exact Multiset.mem_cons_of_mem (by simpa [RxState.fresh, RxState.uartRxBufUnref] using hb)

/-- Reception starts in a block that has no data and only this reference. -/
theorem of_enabled (h : RxInv cfg s) (hoff : s.driver.enabled = false) (block : ℕ)
    (hcounts : Counts cfg.blocks s'.slab (block ::ₘ (s.used cfg + s'.thread.fresh)) s'.thread.dying)
    (hunused : block ∉ s.used cfg) (hnodup : (block ::ₘ s'.thread.fresh).Nodup)
    (hfresh : ∀ b ∈ s'.thread.fresh, b ∈ s.fresh cfg)
    (hthread : s'.thread.used cfg = s.thread.used cfg) (hevents : s'.events = s.events)
    (hqueue : s'.queue = s.queue)
    (hdriver : s'.driver = ⟨true, false, some ⟨cfg.bufOf block, 0, 0⟩, none⟩)
    (hmemory : s'.memory = s.memory) (hreceived : s'.received = s.received)
    (hdelivered : s'.delivered = s.delivered) : RxInv cfg s' := by
  have hnone := h.off hoff
  have hused : s'.used cfg = block ::ₘ s.used cfg := by
    simp only [RxState.used, hdriver, hnone, hthread, hqueue, Option.elim_some, Option.elim_none,
      cfg.blockStartGet_self, zero_add, Multiset.singleton_add, Multiset.cons_add]
  have hfresh' : s'.fresh cfg = s'.thread.fresh := by simp [RxState.fresh, hdriver]
  refine ⟨?_, ?_, ?_, ?_, fun b hb => ?_, by rw [hevents]; exact h.within, ?_, ?_, ?_⟩
  · rw [RxState.held, hused, hfresh', Multiset.cons_add]
    exact hcounts
  · intro c hc
    rw [hdriver] at hc
    cases hc
    exact ⟨⟨block, rfl⟩, le_refl _, Nat.zero_le _⟩
  · simp [hdriver]
  · rw [hfresh']
    exact (Multiset.nodup_cons.1 hnodup).2
  · rw [hfresh'] at hb
    rw [hused, Multiset.mem_cons, not_or]
    exact ⟨fun heq => (Multiset.nodup_cons.1 hnodup).1 (heq ▸ hb), h.fresh b (hfresh b hb)⟩
  · intro event hevent c hc heq
    rw [hdriver] at hc
    cases hc
    rw [cfg.blockStartGet_self] at heq
    rw [hevents] at hevent
    exact absurd (heq ▸ RxState.mem_used_of_event hevent) hunused
  · have hbytes := h.bytes
    have hunreported : s.unreported = [] := by simp [RxState.unreported, hnone]
    have hunreported' : s'.unreported = [] := by simp [RxState.unreported, hdriver]
    rw [hunreported] at hbytes
    rw [hreceived, hdelivered, RxState.unread, hevents, hmemory, hunreported']
    exact hbytes
  · simp [hdriver]

/-- `enable_uart_rx` in the interrupt, where the driver is off. -/
theorem enableUartRx (h : RxInv cfg s) (hoff : s.driver.enabled = false) {block : ℕ}
    (hoffers : s.Offers block) (callbackErr err : ℤ) :
    RxInv cfg (s.enableUartRx cfg callbackErr block err) := by
  have hnone := h.off hoff
  unfold RxState.enableUartRx
  split_ifs with hcallback hempty herr
  · exact h
  · exact h
  · have hsame : Counts cfg.blocks
        ((s.slab.alloc block).unref (cfg.blockStartGet (block * cfg.blockSize))) (s.held cfg)
        s.thread.dying := by
      rw [cfg.blockStartGet_mul]
      exact h.alloc_unref (hoffers.resolve_right hempty)
    exact h.of_same hsame rfl rfl rfl rfl rfl rfl rfl h.off
  · obtain ⟨hcounts, hunused, hnew⟩ := h.alloc (hoffers.resolve_right hempty)
    have hfresh : s.fresh cfg = s.thread.fresh := by simp [RxState.fresh, hnone]
    have hnodup := Multiset.nodup_cons.2 ⟨hnew, h.nodup⟩
    rw [RxState.held, hfresh] at hcounts
    rw [hfresh] at hnodup
    exact h.of_enabled hoff block hcounts hunused hnodup (fun b hb => hfresh ▸ hb) rfl
      rfl rfl rfl rfl rfl rfl

theorem off_of_released (h : RxInv cfg s) (hcurrent : s.driver.current = none)
    (hnext : s.driver.next = none) : RxInv cfg { s with driver := ⟨false, false, none, none⟩ } :=
  h.of_same h.counts rfl hcurrent.symm hnext.symm rfl rfl rfl rfl fun _ => rfl

theorem disabled (h : RxInv cfg s) (hcurrent : s.driver.current = none)
    (hnext : s.driver.next = none) {block : ℕ} (hoffers : s.Offers block) (callbackErr err : ℤ) :
    RxInv cfg (s.disabled cfg callbackErr block err) := by
  have hreleased := h.off_of_released hcurrent hnext
  unfold RxState.disabled
  dsimp only
  split_ifs
  · have henable := hreleased.enableUartRx rfl hoffers callbackErr err
    exact henable.of_same henable.counts rfl rfl rfl rfl rfl rfl rfl henable.off
  · exact hreleased

/-- A step of the thread: the references move, and events are read. -/
theorem of_thread (h : RxInv cfg s)
    (hcounts : Counts cfg.blocks s'.slab (s'.held cfg) s'.thread.dying)
    (hdriver : s'.driver = s.driver) (hfresh : s'.thread.fresh ≤ s.thread.fresh)
    (hunused : ∀ b ∈ s'.fresh cfg, b ∉ s'.used cfg) (hevents : ∀ e ∈ s'.events, e ∈ s.events)
    (hmemory : s'.memory = s.memory) (hreceived : s'.received = s.received)
    (hread : s'.delivered ++ s'.unread = s.delivered ++ s.unread) : RxInv cfg s' := by
  have hunreported : s'.unreported = s.unreported := by
    simp only [RxState.unreported, hdriver, hmemory]
  have hle : s'.fresh cfg ≤ s.fresh cfg := by
    rw [RxState.fresh, RxState.fresh, hdriver]
    exact Multiset.add_le_add_left hfresh
  refine ⟨hcounts, by rw [hdriver]; exact h.current, by rw [hdriver]; exact h.next,
    Multiset.nodup_of_le hle h.nodup, hunused, fun e he => h.within e (hevents e he),
    fun e he => ?_, ?_, by rw [hdriver]; exact h.off⟩
  · rw [hdriver]
    exact h.reported e (hevents e he)
  · rw [hreceived, hread, hunreported]
    exact h.bytes

theorem take_data (h : RxInv cfg s) {event : DataEvent} {queue : List BridgeEvent}
    (hthread : s.thread = .idle) (hqueue : s.queue = .data event :: queue) :
    RxInv cfg { s with queue := queue, thread := .handling event } := by
  have hused : RxState.used cfg { s with queue := queue, thread := .handling event } =
      s.used cfg := by
    simp only [RxState.used, RxThread.used, hthread, pointedTo, hqueue, BridgeEvent.dataEvent,
      List.filterMap_cons, List.map_cons, ← Multiset.cons_coe, ← Multiset.singleton_add]
    abel
  have hfresh : RxState.fresh cfg { s with queue := queue, thread := .handling event } =
      s.fresh cfg := by simp only [RxState.fresh, RxThread.fresh, hthread]
  have hevents : RxState.events { s with queue := queue, thread := .handling event } =
      s.events := by
    simp [RxState.events, hthread, hqueue, BridgeEvent.dataEvent]
  refine h.of_thread ?_ rfl ?_ ?_ (fun e he => hevents ▸ he) rfl rfl ?_
  · rw [RxState.held, hused, hfresh]
    have hcounts := h.counts
    rw [hthread] at hcounts
    exact hcounts
  · rw [hthread]
    exact le_refl _
  · rw [hused, hfresh]
    exact h.fresh
  · rw [RxState.unread, hevents]
    rfl

theorem read (h : RxInv cfg s) {event : DataEvent} (hthread : s.thread = .handling event) :
    RxInv cfg { s with
      delivered := s.delivered ++ RxState.bytesAt s.memory event.buf event.len
      thread := .unref event.buf } := by
  have hevents : s.events = event :: s.queue.filterMap BridgeEvent.dataEvent := by
    simp [RxState.events, hthread]
  have hcounts := h.counts
  have hunused := h.fresh
  rw [RxState.held] at hcounts
  simp only [RxState.used, RxState.fresh, hthread] at hcounts hunused
  refine h.of_thread hcounts rfl ?_ hunused (fun e he => ?_) rfl rfl ?_
  · rw [hthread]
    exact le_refl _
  · rw [hevents]
    exact List.mem_cons_of_mem _ he
  · simp only [RxState.unread, hevents, List.flatMap_cons]
    simp [RxState.events]

theorem dec (h : RxInv cfg s) {buf : ℕ} (hthread : s.thread = .unref buf) :
    RxInv cfg { s with
      slab := s.slab.dec (cfg.blockStartGet buf)
      thread := if s.slab.refs (cfg.blockStartGet buf) = 1
        then .freeing (cfg.blockStartGet buf) else .idle } := by
  have hcounts := h.counts
  have hunused := h.fresh
  simp only [RxState.held, RxState.used, RxState.fresh, hthread, RxThread.used, RxThread.fresh,
    RxThread.dying] at hcounts hunused
  rw [add_comm (s.driver.current.elim 0 _), add_assoc {_}, add_assoc {_},
    Multiset.singleton_add] at hcounts
  have hless : ∀ thread : RxThread, thread.used cfg = 0 → thread.fresh = 0 →
      (∀ event, thread ≠ .handling event) →
      Counts cfg.blocks (s.slab.dec (cfg.blockStartGet buf))
        ((s.driver.current.elim 0 fun c => {cfg.blockStartGet c.buf}) + pointedTo cfg s.queue +
          ((s.driver.next.elim 0 fun buf => {cfg.blockStartGet buf}) + 0)) thread.dying →
      RxInv cfg { s with slab := s.slab.dec (cfg.blockStartGet buf), thread := thread } := by
    intro thread hused hfresh hhandling hdec
    have hevents : RxState.events
        { s with slab := s.slab.dec (cfg.blockStartGet buf), thread := thread } = s.events := by
      -- no event is taken out of the queue
      simp only [RxState.events, hthread]
    refine h.of_thread ?_ rfl ?_ ?_ (fun e he => hevents ▸ he) rfl rfl ?_
    · simpa only [RxState.held, RxState.used, RxState.fresh, hused, hfresh, add_zero] using hdec
    · exact hfresh.le.trans (Multiset.zero_le _)
    · intro b hb hmem
      simp only [RxState.used, RxState.fresh, hused, hfresh, add_zero] at hb hmem
      refine hunused b (by simpa using hb) ?_
      rw [add_right_comm]
      exact Multiset.mem_add.2 (Or.inl hmem)
    · simp only [RxState.unread, hevents]
  split_ifs with hlast
  · refine hless _ rfl rfl (by simp) ?_
    have hdec := hcounts.dec_last hlast
    rw [insert_empty_eq] at hdec
    exact hdec
  · exact hless _ rfl rfl (by simp) (hcounts.dec_more hlast)

theorem free (h : RxInv cfg s) {block : ℕ} (hthread : s.thread = .freeing block) :
    RxInv cfg { s with slab := s.slab.release block, thread := .idle } := by
  have hcounts := h.counts
  have hunused := h.fresh
  simp only [RxState.held, RxState.used, RxState.fresh, hthread] at hcounts hunused
  refine h.of_thread ?_ rfl ?_ hunused (fun e he => ?_) rfl rfl ?_
  · have hrelease := hcounts.release (b := block) (Finset.mem_singleton_self _)
    rwa [RxThread.dying, Finset.erase_singleton] at hrelease
  · exact Multiset.zero_le _
  · simpa [RxState.events, hthread] using he
  · simp [RxState.unread, RxState.events, hthread]

theorem enabling_fails (h : RxInv cfg s) {block : ℕ} (hthread : s.thread = .enabling block) :
    RxInv cfg { s with thread := .unref (block * cfg.blockSize) } := by
  have hcounts := h.counts
  have hunused := h.fresh
  have hnodup := h.nodup
  simp only [RxState.held, RxState.used, RxState.fresh, hthread, RxThread.used, RxThread.fresh,
    add_zero] at hcounts hunused hnodup
  refine h.of_thread ?_ rfl ?_ (fun b hb hmem => ?_) (fun e he => ?_) rfl rfl ?_
  · simp only [RxState.held, RxState.used, RxState.fresh, RxThread.used, RxThread.fresh,
      cfg.blockStartGet_mul, add_zero]
    have hheld : ∀ current queue next : Multiset ℕ,
        current + queue + (next + {block}) = current + {block} + queue + next := by
      intro current queue next
      abel
    rw [hheld] at hcounts
    exact hcounts
  · exact Multiset.zero_le _
  · simp only [RxState.used, RxState.fresh, RxThread.used, RxThread.fresh, cfg.blockStartGet_mul,
      add_zero] at hb hmem
    rw [add_right_comm, Multiset.mem_add, Multiset.mem_singleton] at hmem
    rcases hmem with hmem | rfl
    · exact hunused b (Multiset.mem_add.2 (Or.inl hb)) hmem
    · exact Multiset.disjoint_left.1 (Multiset.nodup_add.1 hnodup).2.2 hb
        (Multiset.mem_singleton_self _)
  · simpa [RxState.events, hthread] using he
  · simp [RxState.unread, RxState.events, hthread]

theorem enabling_succeeds (h : RxInv cfg s) {block : ℕ} (hthread : s.thread = .enabling block)
    (hoff : s.driver.enabled = false) :
    RxInv cfg { s.rxEnabled cfg block with thread := .idle } := by
  have hnone := h.off hoff
  have hcounts := h.counts
  have hfresh : s.fresh cfg = {block} := by simp [RxState.fresh, hnone, hthread, RxThread.fresh]
  rw [RxState.held, hfresh, hthread, add_comm, Multiset.singleton_add] at hcounts
  refine h.of_enabled hoff block ?_ ?_ ?_ nofun ?_ ?_ rfl rfl rfl rfl rfl
  · change Counts cfg.blocks s.slab (block ::ₘ (s.used cfg + 0)) ∅
    rw [add_zero]
    exact hcounts
  · exact h.fresh block (hfresh ▸ Multiset.mem_singleton_self _)
  · simp [RxThread.fresh]
  · simp [RxThread.used, hthread]
  · simp [RxState.events, hthread, RxState.rxEnabled]

/-! The handler of the peers. -/

theorem setUartBaudrate_eq (s : RxState) (baudrate : ℕ) (errs : BaudrateErrs) :
    ∃ rate, s.setUartBaudrate baudrate errs = { s with baudrate := rate } := by
  unfold RxState.setUartBaudrate
  split_ifs <;> exact ⟨_, rfl⟩

theorem enableUartRxBegin (h : RxInv cfg s) (hthread : s.thread = .idle) {block : ℕ}
    (hoffers : s.Offers block) (callbackErr : ℤ) :
    RxInv cfg (s.enableUartRxBegin callbackErr block) := by
  unfold RxState.enableUartRxBegin
  split_ifs with hcallback hempty
  · exact h
  · exact h
  · refine h.of_alloc (hoffers.resolve_right hempty) rfl ?_ ?_ ?_ rfl h.next ?_ rfl rfl rfl h.off
    · simp only [RxState.fresh, RxThread.fresh, hthread, ← Multiset.singleton_add]
      abel
    · simp only [RxState.used, RxThread.used, hthread]
    · simp only [RxThread.dying, hthread]
    · simp only [RxState.events, hthread]

theorem disableUartRx (h : RxInv cfg s) (err : ℤ) : RxInv cfg (s.disableUartRx err) := by
  unfold RxState.disableUartRx
  split_ifs with hfails
  · exact h
  · refine h.of_same h.counts rfl rfl rfl rfl rfl rfl rfl fun hoff => ?_
    exact absurd (Or.inr hoff) hfails

theorem peerConn (h : RxInv cfg s) (hthread : s.thread = .idle) {block : ℕ}
    (hoffers : s.Offers block) (state : Bt.PeerConnState) (baudrate : ℕ) (errs : BaudrateErrs)
    (callbackErr disableErr : ℤ) :
    RxInv cfg (s.peerConn state baudrate errs callbackErr disableErr block) := by
  have hcount : ∀ (count : ℤ) (rate : ℕ),
      RxInv cfg { s with subscriberCount := count, baudrate := rate } := fun _ _ =>
    h.of_same h.counts rfl rfl rfl rfl rfl rfl rfl h.off
  have hrate : ∀ (count : ℤ) (rate rate' : ℕ),
      RxInv cfg
        ({ s with subscriberCount := count, baudrate := rate }.setUartBaudrate rate' errs) := by
    intro count rate rate'
    obtain ⟨rate'', heq⟩ := setUartBaudrate_eq
      { s with subscriberCount := count, baudrate := rate } rate' errs
    rw [heq]
    exact hcount count rate''
  obtain ⟨rate, hconnected⟩ := setUartBaudrate_eq
    { s with subscriberCount := s.subscriberCount + 1 } baudrate errs
  unfold RxState.peerConn
  cases state with
  | connected =>
    simp only [hconnected]
    split_ifs
    · exact (hrate _ _ _).disableUartRx _
    · exact (hcount (s.subscriberCount + 1) rate).enableUartRxBegin hthread hoffers _
    · exact hcount _ _
  | disconnected =>
    dsimp only
    split_ifs
    · exact (hrate _ s.baudrate _).disableUartRx _
    · exact (hcount (s.subscriberCount - 1) s.baudrate).enableUartRxBegin hthread hoffers _
    · exact hcount _ s.baudrate

theorem step (h : RxInv cfg s) {e : RxEvent} (hs : s.step cfg e = some s') : RxInv cfg s' := by
  cases rxStepped hs with
  | submit =>
    refine h.of_same h.counts rfl rfl rfl rfl ?_ rfl rfl h.off
    simp [BridgeEvent.dataEvent]
  | takeData hthread hqueue => exact h.take_data hthread hqueue
  | @takePeer state baudrate queue _ _ _ _ hthread hqueue hoffers =>
    have hrest : RxInv cfg { s with queue := queue } := by
      refine h.of_same h.counts rfl rfl rfl rfl ?_ rfl rfl h.off
      rw [hqueue]
      rfl
    exact hrest.peerConn hthread hoffers _ _ _ _ _
  | read hthread => exact h.read hthread
  | dec hthread => exact h.dec hthread
  | free hthread => exact h.free hthread
  | enablingFails hthread => exact h.enabling_fails hthread
  | enablingSucceeds hthread hoff => exact h.enabling_succeeds hthread hoff
  | rxByte hcurrent hlt => exact h.rxByte hcurrent hlt _
  | rxRdy hcurrent hlt => exact h.rxRdy hcurrent hlt
  | bufRequest hcurrent hnext hoffers => exact h.bufRequest hcurrent hnext hoffers _
  | bufReleased hcurrent hreported => exact h.bufReleased hcurrent hreported
  | nextReleased hnext _ hcurrent => exact h.nextReleased hnext hcurrent
  | disabled _ _ hcurrent hnext hoffers => exact h.disabled hcurrent hnext hoffers _ _
  | stopped hon =>
    refine h.of_same h.counts rfl rfl rfl rfl rfl rfl rfl fun hoff => ?_
    simp only [hon, Bool.true_eq_false] at hoff

end RxInv

theorem rxInv_of_run {cfg : RxConfig} {baudrate : ℕ} {evs : List RxEvent} {s : RxState}
    (h : (rxSys cfg baudrate).Run evs s) : RxInv cfg s :=
  h.invariant _ (.start cfg baudrate) fun _ _ _ hinv _ hs => hinv.step hs

/-- Whatever the driver and the modules do in between: what the driver received is, in its
order, what the subscribers read, what the waiting events point to and what is to be reported.
No event points into a free block, into what the driver may still write, or into its next
buffer, and the counter of a block that is given out is the number of the references to it. -/
theorem rx_in_order {cfg : RxConfig} {baudrate : ℕ} {evs : List RxEvent} {s : RxState}
    (h : (rxSys cfg baudrate).Run evs s) :
    s.received = s.delivered ++ s.unread ++ s.unreported ∧
      (∀ event ∈ s.events, cfg.blockStartGet event.buf ∈ cfg.blocks \ s.slab.free ∧
        (∀ c, s.driver.current = some c → ∀ i < event.len, ∀ j, c.reported ≤ j →
          j < cfg.bufSize → event.buf + i ≠ c.buf + j) ∧
        ∀ buf, s.driver.next = some buf → ∀ i < event.len, ∀ j < cfg.bufSize,
          event.buf + i ≠ buf + j) ∧
      ∀ block ∈ cfg.blocks \ s.slab.free, s.slab.refs block = (s.held cfg).count block := by
  have hinv := rxInv_of_run h
  refine ⟨hinv.bytes, fun event hevent => ⟨?_, fun c hc i hi j hj hlt haddr => ?_,
    fun buf hnext i hi j hlt haddr => ?_⟩, fun block hb => ?_⟩
  · have hheld : cfg.blockStartGet event.buf ∈ s.held cfg :=
      Multiset.mem_add.2 (Or.inl (RxState.mem_used_of_event hevent))
    exact Finset.mem_sdiff.2
      ⟨hinv.counts.mem_of_held _ hheld, hinv.counts.notMem_free hheld⟩
  · obtain ⟨⟨block, hbuf⟩, -⟩ := hinv.current c hc
    have hblock := (hinv.within event hevent).block hi
    rw [haddr, hbuf, cfg.blockStartGet_bufOf hlt, ← cfg.blockStartGet_self block, ← hbuf] at hblock
    have hend := hinv.reported event hevent c hc hblock.symm
    omega
  · -- nothing was ever reported of the block of the next buffer
    obtain ⟨block, rfl⟩ := hinv.next buf hnext
    have hblock := (hinv.within event hevent).block hi
    rw [haddr, cfg.blockStartGet_bufOf hlt] at hblock
    have hfresh : block ∈ s.fresh cfg := by
      simp [RxState.fresh, hnext, cfg.blockStartGet_self]
    exact hinv.fresh block hfresh (hblock ▸ RxState.mem_used_of_event hevent)
  · obtain ⟨hblock, hfree⟩ := Finset.mem_sdiff.1 hb
    exact hinv.counts.refs block hblock hfree

/-- Two blocks fill up, and the thread has read the first one when the driver is in the second. -/
theorem rx_in_order_two_blocks :
    ∃ s, (rxSys ⟨2, 3, by decide⟩ 115200).Run
        [.submit .connected 9600, .take ⟨0, 0⟩ 0 0 0, .rxEnable 0, .bufRequest 1 0, .rxByte 1, .rxRdy,
          .rxByte 2, .rxRdy, .bufReleased, .bufRequest 2 0, .rxByte 3, .take ⟨0, 0⟩ 0 0 0, .read, .dec,
          .take ⟨0, 0⟩ 0 0 0, .read, .dec] s ∧
      s.received = [1, 2, 3] ∧ s.delivered = [1, 2] ∧ s.thread = .freeing 0 ∧
      s.received = s.delivered ++ s.unread ++ s.unreported := by
  have hrun : ∃ s, (rxSys ⟨2, 3, by decide⟩ 115200).exec
        [.submit .connected 9600, .take ⟨0, 0⟩ 0 0 0, .rxEnable 0, .bufRequest 1 0, .rxByte 1, .rxRdy,
          .rxByte 2, .rxRdy, .bufReleased, .bufRequest 2 0, .rxByte 3, .take ⟨0, 0⟩ 0 0 0, .read, .dec,
          .take ⟨0, 0⟩ 0 0 0, .read, .dec] = some s ∧
      s.received = [1, 2, 3] ∧ s.delivered = [1, 2] ∧ s.thread = .freeing 0 := ⟨_, rfl, rfl, rfl, rfl⟩
  obtain ⟨s, hs, hreceived, hdelivered, hthread⟩ := hrun
  have hrun := Lts.run_of_exec hs
  exact ⟨s, hrun, hreceived, hdelivered, hthread, (rx_in_order hrun).1⟩

/-- Where the driver is off and the thread has worked off every data event, every block is free
again and everything that was received has been read. -/
theorem rx_no_leak {cfg : RxConfig} {baudrate : ℕ} {evs : List RxEvent} {s : RxState}
    (h : (rxSys cfg baudrate).Run evs s) (hoff : s.driver.enabled = false)
    (hthread : s.thread = .idle) (hqueue : s.queue.filterMap BridgeEvent.dataEvent = []) :
    s.slab.free = cfg.blocks ∧ s.delivered = s.received := by
  have hinv := rxInv_of_run h
  have hnone := hinv.off hoff
  have hcounts := hinv.counts
  have hheld : s.held cfg = 0 := by
    simp [RxState.held, RxState.used, RxState.fresh, hnone, hthread, RxThread.used,
      RxThread.fresh, pointedTo, hqueue]
  rw [hheld, hthread] at hcounts
  refine ⟨hcounts.free_eq, ?_⟩
  rw [hinv.bytes]
  simp [RxState.unread, RxState.events, RxState.unreported, hnone, hthread, hqueue]

/-- A subscriber comes and goes, and what arrived meanwhile is read. -/
theorem rx_no_leak_session :
    ∃ s, (rxSys ⟨2, 3, by decide⟩ 115200).Run
        [.submit .connected 9600, .take ⟨0, 0⟩ 0 0 0, .rxEnable 0, .bufRequest 1 0, .rxByte 1, .rxRdy,
          .submit .disconnected 0, .take ⟨0, 0⟩ 0 0 0, .read, .dec, .take ⟨0, 0⟩ 0 0 2, .bufReleased,
          .nextReleased, .disabled 0 0 0] s ∧
      s.slab.free = {0, 1, 2} ∧ s.delivered = [1] := by
  have hrun : ∃ s, (rxSys ⟨2, 3, by decide⟩ 115200).exec
        [.submit .connected 9600, .take ⟨0, 0⟩ 0 0 0, .rxEnable 0, .bufRequest 1 0, .rxByte 1, .rxRdy,
          .submit .disconnected 0, .take ⟨0, 0⟩ 0 0 0, .read, .dec, .take ⟨0, 0⟩ 0 0 2, .bufReleased,
          .nextReleased, .disabled 0 0 0] = some s ∧
      s.received = [1] ∧ s.driver.enabled = false ∧ s.thread = .idle ∧
      s.queue.filterMap BridgeEvent.dataEvent = [] := ⟨_, rfl, rfl, rfl, rfl, rfl⟩
  obtain ⟨s, hs, hreceived, hoff, hthread, hqueue⟩ := hrun
  have hrun := Lts.run_of_exec hs
  obtain ⟨hfree, hdelivered⟩ := rx_no_leak hrun hoff hthread hqueue
  exact ⟨s, hrun, hfree, hdelivered.trans hreceived⟩

/-! ## While nothing goes wrong -/

/-- Reception is on just when there is a subscriber, and a retry is due only while the driver
stops. -/
structure Tracks (s : RxState) : Prop where
  nonneg : 0 ≤ s.subscriberCount
  receives : s.receives = true ↔ 0 < s.subscriberCount
  retry : s.enableRxRetry = true → s.driver.enabled = true ∧ s.driver.stopping = true
  enabling : ∀ block, s.thread = .enabling block → s.driver.enabled = false

namespace Tracks

variable {cfg : RxConfig} {s s' : RxState}

theorem start (cfg : RxConfig) (baudrate : ℕ) : Tracks (.start cfg baudrate) :=
  ⟨le_refl _, by simp [RxState.receives, RxState.start], nofun, nofun⟩

theorem receives_eq (hthread : ∀ block, s.thread ≠ .enabling block) :
    s.receives = (s.driver.enabled && (!s.driver.stopping || s.enableRxRetry)) := by
  unfold RxState.receives
  split
  · exact absurd ‹_› (hthread _)
  · rfl

/-- A step that changes nothing the peers depend on. -/
theorem of_same (h : Tracks s) (hcount : s'.subscriberCount = s.subscriberCount)
    (henabled : s'.driver.enabled = s.driver.enabled)
    (hstopping : s'.driver.stopping = s.driver.stopping)
    (hretry : s'.enableRxRetry = s.enableRxRetry)
    (hthread : ∀ block, s.thread ≠ .enabling block)
    (hthread' : ∀ block, s'.thread ≠ .enabling block) : Tracks s' ∧ s'.handler = s.handler := by
  have hreceives : s'.receives = s.receives := by
    rw [receives_eq hthread, receives_eq hthread', henabled, hstopping, hretry]
  refine ⟨⟨by rw [hcount]; exact h.nonneg, by rw [hreceives, hcount]; exact h.receives,
    by rw [hretry, henabled, hstopping]; exact h.retry,
    fun block hb => absurd hb (hthread' block)⟩, ?_⟩
  rw [RxState.handler, RxState.handler, hcount, hreceives]

/-- A callback that changes nothing the peers depend on. -/
theorem of_callback (h : Tracks s) (hcount : s'.subscriberCount = s.subscriberCount)
    (henabled : s'.driver.enabled = s.driver.enabled)
    (hstopping : s'.driver.stopping = s.driver.stopping)
    (hretry : s'.enableRxRetry = s.enableRxRetry) (hthread : s'.thread = s.thread) :
    Tracks s' ∧ s'.handler = s.handler := by
  have hreceives : s'.receives = s.receives := by
    simp only [RxState.receives, hthread, henabled, hstopping, hretry]
  refine ⟨⟨by rw [hcount]; exact h.nonneg, by rw [hreceives, hcount]; exact h.receives,
    by rw [hretry, henabled, hstopping]; exact h.retry,
    by rw [hthread, henabled]; exact h.enabling⟩, ?_⟩
  rw [RxState.handler, RxState.handler, hcount, hreceives]

theorem connected (h : Tracks s) {callbackErr : ℤ}
    (hfirst : s.subscriberCount = 0 →
      s.driver.enabled = false ∧ callbackErr = 0 ∧ s.slab.free ≠ ∅)
    (baudrate : ℕ) (errs : BaudrateErrs) (disableErr : ℤ) (block : ℕ) :
    Tracks (s.peerConn .connected baudrate errs callbackErr disableErr block) ∧
      (s.peerConn .connected baudrate errs callbackErr disableErr block).handler =
        s.handler.peerConn .connected := by
  have hnonneg := h.nonneg
  have hne : s.subscriberCount + 1 ≠ 0 := by omega
  obtain ⟨rate, hrate⟩ := RxInv.setUartBaudrate_eq
    { s with subscriberCount := s.subscriberCount + 1 } baudrate errs
  simp only [RxState.peerConn, hrate, if_neg hne]
  split_ifs with hzero
  · obtain ⟨hoff, hcallback, hfree⟩ := hfirst hzero
    simp only [RxState.enableUartRxBegin, hcallback, hfree, ne_eq, not_true_eq_false, if_false]
    have hpos : 0 < s.subscriberCount + 1 := by omega
    refine ⟨⟨hpos.le, iff_of_true rfl hpos, h.retry, fun _ _ => hoff⟩, ?_⟩
    simp [RxState.handler, RxState.receives, Bt.UartHandler.peerConn, hzero]
  · have hpos : 0 < s.subscriberCount := by omega
    have hpos' : 0 < s.subscriberCount + 1 := by omega
    refine ⟨⟨hpos'.le, iff_of_true (h.receives.2 hpos) hpos', h.retry, h.enabling⟩, ?_⟩
    simp [RxState.handler, RxState.receives, Bt.UartHandler.peerConn, hzero, hne]

theorem disconnected (h : Tracks s) (hthread : s.thread = .idle) (hpos : 0 < s.subscriberCount)
    {disableErr : ℤ}
    (hlast : s.subscriberCount = 1 → disableErr = 0 ∧ s.driver.stopping = false)
    (baudrate : ℕ) (errs : BaudrateErrs) (callbackErr : ℤ) (block : ℕ) :
    Tracks (s.peerConn .disconnected baudrate errs callbackErr disableErr block) ∧
      (s.peerConn .disconnected baudrate errs callbackErr disableErr block).handler =
        s.handler.peerConn .disconnected := by
  have hreceives := h.receives.2 hpos
  have hidle : ∀ block, s.thread ≠ .enabling block := by simp [hthread]
  rw [receives_eq hidle, Bool.and_eq_true] at hreceives
  simp only [RxState.peerConn]
  split_ifs with hzero hprev
  · obtain ⟨hdisable, hrunning⟩ := hlast (by omega)
    have hretry : s.enableRxRetry = false := by
      cases hretry : s.enableRxRetry with
      | false => rfl
      | true => simp [(h.retry hretry).2] at hrunning
    obtain ⟨rate, hrate⟩ := RxInv.setUartBaudrate_eq
      { s with subscriberCount := s.subscriberCount - 1 } s.defaultBaudrate errs
    simp only [hrate, RxState.disableUartRx, hdisable, hreceives.1]
    simp only [ne_eq, not_true_eq_false, Bool.true_eq_false, or_self, if_false]
    refine ⟨⟨hzero.ge, ?_, by simp [hretry], by simp [hthread]⟩, ?_⟩
    · simp [receives_eq, hthread, hretry, hzero]
    · simp [RxState.handler, receives_eq, hthread, hretry, Bt.UartHandler.peerConn, hzero]
  · omega
  · have hpos' : 0 < s.subscriberCount - 1 := by omega
    refine ⟨⟨hpos'.le, iff_of_true (h.receives.2 hpos) hpos', h.retry, h.enabling⟩, ?_⟩
    simp [RxState.handler, RxState.receives, Bt.UartHandler.peerConn, hzero, hprev]

/-- A buffer is released and reception goes on, or it was stopping. -/
theorem bufReleased (h : Tracks s) {c : RxBuf}
    (hok : s.driver.next ≠ none ∨ s.driver.stopping = true) :
    Tracks (s.bufReleased cfg c) ∧ (s.bufReleased cfg c).handler = s.handler := by
  unfold RxState.bufReleased RxState.uartRxBufUnref
  dsimp only
  split_ifs with hstopping
  · exact h.of_callback rfl rfl rfl rfl rfl
  · obtain ⟨buf, hnext⟩ := Option.ne_none_iff_exists'.1 (hok.resolve_right hstopping)
    simp only [hnext]
    exact h.of_callback rfl rfl rfl rfl rfl

theorem bufRequest (h : Tracks s) (block : ℕ) (err : ℤ) :
    Tracks (s.bufRequest cfg block err) ∧ (s.bufRequest cfg block err).handler = s.handler := by
  unfold RxState.bufRequest RxState.uartRxBufUnref
  dsimp only
  split_ifs <;> exact h.of_callback rfl rfl rfl rfl rfl

/-- The driver is off, and is enabled again if that is due. -/
theorem disabled (h : Tracks s) (hon : s.driver.enabled = true)
    (hstopping : s.driver.stopping = true) {callbackErr err : ℤ} {block : ℕ}
    (hok : s.enableRxRetry = true → callbackErr = 0 ∧ s.slab.free ≠ ∅ ∧ err = 0) :
    Tracks (s.disabled cfg callbackErr block err) ∧
      (s.disabled cfg callbackErr block err).handler = s.handler := by
  have hthread : ∀ block, s.thread ≠ .enabling block := fun block hb => by
    simp [h.enabling block hb] at hon
  have hreceives := h.receives
  rw [receives_eq hthread, hon, hstopping] at hreceives
  cases hretry : s.enableRxRetry with
  | false =>
    have hcount : ¬ 0 < s.subscriberCount := by simpa [hretry] using hreceives
    have hdisabled : s.disabled cfg callbackErr block err =
        { s with driver := ⟨false, false, none, none⟩ } := by
      simp only [RxState.disabled, hretry, Bool.false_eq_true, if_false]
    rw [hdisabled]
    have hoff : RxState.receives { s with driver := ⟨false, false, none, none⟩ } = false :=
      receives_eq hthread
    refine ⟨⟨h.nonneg, by rw [hoff]; simpa using hcount, by simp [hretry], fun _ _ => rfl⟩, ?_⟩
    rw [RxState.handler, RxState.handler, hoff, receives_eq hthread, hon, hstopping, hretry]
    rfl
  | true =>
    obtain ⟨hcallback, hfree, herr⟩ := hok hretry
    have hcount : 0 < s.subscriberCount := by simpa [hretry] using hreceives
    have hdisabled : s.disabled cfg callbackErr block err =
        { s with
          slab := s.slab.alloc block
          driver := ⟨true, false, some ⟨cfg.bufOf block, 0, 0⟩, none⟩
          enableRxRetry := false } := by
      simp [RxState.disabled, hretry, RxState.enableUartRx, hcallback, hfree, herr,
        RxState.rxEnabled]
    rw [hdisabled]
    have hback : RxState.receives { s with
        slab := s.slab.alloc block
        driver := ⟨true, false, some ⟨cfg.bufOf block, 0, 0⟩, none⟩
        enableRxRetry := false } = true := receives_eq hthread
    refine ⟨⟨h.nonneg, by rw [hback]; simpa using hcount, nofun,
      fun b hb => absurd hb (hthread b)⟩, ?_⟩
    rw [RxState.handler, RxState.handler, hback, receives_eq hthread, hon, hstopping, hretry]
    rfl

end Tracks

def RxState.handed (s : RxState) : RxEvent → List Bt.PeerConnState
  | .take _ _ _ _ => (s.queue.head?.bind BridgeEvent.peer).toList
  | _ => []

/-! What the steps leave as it was. -/

def RxState.peerPart (s : RxState) : ℤ × ℕ × ℕ := (s.subscriberCount, s.baudrate, s.defaultBaudrate)

theorem disableUartRx_frame (s : RxState) (err : ℤ) :
    (s.disableUartRx err).queue = s.queue ∧ (s.disableUartRx err).peerPart = s.peerPart := by
  unfold RxState.disableUartRx
  split_ifs <;> exact ⟨rfl, rfl⟩

theorem enableUartRxBegin_frame (s : RxState) (callbackErr : ℤ) (block : ℕ) :
    (s.enableUartRxBegin callbackErr block).queue = s.queue ∧
      (s.enableUartRxBegin callbackErr block).peerPart = s.peerPart := by
  unfold RxState.enableUartRxBegin
  split_ifs <;> exact ⟨rfl, rfl⟩

def peerDelta : Bt.PeerConnState → ℤ
  | .connected => 1
  | .disconnected => -1

/-- What an event of a peer does: the count moves, a baud rate is set, and at either end of the
count reception is enabled or disabled. -/
theorem peerConn_spec (s : RxState) (state : Bt.PeerConnState) (baudrate : ℕ)
    (errs : BaudrateErrs) (callbackErr disableErr : ℤ) (block : ℕ) :
    ∃ rate, s.peerConn state baudrate errs callbackErr disableErr block =
      (let s' := { s with subscriberCount := s.subscriberCount + peerDelta state, baudrate := rate }
      if s'.subscriberCount = 0 then
        (s'.setUartBaudrate s.defaultBaudrate errs).disableUartRx disableErr
      else if s.subscriberCount = 0 then s'.enableUartRxBegin callbackErr block
      else s') := by
  obtain ⟨rate, hrate⟩ := RxInv.setUartBaudrate_eq
    { s with subscriberCount := s.subscriberCount + 1 } baudrate errs
  cases state with
  | connected => exact ⟨rate, by simp only [RxState.peerConn, hrate]; rfl⟩
  | disconnected => exact ⟨s.baudrate, rfl⟩

theorem peerConn_frame (s : RxState) (state : Bt.PeerConnState) (baudrate : ℕ)
    (errs : BaudrateErrs) (callbackErr disableErr : ℤ) (block : ℕ) :
    (s.peerConn state baudrate errs callbackErr disableErr block).queue = s.queue ∧
      (s.peerConn state baudrate errs callbackErr disableErr block).subscriberCount =
        s.subscriberCount + peerDelta state := by
  obtain ⟨rate, hpeer⟩ := peerConn_spec s state baudrate errs callbackErr disableErr block
  rw [hpeer]
  dsimp only
  split_ifs
  · obtain ⟨rate', hrate⟩ := RxInv.setUartBaudrate_eq
      { s with subscriberCount := s.subscriberCount + peerDelta state, baudrate := rate }
      s.defaultBaudrate errs
    obtain ⟨hqueue, hpart⟩ := disableUartRx_frame { s with
      subscriberCount := s.subscriberCount + peerDelta state, baudrate := rate' } disableErr
    rw [hrate]
    exact ⟨hqueue, congrArg Prod.fst hpart⟩
  · obtain ⟨hqueue, hpart⟩ := enableUartRxBegin_frame { s with
      subscriberCount := s.subscriberCount + peerDelta state, baudrate := rate } callbackErr block
    exact ⟨hqueue, congrArg Prod.fst hpart⟩
  · exact ⟨rfl, rfl⟩

theorem bufRequest_frame (cfg : RxConfig) (s : RxState) (block : ℕ) (err : ℤ) :
    (s.bufRequest cfg block err).queue = s.queue ∧
      (s.bufRequest cfg block err).peerPart = s.peerPart := by
  unfold RxState.bufRequest
  dsimp only
  split_ifs <;> exact ⟨rfl, rfl⟩

theorem bufReleased_frame (cfg : RxConfig) (s : RxState) (c : RxBuf) :
    (s.bufReleased cfg c).queue = s.queue ∧
      (s.bufReleased cfg c).peerPart = s.peerPart := by
  unfold RxState.bufReleased RxState.uartRxBufUnref
  dsimp only
  split_ifs
  · exact ⟨rfl, rfl⟩
  · cases s.driver.next <;> exact ⟨rfl, rfl⟩

theorem disabled_frame (cfg : RxConfig) (s : RxState) (callbackErr : ℤ) (block : ℕ) (err : ℤ) :
    (s.disabled cfg callbackErr block err).queue = s.queue ∧
      (s.disabled cfg callbackErr block err).peerPart = s.peerPart := by
  unfold RxState.disabled RxState.enableUartRx
  dsimp only
  split_ifs <;> exact ⟨rfl, rfl⟩

theorem handed_queue {cfg : RxConfig} {s s' : RxState} {e : RxEvent}
    (hs : s.step cfg e = some s') :
    s.queue.filterMap BridgeEvent.peer ++ e.submitted.toList =
      s.handed e ++ s'.queue.filterMap BridgeEvent.peer := by
  have hsame : ∀ queue : List BridgeEvent, queue = s.queue →
      s.queue.filterMap BridgeEvent.peer ++ [] = [] ++ queue.filterMap BridgeEvent.peer := by
    rintro _ rfl
    rw [List.append_nil, List.nil_append]
  cases rxStepped hs with
  | submit => simp [RxState.handed, RxEvent.submitted, BridgeEvent.peer]
  | takeData _ hqueue =>
    simp only [RxState.handed, hqueue]
    exact List.append_nil _
  | @takePeer state baudrate queue _ _ _ _ _ hqueue _ =>
    rw [(peerConn_frame _ _ _ _ _ _ _).1]
    simp only [RxState.handed, hqueue]
    exact List.append_nil _
  | rxRdy =>
    simp only [RxState.rxRdy, List.filterMap_append]
    exact (List.nil_append _).symm
  | bufRequest => exact hsame _ (bufRequest_frame _ _ _ _).1
  | bufReleased => exact hsame _ (bufReleased_frame _ _ _).1
  | disabled => exact hsame _ (disabled_frame _ _ _ _ _).1
  | _ => exact hsame _ rfl

theorem Tracks.step {cfg : RxConfig} {s s' : RxState} {e : RxEvent} (h : Tracks s)
    (hok : RxSteady s e) (hdeparts : Departs s e) (hs : s.step cfg e = some s') :
    Tracks s' ∧ s'.handler = (s.handed e).foldl Bt.UartHandler.peerConn s.handler := by
  cases rxStepped hs with
  | submit => exact h.of_callback rfl rfl rfl rfl rfl
  | takeData hthread hqueue =>
    have hhanded : ∀ errs callbackErr disableErr block,
        s.handed (.take errs callbackErr disableErr block) = [] := by
      simp [RxState.handed, hqueue, BridgeEvent.peer]
    rw [hhanded]
    exact h.of_same rfl rfl rfl rfl (by simp [hthread]) (by simp)
  | @takePeer state baudrate queue errs callbackErr disableErr block hthread hqueue hoffers =>
    have hhanded : s.handed (.take errs callbackErr disableErr block) = [state] := by
      simp [RxState.handed, hqueue, BridgeEvent.peer]
    have hrest : Tracks { s with queue := queue } :=
      ⟨h.nonneg, h.receives, h.retry, h.enabling⟩
    simp only [RxSteady, hqueue] at hok
    rw [hhanded]
    cases state with
    | connected => exact hrest.connected hok _ _ _ _
    | disconnected =>
      have hpos : 0 < s.subscriberCount := hdeparts (by rw [hqueue]; rfl)
      exact hrest.disconnected hthread hpos hok _ _ _ _
  | read hthread => exact h.of_same rfl rfl rfl rfl (by simp [hthread]) (by simp)
  | dec hthread =>
    refine h.of_same rfl rfl rfl rfl (by simp [hthread]) fun _ hb => ?_
    dsimp only at hb
    split_ifs at hb
  | free hthread => exact h.of_same rfl rfl rfl rfl (by simp [hthread]) (by simp)
  | enablingFails hthread hfails =>
    have hoff := h.enabling _ hthread
    simp only [RxSteady] at hok
    simp [hok, hoff] at hfails
  | enablingSucceeds hthread hoff =>
    have hcount := h.receives.1 (by simp [RxState.receives, hthread])
    have hretry : s.enableRxRetry = false := by
      by_contra hretry
      simp [(h.retry (Bool.eq_true_of_not_eq_false hretry)).1] at hoff
    refine ⟨⟨h.nonneg, iff_of_true rfl hcount, by simp [RxState.rxEnabled, hretry], nofun⟩, ?_⟩
    simp [RxState.handler, RxState.receives, RxState.rxEnabled, RxState.handed, hthread]
  | rxByte => exact h.of_callback rfl rfl rfl rfl rfl
  | rxRdy => exact h.of_callback rfl rfl rfl rfl rfl
  | bufRequest => exact h.bufRequest _ _
  | bufReleased => exact h.bufReleased hok
  | nextReleased => exact h.of_callback rfl rfl rfl rfl rfl
  | disabled hon hstopping => exact h.disabled hon hstopping hok
  | stopped hon =>
    have hthread : ∀ block, s.thread ≠ .enabling block := fun block hb => by
      simp [h.enabling block hb] at hon
    have hbefore : s.receives = true := by
      rw [Tracks.receives_eq hthread, hon, hok]
      rfl
    have hafter : RxState.receives { s with
        enableRxRetry := true
        driver := { s.driver with stopping := true } } = true := by
      rw [Tracks.receives_eq (s := { s with
        enableRxRetry := true
        driver := { s.driver with stopping := true } }) hthread]
      simp [hon]
    refine ⟨⟨h.nonneg, iff_of_true hafter (h.receives.1 hbefore), fun _ => ⟨hon, rfl⟩,
      h.enabling⟩, ?_⟩
    rw [RxState.handler, RxState.handler, hafter, hbefore]
    rfl

/-- In runs in which nothing goes wrong with reception, the handler of the peers goes through
the states of the one that only counts its subscribers, in the order in which the modules
submitted their events, and reception is on, or coming back, just when there is a subscriber. -/
theorem rx_refines_handler {cfg : RxConfig} {baudrate : ℕ} {evs : List RxEvent} {s : RxState}
    (h : (rxSys cfg baudrate).RunOf (fun t e => RxSteady t e ∧ Departs t e) evs s) :
    ∃ handed, evs.filterMap RxEvent.submitted = handed ++ s.queue.filterMap BridgeEvent.peer ∧
      s.handler = handed.foldl Bt.UartHandler.peerConn .start ∧
      (s.receives = true ↔ 0 < s.subscriberCount) := by
  have hinv : Tracks s ∧ ∃ handed,
      evs.filterMap RxEvent.submitted = handed ++ s.queue.filterMap BridgeEvent.peer ∧
      s.handler = handed.foldl Bt.UartHandler.peerConn .start := by
    induction h with
    | nil => exact ⟨Tracks.start cfg baudrate, [], rfl, rfl⟩
    | @snoc evs s s' e _ hok hs ih =>
      obtain ⟨htracks, handed, hqueue, hhandler⟩ := ih
      obtain ⟨htracks', hhandler'⟩ := htracks.step hok.1 hok.2 hs
      refine ⟨htracks', handed ++ s.handed e, ?_, ?_⟩
      · have hlast : [e].filterMap RxEvent.submitted = e.submitted.toList := by
          cases hsub : e.submitted <;> simp [hsub]
        rw [List.filterMap_append, hqueue, hlast, List.append_assoc, handed_queue hs,
          List.append_assoc]
      · rw [List.foldl_append, ← hhandler, hhandler']
  obtain ⟨htracks, handed, hqueue, hhandler⟩ := hinv
  exact ⟨handed, hqueue, hhandler, htracks.receives⟩

/-- Two subscribers, an unexpected stop between them, and the first one goes. -/
theorem rx_refines_handler_retry :
    ∃ s, (rxSys ⟨2, 3, by decide⟩ 115200).RunOf (fun t e => RxSteady t e ∧ Departs t e)
        [.submit .connected 9600, .take ⟨0, 0⟩ 0 0 0, .rxEnable 0, .stopped, .submit .connected 0,
          .bufReleased, .take ⟨0, 0⟩ 0 0 0, .disabled 0 1 0, .submit .disconnected 0,
          .take ⟨0, 0⟩ 0 0 0] s ∧
      s.subscriberCount = 1 ∧ (s.receives = true ↔ 0 < s.subscriberCount) := by
  have hrun : ∃ s, (rxSys ⟨2, 3, by decide⟩ 115200).RunOf (fun t e => RxSteady t e ∧ Departs t e)
        [.submit .connected 9600, .take ⟨0, 0⟩ 0 0 0, .rxEnable 0, .stopped, .submit .connected 0,
          .bufReleased, .take ⟨0, 0⟩ 0 0 0, .disabled 0 1 0, .submit .disconnected 0,
          .take ⟨0, 0⟩ 0 0 0] s ∧ s.subscriberCount = 1 := by
    refine ⟨_, .snoc (.snoc (.snoc (.snoc (.snoc (.snoc (.snoc (.snoc (.snoc (.snoc .nil
      ?_ rfl) ?_ rfl) ?_ rfl) ?_ rfl) ?_ rfl) ?_ rfl) ?_ rfl) ?_ rfl) ?_ rfl) ?_ rfl, rfl⟩
    · exact ⟨trivial, trivial⟩
    · exact ⟨fun _ => ⟨rfl, rfl, by decide⟩, nofun⟩
    · exact ⟨rfl, trivial⟩
    · exact ⟨rfl, trivial⟩
    · exact ⟨trivial, trivial⟩
    · exact ⟨Or.inr rfl, trivial⟩
    · exact ⟨fun h => absurd h (by decide), nofun⟩
    · exact ⟨fun _ => ⟨rfl, by decide, rfl⟩, trivial⟩
    · exact ⟨trivial, trivial⟩
    · exact ⟨fun h => absurd h (by decide), fun _ => by decide⟩
  obtain ⟨s, hs, hcount⟩ := hrun
  obtain ⟨-, -, -, hreceives⟩ := rx_refines_handler hs
  exact ⟨s, hs, hcount, hreceives⟩

/-- The thread starts nothing, and the driver is off. -/
theorem off_step {cfg : RxConfig} {s s' : RxState} {e : RxEvent} (hinv : RxInv cfg s)
    (hoff : s.driver.enabled = false) (hthread : ∀ block, s.thread ≠ .enabling block)
    (hcount : 0 < s.subscriberCount) (hs : s.step cfg e = some s')
    (hcount' : 0 < s'.subscriberCount) :
    s'.driver.enabled = false ∧ (∀ block, s'.thread ≠ .enabling block) ∧
      s'.received = s.received := by
  have hnone := hinv.off hoff
  cases rxStepped hs with
  | submit => exact ⟨hoff, hthread, rfl⟩
  | takeData => exact ⟨hoff, by simp, rfl⟩
  | @takePeer state baudrate queue errs callbackErr disableErr block _ _ _ =>
    -- neither end of the count is reached
    obtain ⟨rate, hpeer⟩ := peerConn_spec { s with queue := queue } state baudrate errs callbackErr
      disableErr block
    rw [(peerConn_frame _ _ _ _ _ _ _).2] at hcount'
    rw [hpeer, if_neg hcount'.ne', if_neg hcount.ne']
    exact ⟨hoff, hthread, rfl⟩
  | read => exact ⟨hoff, by simp, rfl⟩
  | dec =>
    refine ⟨hoff, fun _ hb => ?_, rfl⟩
    dsimp only at hb
    split_ifs at hb
  | free => exact ⟨hoff, by simp, rfl⟩
  | enablingFails henabling => exact absurd henabling (hthread _)
  | enablingSucceeds henabling => exact absurd henabling (hthread _)
  | rxByte hcurrent => simp [hnone] at hcurrent
  | rxRdy hcurrent => simp [hnone] at hcurrent
  | bufRequest hcurrent => simp [hnone] at hcurrent
  | bufReleased hcurrent => simp [hnone] at hcurrent
  | nextReleased hnext => simp [hnone] at hnext
  | disabled hon => simp [hoff] at hon
  | stopped hon => simp [hoff] at hon

/-- Once reception is off and the thread is not just enabling it, because there was no block for a
next buffer or enabling it failed, it stays off while a subscriber is left. -/
theorem rx_stays_off {cfg : RxConfig} {baudrate : ℕ} {evs evs' : List RxEvent} {s s' : RxState}
    (h : (rxSys cfg baudrate).Run evs s) (hoff : s.driver.enabled = false)
    (hthread : ∀ block, s.thread ≠ .enabling block) (hcount : 0 < s.subscriberCount)
    (h' : ((rxSys cfg baudrate).after s).RunOf
      (fun t e => ∀ t', t.step cfg e = some t' → 0 < t'.subscriberCount) evs' s') :
    s'.driver.enabled = false ∧ s'.received = s.received := by
  have hinv := rxInv_of_run h
  have hall : RxInv cfg s' ∧ 0 < s'.subscriberCount ∧ s'.driver.enabled = false ∧
      (∀ block, s'.thread ≠ .enabling block) ∧ s'.received = s.received := by
    refine h'.invariant (fun t => RxInv cfg t ∧ 0 < t.subscriberCount ∧ t.driver.enabled = false ∧
      (∀ block, t.thread ≠ .enabling block) ∧ t.received = s.received)
      ⟨hinv, hcount, hoff, hthread, rfl⟩ ?_
    rintro t e t' ⟨ht, hpos, htoff, htthread, hreceived⟩ hok hs
    obtain ⟨hoff', hthread', hreceived'⟩ := off_step ht htoff htthread hpos hs (hok t' hs)
    exact ⟨ht.step hs, hok t' hs, hoff', hthread', hreceived'.trans hreceived⟩
  exact ⟨hall.2.2.1, hall.2.2.2.2⟩

/-- The only block is full and there is none for a next buffer: another subscriber changes
nothing. -/
theorem rx_stays_off_overflow :
    ∃ s s', (rxSys ⟨1, 1, by decide⟩ 115200).Run
        [.submit .connected 9600, .take ⟨0, 0⟩ 0 0 0, .rxEnable 0, .rxByte 1, .bufRequest 0 0, .rxRdy,
          .bufReleased, .disabled 0 0 0] s ∧
      ((rxSys ⟨1, 1, by decide⟩ 115200).after s).Run
        [.take ⟨0, 0⟩ 0 0 0, .read, .dec, .free, .submit .connected 9600, .take ⟨0, 0⟩ 0 0 0] s' ∧
      s'.subscriberCount = 2 ∧ s'.driver.enabled = false ∧ s'.received = s.received := by
  have hrun : ∃ s, (rxSys ⟨1, 1, by decide⟩ 115200).exec
        [.submit .connected 9600, .take ⟨0, 0⟩ 0 0 0, .rxEnable 0, .rxByte 1, .bufRequest 0 0, .rxRdy,
          .bufReleased, .disabled 0 0 0] = some s ∧
      s.driver.enabled = false ∧ s.thread = .idle ∧ 0 < s.subscriberCount ∧
      ∃ s', ((rxSys ⟨1, 1, by decide⟩ 115200).after s).RunOf
        (fun t e => ∀ t', t.step ⟨1, 1, by decide⟩ e = some t' → 0 < t'.subscriberCount)
        [.take ⟨0, 0⟩ 0 0 0, .read, .dec, .free, .submit .connected 9600, .take ⟨0, 0⟩ 0 0 0] s' ∧
      s'.subscriberCount = 2 := by
    refine ⟨_, rfl, rfl, rfl, by decide, _, .snoc (.snoc (.snoc (.snoc (.snoc (.snoc .nil
      ?_ rfl) ?_ rfl) ?_ rfl) ?_ rfl) ?_ rfl) ?_ rfl, rfl⟩
    all_goals
      intro t' ht'
      cases ht'
      decide
  obtain ⟨s, hs, hoff, hthread, hcount, s', hs', hcount'⟩ := hrun
  have hrun := Lts.run_of_exec hs
  obtain ⟨hoff', hreceived⟩ := rx_stays_off hrun hoff (by simp [hthread]) hcount hs'
  exact ⟨s, s', hrun, hs'.run, hcount', hoff', hreceived⟩

/-! ## The baud rate -/

def RxEvent.Configures : RxEvent → Prop
  | .take errs _ _ _ => errs = ⟨0, 0⟩
  | _ => True

theorem setUartBaudrate_ok (s : RxState) {baudrate : ℕ} (h : baudrate ≠ 0) :
    s.setUartBaudrate baudrate ⟨0, 0⟩ = { s with baudrate := baudrate } := by
  simp only [RxState.setUartBaudrate, h, ne_eq, not_true_eq_false, if_false]
  split_ifs with hsame
  · rw [← hsame]
  · rfl

/-- While the driver takes every baud rate, the one it started with is back whenever the last
subscriber has gone. -/
theorem rx_default_baudrate {cfg : RxConfig} {baudrate : ℕ} (hbaudrate : baudrate ≠ 0)
    {evs : List RxEvent} {s : RxState}
    (h : (rxSys cfg baudrate).RunOf (fun _ e => e.Configures) evs s)
    (hcount : s.subscriberCount = 0) : s.baudrate = baudrate := by
  have hinv : s.defaultBaudrate = baudrate ∧ (s.subscriberCount = 0 → s.baudrate = baudrate) := by
    refine h.invariant (fun t : RxState => t.defaultBaudrate = baudrate ∧
      (t.subscriberCount = 0 → t.baudrate = baudrate)) ⟨rfl, fun _ => rfl⟩ ?_
    rintro t e t' ⟨hdefault, hrate⟩ hok hs
    have hsame : ∀ u : RxState, u.peerPart = t.peerPart →
        u.defaultBaudrate = baudrate ∧ (u.subscriberCount = 0 → u.baudrate = baudrate) := by
      intro u hu
      simp only [RxState.peerPart, Prod.mk.injEq] at hu
      rw [hu.1, hu.2.1, hu.2.2]
      exact ⟨hdefault, hrate⟩
    cases rxStepped hs with
    | @takePeer state rate queue errs callbackErr disableErr block _ _ _ =>
      cases hok
      obtain ⟨rate', hpeer⟩ := peerConn_spec { t with queue := queue } state rate ⟨0, 0⟩
        callbackErr disableErr block
      have hne : t.defaultBaudrate ≠ 0 := hdefault ▸ hbaudrate
      rw [hpeer]
      dsimp only
      split_ifs with hzero hfirst
      · rw [setUartBaudrate_ok _ hne]
        obtain ⟨-, hpart⟩ := disableUartRx_frame { t with
          queue := queue
          subscriberCount := t.subscriberCount + peerDelta state
          baudrate := t.defaultBaudrate } disableErr
        simp only [RxState.peerPart, Prod.mk.injEq] at hpart
        exact ⟨hpart.2.2.trans hdefault, fun _ => hpart.2.1.trans hdefault⟩
      · obtain ⟨-, hpart⟩ := enableUartRxBegin_frame { t with
          queue := queue
          subscriberCount := t.subscriberCount + peerDelta state
          baudrate := rate' } callbackErr block
        simp only [RxState.peerPart, Prod.mk.injEq] at hpart
        exact ⟨hpart.2.2.trans hdefault, fun h0 => absurd (hpart.1.symm.trans h0) hzero⟩
      · exact ⟨hdefault, fun h0 => absurd h0 hzero⟩
    | bufRequest => exact hsame _ (bufRequest_frame _ _ _ _).2
    | bufReleased => exact hsame _ (bufReleased_frame _ _ _).2
    | disabled => exact hsame _ (disabled_frame _ _ _ _ _).2
    | _ => exact hsame _ rfl
  exact hinv.2 hcount

/-- One subscriber sets another baud rate and goes. -/
theorem rx_default_baudrate_back :
    ∃ s, (rxSys ⟨2, 3, by decide⟩ 115200).RunOf (fun _ e => e.Configures)
        [.submit .connected 9600, .take ⟨0, 0⟩ 0 0 0, .rxEnable 0, .submit .disconnected 0,
          .take ⟨0, 0⟩ 0 0 1] s ∧ s.baudrate = 115200 := by
  have hrun : ∃ s, (rxSys ⟨2, 3, by decide⟩ 115200).RunOf (fun _ e => e.Configures)
        [.submit .connected 9600, .take ⟨0, 0⟩ 0 0 0, .rxEnable 0, .submit .disconnected 0,
          .take ⟨0, 0⟩ 0 0 1] s ∧ s.subscriberCount = 0 := by
    refine ⟨_, .snoc (.snoc (.snoc (.snoc (.snoc .nil trivial rfl) ?_ rfl) ?_ rfl) ?_ rfl) ?_ rfl,
      rfl⟩
    all_goals trivial
  obtain ⟨s, hs, hcount⟩ := hrun
  exact ⟨s, hs, rx_default_baudrate (by decide) hs hcount⟩

end Heaty.Uart
