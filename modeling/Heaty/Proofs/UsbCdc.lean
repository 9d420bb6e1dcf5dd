import Heaty.Proofs.UartRx
import Heaty.Proofs.UartTx
import Heaty.Spec.UsbCdc

/-! From USB to the UART, and USB as a peer. Every block of the CDC slab is free or in one place,
and what comes over USB is given to the UART in its order, between what the Bluetooth peer
writes. With USB and Bluetooth as its peers, the UART receives just while one of them
listens. -/

namespace Heaty.Uart

variable {api : TxRingApi} {bufSize : ℕ}

/-! ## Data for the UART -/

def SendEvent.blocks : SendEvent → List ℕ
  | .cdc block _ => [block]
  | .ble _ => []

def CdcIrq.blocks : CdcIrq → List ℕ
  | .reading (some block) => [block]
  | _ => []

def SendThread.blocks : SendThread → List ℕ
  | .handling event | .enqueuing event => event.blocks
  | .idle => []

/-- The blocks that are not free, each as often as it is in use. -/
def SendState.held (s : SendState api) : Multiset ℕ :=
  (s.irq.blocks : Multiset ℕ) + s.thread.blocks + s.queue.flatMap SendEvent.blocks

/-- Every block is free or in use once; what was read into a block was given to the UART or waits;
and the UART puts what it was given, one call after another. -/
structure SendInv (bufSize : ℕ) (s : SendState api) : Prop where
  blocks : s.held + s.free.val = cdcBlocks.val
  received : s.received =
    (s.given.filter Given.fromCdc).flatMap Given.data ++ s.waiting
  given : s.given.map Given.data = s.tx.log.map Enqueued.data ++ s.tx.putting
  idle : (∀ event, s.thread ≠ .enqueuing event) → s.tx.thread = .idle
  tx : TxInv bufSize s.tx

theorem tx_frame {s s' : TxState api} {e : TxEvent} (hs : s.step bufSize e = some s')
    (hidle : s.thread = .idle) (he : ∀ data, e ≠ .enqueue data) :
    s'.thread = .idle ∧ s'.log = s.log := by
  cases txStepped hs with
  | enqueue => exact absurd rfl (he _)
  | look hthread => simp [hidle] at hthread
  | put hthread => simp [hidle] at hthread
  | setStarted hthread => simp [hidle] at hthread
  | getClaim hthread => simp [hidle] at hthread
  | uartTx hthread => simp [hidle] at hthread
  | clearStarted hthread => simp [hidle] at hthread
  | txByte => exact ⟨hidle, rfl⟩
  | @txDone t err =>
    have hframe : (s.txDone bufSize t.len err).thread = s.thread ∧
        (s.txDone bufSize t.len err).log = s.log := by
      unfold TxState.txDone
      dsimp only
      split_ifs
      · exact ⟨rfl, rfl⟩
      · obtain ⟨hthread, -, hlog, -⟩ :=
          TxState.uartTxStart_frame ({ s with driver := none }.uartTxFinish t.len) bufSize err
        exact ⟨hthread, hlog⟩
    exact ⟨hframe.1.trans hidle, hframe.2⟩
  | txAborted => exact ⟨hidle, rfl⟩

/-- The calls of `uart_tx_enqueue` come to the log when their data is put. -/
theorem tx_log {s s' : TxState api} {e : TxEvent} (hs : s.step bufSize e = some s')
    (he : ∀ data, e ≠ .enqueue data) :
    s'.log.map Enqueued.data ++ s'.putting = s.log.map Enqueued.data ++ s.putting := by
  unfold TxState.putting
  cases txStepped hs with
  | enqueue => exact absurd rfl (he _)
  | look hthread => simp [hthread]
  | @put data written hthread =>
    simp only [hthread, TxState.put, List.map_append]
    split_ifs <;> simp
  | setStarted hthread =>
    simp only [hthread]
    split_ifs <;> simp
  | getClaim hthread => simp [hthread, TxState.getClaim]
  | @uartTx buf len err hthread =>
    simp only [hthread, TxState.uartTx]
    split_ifs <;> simp [TxState.uartTxFinish]
  | clearStarted hthread => simp [hthread]
  | txByte => rfl
  | @txDone t err =>
    unfold TxState.txDone
    dsimp only
    split_ifs
    · rfl
    · obtain ⟨hthread, -, hlog, -⟩ :=
        TxState.uartTxStart_frame ({ s with driver := none }.uartTxFinish t.len) bufSize err
      rw [hthread, hlog]
      rfl
  | txAborted => rfl

namespace SendInv

variable {s s' : SendState api}

theorem start (hdoc : api.Documented) : SendInv bufSize (.start api bufSize) where
  blocks := by simp [SendState.held, SendState.start, CdcIrq.blocks, SendThread.blocks]
  received := rfl
  given := rfl
  idle _ := rfl
  tx := .start hdoc

theorem mem_blocks_of_pending {block len : ℕ} (h : .cdc block len ∈ s.pending) :
    block ∈ (s.thread.blocks : Multiset ℕ) + s.queue.flatMap SendEvent.blocks := by
  rw [Multiset.mem_add]
  rcases List.mem_append.1 h with h | h
  · left
    cases hthread : s.thread <;> simp only [hthread, List.not_mem_nil, List.mem_singleton] at h
    rw [← h]
    exact List.mem_singleton_self _
  · right
    exact List.mem_flatMap.2 ⟨_, h, List.mem_singleton_self _⟩

theorem notMem_free (h : SendInv bufSize s) {block : ℕ} (hb : block ∈ s.held) :
    block ∉ s.free := by
  have hnodup : (s.held + s.free.val).Nodup := h.blocks ▸ cdcBlocks.nodup
  exact Multiset.disjoint_left.1 (Multiset.nodup_add.1 hnodup).2.2 hb

theorem held_nodup (h : SendInv bufSize s) : s.held.Nodup := by
  have hnodup : (s.held + s.free.val).Nodup := h.blocks ▸ cdcBlocks.nodup
  exact (Multiset.nodup_add.1 hnodup).1

theorem blocks_alloc (h : SendInv bufSize s) {block : ℕ} (hirq : s.irq = .idle)
    (hfree : block ∈ s.free) :
    SendState.held { s with free := s.free.erase block, irq := .reading (some block) } +
      (s.free.erase block).val = cdcBlocks.val := by
  have hcons := Multiset.cons_erase hfree
  rw [← h.blocks, SendState.held, SendState.held, hirq, Finset.erase_val]
  nth_rewrite 2 [← hcons]
  simp only [CdcIrq.blocks, Multiset.coe_singleton, Multiset.coe_nil, ← Multiset.singleton_add]
  abel

theorem blocks_freed (h : SendInv bufSize s) {block : ℕ} (hheld : s.held = block ::ₘ s'.held)
    (hfree : s'.free = insert block s.free) : s'.held + s'.free.val = cdcBlocks.val := by
  have hnot := h.notMem_free (hheld ▸ Multiset.mem_cons_self _ _)
  rw [hfree, Finset.insert_val_of_notMem hnot, Multiset.add_cons, ← Multiset.cons_add, ← hheld,
    h.blocks]

/-- The handler reads into its block, to which no event points. -/
theorem fifoRead (h : SendInv bufSize s) {block : ℕ} (hirq : s.irq = .reading (some block))
    (data : Bytes) : SendInv bufSize (s.fifoRead block data) := by
  have hheld : s.held = block ::ₘ ((s.thread.blocks : Multiset ℕ) +
      s.queue.flatMap SendEvent.blocks) := by
    simp only [SendState.held, hirq, CdcIrq.blocks, Multiset.coe_singleton,
      Multiset.singleton_add, Multiset.cons_add]
  unfold SendState.fifoRead
  dsimp only
  split_ifs with hdata
  · -- the other blocks in use keep their contents
    have hnodup := h.held_nodup
    rw [hheld, Multiset.nodup_cons] at hnodup
    have hsame : ∀ event ∈ s.pending, SendState.dataOf (Function.update s.memory block data) event =
        SendState.dataOf s.memory event := by
      intro event hevent
      cases event with
      | cdc other len =>
        have hne : other ≠ block := fun heq => hnodup.1 (heq ▸ mem_blocks_of_pending hevent)
        simp only [SendState.dataOf, Function.update_of_ne hne]
      | ble => rfl
    refine ⟨?_, ?_, h.given, h.idle, h.tx⟩
    · rw [← h.blocks, hheld]
      simp only [SendState.held, CdcIrq.blocks, List.flatMap_append, List.flatMap_singleton,
        SendEvent.blocks, ← Multiset.coe_add, Multiset.coe_singleton, Multiset.coe_nil,
        ← Multiset.singleton_add]
      abel
    · have hwaiting : SendState.waiting { s with
          irq := .idle
          memory := Function.update s.memory block data
          queue := s.queue ++ [.cdc block data.length]
          reads := s.reads ++ [⟨true, data⟩] } = s.waiting ++ data := by
        have hpending : SendState.pending { s with
            irq := .idle
            memory := Function.update s.memory block data
            queue := s.queue ++ [.cdc block data.length]
            reads := s.reads ++ [⟨true, data⟩] } = s.pending ++ [.cdc block data.length] :=
          (List.append_assoc _ _ _).symm
        rw [SendState.waiting, hpending, List.filter_append, List.flatMap_append,
          List.flatMap_congr fun event hevent => hsame event (List.mem_of_mem_filter hevent)]
        have hnew : [SendEvent.cdc block data.length].filter SendEvent.fromCdc =
            [.cdc block data.length] := rfl
        simp [SendState.waiting, hnew, SendState.dataOf]
      rw [hwaiting, ← List.append_assoc, ← h.received]
      simp [SendState.received]
  · refine ⟨h.blocks_freed (by rw [hheld]; simp [SendState.held, CdcIrq.blocks]) rfl, h.received,
      h.given, h.idle, h.tx⟩

theorem take (h : SendInv bufSize s) {event : SendEvent} {queue : List SendEvent}
    (hthread : s.thread = .idle) (hqueue : s.queue = event :: queue) :
    SendInv bufSize { s with queue := queue, thread := .handling event } := by
  refine ⟨?_, ?_, h.given, fun _ => h.idle (by simp [hthread]), h.tx⟩
  · rw [← h.blocks, SendState.held, SendState.held, hthread, hqueue]
    simp only [SendThread.blocks, List.flatMap_cons, ← Multiset.coe_add, Multiset.coe_nil]
    abel
  · have hpending : SendState.pending { s with queue := queue, thread := .handling event } =
        s.pending := by simp [SendState.pending, hthread, hqueue]
    have hreceived := h.received
    rw [SendState.waiting] at hreceived ⊢
    rw [hpending]
    exact hreceived

theorem enqueue (h : SendInv bufSize s) (hdoc : api.Documented) {event : SendEvent}
    (hthread : s.thread = .handling event) {tx : TxState api}
    (htx : s.tx.step bufSize (.enqueue (SendState.dataOf s.memory event)) = some tx) :
    SendInv bufSize { s with
      tx := tx
      thread := .enqueuing event
      given := s.given ++ [⟨event.fromCdc, SendState.dataOf s.memory event⟩] } := by
  have hput : tx.putting = [SendState.dataOf s.memory event] ∧ tx.log = s.tx.log := by
    cases txStepped htx with
    | enqueue => exact ⟨rfl, rfl⟩
  have hidle := h.idle (by simp [hthread])
  refine ⟨?_, ?_, ?_, fun hne => absurd rfl (hne event), h.tx.step hdoc htx⟩
  · rw [← h.blocks, SendState.held, SendState.held, hthread]
    rfl
  · have hreceived := h.received
    have hpending : s.pending = event :: s.queue := by simp [SendState.pending, hthread]
    rw [SendState.waiting, hpending] at hreceived
    change s.received = ((s.given ++
        [Given.mk event.fromCdc (SendState.dataOf s.memory event)]).filter
          Given.fromCdc).flatMap Given.data ++
      (s.queue.filter SendEvent.fromCdc).flatMap (SendState.dataOf s.memory)
    rw [hreceived, List.filter_append, List.flatMap_append, List.append_assoc]
    cases hcdc : event.fromCdc <;> simp [hcdc]
  · have hgiven := h.given
    rw [hput.1, hput.2, List.map_append, hgiven]
    simp [TxState.putting, hidle]

theorem tx_step (h : SendInv bufSize s) (hdoc : api.Documented) {e : TxEvent} {tx : TxState api}
    (he : ∀ data, e ≠ .enqueue data) (htx : s.tx.step bufSize e = some tx) :
    SendInv bufSize { s with tx := tx } := by
  refine ⟨h.blocks, h.received, ?_, fun hne => ?_, h.tx.step hdoc htx⟩
  · rw [tx_log htx he]
    exact h.given
  · exact (tx_frame htx (h.idle hne) he).1

theorem done (h : SendInv bufSize s) {event : SendEvent} (hthread : s.thread = .enqueuing event)
    (hidle : s.tx.thread = .idle) : SendInv bufSize (s.freed event) := by
  have hpending : s.pending = s.queue := by simp [SendState.pending, hthread]
  cases event with
  | cdc block len =>
    refine ⟨h.blocks_freed ?_ rfl, ?_, h.given, fun _ => hidle, h.tx⟩
    · simp only [SendState.held, SendState.freed, hthread, SendThread.blocks, SendEvent.blocks,
        Multiset.coe_singleton, Multiset.coe_nil, ← Multiset.singleton_add]
      abel
    · have hreceived := h.received
      rw [SendState.waiting, hpending] at hreceived
      exact hreceived
  | ble data =>
    refine ⟨?_, ?_, h.given, fun _ => hidle, h.tx⟩
    · rw [← h.blocks, SendState.held, SendState.held, hthread]
      rfl
    · have hreceived := h.received
      rw [SendState.waiting, hpending] at hreceived
      exact hreceived

theorem step (h : SendInv bufSize s) (hdoc : api.Documented) {e : SendEv}
    (hs : s.step bufSize e = some s') : SendInv bufSize s' := by
  cases e with
  | alloc block =>
    simp only [SendState.step, Option.ite_none_right_eq_some] at hs
    obtain ⟨hirq, hs⟩ := hs
    split_ifs at hs with hempty hfree
    · cases hs
      refine ⟨?_, h.received, h.given, h.idle, h.tx⟩
      rw [← h.blocks, SendState.held, SendState.held, hirq]
      rfl
    · cases hs
      exact ⟨h.blocks_alloc hirq hfree, h.received, h.given, h.idle, h.tx⟩
  | fifoRead data =>
    simp only [SendState.step] at hs
    split at hs
    · next hirq =>
      split_ifs at hs
      cases hs
      exact h.fifoRead hirq data
    · next hirq =>
      split_ifs at hs
      cases hs
      refine ⟨?_, ?_, h.given, h.idle, h.tx⟩
      · rw [← h.blocks, SendState.held, SendState.held, hirq]
        rfl
      · -- what is read into `overflow_buf` comes to no block
        have hsame : SendState.received { s with
            irq := .idle, reads := s.reads ++ [⟨false, data⟩] } = s.received := by
          simp [SendState.received]
        rw [hsame]
        exact h.received
    · cases hs
  | bleWrite data =>
    cases hs
    refine ⟨?_, ?_, h.given, h.idle, h.tx⟩
    · rw [← h.blocks]
      simp [SendState.held, SendEvent.blocks]
    · have hpending : SendState.pending { s with queue := s.queue ++ [.ble data] } =
          s.pending ++ [.ble data] := (List.append_assoc _ _ _).symm
      have hreceived := h.received
      have hnew : [SendEvent.ble data].filter SendEvent.fromCdc = [] := rfl
      rw [SendState.waiting] at hreceived ⊢
      rw [hpending, List.filter_append, hnew, List.append_nil]
      exact hreceived
  | take =>
    simp only [SendState.step] at hs
    split at hs
    · next hthread hqueue =>
      cases hs
      exact h.take hthread hqueue
    · cases hs
  | enqueue =>
    simp only [SendState.step] at hs
    split at hs
    · next hthread =>
      obtain ⟨tx, htx, rfl⟩ := Option.map_eq_some_iff.1 hs
      exact h.enqueue hdoc hthread htx
    · cases hs
  | tx e =>
    have he : ∀ data, e ≠ .enqueue data := by
      rintro data rfl
      cases hs
    have hmap : (s.tx.step bufSize e).map (fun tx => { s with tx := tx }) = some s' := by
      cases e <;> first | exact hs | exact absurd rfl (he _)
    obtain ⟨tx, htx, rfl⟩ := Option.map_eq_some_iff.1 hmap
    exact h.tx_step hdoc he htx
  | done =>
    simp only [SendState.step] at hs
    split at hs
    · next hthread =>
      split_ifs at hs with hidle
      cases hs
      exact h.done hthread hidle
    · cases hs

end SendInv

/-- Whatever the driver of the UART does, and with the writes of the Bluetooth peer in between:
what was read over USB into a block is, in its order, what was given to the UART from there and
what waits; what is on the wire and in the ring buffer comes from what was given, in its order,
and is all of it but what is just being put, if every call of `uart_tx_enqueue` returned 0; and
every block of the slab is free or in use once. -/
theorem usb_to_uart (hdoc : api.Documented) {evs : List SendEv} {s : SendState api}
    (h : (sendSys api bufSize).Run evs s) :
    s.received = (s.given.filter Given.fromCdc).flatMap Given.data ++ s.waiting ∧
      (s.tx.wire ++ s.tx.unsent).Sublist (s.given.flatMap Given.data) ∧
      ((∀ call ∈ s.tx.log, call.result = 0) →
        s.given.flatMap Given.data = s.tx.wire ++ s.tx.unsent ++ s.tx.putting.flatten) ∧
      s.held + s.free.val = cdcBlocks.val := by
  have hinv : SendInv bufSize s :=
    h.invariant _ (.start hdoc) fun _ _ _ hinv _ hs => hinv.step hdoc hs
  have hdata : s.given.flatMap Given.data =
      s.tx.log.flatMap Enqueued.data ++ s.tx.putting.flatten := by
    rw [List.flatMap_def, hinv.given, List.flatten_append, ← List.flatMap_def]
  rw [← hinv.tx.accepted]
  refine ⟨hinv.received, ?_, fun hzero => ?_, hinv.blocks⟩
  · rw [hdata]
    have htaken : s.tx.accepted.Sublist (s.tx.log.flatMap Enqueued.data) :=
      List.Sublist.flatMap_right _ fun call _ => List.take_sublist _ _
    exact htaken.trans (List.sublist_append_left _ _)
  · rw [hdata]
    congr 1
    refine List.flatMap_congr fun call hcall => ?_
    rw [((hinv.tx.result_eq_zero hcall).1 (hzero call hcall)).2, List.take_length]

/-- A write over Bluetooth comes between two blocks from USB. -/
theorem usb_to_uart_between :
    ∃ s, (sendSys zephyrTxRing 2).Run
        [.alloc 0, .fifoRead [1, 2], .bleWrite [9], .alloc 1, .fifoRead [3], .take, .enqueue,
          .tx .put, .tx .setStarted, .tx .getClaim, .tx (.uartTx 0), .done, .take, .enqueue, .tx .put,
          .tx .setStarted, .done, .tx .txByte, .take, .enqueue] s ∧
      s.tx.wire = [1] ∧ s.given.flatMap Given.data = [1, 2, 9, 3] ∧ s.received = [1, 2, 3] ∧
      s.received = (s.given.filter Given.fromCdc).flatMap Given.data ++ s.waiting := by
  have hrun : ∃ s, (sendSys zephyrTxRing 2).exec
        [.alloc 0, .fifoRead [1, 2], .bleWrite [9], .alloc 1, .fifoRead [3], .take, .enqueue,
          .tx .put, .tx .setStarted, .tx .getClaim, .tx (.uartTx 0), .done, .take, .enqueue, .tx .put,
          .tx .setStarted, .done, .tx .txByte, .take, .enqueue] = some s ∧
      s.tx.wire = [1] ∧ s.given.flatMap Given.data = [1, 2, 9, 3] ∧ s.received = [1, 2, 3] :=
    ⟨_, rfl, rfl, rfl, rfl⟩
  obtain ⟨s, hs, hwire, hgiven, hreceived⟩ := hrun
  have hrun := Lts.run_of_exec hs
  exact ⟨s, hrun, hwire, hgiven, hreceived, (usb_to_uart zephyrTxRing_documented hrun).1⟩

/-! ## Peers of the UART -/

def RxState.deltas (s : RxState) : List ℤ := (s.queue.filterMap BridgeEvent.peer).map peerDelta

theorem count_foldl {handed : List Bt.PeerConnState} {u : Bt.UartHandler} (hdev : u.device = true) :
    (handed.foldl Bt.UartHandler.peerConn u).subscriberCount =
      u.subscriberCount + (handed.map peerDelta).sum := by
  induction handed generalizing u with
  | nil => simp
  | cons state handed ih =>
    have hone : (u.peerConn state).device = true ∧
        (u.peerConn state).subscriberCount = u.subscriberCount + peerDelta state := by
      cases state <;>
        simp only [Bt.UartHandler.peerConn, hdev, Bool.true_eq_false, if_false, peerDelta] <;>
        split_ifs <;> exact ⟨rfl, rfl⟩
    rw [List.foldl_cons, ih hone.1, hone.2, List.map_cons, List.sum_cons, add_assoc]

/-- The count with the changes under way is the number of those who listen, and does not go
below zero on the way there. -/
structure PeersInv (s : PeersState) : Prop where
  tracks : Tracks s.rx
  ready : s.cdcReady ≤ 1
  pending : ∀ pre, pre <+: s.rx.deltas → 0 ≤ s.rx.subscriberCount + pre.sum
  total : s.rx.subscriberCount + s.rx.deltas.sum = s.cdcReady + s.listeners.card

namespace PeersInv

variable {cfg : RxConfig} {s s' : PeersState}

theorem start (cfg : RxConfig) (baudrate : ℕ) : PeersInv (.start cfg baudrate) := by
  refine ⟨Tracks.start cfg baudrate, Nat.zero_le _, fun pre hpre => ?_, rfl⟩
  rw [List.prefix_nil.1 hpre]
  exact le_refl _

theorem submit (h : PeersInv s) (state : Bt.PeerConnState) (baudrate : ℕ) {ready : ℕ}
    {listeners : Finset ℕ} (hready : ready ≤ 1)
    (htotal : (ready : ℤ) + listeners.card =
      s.cdcReady + s.listeners.card + peerDelta state) :
    PeersInv { s.submit state baudrate with cdcReady := ready, listeners := listeners } := by
  have hdeltas : (s.submit state baudrate).rx.deltas = s.rx.deltas ++ [peerDelta state] := by
    simp [RxState.deltas, PeersState.submit, BridgeEvent.peer]
  have hsum : s.rx.subscriberCount + (s.rx.deltas ++ [peerDelta state]).sum =
      (ready : ℤ) + listeners.card := by
    rw [List.sum_append, List.sum_singleton, ← add_assoc, h.total, htotal]
  have htracks : Tracks (s.submit state baudrate).rx :=
    ⟨h.tracks.nonneg, h.tracks.receives, h.tracks.retry, h.tracks.enabling⟩
  refine ⟨htracks, hready, fun pre hpre => ?_, ?_⟩
  · rw [hdeltas] at hpre
    rcases List.prefix_concat_iff.1 hpre with rfl | hpre
    · change 0 ≤ s.rx.subscriberCount + _
      rw [hsum]
      omega
    · exact h.pending pre hpre
  · change s.rx.subscriberCount + (s.submit state baudrate).rx.deltas.sum = _
    rw [hdeltas]
    exact hsum

/-- The first change under way comes to the handler: a peer that goes has come. -/
theorem departs (h : PeersInv s) (e : RxEvent) : Departs s.rx e := by
  cases e with
  | take =>
    intro hhead
    obtain ⟨event, hevent, hpeer⟩ := Option.bind_eq_some_iff.1 hhead
    obtain ⟨rest, hqueue⟩ := List.head?_eq_some_iff.1 hevent
    have hpre : [peerDelta .disconnected] <+: s.rx.deltas := by
      rw [RxState.deltas, hqueue, List.filterMap_cons_some hpeer, List.map_cons]
      exact List.cons_prefix_cons.2 ⟨rfl, List.nil_prefix⟩
    have hnonneg := h.pending _ hpre
    simp only [peerDelta, List.sum_singleton] at hnonneg
    omega
  | _ => trivial

/-- The receiving side goes on, and the changes that it hands over are no longer under way. -/
theorem rx_step (h : PeersInv s) {e : RxEvent} {rx : RxState} (hok : RxSteady s.rx e)
    (he : e.submitted = none) (hs : s.rx.step cfg e = some rx) : PeersInv { s with rx := rx } := by
  obtain ⟨htracks, hhandler⟩ := h.tracks.step hok (h.departs e) hs
  have hqueue := handed_queue hs
  rw [he, Option.toList_none, List.append_nil] at hqueue
  have hdeltas : s.rx.deltas = (s.rx.handed e).map peerDelta ++ rx.deltas := by
    rw [RxState.deltas, hqueue, List.map_append, RxState.deltas]
  have hcount : rx.subscriberCount =
      s.rx.subscriberCount + ((s.rx.handed e).map peerDelta).sum := by
    have hfold := congrArg Bt.UartHandler.subscriberCount hhandler
    rw [count_foldl rfl] at hfold
    exact hfold
  refine ⟨htracks, h.ready, fun pre hpre => ?_, ?_⟩
  · have hnonneg := h.pending ((s.rx.handed e).map peerDelta ++ pre)
      (by rw [hdeltas]; exact (List.prefix_append_right_inj _).2 hpre)
    rw [List.sum_append] at hnonneg
    rw [hcount, add_assoc]
    exact hnonneg
  · have htotal := h.total
    rw [hdeltas, List.sum_append] at htotal
    change rx.subscriberCount + rx.deltas.sum = _
    rw [hcount, add_assoc]
    exact htotal

theorem step (h : PeersInv s) {e : PeersEvent} (hok : e.Steady s) (hs : s.step cfg e = some s') :
    PeersInv s' := by
  cases e with
  | poll poll =>
    simp only [PeersState.step, Option.ite_none_right_eq_some] at hs
    obtain ⟨hdtr, hs⟩ := hs
    have hready := h.ready
    unfold pollDtr at hs
    split_ifs at hs with hdtrErr hsame hbaudErr hzero
    · cases hs
      exact h
    · cases hs
      exact h
    · cases hs
      exact h
    · cases hs
      refine h.submit .disconnected poll.baudrate hdtr ?_
      simp only [peerDelta, PeersState.submit]
      omega
    · cases hs
      refine h.submit .connected poll.baudrate hdtr ?_
      simp only [peerDelta, PeersState.submit]
      omega
  | cccWrite conn enabled =>
    cases enabled with
    | true =>
      cases hs
      have hcard : (insert conn s.listeners).card = s.listeners.card + 1 :=
        Finset.card_insert_of_notMem fun hmem => by simpa using hok.1 hmem
      refine h.submit .connected 0 h.ready ?_
      simp only [peerDelta, PeersState.submit, hcard]
      omega
    | false =>
      cases hs
      have hcard := Finset.card_erase_add_one (hok.2 rfl)
      refine h.submit .disconnected 0 h.ready ?_
      simp only [peerDelta, PeersState.submit]
      omega
  | disconnected conn =>
    cases hs
    rw [Finset.erase_eq_of_notMem hok]
    exact h
  | rx e =>
    have he : e.submitted = none := by
      cases e <;> first | rfl | cases hs
    have hmap : (s.rx.step cfg e).map (fun rx => { s with rx := rx }) = some s' := by
      cases e <;> first | exact hs | cases he
    obtain ⟨rx, hrx, rfl⟩ := Option.map_eq_some_iff.1 hmap
    exact h.rx_step hok he hrx

end PeersInv

end Heaty.Uart
