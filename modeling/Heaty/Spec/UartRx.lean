import Heaty.Lib.LittleEndian
import Heaty.Lib.RefPool
import Heaty.Lib.Run
import Heaty.Spec.UartHandler

/-! The receiving side of uart_handler.c for `UART_0`: the slab of buffers that the driver fills,
the events that point into them, and the handler of those events and of the peers, with the
driver's callbacks between any two operations of the thread. -/

namespace Heaty.Uart

open Bt (PeerConnState)

/-- `CONFIG_BRIDGE_BUF_SIZE`, the length of an array, and `CONFIG_BRIDGE_UART_BUF_COUNT`. -/
structure RxConfig where
  bufSize : ℕ
  bufCount : ℕ
  bufSize_pos : 0 < bufSize

namespace RxConfig

variable (cfg : RxConfig)

/-- `ref_counter` and `len` come before `buf` in `struct uart_rx_buf`. -/
def headerSize : ℕ := 8

/-- `UART_SLAB_BLOCK_SIZE`, the size of a `struct uart_rx_buf` with what it is padded by. -/
def blockSize : ℕ := headerSize + (cfg.bufSize + 3) / 4 * 4

/-- The blocks of `uart_rx_slab`. -/
def blocks : Finset ℕ := Finset.range cfg.bufCount

/-- The block of an address, `block_start_get`. Addresses count from `uart_rx_slab.buffer`. -/
def blockStartGet (buf : ℕ) : ℕ := buf / cfg.blockSize

/-- `buf->buf` for a block. -/
def bufOf (block : ℕ) : ℕ := block * cfg.blockSize + headerSize

end RxConfig

/-- A buffer that the driver fills: where it is, how much of it is received, and how much of
that was reported. -/
structure RxBuf where
  buf : ℕ
  pos : ℕ
  reported : ℕ
  deriving DecidableEq

/-- The driver: whether it is enabled, whether it is on the way to being disabled, and its two
buffers. -/
structure RxDriver where
  enabled : Bool
  stopping : Bool
  current : Option RxBuf
  next : Option ℕ
  deriving DecidableEq

/-- `struct uart_data_event`. -/
structure DataEvent where
  buf : ℕ
  len : ℕ
  deriving DecidableEq

/-- The events that wait for the handler. -/
inductive BridgeEvent
  | data (event : DataEvent)
  | peerConn (state : PeerConnState) (baudrate : ℕ)
  deriving DecidableEq

def BridgeEvent.dataEvent : BridgeEvent → Option DataEvent
  | .data event => some event
  | .peerConn _ _ => none

/-- Where the thread is. -/
inductive RxThread
  | idle
  /-- The subscribers of the event have not all read its data. -/
  | handling (event : DataEvent)
  /-- In `uart_rx_buf_unref`. -/
  | unref (buf : ℕ)
  /-- The last reference to the block is gone, and it is not free yet. -/
  | freeing (block : ℕ)
  /-- `enable_uart_rx` has a block and calls `uart_rx_enable`. -/
  | enabling (block : ℕ)
  deriving DecidableEq

/-- The state of the handler, the driver and the thread, with what the driver received so far
and what the subscribers read. -/
structure RxState where
  slab : RefPool ℕ
  memory : ℕ → UInt8
  driver : RxDriver
  queue : List BridgeEvent
  thread : RxThread
  subscriberCount : ℤ
  enableRxRetry : Bool
  baudrate : ℕ
  defaultBaudrate : ℕ
  received : Bytes
  delivered : Bytes

/-- What the driver answers when the baud rate is set. -/
structure BaudrateErrs where
  configGet : ℤ
  configure : ℤ
  deriving DecidableEq

inductive RxEvent
  /-- A module submits a `peer_conn_event`. -/
  | submit (state : PeerConnState) (baudrate : ℕ)
  /-- The thread takes the next event. For one of a peer, these are the answers of the driver and
  the block that the slab gives out, where it comes to that. -/
  | take (errs : BaudrateErrs) (callbackErr disableErr : ℤ) (block : ℕ)
  /-- The subscribers have read the data of the event. -/
  | read
  /-- The counter goes down. -/
  | dec
  | free
  | rxEnable (err : ℤ)
  /-- The driver receives a byte. -/
  | rxByte (byte : UInt8)
  | rxRdy
  | bufRequest (block : ℕ) (err : ℤ)
  /-- The current buffer is released, and the next one becomes the current one. -/
  | bufReleased
  /-- The next buffer is released, as the driver stops. -/
  | nextReleased
  | disabled (callbackErr : ℤ) (block : ℕ) (err : ℤ)
  | stopped
  deriving DecidableEq

namespace RxState

variable (cfg : RxConfig)

/-- After the main module's READY event, when `uart_config_get` has given `baudrate`. -/
def start (baudrate : ℕ) : RxState where
  slab := ⟨cfg.blocks, fun _ => 0⟩
  memory := fun _ => 0
  driver := ⟨false, false, none, none⟩
  queue := []
  thread := .idle
  subscriberCount := 0
  enableRxRetry := false
  baudrate := baudrate
  defaultBaudrate := baudrate
  received := []
  delivered := []

/-- `set_uart_baudrate`. -/
def setUartBaudrate (s : RxState) (baudrate : ℕ) (errs : BaudrateErrs) : RxState :=
  if baudrate = 0 then s
  else if errs.configGet ≠ 0 then s
  else if s.baudrate = baudrate then s
  else if errs.configure ≠ 0 then s
  else { s with baudrate := baudrate }

/-- The bytes of an event. -/
def bytesAt (memory : ℕ → UInt8) (buf len : ℕ) : Bytes :=
  (List.range len).map fun i => memory (buf + i)

/-- Whether the slab can give out the block, or has none and the block does not matter. -/
def Offers (s : RxState) (block : ℕ) : Prop := block ∈ s.slab.free ∨ s.slab.free = ∅

instance (s : RxState) (block : ℕ) : Decidable (s.Offers block) :=
  inferInstanceAs (Decidable (_ ∨ _))

/-- `uart_rx_enable` succeeds: reception starts in the buffer of the block. -/
def rxEnabled (s : RxState) (block : ℕ) : RxState :=
  { s with driver := ⟨true, false, some ⟨cfg.bufOf block, 0, 0⟩, none⟩ }

/-- `uart_rx_buf_unref` in the interrupt. -/
def uartRxBufUnref (s : RxState) (buf : ℕ) : RxState :=
  { s with slab := s.slab.unref (cfg.blockStartGet buf) }

/-- `enable_uart_rx` in the interrupt. -/
def enableUartRx (s : RxState) (callbackErr : ℤ) (block : ℕ) (err : ℤ) : RxState :=
  if callbackErr ≠ 0 then s
  else if s.slab.free = ∅ then s
  else
    let s := { s with slab := s.slab.alloc block }
    if err ≠ 0 then s.uartRxBufUnref cfg (block * cfg.blockSize) else s.rxEnabled cfg block

/-- `enable_uart_rx` in the thread, up to `uart_rx_enable`. -/
def enableUartRxBegin (s : RxState) (callbackErr : ℤ) (block : ℕ) : RxState :=
  if callbackErr ≠ 0 then s
  else if s.slab.free = ∅ then s
  else { s with slab := s.slab.alloc block, thread := .enabling block }

/-- `disable_uart_rx`: the driver begins to stop. `uart_rx_disable` fails where it is not
enabled, or for a reason of its own. -/
def disableUartRx (s : RxState) (err : ℤ) : RxState :=
  if err ≠ 0 ∨ s.driver.enabled = false then s
  else { s with driver := { s.driver with stopping := true } }

/-- The `peer_conn_event` branch of `event_handler`. -/
def peerConn (s : RxState) (state : PeerConnState) (baudrate : ℕ) (errs : BaudrateErrs)
    (callbackErr disableErr : ℤ) (block : ℕ) : RxState :=
  let prevCount := s.subscriberCount
  let s := match state with
    | .connected =>
      { s with subscriberCount := prevCount + 1 }.setUartBaudrate baudrate errs
    | .disconnected => { s with subscriberCount := prevCount - 1 }
  if s.subscriberCount = 0 then
    (s.setUartBaudrate s.defaultBaudrate errs).disableUartRx disableErr
  else if prevCount = 0 then s.enableUartRxBegin callbackErr block
  else s

/-- `uart_callback` with `UART_RX_RDY`, for what is received and was not reported. -/
def rxRdy (s : RxState) (c : RxBuf) : RxState :=
  { s with
    slab := s.slab.ref (cfg.blockStartGet c.buf)
    queue := s.queue ++ [.data ⟨c.buf + c.reported, c.pos - c.reported⟩]
    driver := { s.driver with current := some { c with reported := c.pos } } }

/-- `uart_callback` with `UART_RX_BUF_REQUEST`. Of the driver it is assumed that
`uart_rx_buf_rsp` fails while it is stopping; it may fail for a reason of its own too. -/
def bufRequest (s : RxState) (block : ℕ) (err : ℤ) : RxState :=
  if s.slab.free = ∅ then s
  else
    let s := { s with slab := s.slab.alloc block }
    if err ≠ 0 ∨ s.driver.stopping then s.uartRxBufUnref cfg (block * cfg.blockSize)
    else { s with driver := { s.driver with next := some (cfg.bufOf block) } }

/-- `uart_callback` with `UART_RX_BUF_RELEASED` for the current buffer. The driver goes on in the
next one unless it is stopping, and stops when it has none. -/
def bufReleased (s : RxState) (c : RxBuf) : RxState :=
  let s := s.uartRxBufUnref cfg c.buf
  if s.driver.stopping then { s with driver := { s.driver with current := none } }
  else
    match s.driver.next with
    | some buf => { s with driver := { s.driver with current := some ⟨buf, 0, 0⟩, next := none } }
    | none => { s with driver := { s.driver with current := none, stopping := true } }

/-- `uart_callback` with `UART_RX_DISABLED`. -/
def disabled (s : RxState) (callbackErr : ℤ) (block : ℕ) (err : ℤ) : RxState :=
  let s := { s with driver := ⟨false, false, none, none⟩ }
  if s.enableRxRetry then
    { s.enableUartRx cfg callbackErr block err with enableRxRetry := false }
  else s

end RxState

/-- A driver that is enabled fills its buffers one after the other and asks for a next one while
it has none. It reports what it received before it releases a buffer, releases a buffer when
that is full or reception stops, and is disabled when it has released both. -/
def RxState.step (cfg : RxConfig) (s : RxState) : RxEvent → Option RxState
  | .submit state baudrate => some { s with queue := s.queue ++ [.peerConn state baudrate] }
  | .take errs callbackErr disableErr block =>
    if s.thread = .idle then
      match s.queue with
      | [] => none
      | .data event :: queue => some { s with queue := queue, thread := .handling event }
      | .peerConn state baudrate :: queue =>
        if s.Offers block then
          some ({ s with queue := queue }.peerConn state baudrate errs callbackErr disableErr block)
        else none
    else none
  | .read =>
    match s.thread with
    | .handling event => some { s with
        delivered := s.delivered ++ bytesAt s.memory event.buf event.len
        thread := .unref event.buf }
    | _ => none
  | .dec =>
    match s.thread with
    | .unref buf =>
      let block := cfg.blockStartGet buf
      some { s with
        slab := s.slab.dec block
        thread := if s.slab.refs block = 1 then .freeing block else .idle }
    | _ => none
  | .free =>
    match s.thread with
    | .freeing block => some { s with slab := s.slab.release block, thread := .idle }
    | _ => none
  | .rxEnable err =>
    match s.thread with
    | .enabling block =>
      -- `uart_rx_enable` fails on a driver that is enabled
      if err ≠ 0 ∨ s.driver.enabled then
        some { s with thread := .unref (block * cfg.blockSize) }
      else some { s.rxEnabled cfg block with thread := .idle }
    | _ => none
  | .rxByte byte =>
    match s.driver.current with
    | some c =>
      if c.pos < cfg.bufSize then
        some { s with
          memory := Function.update s.memory (c.buf + c.pos) byte
          driver := { s.driver with current := some { c with pos := c.pos + 1 } }
          received := s.received ++ [byte] }
      else none
    | none => none
  | .rxRdy =>
    match s.driver.current with
    | some c => if c.reported < c.pos then some (s.rxRdy cfg c) else none
    | none => none
  | .bufRequest block err =>
    if s.driver.current.isSome ∧ s.driver.next = none ∧ s.Offers block then
      some (s.bufRequest cfg block err)
    else none
  | .bufReleased =>
    match s.driver.current with
    | some c =>
      if c.reported = c.pos ∧ (c.pos = cfg.bufSize ∨ s.driver.stopping) then
        some (s.bufReleased cfg c)
      else none
    | none => none
  | .nextReleased =>
    match s.driver.next with
    | some buf =>
      if s.driver.stopping ∧ s.driver.current = none then
        some { s.uartRxBufUnref cfg buf with driver := { s.driver with next := none } }
      else none
    | none => none
  | .disabled callbackErr block err =>
    if s.driver.enabled ∧ s.driver.stopping ∧ s.driver.current = none ∧ s.driver.next = none ∧
        s.Offers block then
      some (s.disabled cfg callbackErr block err)
    else none
  | .stopped =>
    if s.driver.enabled then
      some { s with enableRxRetry := true, driver := { s.driver with stopping := true } }
    else none

def rxSys (cfg : RxConfig) (baudrate : ℕ) : Lts RxState RxEvent :=
  ⟨.start cfg baudrate, RxState.step cfg⟩

/-! ## What it is for -/

namespace RxState

variable (cfg : RxConfig) (s : RxState)

/-- The data events that the subscribers have not read, the oldest first. -/
def events : List DataEvent :=
  (match s.thread with
    | .handling event => [event]
    | _ => []) ++ s.queue.filterMap BridgeEvent.dataEvent

/-- Their bytes, as they lie in memory. -/
def unread : Bytes := s.events.flatMap fun event => bytesAt s.memory event.buf event.len

/-- What the driver received and has not reported. -/
def unreported : Bytes :=
  s.driver.current.elim [] fun c => bytesAt s.memory (c.buf + c.reported) (c.pos - c.reported)

/-- Reception is on, is about to be enabled or comes back after a stop. -/
def receives : Bool :=
  match s.thread with
  | .enabling _ => true
  | _ => s.driver.enabled && (!s.driver.stopping || s.enableRxRetry)

/-- What the handler of the peers sees of it. -/
def handler : Bt.UartHandler := ⟨true, s.subscriberCount, s.receives⟩

end RxState

/-- The event of a peer that an event submits. -/
def RxEvent.submitted : RxEvent → Option PeerConnState
  | .submit state _ => some state
  | _ => none

def BridgeEvent.peer : BridgeEvent → Option PeerConnState
  | .data _ => none
  | .peerConn state _ => some state

/-- Nothing goes wrong with reception: the first subscriber comes when the driver is off and a
block is free, the last one goes when the driver is not stopping by itself, reception is enabled
and disabled without an error, and there is a next buffer when one is full. -/
def RxSteady (s : RxState) : RxEvent → Prop
  | .take _ callbackErr disableErr _ =>
    match s.queue with
    | .peerConn .connected _ :: _ =>
      s.subscriberCount = 0 → s.driver.enabled = false ∧ callbackErr = 0 ∧ s.slab.free ≠ ∅
    | .peerConn .disconnected _ :: _ =>
      s.subscriberCount = 1 → disableErr = 0 ∧ s.driver.stopping = false
    | _ => True
  | .rxEnable err => err = 0
  | .bufReleased => s.driver.next ≠ none ∨ s.driver.stopping = true
  | .disabled callbackErr _ err =>
    s.enableRxRetry = true → callbackErr = 0 ∧ s.slab.free ≠ ∅ ∧ err = 0
  | .stopped => s.driver.stopping = false
  | _ => True

/-- A peer that goes has come. -/
def Departs (s : RxState) : RxEvent → Prop
  | .take _ _ _ _ =>
      s.queue.head?.bind BridgeEvent.peer = some .disconnected → 0 < s.subscriberCount
  | _ => True

end Heaty.Uart
