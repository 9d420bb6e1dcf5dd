import Heaty.Spec.UartRx
import Heaty.Spec.UartTx

/-! usb_cdc_handler.c, for its one device: the data that comes over USB on its way to the UART,
with the writes of the Bluetooth peer between it, and the polls of the DTR signal, which make
USB a peer of the UART. -/

namespace Heaty.Uart

open Bt (PeerConnState)

/-! ## Data for the UART -/

/-- The blocks of `cdc_rx_slab`, of which there are `USB_CDC_RX_BLOCK_COUNT`. -/
def cdcBlocks : Finset ℕ := Finset.range 3

/-- `sizeof(overflow_buf)`. -/
def sizeofOverflowBuf : ℕ := 64

/-- The events with data for the UART: a `cdc_data_event`, whose data is in a block, and a
`ble_data_event`, which has memory of its own. -/
inductive SendEvent
  | cdc (block len : ℕ)
  | ble (data : Bytes)
  deriving DecidableEq

def SendEvent.fromCdc : SendEvent → Bool
  | .cdc _ _ => true
  | .ble _ => false

/-- Where `cdc_uart_interrupt_handler` is. -/
inductive CdcIrq
  | idle
  /-- It has a block, or reads into `overflow_buf`. -/
  | reading (block : Option ℕ)
  deriving DecidableEq

/-- Where the thread of the events is. -/
inductive SendThread
  | idle
  | handling (event : SendEvent)
  /-- In `uart_tx_enqueue`. -/
  | enqueuing (event : SendEvent)
  deriving DecidableEq

/-- What `uart_fifo_read` returned, into a block of the slab or into `overflow_buf`. -/
structure CdcRead where
  inBlock : Bool
  data : Bytes
  deriving DecidableEq

/-- What `uart_tx_enqueue` was called with. -/
structure Given where
  fromCdc : Bool
  data : Bytes
  deriving DecidableEq

/-- The slab with the contents of its blocks, the interrupt handler, the events and the thread,
and the transmitting side of the UART; with what was read from USB, and what the thread has
given to the UART. -/
structure SendState (api : TxRingApi) where
  free : Finset ℕ
  memory : ℕ → Bytes
  irq : CdcIrq
  queue : List SendEvent
  thread : SendThread
  tx : TxState api
  reads : List CdcRead
  given : List Given

inductive SendEv
  /-- The interrupt handler gets a block, if there is a free one. -/
  | alloc (block : ℕ)
  /-- `uart_fifo_read` returns these bytes. -/
  | fifoRead (data : Bytes)
  /-- The Bluetooth peer has written. -/
  | bleWrite (data : Bytes)
  | take
  /-- `uart_handler` calls `uart_tx_enqueue`. -/
  | enqueue
  /-- The UART goes on. -/
  | tx (e : TxEvent)
  /-- `uart_tx_enqueue` has returned, and the last subscriber frees the data. -/
  | done
  deriving DecidableEq

namespace SendState

variable {api : TxRingApi}

def start (api : TxRingApi) (bufSize : ℕ) : SendState api where
  free := cdcBlocks
  memory := fun _ => []
  irq := .idle
  queue := []
  thread := .idle
  tx := .start api bufSize
  reads := []
  given := []

/-- The data of an event. -/
def dataOf (memory : ℕ → Bytes) : SendEvent → Bytes
  | .cdc block len => (memory block).take len
  | .ble data => data

/-- The handler reads what there is into its block and submits an event, or frees the block if
there is nothing. -/
def fifoRead (s : SendState api) (block : ℕ) (data : Bytes) : SendState api :=
  let s := { s with irq := .idle }
  if data.length ≠ 0 then
    { s with
      memory := Function.update s.memory block data
      queue := s.queue ++ [.cdc block data.length]
      reads := s.reads ++ [⟨true, data⟩] }
  else { s with free := insert block s.free }

/-- The data of an event goes: `k_mem_slab_free` for a block. -/
def freed (s : SendState api) : SendEvent → SendState api
  | .cdc block _ => { s with free := insert block s.free, thread := .idle }
  | .ble _ => { s with thread := .idle }

/-- A block has `CONFIG_BRIDGE_BUF_SIZE` bytes. -/
def step (bufSize : ℕ) (s : SendState api) : SendEv → Option (SendState api)
  | .alloc block =>
    if s.irq = .idle then
      if s.free = ∅ then some { s with irq := .reading none }
      else if block ∈ s.free then
        some { s with free := s.free.erase block, irq := .reading (some block) }
      else none
    else none
  | .fifoRead data =>
    match s.irq with
    | .reading (some block) => if data.length ≤ bufSize then some (s.fifoRead block data) else none
    | .reading none =>
      if data.length ≤ sizeofOverflowBuf then
        some { s with irq := .idle, reads := s.reads ++ [⟨false, data⟩] }
      else none
    | .idle => none
  | .bleWrite data => some { s with queue := s.queue ++ [.ble data] }
  | .take =>
    match s.thread, s.queue with
    | .idle, event :: queue => some { s with queue := queue, thread := .handling event }
    | _, _ => none
  | .enqueue =>
    match s.thread with
    | .handling event =>
      (s.tx.step bufSize (.enqueue (dataOf s.memory event))).map fun tx =>
        { s with
          tx := tx
          thread := .enqueuing event
          given := s.given ++ [⟨event.fromCdc, dataOf s.memory event⟩] }
    | _ => none
  | .tx (.enqueue _) => none
  | .tx e => (s.tx.step bufSize e).map fun tx => { s with tx := tx }
  | .done =>
    match s.thread with
    | .enqueuing event => if s.tx.thread = .idle then some (s.freed event) else none
    | _ => none

/-- What was read into blocks of the slab. The rest is lost. -/
def received (s : SendState api) : Bytes :=
  (s.reads.filter CdcRead.inBlock).flatMap CdcRead.data

/-- The events whose data has not been given to the UART. -/
def pending (s : SendState api) : List SendEvent :=
  (match s.thread with
    | .handling event => [event]
    | _ => []) ++ s.queue

/-- The data of those from USB. -/
def waiting (s : SendState api) : Bytes :=
  (s.pending.filter SendEvent.fromCdc).flatMap (dataOf s.memory)

end SendState

/-- What `uart_tx_enqueue` was called with and has not put. -/
def TxState.putting {api : TxRingApi} (s : TxState api) : List Bytes :=
  match s.thread with
  | .putting data _ => [data]
  | _ => []

def sendSys (api : TxRingApi) (bufSize : ℕ) : Lts (SendState api) SendEv :=
  ⟨.start api bufSize, SendState.step bufSize⟩

/-! ## Peers of the UART -/

/-- What `uart_line_ctrl_get` answers when DTR is polled. -/
structure DtrPoll where
  dtrErr : ℤ
  dtr : ℕ
  baudErr : ℤ
  baudrate : ℕ
  deriving DecidableEq

/-- `poll_dtr`: the new `cdc_ready[0]`, and the event that is submitted. -/
def pollDtr (cdcReady : ℕ) (poll : DtrPoll) : ℕ × Option (PeerConnState × ℕ) :=
  if poll.dtrErr ≠ 0 then (cdcReady, none)
  else if poll.dtr = cdcReady then (cdcReady, none)
  else if poll.baudErr ≠ 0 then (cdcReady, none)
  else (poll.dtr, some (if poll.dtr = 0 then .disconnected else .connected, poll.baudrate))

/-- `cdc_ready[0]`, the Bluetooth peers that listen, and the receiving side of the UART. -/
structure PeersState where
  cdcReady : ℕ
  listeners : Finset ℕ
  rx : RxState

inductive PeersEvent
  /-- The timer or the interrupt handler polls. -/
  | poll (poll : DtrPoll)
  /-- A Bluetooth peer writes the CCC of the bridge. -/
  | cccWrite (conn : ℕ) (enabled : Bool)
  | disconnected (conn : ℕ)
  /-- The receiving side goes on. -/
  | rx (e : RxEvent)
  deriving DecidableEq

namespace PeersState

def start (cfg : RxConfig) (baudrate : ℕ) : PeersState := ⟨0, ∅, .start cfg baudrate⟩

/-- A module submits an event of its peer. -/
def submit (s : PeersState) (state : PeerConnState) (baudrate : ℕ) : PeersState :=
  { s with rx := { s.rx with queue := s.rx.queue ++ [.peerConn state baudrate] } }

/-- DTR is 0 or 1. The Bluetooth module submits an event for every write, without a baud rate,
and none when a peer disconnects. -/
def step (cfg : RxConfig) (s : PeersState) : PeersEvent → Option PeersState
  | .poll poll =>
    if poll.dtr ≤ 1 then
      match pollDtr s.cdcReady poll with
      | (ready, some (state, baudrate)) => some { s.submit state baudrate with cdcReady := ready }
      | (ready, none) => some { s with cdcReady := ready }
    else none
  | .cccWrite conn true =>
    some { s.submit .connected 0 with listeners := insert conn s.listeners }
  | .cccWrite conn false =>
    some { s.submit .disconnected 0 with listeners := s.listeners.erase conn }
  | .disconnected conn => some { s with listeners := s.listeners.erase conn }
  | .rx (.submit _ _) => none
  | .rx e => (s.rx.step cfg e).map fun rx => { s with rx := rx }

end PeersState

def peersSys (cfg : RxConfig) (baudrate : ℕ) : Lts PeersState PeersEvent :=
  ⟨.start cfg baudrate, PeersState.step cfg⟩

/-- Nothing goes wrong with reception, a write changes whether its peer listens, and no peer
disconnects while it does. -/
def PeersEvent.Steady (s : PeersState) : PeersEvent → Prop
  | .rx e => RxSteady s.rx e
  | .cccWrite conn enabled => conn ∈ s.listeners ↔ enabled = false
  | .disconnected conn => conn ∉ s.listeners
  | .poll _ => True

end Heaty.Uart
