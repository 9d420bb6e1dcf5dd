import Heaty.Lib.Run
import Heaty.Spec.Analysis

/-! The transmitting side of uart_handler.c for `UART_0`: what the events of the bridge put in
its ring buffer, and the driver, whose interrupts come between any two operations of the
thread. -/

namespace Heaty.Uart

open Analysis (RingBufApi RingState)

/-- Zephyr's ring buffer with the memory under it, which `uart_tx` reads. -/
structure TxRingApi extends RingBufApi where
  memory : Buf → ℕ → UInt8

/-- What is in a ring buffer lies in its memory, from where it starts and round the end. -/
structure TxRingApi.Documented (api : TxRingApi) : Prop extends api.toRingBufApi.Documented where
  memory : ∀ b, (api.state b).contents = (List.range (api.state b).contents.length).map fun i =>
    api.memory b (((api.state b).first + i) % (api.state b).capacity)

/-- A queue in a ring of bytes. -/
def zephyrTxRing : TxRingApi where
  toRingBufApi := Analysis.zephyrRingBuf
  memory := RingQueue.cells

theorem zephyrTxRing_documented : zephyrTxRing.Documented where
  toDocumented := Analysis.zephyrRingBuf_documented
  memory := fun r : RingQueue UInt8 => by
    change r.contents = (List.range r.contents.length).map _
    rw [r.length_contents]
    rfl

def enomem : ℤ := 12

/-- `sizeof(uart_tx_ringbufs[0].buf)`: an array of `CONFIG_BRIDGE_BUF_SIZE` words. -/
def sizeofTxBuf (bufSize : ℕ) : ℕ := 4 * bufSize

/-- What `uart_tx` was given, and how much of that is on the wire. -/
structure Transfer where
  buf : ℕ
  len : ℕ
  sent : ℕ
  deriving DecidableEq

/-- Where the thread is in `uart_tx_enqueue`. -/
inductive TxThread
  | idle
  /-- In `ring_buf_put`, which has found room for so many bytes. -/
  | putting (data : Bytes) (written : ℕ)
  | written
  | starting
  | claimed (buf len : ℕ)
  /-- `uart_tx_start` has returned an error. -/
  | failed
  deriving DecidableEq

/-- One call of `uart_tx_enqueue`: the data, how much of it was put, and what was returned. -/
structure Enqueued where
  data : Bytes
  written : ℕ
  result : ℤ
  deriving DecidableEq

/-- `uart_tx_ringbufs[0].rb`, `uart_tx_started[0]`, the thread and the driver, with the calls
of `uart_tx_enqueue` so far and the bytes that went out. -/
structure TxState (api : TxRingApi) where
  rb : api.Buf
  started : Bool
  thread : TxThread
  driver : Option Transfer
  log : List Enqueued
  wire : Bytes

namespace TxState

variable {api : TxRingApi}

/-- After the main module's READY event. -/
def start (api : TxRingApi) (bufSize : ℕ) : TxState api where
  rb := api.declare (sizeofTxBuf bufSize)
  started := false
  thread := .idle
  driver := none
  log := []
  wire := []

/-- What is in the ring buffer. -/
def ring (s : TxState api) : RingState := api.state s.rb

/-- `uart_tx_finish`. -/
def uartTxFinish (s : TxState api) (len : ℕ) : TxState api :=
  { s with rb := api.getFinish s.rb len }

/-- `ring_buf_get_claim` in `uart_tx_start`. -/
def getClaim (bufSize : ℕ) (s : TxState api) : TxState api :=
  { s with rb := api.getClaim s.rb (sizeofTxBuf bufSize) }

/-- The rest of `uart_tx_start`, where `uart_tx` returns `err`. -/
def uartTx (s : TxState api) (buf len : ℕ) (err : ℤ) : TxState api :=
  if err = 0 then { s with driver := some ⟨buf, len, 0⟩ } else s.uartTxFinish 0

/-- `uart_tx_start` in the interrupt. -/
def uartTxStart (bufSize : ℕ) (s : TxState api) (err : ℤ) : TxState api :=
  let s := s.getClaim bufSize
  s.uartTx s.ring.first s.ring.claimed err

/-- `uart_callback` with `UART_TX_DONE`, where a restart returns `err`. -/
def txDone (bufSize : ℕ) (s : TxState api) (len : ℕ) (err : ℤ) : TxState api :=
  let s := { s with driver := none }.uartTxFinish len
  if s.ring.contents = [] then { s with started := false } else s.uartTxStart bufSize err

/-- `uart_callback` with `UART_TX_ABORTED`. -/
def txAborted (s : TxState api) (len : ℕ) : TxState api :=
  let s := { s with driver := none }.uartTxFinish len
  { s with started := false }

/-- What `uart_tx_enqueue` returns. -/
def enqueueResult (written dataLen : ℕ) : ℤ :=
  if written = 0 then -enomem else if written = dataLen then 0 else -enomem

/-- `ring_buf_put` gives the bytes it found room for to the queue. -/
def put (s : TxState api) (data : Bytes) (written : ℕ) : TxState api :=
  { s with
    rb := api.put s.rb (data.take written)
    log := s.log ++ [⟨data, written, enqueueResult written data.length⟩]
    thread := if written = 0 then .idle else .written }

end TxState

inductive TxEvent
  /-- A `cdc_data_event` or a `ble_data_event` comes, and `ring_buf_put` looks for room. -/
  | enqueue (data : Bytes)
  /-- `ring_buf_put` looks for room again. -/
  | look
  | put
  | setStarted
  | getClaim
  | uartTx (err : ℤ)
  | clearStarted
  /-- The driver sends a byte. -/
  | txByte
  | txDone (err : ℤ)
  | txAborted
  deriving DecidableEq

/-- The driver takes one transfer at a time, and reports one as done when all of it is sent;
an aborted one, with what was sent of it. -/
def TxState.step (bufSize : ℕ) {api : TxRingApi} (s : TxState api) : TxEvent → Option (TxState api)
  | .enqueue data =>
    if s.thread = .idle then
      some { s with thread := .putting data (min data.length (api.spaceGet s.rb)) }
    else none
  | .look =>
    match s.thread with
    | .putting data _ =>
      some { s with thread := .putting data (min data.length (api.spaceGet s.rb)) }
    | _ => none
  | .put =>
    match s.thread with
    | .putting data written => some (s.put data written)
    | _ => none
  | .setStarted =>
    if s.thread = .written then
      some { s with started := true, thread := if s.started then .idle else .starting }
    else none
  | .getClaim =>
    if s.thread = .starting then
      let s := s.getClaim bufSize
      some { s with thread := .claimed s.ring.first s.ring.claimed }
    else none
  | .uartTx err =>
    match s.thread with
    | .claimed buf len =>
      if err = 0 ∧ s.driver.isSome then none
      else some { s.uartTx buf len err with thread := if err = 0 then .idle else .failed }
    | _ => none
  | .clearStarted =>
    if s.thread = .failed then some { s with started := false, thread := .idle } else none
  | .txByte =>
    match s.driver with
    | some t =>
      if t.sent < t.len then
        some { s with
          driver := some { t with sent := t.sent + 1 }
          wire := s.wire ++ [api.memory s.rb (t.buf + t.sent)] }
      else none
    | none => none
  | .txDone err =>
    match s.driver with
    | some t => if t.sent = t.len then some (s.txDone bufSize t.len err) else none
    | none => none
  | .txAborted =>
    match s.driver with
    | some t => some (s.txAborted t.sent)
    | none => none

def txSys (api : TxRingApi) (bufSize : ℕ) : Lts (TxState api) TxEvent :=
  ⟨.start api bufSize, TxState.step bufSize⟩

/-! ## What it is for -/

namespace TxState

variable {api : TxRingApi} (s : TxState api)

/-- What the calls of `uart_tx_enqueue` took in, one after another. -/
def accepted : Bytes := s.log.flatMap fun call => call.data.take call.written

/-- How much of the transfer that runs is on the wire. -/
def sent : ℕ := (s.driver.map Transfer.sent).getD 0

/-- What is in the ring buffer and not on the wire. -/
def unsent : Bytes := s.ring.contents.drop s.sent

/-- The thread is outside `uart_tx_enqueue`, and the driver sends nothing. -/
def Quiet : Prop := s.thread = .idle ∧ s.driver = none

end TxState

/-- No transfer is refused or aborted. -/
def TxEvent.Succeeds : TxEvent → Prop
  | .uartTx err | .txDone err => err = 0
  | .txAborted => False
  | _ => True

/-- The driver goes on, and no transfer is refused. -/
def TxEvent.Drives : TxEvent → Prop
  | .txByte => True
  | .txDone err => err = 0
  | _ => False

end Heaty.Uart
