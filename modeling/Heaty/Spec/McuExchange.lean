import Heaty.Lib.Run
import Heaty.Spec.Utils

/-! mcu_exchange.c: receiving characters, and handling the messages of the module
thread. -/

namespace Heaty.Mcu

open Utils

/-- `enum mcu_exchange_module_event_type`. -/
inductive EventType
  | ready
  | dataReady
  | heatMapDataReady
  | button
  | error
  deriving DecidableEq, Repr

/-- The enumerator's value, which is what goes over the wire. -/
def EventType.number : EventType → ℤ
  | .ready => 0
  | .dataReady => 1
  | .heatMapDataReady => 2
  | .button => 3
  | .error => 4

/-- `struct mcu_exchange_module_event`, with the contents of its `dyndata`. -/
structure ModuleEvent where
  type : EventType
  received : Bool
  data : Bytes
  deriving DecidableEq

/-! ## Receiving -/

/-- `uart_buf` and the static `buf_pos` of `uart_rx_handler`. -/
structure Rx where
  uartBuf : Bytes
  bufPos : ℕ
  deriving DecidableEq

def Rx.start (bufSize : ℕ) : Rx := ⟨List.replicate bufSize 0, 0⟩

/-- `uart_rx_handler`. The event's `received` is not assigned and has the value
`garbage` of the memory it was allocated in. -/
def uartRxHandler (rx : Rx) (garbage : Bool) (character : UInt8) : Rx × Option ModuleEvent :=
  let uartBuf := rx.uartBuf.set rx.bufPos character
  if character = 0 then
    let event : ModuleEvent := ⟨.dataReady, garbage, uartBuf.take (rx.bufPos + 1)⟩
    (⟨uartBuf, 0⟩, if rx.bufPos = 0 then none else some event)
  else
    let bufPos := rx.bufPos + 1
    if bufPos > uartBuf.length - 1 then (⟨uartBuf, 0⟩, none) else (⟨uartBuf, bufPos⟩, none)

/-- The loop of `isr`: the characters of the FIFO with, for each, what an event
allocated for it would find in `received`. -/
def isr (rx : Rx) : List (UInt8 × Bool) → Rx × List ModuleEvent
  | [] => (rx, [])
  | (character, garbage) :: rest =>
      let r := uartRxHandler rx garbage character
      let t := isr r.1 rest
      (t.1, r.2.toList ++ t.2)

/-! ## Handling a frame -/

/-- What `handle_message` did: the event it submitted, and the indices of
`decoded_data` that were read beside the bytes that were written there. -/
structure Handled where
  event : ModuleEvent
  reads : List ℕ
  written : Bytes

/-- The `switch` of `handle_message`; `garbage` is the memory of the new event, which
has room for `len` bytes. -/
def dispatch (garbage : Bytes) (p : Parsed) : Option Handled :=
  if p.type = EventType.heatMapDataReady.number then
    match p.decodedData with
    | none => if p.len = 0 then some ⟨⟨.heatMapDataReady, true, []⟩, p.reads, p.written⟩ else none
    | some mem =>
        some ⟨⟨.heatMapDataReady, true, mem.take p.len⟩, p.reads ++ List.range p.len, p.written⟩
  else if p.type = EventType.button.number then
    some ⟨⟨.button, true, garbage.take p.len⟩, p.reads, p.written⟩
  else if p.type = EventType.dataReady.number then
    some ⟨⟨.dataReady, true, garbage.take p.len⟩, p.reads, p.written⟩
  else some ⟨⟨.error, true, garbage.take p.len⟩, p.reads, p.written⟩

/-- `handle_message`; `none` when it follows a NULL pointer. -/
def handleMessage (base64 : Base64Api) (cjson : CJsonApi) (env : ParseEnv) (garbage : Bytes)
    (message : Bytes) : Option Handled :=
  (parseMessage base64 cjson env (cstr message)).bind (dispatch garbage)

end Heaty.Mcu
