import Heaty.Spec.McuExchange

/-! Two MCU-exchange modules on a UART: their event queues and module threads, the
producers of their events, and the line between them, on which bytes may also get
lost or appear. Each `uart_dev` is bound. The event manager's queue and the
module's message queue are one, since an event goes through both in order. -/

namespace Heaty.Mcu

open Utils

/-- An event as a producer submits it: `new_mcu_exchange_module_event` does not
clear memory, so that `received` is `garbage` unless assigned. -/
def newEvent (type : EventType) (received : Option Bool) (data : Bytes) (garbage : Bool) :
    ModuleEvent :=
  ⟨type, received.getD garbage, data⟩

/-- The producers of events under src/: commCtrl_module.c, the shells of the two
controllers, control.c and sensors_module.c of the nRF9160, and the initialization
in `handle_msg`. The text of the shell's test is left open. -/
inductive Producer
  | sendToNrf9160 (data : Bytes)
  | commCtrlError
  | mockError
  | handleButtonEvent
  | handleSensorEvent
  | initReady
  | initError
  | testHeatMapData (mock : Bytes)
  deriving DecidableEq

/-- The event a producer raises, if any. -/
def Producer.event (garbage : Bool) : Producer → Option ModuleEvent
  | .sendToNrf9160 data =>
      if 0 < data.length then some (newEvent .heatMapDataReady (some false) data garbage) else none
  | .commCtrlError => some (newEvent .error (some false) [] garbage)
  | .mockError => some (newEvent .error (some false) [] garbage)
  | .handleButtonEvent => some (newEvent .button none [] garbage)
  | .handleSensorEvent => some (newEvent .button none [] garbage)
  | .initReady => some (newEvent .ready (some false) [] garbage)
  | .initError => some (newEvent .error (some false) [] garbage)
  | .testHeatMapData mock => some (newEvent .dataReady none (mock ++ [0]) garbage)

/-- Where a queued event came from. -/
inductive Origin
  | producer (p : Producer)
  | uartRxHandler
  | handleMessage
  deriving DecidableEq

structure Queued where
  event : ModuleEvent
  origin : Origin
  deriving DecidableEq

/-- The types `handle_msg` passes to `send_message`. -/
def EventType.isWire : EventType → Bool
  | .heatMapDataReady | .button | .error => true
  | .ready | .dataReady => false

/-- An event raised on this side that is meant for the other. -/
def Queued.isLocalWire (q : Queued) : Bool :=
  match q.origin with
  | .producer _ => q.event.type.isWire
  | _ => false

/-- One module: its queue, receiver and thread, and the history of what was
raised, sent (with its text), handed to `handle_message`, and written to the UART. -/
structure Node where
  queue : List Queued
  rx : Rx
  halted : Bool
  raised : List Queued
  sent : List (Queued × Bytes)
  handled : List Queued
  output : Bytes

def Node.start (bufSize : ℕ) : Node := ⟨[], Rx.start bufSize, false, [], [], [], []⟩

/-- `EVENT_SUBMIT`. -/
def Node.submit (n : Node) (q : Queued) : Node :=
  { n with
    queue := n.queue ++ [q]
    raised := if q.isLocalWire then n.raised ++ [q] else n.raised }

/-- What the module thread meets while it handles a message. -/
structure ThreadEnv where
  encode : EncodeEnv
  parse : ParseEnv
  garbage : Bytes

/-- `send_message`, with what it writes to the UART. -/
def Node.sendMessage (base64 : Base64Api) (cjson : CJsonApi) (env : EncodeEnv) (n : Node)
    (q : Queued) : Node × Bytes :=
  if q.event.received then (n, [])
  else
    match encodeMessage base64 cjson env q.event.type.number q.event.data with
    | none => (n, [])
    | some jsonString =>
        ({ n with sent := n.sent ++ [(q, jsonString)], output := n.output ++ (jsonString ++ [0]) },
          jsonString ++ [0])

/-- `handle_msg` on the next message. After a NULL pointer was followed the thread
does not run again. -/
def Node.handleMsg (base64 : Base64Api) (cjson : CJsonApi) (env : ThreadEnv) (n : Node) :
    Option (Node × Bytes) :=
  if n.halted then none
  else
    match n.queue with
    | [] => none
    | q :: rest =>
        let n := { n with queue := rest }
        if q.event.type.isWire then some (n.sendMessage base64 cjson env.encode q)
        else if q.event.type = .dataReady then
          let n := { n with handled := n.handled ++ [q] }
          match handleMessage base64 cjson env.parse env.garbage q.event.data with
          | none => some ({ n with halted := true }, [])
          | some h => some (n.submit ⟨h.event, .handleMessage⟩, [])
        else some (n, [])

/-- A received character. -/
def Node.receive (n : Node) (garbage : Bool) (character : UInt8) : Node :=
  let r := uartRxHandler n.rx garbage character
  let n := { n with rx := r.1 }
  match r.2 with
  | none => n
  | some event => n.submit ⟨event, .uartRxHandler⟩

/-- The two modules, and for each the bytes it wrote that have not arrived. -/
structure Exchange where
  node : Bool → Node
  line : Bool → Bytes

inductive ExchangeEvent
  | raise (n : Bool) (p : Producer) (garbage : Bool)
  | thread (n : Bool) (env : ThreadEnv)
  | arrive (n : Bool) (garbage : Bool)
  | noise (n : Bool) (character : UInt8) (garbage : Bool)
  | lose (n : Bool)

def Exchange.setNode (s : Exchange) (i : Bool) (n : Node) : Exchange :=
  { s with node := Function.update s.node i n }

/-- `arrive`, `noise` and `lose` are about the bytes on their way to module `n`. -/
def Exchange.step (base64 : Base64Api) (cjson : CJsonApi) (s : Exchange) :
    ExchangeEvent → Option Exchange
  | .raise n p garbage =>
      match p.event garbage with
      | none => none
      | some event => some (s.setNode n ((s.node n).submit ⟨event, .producer p⟩))
  | .thread n env =>
      ((s.node n).handleMsg base64 cjson env).map fun r =>
        { s.setNode n r.1 with line := Function.update s.line n (s.line n ++ r.2) }
  | .arrive n garbage =>
      match s.line !n with
      | [] => none
      | c :: rest =>
          some { s.setNode n ((s.node n).receive garbage c) with
            line := Function.update s.line (!n) rest }
  | .noise n c garbage => some (s.setNode n ((s.node n).receive garbage c))
  | .lose n =>
      match s.line !n with
      | [] => none
      | _ :: rest => some { s with line := Function.update s.line (!n) rest }

/-- Two modules with receive buffers of the given size. -/
def exchange (bufSize : ℕ) (base64 : Base64Api) (cjson : CJsonApi) :
    Lts Exchange ExchangeEvent where
  init := ⟨fun _ => Node.start bufSize, fun _ => []⟩
  step := Exchange.step base64 cjson

end Heaty.Mcu
