import Heaty.Spec.Exchange

/-! The listeners of mcu_exchange's events on each controller. `EVENT_SUBMIT` gives an event
to all of them, so that each gets the events of its controller in the order in which they
were submitted. -/

namespace Heaty.Mcu

open Utils

/-- The event that `handle_msg` submits, if it comes to that. -/
def Node.submitted (base64 : Base64Api) (cjson : CJsonApi) (env : ThreadEnv) (n : Node) :
    Option Queued :=
  match n.queue with
  | [] => none
  | q :: _ =>
      if q.event.type.isWire then none
      else if q.event.type = .dataReady then
        (handleMessage base64 cjson env.parse env.garbage q.event.data).map fun h =>
          ⟨h.event, .handleMessage⟩
      else none

/-- The event a received character completes. -/
def Node.completed (n : Node) (garbage : Bool) (character : UInt8) : Option Queued :=
  (uartRxHandler n.rx garbage character).2.map fun event => ⟨event, .uartRxHandler⟩

/-- The event that a step submits, with its controller. -/
def Exchange.submitted (base64 : Base64Api) (cjson : CJsonApi) (s : Exchange) :
    ExchangeEvent → Option (Bool × Queued)
  | .raise n p garbage => (p.event garbage).map fun event => (n, ⟨event, .producer p⟩)
  | .thread n env => ((s.node n).submitted base64 cjson env).map fun q => (n, q)
  | .arrive n garbage =>
      match s.line !n with
      | [] => none
      | c :: _ => ((s.node n).completed garbage c).map fun q => (n, q)
  | .noise n c garbage => ((s.node n).completed garbage c).map fun q => (n, q)
  | .lose _ => none

/-- The two modules, and what the listeners of each have got. -/
structure Listened where
  exchange : Exchange
  inbox : Bool → List Queued

/-- The inboxes after an event was submitted. -/
def hear (inbox : Bool → List Queued) : Option (Bool × Queued) → Bool → List Queued
  | none => inbox
  | some (n, q) => Function.update inbox n (inbox n ++ [q])

def Listened.step (base64 : Base64Api) (cjson : CJsonApi) (s : Listened) (e : ExchangeEvent) :
    Option Listened :=
  (s.exchange.step base64 cjson e).map fun exchange =>
    ⟨exchange, hear s.inbox (s.exchange.submitted base64 cjson e)⟩

/-- Two modules with receive buffers of the given size, and their listeners. -/
def listened (bufSize : ℕ) (base64 : Base64Api) (cjson : CJsonApi) :
    Lts Listened ExchangeEvent where
  init := ⟨(exchange bufSize base64 cjson).init, fun _ => []⟩
  step := Listened.step base64 cjson

end Heaty.Mcu
