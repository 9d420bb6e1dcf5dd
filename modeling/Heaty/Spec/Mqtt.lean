import Heaty.Lib.Ledger
import Heaty.Lib.Run
import Heaty.Spec.ModulesCommon

/-! mqtt_module.c and mqtt_client.c: the module thread, the callbacks that the MQTT
library runs in an `mqtt_poll` thread or while it disconnects, and those threads. The
library, the sockets and `k_msgq_put` may do anything they can do. -/

namespace Heaty.Mqtt

open Common (putReturns moduleEnqueueMsg)
open Ledger (Op)

/-- `enum state_type` of mqtt_module.c. -/
inductive StateType
  | init
  | connected
  | disconnected
  | error
  deriving DecidableEq, Repr

/-- `enum mqtt_module_event_type`. -/
inductive EventType
  | connect
  | connected
  | disconnected
  | send
  | subscribe
  | received
  | error
  deriving DecidableEq, Repr

/-- `struct mqtt_module_event` with the bytes that lie at `data.msg.message`, whether
its sender has assigned them or not; 0 is NULL. A topic is a static string. -/
structure MqttEvent where
  type : EventType
  message : ℕ
  deriving DecidableEq

/-- `struct mqtt_msg_data`. A `module_state_event` ends before `data.msg.message`, so
that this is still 0 there. -/
inductive Msg
  | moduleState (mainReady : Bool)
  | mqtt (event : MqttEvent)
  deriving DecidableEq

/-- `msg->module.mqtt.data.msg.message`. -/
def Msg.message : Msg → ℕ
  | .moduleState _ => 0
  | .mqtt event => event.message

/-- The heap string that an `MQTT_EVT_SEND` hands over, if it carries one. -/
def Msg.string : Msg → Option ℕ
  | .mqtt ⟨.send, message⟩ => if message = 0 then none else some message
  | _ => none

/-- Where the module thread is: at `module_get_next_msg`, or in
`mqtt_client_module_connect`. -/
inductive Thread
  | idle
  | connecting
  deriving DecidableEq

/-- The module and its threads. `submitted` lists the types of the events it has
submitted that the event manager has not processed, `polls` counts the `mqtt_poll`
threads that run. `lastConnack` is the result of the last CONNACK, `disconnectSince`
whether a disconnect event has followed it. `memory` is the history of the strings. -/
structure Module where
  state : StateType
  queue : List Msg
  submitted : List EventType
  thread : Thread
  polls : ℕ
  lastConnack : Option ℤ
  disconnectSince : Bool
  memory : List (Op ℕ)

def Module.start : Module where
  state := .init
  queue := []
  submitted := []
  thread := .idle
  polls := 0
  lastConnack := none
  disconnectSince := false
  memory := []

/-- `MQTT_QUEUE_ENTRY_COUNT`. -/
def queueEntryCount : ℕ := 10

/-- The strings of the events in the queue. -/
def Module.strings (m : Module) : List ℕ := m.queue.filterMap Msg.string

/-- `EVENT_SUBMIT` of `SEND_EVENT`, `SEND_ERROR` and `mqtt_received_cb`, which assign no
message. -/
def Module.submit (m : Module) (type : EventType) : Module :=
  { m with submitted := m.submitted ++ [type] }

def Module.free (m : Module) (message : ℕ) : Module :=
  { m with memory := m.memory ++ [.free message] }

/-- `if (message) my_free(message)`. -/
def Module.freeMessage (m : Module) (message : ℕ) : Module :=
  if message ≠ 0 then m.free message else m

/-- `event_handler` when `k_msgq_put` returns `err`; the event's string, if it has
one, is handed over with it. -/
def Module.eventHandler (m : Module) (msg : Msg) (err : ℤ) : Module :=
  let m :=
    { m with
      queue := moduleEnqueueMsg m.queue msg err
      memory := m.memory ++ msg.string.toList.map .take }
  if err ≠ 0 then m.submit .error else m

/-- `on_state_init`, where `mqtt_client_module_init` returns `initErr`. -/
def Module.onStateInit (m : Module) (initErr : ℤ) : Msg → Module
  | .moduleState true =>
      if initErr ≠ 0 then { m with state := .error }
      else { m with state := .disconnected, thread := .connecting }
  | .mqtt ⟨.subscribe, message⟩ => (m.submit .error).freeMessage message
  | .mqtt ⟨.send, message⟩ => (m.submit .error).freeMessage message
  | _ => m

/-- `on_state_connected`; `mqtt_client_module_data_publish` reads the string. -/
def Module.onStateConnected (m : Module) : Msg → Module
  | .mqtt ⟨.send, message⟩ =>
      if message = 0 then m else { m with memory := m.memory ++ [Op.use message] }.free message
  | _ => m

/-- `on_state_disconnected`. -/
def Module.onStateDisconnected (m : Module) : Msg → Module
  | .mqtt ⟨.connect, _⟩ => { m with thread := .connecting }
  | .mqtt ⟨.subscribe, message⟩ => (m.submit .error).freeMessage message
  | .mqtt ⟨.send, message⟩ => (m.submit .error).freeMessage message
  | _ => m

/-- `on_state_error`, which does not look at the type. -/
def Module.onStateError (m : Module) (msg : Msg) : Module := m.freeMessage msg.message

/-- One turn of `module_thread_fn`, up to `mqtt_client_module_connect`. -/
def Module.handle (m : Module) (initErr : ℤ) (msg : Msg) : Module :=
  match m.state with
  | .init => m.onStateInit initErr msg
  | .connected => m.onStateConnected msg
  | .disconnected => m.onStateDisconnected msg
  | .error => m.onStateError msg

/-- `mqtt_client_module_connect`; a success of `fds_init` has created a thread. -/
def Module.connect (m : Module) (connectErr fdsErr : ℤ) : Module :=
  if connectErr ≠ 0 ∨ fdsErr ≠ 0 then { m with thread := .idle }
  else { m with thread := .idle, polls := m.polls + 1 }

/-- `mqtt_connected_cb`, which does not look at its argument. -/
def Module.connectedCb (m : Module) (_result : ℤ) : Module :=
  { m with state := .connected }.submit .connected

/-- `mqtt_disconnected_cb`. -/
def Module.disconnectedCb (m : Module) (_result : ℤ) : Module :=
  { m with state := .disconnected }.submit .disconnected

/-- `mqtt_received_cb`; the disconnect event that `mqtt_disconnect` raises is another
step. -/
def Module.receivedCb (m : Module) (result : ℤ) : Module :=
  if result ≠ 0 then m else m.submit .received

/-- `-EAGAIN`. -/
def eagain : ℤ := -11

/-- What one turn of the loop in `mqtt_poll` meets. -/
structure PollTurn where
  poll : ℤ
  mqttLive : ℤ
  pollin : Bool
  mqttInput : ℤ
  pollerr : Bool
  pollnval : Bool

/-- Whether the turn leaves the loop. -/
def PollTurn.leaves (turn : PollTurn) : Bool :=
  if turn.poll < 0 then true
  else if turn.mqttLive ≠ 0 ∧ turn.mqttLive ≠ eagain then true
  else if turn.pollin ∧ turn.mqttInput ≠ 0 then true
  else if turn.pollerr then true
  else turn.pollnval

/-- The event manager hands over an event from elsewhere, or processes the oldest one
of the module's own with whatever its unassigned bytes hold; the module thread takes a
message or goes on with a connect; the library raises an event; an `mqtt_poll` thread
makes a turn. -/
inductive Event
  | deliver (msg : Msg) (putErr : ℤ)
  | process (message : ℕ) (putErr : ℤ)
  | dequeue (initErr : ℤ)
  | connect (connectErr fdsErr : ℤ)
  | connack (result : ℤ)
  | disconnect (result : ℤ)
  | received (result : ℤ)
  | poll (turn : PollTurn)

/-- A string that is handed over is none of those that are still queued. The library
raises no event before `mqtt_client_module_init` has succeeded, and receives in an
`mqtt_poll` thread only. -/
def Module.step (m : Module) : Event → Option Module
  | .deliver msg putErr =>
      if putReturns queueEntryCount m.queue putErr ∧ (∀ b ∈ msg.string, b ∉ m.strings) then
        some (m.eventHandler msg putErr)
      else none
  | .process message putErr =>
      match m.submitted with
      | [] => none
      | type :: rest =>
          if putReturns queueEntryCount m.queue putErr ∧ type ≠ .send then
            some ({ m with submitted := rest }.eventHandler (.mqtt ⟨type, message⟩) putErr)
          else none
  | .dequeue initErr =>
      match m.thread, m.queue with
      | .idle, msg :: rest => some ({ m with queue := rest }.handle initErr msg)
      | _, _ => none
  | .connect connectErr fdsErr =>
      match m.thread with
      | .idle => none
      | .connecting => some (m.connect connectErr fdsErr)
  | .connack result =>
      if 0 < m.polls then
        some { m.connectedCb result with lastConnack := some result, disconnectSince := false }
      else none
  | .disconnect result =>
      if m.state = .connected ∨ m.state = .disconnected then
        some { m.disconnectedCb result with disconnectSince := true }
      else none
  | .received result => if 0 < m.polls then some (m.receivedCb result) else none
  | .poll turn =>
      if 0 < m.polls then some (if turn.leaves then { m with polls := m.polls - 1 } else m)
      else none

def mqttModule : Lts Module Event where
  init := Module.start
  step := Module.step

end Heaty.Mqtt
