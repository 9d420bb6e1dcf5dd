import Heaty.Spec.UartHandler

/-! The Bluetooth module together with what drives it: the stack's callbacks in
any order the stack can deliver, the work queue, the module thread, and the
event manager that hands the submitted events to the UART handler. The module
thread is preempted between any two of its steps. -/

namespace Heaty.Bt

variable {Conn : Type}

/-- `CONFIG_BT_MAX_CONN` and `CONFIG_BLE_AUTOSTART_ADVERTISING`. -/
structure Config where
  maxConn : ℕ
  autostart : Bool

/-- `live` is the stack's own view: the connections that are up, each with
whether its last CCC write since it came up enabled the bridge's notifications.
`advertising` is the controller, `sent` what `serialSend_cb` was called with. -/
structure BleSys (Conn : Type) where
  bt : Module Conn
  thread : Thread
  uart : UartHandler
  live : List (Conn × Bool)
  advertising : Bool
  sent : List (Option Conn × Notification)

def BleSys.start (cfg : Config) : BleSys Conn where
  bt := Module.start cfg.maxConn
  thread := .idle
  uart := .start
  live := []
  advertising := false
  sent := []

/-- Deliveries of the environment and steps of the threads. -/
inductive Event (Conn : Type)
  | connected (conn : Conn) (err : UInt8)
  | disconnected (conn : Conn) (reason : UInt8)
  | exchangeFunc (conn : Conn) (err : UInt8) (gattMtu : ℕ)
  | cccWrite (conn : Conn) (value : UInt16)
  | advertise (err : ℤ)
  | btReady (err nusErr : ℤ)
  | dequeue (msg : Msg)
  | thread (stack : Bytes) (cbErr : ℤ)
  | process

/-- `on_state_*` for the dequeued message. A data message starts the loop over
the slots; everything else is done at once. -/
def BleSys.onMessage (s : BleSys Conn) (msg : Msg) : BleSys Conn :=
  let submitWork : BleSys Conn := { s with bt := { s.bt with advertiseWork := true } }
  let stop (state : StateType) : BleSys Conn :=
    { s with bt := { s.bt with state := state }, advertising := false }
  match s.bt.state, msg with
  | .connected, .startAdvertising | .connected, .toggleAdvertising => submitWork
  | .connected, .data msg => { s with thread := .slots msg 0 }
  | .connectedAdvertising, .toggleAdvertising => stop .connected
  | .connectedAdvertising, .startAdvertising => submitWork
  | .connectedAdvertising, .data msg => { s with thread := .slots msg 0 }
  | .advertising, .toggleAdvertising => stop .disconnected
  | .disconnected, .startAdvertising | .disconnected, .toggleAdvertising => submitWork
  | _, _ => s

/-- One step of the module thread inside `on_state_connected`. -/
def BleSys.threadStep (api : Base64Api) (s : BleSys Conn) (stack : Bytes) (cbErr : ℤ) :
    Option (BleSys Conn) :=
  match s.thread with
  | .idle => none
  | .slots msg i =>
      match s.bt.conns[i]? with
      | none => some { s with thread := .idle }
      | some slot =>
          if msg.selects slot ∧ s.bt.state.isConnected then
            let call := Call.enter msg.data msg.base64 slot.mtu stack
            some { s with thread := .sending msg i call [] }
          else some { s with thread := .slots msg (i + 1) }
  | .sending msg i call copies =>
      match s.bt.conns[i]? with
      | none => none
      | some slot =>
          if call.running then
            let it := call.iterate api slot.mtu
            let bt := if it.base64Failed then s.bt.submit (.error .base64Failed) else s.bt
            let bt := if cbErr ≠ 0 then bt.submit (.error .sendFailed) else bt
            let thread := .sending msg i it.call (copies ++ [it.copied])
            some { s with bt := bt, thread := thread, sent := s.sent ++ [(slot.conn, it.sent)] }
          else some { s with thread := .slots msg (i + 1) }

variable [DecidableEq Conn]

/-- The stack reports `connected` for a connection that is not up, and keeps at
most `maxConn` up; it reports `disconnected` and CCC writes for connections that
are up; an MTU it reports is a `uint16_t` of at least 23. -/
def BleSys.step (cfg : Config) (api : Base64Api) (s : BleSys Conn) :
    Event Conn → Option (BleSys Conn)
  | .connected conn err =>
      if conn ∈ s.live.map Prod.fst ∨ (err = 0 ∧ cfg.maxConn ≤ s.live.length) then none
      else
        let live := if err = 0 then (conn, false) :: s.live else s.live
        some { s with bt := s.bt.connected conn err, live := live, advertising := false }
  | .disconnected conn _ =>
      if conn ∈ s.live.map Prod.fst then
        let live := s.live.filter fun peer => peer.1 ≠ conn
        some { s with bt := s.bt.disconnected conn, live := live }
      else none
  | .exchangeFunc conn err gattMtu =>
      if 23 ≤ gattMtu ∧ gattMtu < 65536 then
        some { s with bt := s.bt.exchangeFunc conn err gattMtu }
      else none
  | .cccWrite conn value =>
      if conn ∈ s.live.map Prod.fst then
        let live := (conn, decide (value = 1)) :: s.live.filter fun peer => peer.1 ≠ conn
        some { s with bt := s.bt.cccWrite conn value, live := live }
      else none
  | .advertise err =>
      let starts := s.bt.state = .init ∨ s.bt.state = .disconnected ∨ s.bt.state = .connected
      let advertising := if starts ∧ err = 0 then true else s.advertising
      some { s with bt := s.bt.advertise err, advertising := advertising }
  | .btReady err nusErr => some { s with bt := s.bt.btReady cfg.autostart err nusErr }
  | .dequeue msg =>
      match s.thread with
      | .idle => some (s.onMessage msg)
      | _ => none
  | .thread stack cbErr => s.threadStep api stack cbErr
  | .process =>
      match s.bt.submitted with
      | [] => none
      | .peerConn state :: rest =>
          some { s with bt := { s.bt with submitted := rest }, uart := s.uart.peerConn state }
      | .error _ :: rest => some { s with bt := { s.bt with submitted := rest } }

def bleSys (Conn : Type) [DecidableEq Conn] (cfg : Config) (api : Base64Api) :
    Lts (BleSys Conn) (Event Conn) where
  init := BleSys.start cfg
  step := BleSys.step cfg api

end Heaty.Bt
