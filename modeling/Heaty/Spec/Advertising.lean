import Heaty.Spec.BleSystem

/-! The handlers of bt_module.c that start and stop advertising, cut where they call the
controller or touch `state` and `conn_cnt`, so that each may be preempted there by the
others: the work queue, `bt_ready`, the callbacks and the module thread. The controller
advertises after `bt_le_adv_start` has returned 0, until `bt_le_adv_stop` or until a
connection is completed. -/

namespace Heaty.Bt

variable {Conn : Type}

/-- The states that stand for an advertising controller. -/
def StateType.isAdvertising : StateType → Bool
  | .advertising | .connectedAdvertising => true
  | _ => false

/-- Where `advertise` is: before `bt_le_adv_start`, behind it, and before `state_set`. -/
inductive WorkPc
  | idle
  | starting
  | started
  | setting (state : StateType)
  deriving DecidableEq

/-- `bt_ready` is between its `k_work_submit` and its `state_set`. -/
inductive ReadyPc
  | idle
  | setting
  deriving DecidableEq

/-- Where the handler of a toggle is: before `bt_le_adv_stop`, and before `state_set`. -/
inductive StopPc
  | idle
  | stopping (state : StateType)
  | setting (state : StateType)
  deriving DecidableEq

/-- The module with its handlers and the controller. `live` are the connections that
are up; `completed` are the attempts that `connected` has not run for; `disconnected` is
behind its `conn_cnt--` for the connection that is `leaving`. -/
structure AdvSys (Conn : Type) where
  bt : Module Conn
  advertising : Bool
  live : List Conn
  work : WorkPc
  ready : ReadyPc
  completed : List (Conn × UInt8)
  leaving : Option Conn
  stop : StopPc

def AdvSys.start (cfg : Config) : AdvSys Conn where
  bt := Module.start cfg.maxConn
  advertising := false
  live := []
  work := .idle
  ready := .idle
  completed := []
  leaving := none
  stop := .idle

def AdvSys.setState (s : AdvSys Conn) (state : StateType) : AdvSys Conn :=
  { s with bt := { s.bt with state := state } }

def AdvSys.submitWork (s : AdvSys Conn) : AdvSys Conn :=
  { s with bt := { s.bt with advertiseWork := true } }

/-- Deliveries to the handlers, and their next steps. -/
inductive AdvEvent (Conn : Type)
  | work (err : ℤ)
  | btReady (err nusErr : ℤ)
  | ready
  | connected (conn : Conn) (err : UInt8)
  | callback
  | disconnected (conn : Conn) (reason : UInt8)
  | dequeue (msg : Msg)
  | stop

/-- The state in which `advertise` does anything. -/
def StateType.startsAdvertising : StateType → Bool
  | .init | .disconnected | .connected => true
  | _ => false

/-- `advertise`; `err` is what `bt_le_adv_start` returns. -/
def AdvSys.workStep (s : AdvSys Conn) (err : ℤ) : Option (AdvSys Conn) :=
  match s.work with
  | .idle =>
      if s.bt.advertiseWork then
        let work := if s.bt.state.startsAdvertising then .starting else .idle
        some { s with bt := { s.bt with advertiseWork := false }, work := work }
      else none
  | .starting =>
      if err ≠ 0 then some { s with bt := s.bt.submit (.error .advFailed), work := .started }
      else some { s with advertising := true, work := .started }
  | .started =>
      let state := if s.bt.connCnt > 0 then .connectedAdvertising else .advertising
      some { s with work := .setting state }
  | .setting state => some { s.setState state with work := .idle }

/-- `on_state_*` for the messages that start or stop advertising. -/
def AdvSys.onMessage (s : AdvSys Conn) (msg : Msg) : AdvSys Conn :=
  match s.bt.state, msg with
  | .connected, .startAdvertising | .connected, .toggleAdvertising => s.submitWork
  | .connectedAdvertising, .toggleAdvertising => { s with stop := .stopping .connected }
  | .connectedAdvertising, .startAdvertising => s.submitWork
  | .advertising, .toggleAdvertising => { s with stop := .stopping .disconnected }
  | .disconnected, .startAdvertising | .disconnected, .toggleAdvertising => s.submitWork
  | _, _ => s

def AdvSys.stopStep (s : AdvSys Conn) : Option (AdvSys Conn) :=
  match s.stop with
  | .idle => none
  | .stopping state => some { s with advertising := false, stop := .setting state }
  | .setting state => some { s.setState state with stop := .idle }

/-- The first part of `bt_ready`. -/
def AdvSys.btReady (cfg : Config) (s : AdvSys Conn) (err nusErr : ℤ) : AdvSys Conn :=
  if err ≠ 0 then s
  else if nusErr ≠ 0 then { s with bt := s.bt.submit (.error .btNusInitFailed) }
  else
    let bt := { s.bt with advertiseWork := s.bt.advertiseWork || cfg.autostart }
    { s with bt := bt, ready := .setting }

variable [DecidableEq Conn]

/-- `disconnected` behind its `conn_cnt--`. -/
def Module.leave (m : Module Conn) (conn : Conn) : Module Conn :=
  let m := if m.connCnt = 0 then { m with state := .disconnected } else m
  let cleared (slot : BtConnMyInfo Conn) :=
    { slot with conn := none, mtu := 0, serialNotifications := false }
  { m with conns := Slots.updateFirst (holds conn) cleared m.conns, advertiseWork := true }

/-- The stack runs its callbacks one after the other. -/
def AdvSys.callbackStep (s : AdvSys Conn) : Option (AdvSys Conn) :=
  match s.leaving, s.completed with
  | some conn, _ => some { s with bt := s.bt.leave conn, leaving := none }
  | none, (conn, err) :: rest => some { s with bt := s.bt.connected conn err, completed := rest }
  | none, [] => none

/-- An attempt completes for a connection that is not up; `disconnected` runs for one
that `connected` has run for. -/
def AdvSys.step (cfg : Config) (s : AdvSys Conn) : AdvEvent Conn → Option (AdvSys Conn)
  | .work err => s.workStep err
  | .btReady err nusErr =>
      match s.ready with
      | .idle => some (s.btReady cfg err nusErr)
      | .setting => none
  | .ready =>
      match s.ready with
      | .idle => none
      | .setting => some { s.setState .disconnected with ready := .idle }
  | .connected conn err =>
      if conn ∈ s.live ∨ (err = 0 ∧ cfg.maxConn ≤ s.live.length) then none
      else
        let live := if err = 0 then conn :: s.live else s.live
        let advertising := if err = 0 then false else s.advertising
        let completed := s.completed ++ [(conn, err)]
        some { s with live := live, advertising := advertising, completed := completed }
  | .callback => s.callbackStep
  | .disconnected conn _ =>
      if s.leaving = none ∧ conn ∈ s.live ∧ conn ∉ s.completed.map Prod.fst then
        let bt := { s.bt with connCnt := s.bt.connCnt - 1 }
        some { s with bt := bt, live := s.live.filter (· ≠ conn), leaving := some conn }
      else none
  | .dequeue msg =>
      match s.stop with
      | .idle => some (s.onMessage msg)
      | _ => none
  | .stop => s.stopStep

def advSys (Conn : Type) [DecidableEq Conn] (cfg : Config) : Lts (AdvSys Conn) (AdvEvent Conn) where
  init := AdvSys.start cfg
  step := AdvSys.step cfg

end Heaty.Bt
