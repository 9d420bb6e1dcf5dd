import Heaty.Lib.Run
import Heaty.Lib.Slots
import Heaty.Spec.SerialSend

/-! bt_module.c: the connection table, the callbacks of the Bluetooth stack, the
advertise work item and the module thread. All optional services are compiled
in; a build without one of them has fewer kinds of message. -/

namespace Heaty.Bt

open Slots

/-- `enum state_type` of bt_module.c. -/
inductive StateType
  | init
  | advertising
  | disconnected
  | connected
  | connectedAdvertising
  deriving DecidableEq, Repr

/-- The guard of `serialSend`. -/
def StateType.isConnected : StateType → Bool
  | .connected | .connectedAdvertising => true
  | _ => false

/-- `struct bt_conn_myInfo`; the default is its static initializer. -/
structure BtConnMyInfo (Conn : Type) where
  conn : Option Conn := none
  serialNotifications : Bool := false
  serialNrf91BridgeNotifications : Bool := false
  mtu : ℕ := 0
  deriving DecidableEq

/-- `enum peer_conn_state`. -/
inductive PeerConnState
  | connected
  | disconnected
  deriving DecidableEq, Repr

/-- `enum bt_module_event_error_codes`, as far as this file raises them. -/
inductive BtErrorCode
  | advFailed
  | btNusInitFailed
  | base64Failed
  | sendFailed
  deriving DecidableEq, Repr

/-- Events handed to `EVENT_SUBMIT`. The bridge's `peer_conn_event`s all have
`peer_id = PEER_ID_BLE`, `dev_idx = 0` and `baudrate = 0`. -/
inductive Submission
  | error (code : BtErrorCode)
  | peerConn (state : PeerConnState)
  deriving DecidableEq, Repr

variable {Conn : Type}

/-- The static variables of bt_module.c, and the events it has submitted that
the event manager has not processed. -/
structure Module (Conn : Type) where
  state : StateType
  conns : List (BtConnMyInfo Conn)
  connCnt : UInt8
  advertiseWork : Bool
  submitted : List Submission

/-- Static initialization; the state is `STATE_INIT`, the first enumerator. -/
def Module.start (maxConn : ℕ) : Module Conn where
  state := .init
  conns := List.replicate maxConn {}
  connCnt := 0
  advertiseWork := false
  submitted := []

def Module.submit (m : Module Conn) (e : Submission) : Module Conn :=
  { m with submitted := m.submitted ++ [e] }

/-- `advertise`, run by the work queue; `err` is what `bt_le_adv_start` returns
if it is called. -/
def Module.advertise (m : Module Conn) (err : ℤ) : Module Conn :=
  let m := { m with advertiseWork := false }
  if m.state = .init ∨ m.state = .disconnected ∨ m.state = .connected then
    let m := if err ≠ 0 then m.submit (.error .advFailed) else m
    if m.connCnt > 0 then { m with state := .connectedAdvertising }
    else { m with state := .advertising }
  else m

/-- `while (mtu % 4 != 1) mtu--` on a `uint16_t`, for at most `fuel` turns. -/
def fixMtu : ℕ → ℕ → ℕ
  | 0, mtu => mtu
  | fuel + 1, mtu => if mtu % 4 ≠ 1 then fixMtu fuel ((mtu + 65535) % 65536) else mtu

variable [DecidableEq Conn]

/-- The slot that holds `conn`. -/
def holds (conn : Conn) (slot : BtConnMyInfo Conn) : Bool := slot.conn = some conn

/-- `exchange_func`; `gattMtu` is what `bt_gatt_get_mtu` returns. -/
def Module.exchangeFunc (m : Module Conn) (conn : Conn) (err : UInt8) (gattMtu : ℕ) :
    Module Conn :=
  if err = 0 then
    let fixed (slot : BtConnMyInfo Conn) :=
      { slot with mtu := fixMtu 4 ((gattMtu + 65533) % 65536) }
    { m with conns := updateFirst (holds conn) fixed m.conns }
  else m

/-- `connected`. -/
def Module.connected (m : Module Conn) (conn : Conn) (err : UInt8) : Module Conn :=
  let m := { m with state := .connected }
  if err ≠ 0 then m
  else
    let taken (slot : BtConnMyInfo Conn) :=
      { slot with conn := some conn, mtu := 0, serialNotifications := false }
    { m with conns := updateFirst (fun slot => slot.conn.isNone) taken m.conns }

/-- `disconnected`. -/
def Module.disconnected (m : Module Conn) (conn : Conn) : Module Conn :=
  let m := { m with connCnt := m.connCnt - 1 }
  let m := if m.connCnt = 0 then { m with state := .disconnected } else m
  let cleared (slot : BtConnMyInfo Conn) :=
    { slot with conn := none, mtu := 0, serialNotifications := false }
  { m with conns := updateFirst (holds conn) cleared m.conns, advertiseWork := true }

/-- `serial_ccc_cfg_write` and the `bt_send_nrf9160_bridge_enabled_cb` it calls. -/
def Module.cccWrite (m : Module Conn) (conn : Conn) (value : UInt16) : Module Conn :=
  let enabled : Bool := value = 1
  let set (slot : BtConnMyInfo Conn) := { slot with serialNrf91BridgeNotifications := enabled }
  if m.conns.any (holds conn) then
    let m := { m with conns := updateFirst (holds conn) set m.conns }
    m.submit (.peerConn (if enabled then .connected else .disconnected))
  else m

/-- `bt_ready`; `nusErr` is the result of `shell_bt_nus_init`. The services under
src/ initialize without fail. -/
def Module.btReady (m : Module Conn) (autostart : Bool) (err nusErr : ℤ) : Module Conn :=
  if err ≠ 0 then m
  else if nusErr ≠ 0 then m.submit (.error .btNusInitFailed)
  else { m with advertiseWork := m.advertiseWork || autostart, state := .disconnected }

/-- Which callback a data message is sent with, and which slots it is sent to. -/
inductive DataKind
  | heatMap
  | camera
  | uart
  deriving DecidableEq, Repr

/-- A queued message with its `dyndata` copy. -/
structure DataMsg where
  kind : DataKind
  useBase64 : Bool
  data : Bytes

/-- The messages the module thread acts on; all others leave it idle. -/
inductive Msg
  | mainReady
  | startAdvertising
  | toggleAdvertising
  | data (msg : DataMsg)
  | other

/-- The slots a data message is sent to: those with a connection, or for the
bridge those with its notifications on. -/
def DataMsg.selects (msg : DataMsg) (slot : BtConnMyInfo Conn) : Bool :=
  match msg.kind with
  | .heatMap | .camera => slot.conn.isSome
  | .uart => slot.serialNrf91BridgeNotifications

/-- The bridge always sends raw. -/
def DataMsg.base64 (msg : DataMsg) : Bool :=
  match msg.kind with
  | .heatMap | .camera => msg.useBase64
  | .uart => false

/-- Where the module thread is: waiting for a message, at the head of the loop
over the slots in `on_state_connected`, or at the head of the loop of a
`serialSend` call for slot `i`. `copies` records, for each iteration the call has
made, how many bytes it stored into `chunk`. -/
inductive Thread
  | idle
  | slots (msg : DataMsg) (i : ℕ)
  | sending (msg : DataMsg) (i : ℕ) (call : Call) (copies : List ℕ)

end Heaty.Bt
