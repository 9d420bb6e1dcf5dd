import Heaty.Spec.Bt

/-! The `peer_conn_event` branch of uart_handler.c for `dev_idx = 0`, the only
UART device. Enabling and disabling reception succeed; the baud rate, which the
events of the Bluetooth module leave alone, is not modelled. -/

namespace Heaty.Bt

/-- `devices[0]`, `subscriber_count[0]` and whether reception is on. -/
structure UartHandler where
  device : Bool
  subscriberCount : ℤ
  rxEnabled : Bool
  deriving DecidableEq

/-- After the main module's READY event has found the device. -/
def UartHandler.start : UartHandler := ⟨true, 0, false⟩

def UartHandler.peerConn (u : UartHandler) (state : PeerConnState) : UartHandler :=
  if u.device = false then u
  else
    let prevCount := u.subscriberCount
    let u := match state with
      | .connected => { u with subscriberCount := prevCount + 1 }
      | .disconnected => { u with subscriberCount := prevCount - 1 }
    if u.subscriberCount = 0 then { u with rxEnabled := false }
    else if prevCount = 0 then { u with rxEnabled := true }
    else u

end Heaty.Bt
