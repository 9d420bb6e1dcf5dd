import Heaty.Lib.LittleEndian
import Heaty.Spec.Interfaces

/-! The time of the companion on its way to the device: `setTime` of BleStatemachine.dart
and `write_set_time` of time_service.c. -/

namespace Heaty.Time

/-- What `setTime` writes: the buffer of an `Int64List`. -/
def setTimeBytes (timestamp : ℤ) : Bytes := LittleEndian.bytes 8 timestamp

/-- The range of an `int64_t`, which a `time_t` is. -/
def IsInt64 (n : ℤ) : Prop := -9223372036854775808 ≤ n ∧ n < 9223372036854775808

instance (n : ℤ) : Decidable (IsInt64 n) := inferInstanceAs (Decidable (_ ∧ _))

/-- The loop of `write_set_time` from an index down to 1: `val`, and the values it takes on
the way. -/
def setTimeLoop (buf8 : Bytes) : ℕ → ℤ → ℤ × List ℤ
  | 0, val => (val, [])
  | i + 1, val =>
      let added := val + (buf8.getD (i + 1) 0).toNat
      let shifted := added * 256
      let rest := setTimeLoop buf8 i shifted
      (rest.1, added :: shifted :: rest.2)

/-- What a write did: the argument of `set_time_cb`, if it was called, the values that
`val` took, and what the service returns. -/
structure Written where
  called : Option ℤ
  values : List ℤ
  ret : ℕ

/-- `write_set_time`, where `set_time_cb` is set or not. -/
def writeSetTime (setTimeCb : Bool) (buf : Bytes) : Written :=
  if setTimeCb ∧ buf.length = 8 then
    let loop := setTimeLoop buf 7 0
    let val := loop.1 + (buf.getD 0 0).toNat
    ⟨some val, 0 :: loop.2 ++ [val], buf.length⟩
  else ⟨none, [], buf.length⟩

end Heaty.Time
