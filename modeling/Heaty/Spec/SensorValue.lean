import Heaty.Lib.Decimal
import Heaty.Lib.Rounding
import Heaty.Spec.Utils

/-! A sensor value on its way to the broker: `ValueToString` and `on_state_ready` of
analysis_module.c, and `on_state_connected` of mqtt_module.c, which gets its text in an
event. -/

namespace Heaty.SensorValue

open Rounding (binary32 roundEven)
open Utils (Block cstr overwrite)

/-- A `float` that a number is converted to: its sign and its magnitude, `none` for an
infinite one. -/
structure Float32 where
  neg : Bool
  magnitude : Option ℚ
  deriving DecidableEq

/-- The conversion of a `double`. -/
def toFloat (value : ℚ) : Float32 :=
  let magnitude := binary32.round |value|
  ⟨value < 0, if magnitude < 2 ^ binary32.emax then some magnitude else none⟩

/-- A number with two decimals, given in hundredths. -/
def decimals (hundredths : ℕ) : Bytes :=
  Decimal.digits (hundredths / 100) ++ 46 :: Decimal.padded 2 (hundredths % 100)

/-- `%.2f`: the exact value, rounded to hundredths. A sign stands before a number that is
rounded to none as well. -/
def format (value : Float32) : Bytes :=
  (if value.neg then [45] else []) ++
    match value.magnitude with
    | none => [105, 110, 102]
    | some magnitude => decimals (roundEven (100 * magnitude)).toNat

/-- The rendering of a value. -/
def rendering (value : ℚ) : Bytes := format (toFloat value)

/-- What `ValueToString` asks `my_malloc` for. -/
def resultSize : ℕ := 5

/-- `ValueToString`, where `my_malloc` returns this block; `none` when `sprintf` would
write through NULL. -/
def valueToString (value : ℚ) (result : Block) : Option Bytes :=
  result.map (overwrite (rendering value ++ [0]))

/-- `enum sensors_module_event_type`. -/
inductive SensorsEventType
  | envTemperature
  | envHumidity
  | envGas
  | error
  deriving DecidableEq

/-- `CONFIG_MQTT_TOPIC_TEMPERATURE` and `CONFIG_MQTT_TOPIC_HUMIDITY`. -/
inductive Topic
  | temperature
  | humidity
  deriving DecidableEq

/-- `data.msg` of an `MQTT_EVT_SEND`, with what lies in memory from `message` on. -/
structure Msg where
  topic : Topic
  message : Bytes

/-- What `on_state_ready` submits on an event of the sensors module. -/
def onStateReady (type : SensorsEventType) (val : ℚ) (result : Block) : Option Msg :=
  match type with
  | .envTemperature => (valueToString val result).map fun message => ⟨.temperature, message⟩
  | .envHumidity => (valueToString val result).map fun message => ⟨.humidity, message⟩
  | _ => none

/-- The event when it is handled: its block as it was, and anything behind it. -/
def Msg.later (msg : Msg) (behind : Bytes) : Msg :=
  { msg with message := msg.message.take resultSize ++ behind }

/-- What `on_state_connected` publishes: `strlen` and one more byte. -/
def onStateConnected (msg : Msg) : Topic × Bytes :=
  (msg.topic, msg.message.take ((cstr msg.message).length + 1))

/-- The topic of a value. -/
def topicOf : SensorsEventType → Option Topic
  | .envTemperature => some .temperature
  | .envHumidity => some .humidity
  | _ => none

/-- What is to become of a value: it is rendered inside its block, and published as it was
rendered. -/
structure Delivered (type : SensorsEventType) (val : ℚ) (result : Block) : Prop where
  fits : (rendering val ++ [0]).length ≤ resultSize
  published : ∃ msg, onStateReady type val result = some msg ∧
    ∀ behind, topicOf type = some (onStateConnected (msg.later behind)).1 ∧
      (onStateConnected (msg.later behind)).2 = rendering val ++ [0]

/-- The values with one digit before the point and no sign, and those that a `float` has no
number for. -/
def Short (val : ℚ) : Prop := (0 ≤ val ∧ val < 20961035 / 2097152) ∨ 2 ^ 128 - 2 ^ 103 ≤ |val|

instance (val : ℚ) : Decidable (Short val) := inferInstanceAs (Decidable (_ ∨ _))

end Heaty.SensorValue
