import Mathlib.Data.Nat.Notation
import Mathlib.Data.List.Basic

/-! The path of a write to the camera service: camera_service.c, the callbacks of
bt_module.c, `handle_bt_module_event` of control.c and camera_module.c, down to
`arducam_mini_2mp_configure_camera`. The queues on the way keep the order of the writes,
so that each write is taken through before the next. -/

namespace Heaty.Camera

/-- The characteristics that can be written. -/
inductive Characteristic
  | jpegSize
  | lightMode
  | colorSaturation
  | brightness
  | contrast
  | specialEffects
  | takePicture
  | jpegQuality
  | camInterval
  deriving DecidableEq, Repr

/-- A GATT write, with the first byte of its buffer. -/
structure Write where
  characteristic : Characteristic
  value : UInt8
  deriving DecidableEq

/-- `enum bt_module_event_type`, as far as the camera service raises them. -/
inductive BtEventType
  | setArducamJpegSize
  | setArducamLightMode
  | setArducamColorSaturation
  | setArducamBrightness
  | setArducamContrast
  | setArducamSpecialEffects
  | setArducamTakePicture
  | setArducamJpegQuality
  | setArducamCamInterval
  deriving DecidableEq, Repr

/-- `enum camera_module_event_type`. -/
inductive CameraEventType
  | takeImage
  | setArducamJpegSize
  | setArducamLightMode
  | setArducamColorSaturation
  | setArducamBrightness
  | setArducamContrast
  | setArducamSpecialEffects
  | setArducamTakePicture
  | setArducamJpegQuality
  | setArducamCamInterval
  | error
  deriving DecidableEq, Repr

/-- `write_jpeg_size` and the others, with the callbacks they call: the event sent and
its value. `take_picture_cb` takes a `bool`. -/
def callback : Write → BtEventType × UInt8
  | ⟨.jpegSize, val⟩ => (.setArducamJpegSize, val)
  | ⟨.lightMode, val⟩ => (.setArducamLightMode, val)
  | ⟨.colorSaturation, val⟩ => (.setArducamColorSaturation, val)
  | ⟨.brightness, val⟩ => (.setArducamBrightness, val)
  | ⟨.contrast, val⟩ => (.setArducamContrast, val)
  | ⟨.specialEffects, val⟩ => (.setArducamSpecialEffects, val)
  | ⟨.takePicture, val⟩ => (.setArducamTakePicture, if val ≠ 0 then 1 else 0)
  | ⟨.jpegQuality, val⟩ => (.setArducamJpegQuality, val)
  | ⟨.camInterval, val⟩ => (.setArducamCamInterval, val)

/-- `handle_bt_module_event`. -/
def handleBtModuleEvent : BtEventType → CameraEventType
  | .setArducamJpegSize => .setArducamJpegSize
  | .setArducamLightMode => .setArducamLightMode
  | .setArducamColorSaturation => .setArducamColorSaturation
  | .setArducamBrightness => .setArducamBrightness
  | .setArducamContrast => .setArducamContrast
  | .setArducamSpecialEffects => .setArducamSpecialEffects
  | .setArducamTakePicture => .setArducamTakePicture
  | .setArducamJpegQuality => .setArducamJpegQuality
  | .setArducamCamInterval => .setArducamCamInterval

/-- `struct camera_configuration` without `changed`. -/
structure Configuration where
  jpegSize : UInt8
  lightMode : UInt8
  colorSaturation : UInt8
  brightness : UInt8
  contrast : UInt8
  specialEffects : UInt8
  jpegQuality : UInt8
  deriving DecidableEq

/-- `CONFIG_CAMERA_DEFAULT_*`. -/
structure Defaults where
  configuration : Configuration
  camInterval : ℕ

/-- `enum state_type` of camera_module.c. -/
inductive StateType
  | init
  | ready
  | error
  deriving DecidableEq, Repr

/-- What the camera module's queue delivers. -/
inductive Msg
  | moduleState (mainReady : Bool)
  | camera (type : CameraEventType) (val : UInt8)

/-- The variables of camera_module.c. `applied` is what the camera was configured with
last, `scheduled` the delays that captures were scheduled with. -/
structure Module where
  state : StateType
  cameraConf : Configuration
  changed : Bool
  cameraInterval : ℕ
  applied : Option Configuration
  scheduled : List ℕ
  deriving DecidableEq

/-- Static initialization. -/
def Module.start (defaults : Defaults) : Module where
  state := .init
  cameraConf := defaults.configuration
  changed := true
  cameraInterval := defaults.camInterval
  applied := none
  scheduled := []

/-- `arducam_mini_2mp_configure_camera(&camera_conf)`. -/
def Module.configureCamera (m : Module) : Module :=
  if m.changed then { m with applied := some m.cameraConf, changed := false } else m

/-- `k_work_reschedule_for_queue`. -/
def Module.reschedule (m : Module) (delay : ℕ) : Module :=
  { m with scheduled := m.scheduled ++ [delay] }

/-- `init_module`, where `arducam_mini_2mp_open` succeeds or fails. -/
def Module.initModule (m : Module) (defaults : Defaults) (opens : Bool) : Module :=
  (if opens then m.configureCamera else m).reschedule defaults.camInterval

/-- `set_inverval_camera`. -/
def Module.setIntervalCamera (m : Module) (interval : ℕ) : Module :=
  { m with cameraInterval := interval }.reschedule 0

/-- `on_state_init`. -/
def Module.onStateInit (m : Module) (defaults : Defaults) (opens : Bool) : Msg → Module
  | .moduleState true => m.initModule defaults opens
  | _ => m

/-- An assignment to a field of `camera_conf`. -/
def Module.setConf (m : Module) (conf : Configuration) : Module :=
  { m with cameraConf := conf, changed := true }

/-- `on_state_ready`. -/
def Module.onStateReady (m : Module) : Msg → Module
  | .camera .setArducamJpegSize val => m.setConf { m.cameraConf with jpegSize := val }
  | .camera .setArducamLightMode val => m.setConf { m.cameraConf with lightMode := val }
  | .camera .setArducamColorSaturation val =>
      m.setConf { m.cameraConf with colorSaturation := val }
  | .camera .setArducamBrightness val => m.setConf { m.cameraConf with brightness := val }
  | .camera .setArducamContrast val => m.setConf { m.cameraConf with contrast := val }
  | .camera .setArducamSpecialEffects val => m.setConf { m.cameraConf with specialEffects := val }
  | .camera .setArducamJpegQuality val => m.setConf { m.cameraConf with jpegQuality := val }
  | .camera .setArducamTakePicture _ | .camera .takeImage _ => m.configureCamera.reschedule 0
  | .camera .setArducamCamInterval val => m.setIntervalCamera val.toNat
  | _ => m

/-- One turn of `module_thread_fn`. -/
def Module.handle (m : Module) (defaults : Defaults) (opens : Bool) (msg : Msg) : Module :=
  match m.state with
  | .init => m.onStateInit defaults opens msg
  | .ready => m.onStateReady msg
  | .error => m

/-- The module after the main module's READY, with a camera that opens. -/
def Module.opened (defaults : Defaults) : Module :=
  (Module.start defaults).handle defaults true (.moduleState true)

/-- A write on its way to the module; nothing opens the camera any more. -/
def Module.write (m : Module) (defaults : Defaults) (w : Write) : Module :=
  let event := callback w
  m.handle defaults false (.camera (handleBtModuleEvent event.1) event.2)

def Module.writes (m : Module) (defaults : Defaults) (ws : List Write) : Module :=
  ws.foldl (fun m w => m.write defaults w) m

end Heaty.Camera
