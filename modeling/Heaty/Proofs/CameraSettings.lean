import Mathlib.Data.List.Induction
import Mathlib.Tactic
import Heaty.Spec.CameraService

/-! What the camera is configured with after writes to its service. -/

namespace Heaty.Camera

variable {m : Module} {defaults : Defaults} {ws : List Write} {w : Write}

def lastValue (ws : List Write) (characteristic : Characteristic) (before : UInt8) : UInt8 :=
  ((ws.filter (·.characteristic = characteristic)).getLast?.map Write.value).getD before

def lastWritten (ws : List Write) (before : Configuration) : Configuration where
  jpegSize := lastValue ws .jpegSize before.jpegSize
  lightMode := lastValue ws .lightMode before.lightMode
  colorSaturation := lastValue ws .colorSaturation before.colorSaturation
  brightness := lastValue ws .brightness before.brightness
  contrast := lastValue ws .contrast before.contrast
  specialEffects := lastValue ws .specialEffects before.specialEffects
  jpegQuality := lastValue ws .jpegQuality before.jpegQuality

/-- A take-picture write after these applies the last values to the camera and
schedules a capture. -/
def Takes (defaults : Defaults) (m : Module) (ws : List Write) (value : UInt8) : Prop :=
  let before := m.writes defaults ws
  let after := before.write defaults ⟨.takePicture, value⟩
  after.applied = some (lastWritten ws defaults.configuration) ∧
    after.scheduled = before.scheduled ++ [0]

theorem write_init (h : m.state = .init) : m.write defaults w = m := by
  simp only [Module.write, Module.handle, h]
  rfl

theorem writes_init (h : m.state = .init) : m.writes defaults ws = m := by
  induction ws with
  | nil => rfl
  | cons w rest ih =>
    rw [Module.writes, List.foldl_cons, write_init h]
    exact ih

theorem opened_state : (Module.opened defaults).state = .init := rfl

theorem opened_applied : (Module.opened defaults).applied = some defaults.configuration := rfl

/-- No write is ever taken: the camera keeps its defaults, which are the last values
only where these are the defaults, and no take-picture write schedules a capture. -/
theorem writes_never_taken (defaults : Defaults) (ws : List Write) (value : UInt8) :
    ¬ Takes defaults (.opened defaults) ws value ∧
      (Module.opened defaults).writes defaults (ws ++ [⟨.takePicture, value⟩]) =
        .opened defaults ∧
      ((Module.opened defaults).applied = some (lastWritten ws defaults.configuration) ↔
        lastWritten ws defaults.configuration = defaults.configuration) := by
  refine ⟨fun htakes => ?_, writes_init opened_state, ?_⟩
  · have hscheduled := htakes.2
    rw [writes_init opened_state, write_init opened_state] at hscheduled
    simpa using congrArg List.length hscheduled
  · rw [opened_applied, Option.some_inj]
    exact eq_comm

theorem writes_not_taken : ¬ Takes ⟨⟨5, 0, 4, 4, 4, 7, 10⟩, 10⟩
    (.opened ⟨⟨5, 0, 4, 4, 4, 7, 10⟩, 10⟩) [⟨.jpegSize, 3⟩] 1 := by
  intro htakes
  have happlied := htakes.1
  revert happlied
  decide

theorem lastValue_concat (ws : List Write) (w : Write) (c : Characteristic) (before : UInt8) :
    lastValue (ws ++ [w]) c before =
      if w.characteristic = c then w.value else lastValue ws c before := by
  by_cases hc : w.characteristic = c <;> simp [lastValue, List.filter_append, hc]

@[simp] theorem configureCamera_state (m : Module) : m.configureCamera.state = m.state := by
  unfold Module.configureCamera
  split_ifs <;> rfl

@[simp] theorem configureCamera_cameraConf (m : Module) :
    m.configureCamera.cameraConf = m.cameraConf := by
  unfold Module.configureCamera
  split_ifs <;> rfl

theorem writes_concat (m : Module) (ws : List Write) (w : Write) :
    m.writes defaults (ws ++ [w]) = (m.writes defaults ws).write defaults w := by
  simp [Module.writes, List.foldl_append]

/-- In `STATE_READY` the tables on the way carry each value to its own field. -/
theorem writes_ready (h : m.state = .ready) :
    (m.writes defaults ws).state = .ready ∧
      (m.writes defaults ws).cameraConf = lastWritten ws m.cameraConf := by
  induction ws using List.reverseRecOn with
  | nil => exact ⟨h, rfl⟩
  | append_singleton ws w ih =>
    obtain ⟨hstate, hconf⟩ := ih
    rw [writes_concat]
    obtain ⟨characteristic, value⟩ := w
    cases characteristic <;>
      simp [Module.write, Module.handle, hstate, callback, handleBtModuleEvent,
        Module.onStateReady, Module.setConf, Module.reschedule, Module.setIntervalCamera, hconf,
        lastWritten, lastValue_concat]

def Module.InStep (m : Module) : Prop := m.changed = false → m.applied = some m.cameraConf

theorem configureCamera_applied (h : m.InStep) : m.configureCamera.applied = some m.cameraConf := by
  unfold Module.configureCamera
  split_ifs with hchanged
  · rfl
  · exact h (by simpa using hchanged)

theorem write_takePicture (hstate : m.state = .ready) (value : UInt8) :
    m.write defaults ⟨.takePicture, value⟩ = m.configureCamera.reschedule 0 := by
  simp only [Module.write, Module.handle, hstate, callback, handleBtModuleEvent,
    Module.onStateReady]

theorem write_inStep (hstate : m.state = .ready) (h : m.InStep) :
    (m.write defaults w).InStep := by
  obtain ⟨characteristic, value⟩ := w
  cases characteristic with
  | takePicture =>
    intro _
    rw [write_takePicture hstate]
    exact (configureCamera_applied h).trans (by simp [Module.reschedule])
  | camInterval =>
    simp only [Module.write, Module.handle, hstate, callback, handleBtModuleEvent,
      Module.onStateReady]
    exact h
  | _ =>
    simp [Module.InStep, Module.write, Module.handle, hstate, callback, handleBtModuleEvent,
      Module.onStateReady, Module.setConf]

theorem writes_inStep (hstate : m.state = .ready) (h : m.InStep) :
    (m.writes defaults ws).InStep := by
  induction ws using List.reverseRecOn with
  | nil => exact h
  | append_singleton ws w ih =>
    rw [writes_concat]
    exact write_inStep (writes_ready hstate).1 ih

theorem ready_takes (hstate : m.state = .ready) (hconf : m.cameraConf = defaults.configuration)
    (h : m.InStep) (value : UInt8) : Takes defaults m ws value := by
  obtain ⟨hready, hwritten⟩ := @writes_ready m defaults ws hstate
  simp only [Takes]
  rw [write_takePicture hready, ← hconf, ← hwritten]
  refine ⟨configureCamera_applied (writes_inStep hstate h), ?_⟩
  unfold Module.configureCamera
  split_ifs <;> rfl

end Heaty.Camera
