import Heaty.Lib.Run

/-! BleStatemachine.dart and statemachine.dart of the companion: the events the machine
handles, and the bodies that run beside it because nobody awaits them. What a body does up
to its next await is one step; a suspended body is a task, and tasks go on in any order. -/

namespace Heaty.Ble

inductive State
  | init
  | idle
  | scanning
  | connecting
  | connected
  | discovering
  deriving DecidableEq

/-- `Events`. -/
inductive Event
  | error
  | initialized
  | reinit
  | scan
  | connect
  | connected
  | discover
  | discovered
  | foundTarget
  | disconnect
  | disconnected
  deriving DecidableEq

/-- `Transition`; the only `onTransition` there is is `resetAll`. -/
structure Transition where
  trigger : Event
  src : State
  dst : State
  resetAll : Bool := false
  deriving DecidableEq

def transitions : List Transition :=
  [{ trigger := .reinit, src := .init, dst := .init, resetAll := true },
    { trigger := .initialized, src := .init, dst := .idle },
    { trigger := .scan, src := .idle, dst := .scanning },
    { trigger := .foundTarget, src := .scanning, dst := .idle },
    { trigger := .connect, src := .idle, dst := .connecting },
    { trigger := .connect, src := .scanning, dst := .connecting },
    { trigger := .connected, src := .connecting, dst := .connected },
    { trigger := .discover, src := .connected, dst := .discovering },
    { trigger := .discovered, src := .discovering, dst := .connected },
    { trigger := .disconnected, src := .connected, dst := .idle, resetAll := true },
    { trigger := .disconnect, src := .discovering, dst := .idle, resetAll := true },
    { trigger := .disconnect, src := .connecting, dst := .idle, resetAll := true },
    { trigger := .disconnect, src := .connected, dst := .idle, resetAll := true }]

structure BluetoothService where
  uuid : String
  characteristics : List String

/-- `getCharacteristic`, which catches what `first` throws. -/
def getCharacteristic (services : List BluetoothService) (serviceID characteristicID : String) :
    Option String := do
  let service ← services.find? fun element => element.uuid = serviceID
  service.characteristics.find? fun cc => cc = characteristicID

def heatyServiceUuid : String := "aaaf0900-c332-42a8-93bd-25e905756cb8"

def heatMapTxUuid : String := "aaaf0901-c332-42a8-93bd-25e905756cb8"

def cameraServiceUuid : String := "caaf0900-c332-42a8-93bd-25e905756cb8"

def cameraTxUuid : String := "caaf090b-c332-42a8-93bd-25e905756cb8"

def targetName : String := "Heaty"

structure ScanResult (Device : Type) where
  device : Device
  name : String

inductive BluetoothDeviceState
  | disconnected
  | connecting
  | connected
  | disconnecting
  deriving DecidableEq

/-- The fields that hold a subscription. -/
inductive Source
  | scan
  | state
  | heatMapTx
  | cameraImageTx
  deriving DecidableEq

/-- What `listen` returns; no two are the same. -/
structure Subscription where
  source : Source
  id : ℕ
  deriving DecidableEq

/-- A suspended body. Those that cancel subscriptions have `rest` of their fields left. -/
inductive Task
  | init
  | reinit
  | resetAll (rest : List Source)
  | scanning (rest : List Source)
  | isScanning
  | connecting (rest : List Source)
  | discovering (rest : List Source)
  | discoverServices
  | notifyHeatMap (found : Bool)
  | notifyCameraImage (found : Bool)
  deriving DecidableEq

/-- How what a body awaits completes. -/
inductive Completion
  | done
  | isOn (on : Bool)
  | services (services : List BluetoothService)
  | error

/-- The machine, with the events in its stream, the listeners that are called, the suspended
bodies, the devices `connect` was called for with no `disconnect` since, and whether a
`targetDevice!` has thrown. -/
structure BleStatemachine (Device : Type) where
  currentState : State
  eventHandler : List Event
  targetDevice : Option Device
  allServices : List BluetoothService
  scanSubscription : Option Subscription
  stateSubscription : Option Subscription
  heatMapTxSubscription : Option Subscription
  cameraImageTxSubscription : Option Subscription
  listening : List Subscription
  listened : ℕ
  tasks : List Task
  attempts : List Device
  nullCheckFailed : Bool

namespace BleStatemachine

variable {Device : Type}

/-- The machine enters Init, which awaits `isOn`. -/
def start : BleStatemachine Device where
  currentState := .init
  eventHandler := []
  targetDevice := none
  allServices := []
  scanSubscription := none
  stateSubscription := none
  heatMapTxSubscription := none
  cameraImageTxSubscription := none
  listening := []
  listened := 0
  tasks := [.init]
  attempts := []
  nullCheckFailed := false

def add (s : BleStatemachine Device) (ev : Event) : BleStatemachine Device :=
  { s with eventHandler := s.eventHandler ++ [ev] }

/-- A body reaches an await. -/
def suspend (s : BleStatemachine Device) (task : Task) : BleStatemachine Device :=
  { s with tasks := s.tasks ++ [task] }

/-- A body evaluates `targetDevice!` and goes on with `body`, or throws. -/
def withTarget (body : BleStatemachine Device → BleStatemachine Device)
    (s : BleStatemachine Device) : BleStatemachine Device :=
  match s.targetDevice with
  | some _ => body s
  | none => { s with nullCheckFailed := true }

def subscription (s : BleStatemachine Device) : Source → Option Subscription
  | .scan => s.scanSubscription
  | .state => s.stateSubscription
  | .heatMapTx => s.heatMapTxSubscription
  | .cameraImageTx => s.cameraImageTxSubscription

/-- `listen`, with the new subscription stored in its field. -/
def listen (s : BleStatemachine Device) (source : Source) : BleStatemachine Device :=
  let sub : Subscription := ⟨source, s.listened⟩
  let s := { s with listening := sub :: s.listening, listened := s.listened + 1 }
  match source with
  | .scan => { s with scanSubscription := some sub }
  | .state => { s with stateSubscription := some sub }
  | .heatMapTx => { s with heatMapTxSubscription := some sub }
  | .cameraImageTx => { s with cameraImageTxSubscription := some sub }

/-- `if (x != null) await cancelSubscription(x)` for one field after the other, then `body`.
`cancelSubscription` sets its parameter to null, not the field. -/
def cancelEach (task : List Source → Task)
    (body : BleStatemachine Device → BleStatemachine Device) :
    List Source → BleStatemachine Device → BleStatemachine Device
  | [], s => body s
  | source :: rest, s =>
      match s.subscription source with
      | some sub =>
          let s := { s with listening := s.listening.filter (· ≠ sub) }
          s.suspend (task rest)
      | none => cancelEach task body rest s

def clearTarget (s : BleStatemachine Device) : BleStatemachine Device :=
  { s with targetDevice := none }

def resetFrom : List Source → BleStatemachine Device → BleStatemachine Device :=
  cancelEach .resetAll clearTarget

def scanningFrom : List Source → BleStatemachine Device → BleStatemachine Device :=
  cancelEach .scanning fun s => s.suspend .isScanning

def connectingFrom : List Source → BleStatemachine Device → BleStatemachine Device :=
  cancelEach .connecting (withTarget fun s => s.listen .state)

def discoveringFrom : List Source → BleStatemachine Device → BleStatemachine Device :=
  cancelEach .discovering (withTarget fun s => s.suspend .discoverServices)

/-- A body goes on when what it awaits completes; an error ends it. The last parts of
Discovering listen if their characteristic was found. -/
def resume (s : BleStatemachine Device) : Task → Completion → Option (BleStatemachine Device)
  | _, .error => some s
  | .init, .isOn on => some (if on then s.add .initialized else (s.add .error).suspend .reinit)
  | .reinit, .done => some (s.add .reinit)
  | .resetAll rest, .done => some (resetFrom rest s)
  | .scanning rest, .done => some (scanningFrom rest s)
  | .isScanning, .done => some (s.listen .scan)
  | .connecting rest, .done => some (connectingFrom rest s)
  | .discovering rest, .done => some (discoveringFrom rest s)
  | .discoverServices, .services services =>
      let s := { s with allServices := services }
      let found := (getCharacteristic services heatyServiceUuid heatMapTxUuid).isSome
      some (s.suspend (.notifyHeatMap found))
  | .notifyHeatMap found, .done =>
      let s := if found then s.listen .heatMapTx else { s with heatMapTxSubscription := none }
      let found := (getCharacteristic s.allServices cameraServiceUuid cameraTxUuid).isSome
      some (s.suspend (.notifyCameraImage found))
  | .notifyCameraImage found, .done =>
      let s :=
        if found then s.listen .cameraImageTx else { s with cameraImageTxSubscription := none }
      some (s.add .discovered)
  | _, _ => none

/-- The listener of Connecting. -/
def deviceState (s : BleStatemachine Device) : BluetoothDeviceState → BleStatemachine Device
  | .connected => withTarget id (s.add .connected)
  | .disconnected => s.add .disconnect
  | _ => s

/-- One result in the listener of Scanning. -/
def scanResult (s : BleStatemachine Device) (result : ScanResult Device) :
    BleStatemachine Device :=
  if result.name = targetName then
    { s with targetDevice := some result.device }.add .foundTarget
  else s

variable [DecidableEq Device]

def resetAll (s : BleStatemachine Device) : BleStatemachine Device :=
  let attempts := s.attempts.filter fun device => some device ≠ s.targetDevice
  resetFrom [.scan, .state, .heatMapTx, .cameraImageTx]
    { s with attempts := attempts, allServices := [] }

omit [DecidableEq Device] in
/-- `onEnter` of the current state, up to its first await. That of Idle only collects the
connected devices. -/
def onEnter (s : BleStatemachine Device) : BleStatemachine Device :=
  match s.currentState with
  | .init => s.suspend .init
  | .idle => s
  | .scanning => scanningFrom [.scan] s.clearTarget
  | .connecting =>
      match s.targetDevice with
      | some device => connectingFrom [.state] { s with attempts := device :: s.attempts }
      | none => s
  | .connected => if s.allServices.isEmpty then s.add .discover else s
  | .discovering => discoveringFrom [.heatMapTx, .cameraImageTx] { s with allServices := [] }

/-- A transition that applies. -/
def take (s : BleStatemachine Device) (t : Transition) : BleStatemachine Device :=
  let s := { s with currentState := t.dst }
  (if t.resetAll then s.resetAll else s).onEnter

/-- `_handleEvent` tries all transitions, each in the state the ones before it have left. -/
def handleEvent (s : BleStatemachine Device) (ev : Event) : BleStatemachine Device :=
  let tryOne (s : BleStatemachine Device) (t : Transition) :=
    if ev = t.trigger ∧ s.currentState = t.src then s.take t else s
  transitions.foldl tryOne s

end BleStatemachine

/-- What the user does, and what happens at the event loop. -/
inductive AppEvent (Device : Type)
  | user (ev : Event)
  | handle
  | resume (i : ℕ) (completion : Completion)
  | scanResults (sub : Subscription) (results : List (ScanResult Device))
  | deviceState (sub : Subscription) (state : BluetoothDeviceState)

variable {Device : Type} [DecidableEq Device]

/-- The views add Scan, Connect and Disconnect; a listener is called until it is
cancelled. -/
def BleStatemachine.step (s : BleStatemachine Device) :
    AppEvent Device → Option (BleStatemachine Device)
  | .user ev => if ev ∈ [.scan, .connect, .disconnect] then some (s.add ev) else none
  | .handle =>
      match s.eventHandler with
      | [] => none
      | ev :: rest => some ({ s with eventHandler := rest }.handleEvent ev)
  | .resume i completion =>
      match s.tasks[i]? with
      | none => none
      | some task => { s with tasks := s.tasks.eraseIdx i }.resume task completion
  | .scanResults sub results =>
      if sub ∈ s.listening ∧ sub.source = .scan then some (results.foldl scanResult s) else none
  | .deviceState sub state =>
      if sub ∈ s.listening ∧ sub.source = .state then some (s.deviceState state) else none

def bleStatemachine (Device : Type) [DecidableEq Device] :
    Lts (BleStatemachine Device) (AppEvent Device) where
  init := .start
  step := BleStatemachine.step

end Heaty.Ble
