import Mathlib.Logic.Function.Basic
import Heaty.Lib.Ledger
import Heaty.Lib.Run
import Heaty.Spec.Interfaces
import Heaty.Spec.ModulesCommon

/-! The copies of `dyndata` that the event handlers of bt_module.c, commCtrl_module.c,
fs_module.c, mcu_exchange.c and analysis_module.c put on their queues, up to the end of
the thread's turn that frees them. Of the state handlers only their reads of the copy
are modelled, so that every state is covered. Allocations succeed. -/

namespace Heaty.Dyndata

open Common (putReturns moduleEnqueueMsg)
open Ledger (Op)

/-- The modules. -/
inductive Module
  | bt
  | commCtrl
  | fs
  | mcuExchange
  | analysis
  deriving DecidableEq, Repr

/-- The types of event that one of them subscribes to. -/
inductive EventType
  | moduleState
  | bt
  | btData
  | uartData
  | bleData
  | commCtrl
  | sensors
  | sensorsData
  | mcuExchange
  | fs
  | fsData
  | analysis
  deriving DecidableEq, Repr

/-- `BT_QUEUE_ENTRY_COUNT` and the others. -/
def Module.queueEntryCount : Module → ℕ
  | .bt | .commCtrl => 15
  | .fs | .mcuExchange | .analysis => 10

/-- The events that `TRANSLATE_EVENT_TO_MSG`, or the lines for `module_state_event`,
make a message of. -/
def Module.enqueues : Module → EventType → Bool
  | .bt, .moduleState | .bt, .bt | .bt, .btData | .bt, .uartData => true
  | .commCtrl, .moduleState | .commCtrl, .commCtrl | .commCtrl, .bt | .commCtrl, .sensors
  | .commCtrl, .sensorsData | .commCtrl, .mcuExchange => true
  | .fs, .moduleState | .fs, .fs | .fs, .fsData => true
  | .mcuExchange, .moduleState | .mcuExchange, .mcuExchange => true
  | .analysis, .moduleState | .analysis, .analysis | .analysis, .sensors
  | .analysis, .mcuExchange => true
  | _, _ => false

/-- The events whose data is copied into a block of its own. -/
def Module.copies : Module → EventType → Bool
  | .bt, .btData | .bt, .uartData => true
  | .commCtrl, .sensorsData => true
  | .fs, .fsData => true
  | .mcuExchange, .mcuExchange => true
  | .analysis, .mcuExchange => true
  | _, _ => false

/-- The events for which a state handler reads `msg->dyndata`. -/
def Module.reads : Module → EventType → Bool
  | .bt, .btData | .bt, .uartData => true
  | .commCtrl, .sensorsData => true
  | .fs, .fsData => true
  | .mcuExchange, .mcuExchange => true
  | .analysis, .mcuExchange => true
  | _, _ => false

/-- The event that `ENQUEUE_MSG` sends when the put fails; mcu_exchange.c only logs. -/
def Module.errorEvent : Module → Option EventType
  | .bt => some .bt
  | .commCtrl => some .commCtrl
  | .fs => some .fs
  | .analysis => some .analysis
  | .mcuExchange => none

/-- An event with its `dyndata`, or with what lies in the buffer of a
`uart_data_event`; nothing for the others. -/
structure Event where
  type : EventType
  dyndata : Bytes
  deriving DecidableEq

/-- `struct *_msg_data`; no address stands for NULL. -/
structure Msg where
  type : EventType
  dyndata : Option ℕ
  deriving DecidableEq

/-- What a module sees of an event. -/
abbrev Seen := EventType × Option Bytes

def Event.seen (module : Module) (e : Event) : Seen :=
  (e.type, if module.copies e.type then some e.dyndata else none)

def Msg.seen (heap : ℕ → Bytes) (msg : Msg) : Seen := (msg.type, msg.dyndata.map heap)

/-- The thread waits for a message, or is between taking one and `on_all_states`. -/
inductive Thread
  | idle
  | processing (msg : Msg)

/-- `inFlight` are the events submitted that the event manager has not processed.
`submitted` lists all of them, `processed` what was found in the messages taken, and
`memory` is the history of the copies. -/
structure Sys where
  inFlight : List Event
  queue : List Msg
  thread : Thread
  heap : ℕ → Bytes
  memory : List (Op ℕ)
  submitted : List Event
  processed : List Seen

def Sys.start : Sys where
  inFlight := []
  queue := []
  thread := .idle
  heap := fun _ => []
  memory := []
  submitted := []
  processed := []

def Thread.copy : Thread → Option ℕ
  | .idle => none
  | .processing msg => msg.dyndata

/-- The copies that the queue and the thread have. -/
def Sys.copies (s : Sys) : List ℕ := s.thread.copy.toList ++ s.queue.filterMap (·.dyndata)

/-- `EVENT_SUBMIT`. -/
def Sys.submit (s : Sys) (e : Event) : Sys :=
  { s with inFlight := s.inFlight ++ [e], submitted := s.submitted ++ [e] }

/-- `ENQUEUE_MSG` when `k_msgq_put` returns `err`. -/
def Sys.enqueueMsg (module : Module) (s : Sys) (msg : Msg) (err : ℤ) : Sys :=
  let s := { s with queue := moduleEnqueueMsg s.queue msg err }
  match module.errorEvent with
  | some type => if err ≠ 0 then s.submit ⟨type, []⟩ else s
  | none => s

/-- The lines of `event_handler` that copy the data into the block at `addr`. -/
def Sys.copyDyndata (module : Module) (s : Sys) (e : Event) (addr : ℕ) : Sys :=
  if module.copies e.type then
    { s with heap := Function.update s.heap addr e.dyndata, memory := s.memory ++ [.take addr] }
  else s

/-- The message that an event becomes. -/
def Event.toMsg (module : Module) (e : Event) (addr : ℕ) : Msg where
  type := e.type
  dyndata := if module.copies e.type then some addr else none

/-- `event_handler`, where `my_malloc` returns `addr` if it is called. -/
def Sys.eventHandler (module : Module) (s : Sys) (e : Event) (addr : ℕ) (err : ℤ) : Sys :=
  let s := s.copyDyndata module e addr
  if module.enqueues e.type then s.enqueueMsg module (e.toMsg module addr) err else s

/-- `on_all_states`, or the end of `handle_msg` in mcu_exchange.c. -/
def Sys.onAllStates (s : Sys) (msg : Msg) : Sys :=
  let s := { s with thread := .idle }
  match msg.dyndata with
  | some addr => { s with memory := s.memory ++ [.free addr] }
  | none => s

/-- Something submits an event; the event manager hands the oldest one to the module;
the module thread takes a message, reads its copy, ends its turn; other code writes into
a block of its own. -/
inductive Step
  | submit (e : Event)
  | process (addr : ℕ) (putErr : ℤ)
  | dequeue
  | read
  | finish
  | write (addr : ℕ) (bytes : Bytes)

/-- A block that `my_malloc` returns, or that is written to elsewhere, is none of the
copies; NULL is at 0. -/
def Sys.step (module : Module) (s : Sys) : Step → Option Sys
  | .submit e => some (s.submit e)
  | .process addr putErr =>
      match s.inFlight with
      | [] => none
      | e :: rest =>
          if putReturns module.queueEntryCount s.queue putErr ∧ addr ≠ 0 ∧ addr ∉ s.copies then
            some ({ s with inFlight := rest }.eventHandler module e addr putErr)
          else none
  | .dequeue =>
      match s.thread, s.queue with
      | .idle, msg :: rest =>
          some { s with
            queue := rest
            thread := .processing msg
            processed := s.processed ++ [msg.seen s.heap] }
      | _, _ => none
  | .read =>
      match s.thread with
      | .processing msg =>
          if module.reads msg.type then
            some { s with memory := s.memory ++ [.use (msg.dyndata.getD 0)] }
          else none
      | .idle => none
  | .finish =>
      match s.thread with
      | .processing msg => some (s.onAllStates msg)
      | .idle => none
  | .write addr bytes =>
      if addr ∈ s.copies then none else some { s with heap := Function.update s.heap addr bytes }

def system (module : Module) : Lts Sys Step where
  init := Sys.start
  step := Sys.step module

end Heaty.Dyndata
