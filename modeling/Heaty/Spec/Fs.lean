import Heaty.Lib.Run
import Heaty.Spec.ModulesCommon
import Heaty.Spec.Utils

/-! fs_module.c with its queue and the files, as far as requests can change them.
A `file_path` is terminated within its array, so that `snprintf` always has room for
the name. What a read delivers is left out. -/

namespace Heaty.Fs

open Common (putReturns moduleEnqueueMsg)
open Utils (overwrite)

/-- `enum state_type` of fs_module.c. -/
inductive StateType
  | init
  | ready
  | error
  deriving DecidableEq, Repr

/-- `enum fs_data_module_event_type`. -/
inductive FsDataEventType
  | readFileReq
  | readFileRes
  | writeFile
  | appendFile
  | deleteFile
  deriving DecidableEq, Repr

variable {Path : Type}

/-- `struct fs_data_module_event`. -/
structure FsDataEvent (Path : Type) where
  type : FsDataEventType
  filePath : Path
  dyndata : Bytes

/-- `struct fs_msg_data` with its `dyndata` copy. `error` is `FS_EVT_ERROR`. -/
inductive Msg (Path : Type)
  | moduleState (mainReady : Bool)
  | error
  | data (request : FsDataEvent Path)

/-- The contents of the files that exist. -/
abbrev Files (Path : Type) := Path → Option Bytes

/-- What the file-system calls return while a message is handled. `stored` is how
much a write that fails, or that cannot be closed, has put into the file. -/
structure Io where
  fsModuleSetup : ℤ
  fsOpen : ℤ
  fsWrite : ℤ
  stored : ℕ
  fsClose : ℤ
  fsUnlink : ℤ

/-- What of the contents of a write gets into the file. -/
def Io.storedOf (io : Io) (fileContents : Bytes) : Bytes :=
  if io.fsOpen ≠ 0 then []
  else if io.fsWrite ≠ fileContents.length ∨ io.fsClose ≠ 0 then fileContents.take io.stored
  else fileContents

/-- What became of a request that is no longer queued: it was thrown away, or it was
handled with this result and put these bytes into its file. -/
inductive Fate
  | dropped
  | handled (err : ℤ) (stored : Bytes)

structure Settled (Path : Type) where
  request : FsDataEvent Path
  fate : Fate

/-- The bytes of the request that are in its file. -/
def Settled.stored (r : Settled Path) : Bytes :=
  match r.fate with
  | .dropped => []
  | .handled _ stored => stored

/-- The request of a message, if it carries one. -/
def Msg.request : Msg Path → Option (FsDataEvent Path)
  | .data request => some request
  | _ => none

/-- The request as one thrown away. -/
def Msg.drop (msg : Msg Path) : Option (Settled Path) := msg.request.map (⟨·, .dropped⟩)

/-- The module and the files. `errors` counts the `FS_EVT_ERROR`s it has submitted
that have not come back to it. `requested` lists the requests its event handler got,
`settled` those that have left the queue. -/
structure Module (Path : Type) where
  state : StateType
  queue : List (Msg Path)
  files : Files Path
  errors : ℕ
  requested : List (FsDataEvent Path)
  settled : List (Settled Path)

def Module.start (files : Files Path) : Module Path where
  state := .init
  queue := []
  files := files
  errors := 0
  requested := []
  settled := []

/-- `FS_QUEUE_ENTRY_COUNT`. -/
def queueEntryCount : ℕ := 10

/-- `SEND_ERROR(fs, FS_EVT_ERROR, _)`. -/
def Module.sendError (m : Module Path) : Module Path := { m with errors := m.errors + 1 }

/-- `event_handler` when `k_msgq_put` returns `err`. -/
def Module.eventHandler (m : Module Path) (msg : Msg Path) (err : ℤ) : Module Path :=
  let purged := if err ≠ 0 then (m.queue ++ [msg]).filterMap Msg.drop else []
  let m :=
    { m with
      queue := moduleEnqueueMsg m.queue msg err
      requested := m.requested ++ msg.request.toList
      settled := m.settled ++ purged }
  if err ≠ 0 then m.sendError else m

/-- `init_fs_module`. -/
def Module.initFsModule (m : Module Path) (io : Io) : Module Path :=
  if io.fsModuleSetup ≠ 0 then { m.sendError with state := .error } else { m with state := .ready }

/-- A request that a handler took from the queue, with the result it was given. -/
def Module.settle (m : Module Path) (request : FsDataEvent Path) (fate : Fate) : Module Path :=
  { m with settled := m.settled ++ [⟨request, fate⟩] }

/-- `SEND_ERROR` and `STATE_ERROR` for a result other than 0. -/
def Module.checked (m : Module Path) (err : ℤ) : Module Path :=
  if err ≠ 0 then { m.sendError with state := .error } else m

variable [DecidableEq Path]

/-- The files after bytes were written to one of them. A file that is not opened to
append is written from its start, and what lies behind stays. -/
def Files.write (files : Files Path) (filePath : Path) (bytes : Bytes) (isAppend : Bool) :
    Files Path :=
  let old := (files filePath).getD []
  Function.update files filePath (some (if isAppend then old ++ bytes else overwrite bytes old))

/-- `fs_helper_file_write`. -/
def fsHelperFileWrite (io : Io) (files : Files Path) (filePath : Path) (fileContents : Bytes)
    (isAppend : Bool) : ℤ × Files Path :=
  if io.fsOpen ≠ 0 then (io.fsOpen, files)
  else
    let files := files.write filePath (io.storedOf fileContents) isAppend
    if io.fsWrite ≠ fileContents.length then (enomem, files)
    else if io.fsClose ≠ 0 then (io.fsClose, files)
    else (0, files)

/-- `fs_helper_file_read`, which creates the file. -/
def fsHelperFileRead (io : Io) (files : Files Path) (filePath : Path) : ℤ × Files Path :=
  if io.fsOpen ≠ 0 then (io.fsOpen, files)
  else (io.fsClose, Function.update files filePath (some ((files filePath).getD [])))

/-- `fs_helper_file_delete`. -/
def fsHelperFileDelete (io : Io) (files : Files Path) (filePath : Path) : ℤ × Files Path :=
  if io.fsUnlink ≠ 0 then (io.fsUnlink, files) else (0, Function.update files filePath none)

/-- `on_state_ready` for a request. -/
def Module.onStateReady (m : Module Path) (io : Io) (request : FsDataEvent Path) : Module Path :=
  let handled (result : ℤ × Files Path) (stored : Bytes) : Module Path :=
    ({ m with files := result.2 }.settle request (.handled result.1 stored)).checked result.1
  match request.type with
  | .readFileReq => handled (fsHelperFileRead io m.files request.filePath) []
  | .readFileRes => m.settle request (.handled 0 [])
  | .writeFile =>
      handled (fsHelperFileWrite io m.files request.filePath request.dyndata false)
        (io.storedOf request.dyndata)
  | .appendFile =>
      handled (fsHelperFileWrite io m.files request.filePath request.dyndata true)
        (io.storedOf request.dyndata)
  | .deleteFile => handled (fsHelperFileDelete io m.files request.filePath) []

/-- One turn of `module_thread_fn`. A request that finds the module in another state
than `STATE_READY` is freed with nothing done. -/
def Module.handle (m : Module Path) (io : Io) (msg : Msg Path) : Module Path :=
  match m.state, msg with
  | .init, .moduleState true => m.initFsModule io
  | .ready, .data request => m.onStateReady io request
  | .error, .error => m.initFsModule io
  | _, .data request => m.settle request .dropped
  | _, _ => m

/-- The event manager hands the module an event, or the module thread takes a
message. -/
inductive Event (Path : Type)
  | deliver (msg : Msg Path) (putErr : ℤ)
  | dequeue (io : Io)

/-- Nobody but the module itself submits `FS_EVT_ERROR`. -/
def Module.step (m : Module Path) : Event Path → Option (Module Path)
  | .deliver .error putErr =>
      if putReturns queueEntryCount m.queue putErr ∧ 0 < m.errors then
        some ({ m with errors := m.errors - 1 }.eventHandler .error putErr)
      else none
  | .deliver msg putErr =>
      if putReturns queueEntryCount m.queue putErr then some (m.eventHandler msg putErr) else none
  | .dequeue io =>
      match m.queue with
      | [] => none
      | msg :: rest => some ({ m with queue := rest }.handle io msg)

def fsModule (files : Files Path) : Lts (Module Path) (Event Path) where
  init := Module.start files
  step := Module.step

end Heaty.Fs
