import Heaty.Spec.Fs

/-! fs_impl.c call by call, and `FS_EVT_READ_FILE_REQ` of fs_module.c on top of it.
An existing file is opened at offset 0 and keeps what it holds. Whether a failing `fs_close`
gives the file structure back is left to the file system. -/

namespace Heaty.FsImpl

/-- `mp.mnt_point`, `CONFIG_MAX_PATH_LENGTH` and `CONFIG_FILE_READ_BUFFER_SIZE`. -/
def mntPoint : Bytes := text "/SD:"
def maxPathLength : ℕ := 20
def fileReadBufferSize : ℕ := 200

/-- `sizeof(fname)`. -/
def fnameSize : ℕ := maxPathLength + mntPoint.length + 1

/-- The text that is printed into `fname`. -/
def fullName (filePath : Bytes) : Bytes := mntPoint ++ text "/" ++ filePath

/-- The buffer has room for the full name and its terminator. -/
def Fits (filePath : Bytes) : Prop := (fullName filePath).length < fnameSize

instance (filePath : Bytes) : Decidable (Fits filePath) := inferInstanceAs (Decidable (_ < _))

/-- A `file_path[CONFIG_MAX_PATH_LENGTH]` and the text in it. -/
structure FilePath where
  text : Bytes
  terminated : text.length < maxPathLength

/-- `fname` after its `snprintf`, or the error of the check behind it. -/
def fname (filePath : Bytes) : Except ℤ Bytes :=
  let res := (fullName filePath).length
  if res ≤ 0 ∨ res > fnameSize then .error enomem
  else .ok ((fullName filePath).take (fnameSize - 1))

/-- An error code of the file system. -/
structure Errno where
  code : ℤ
  neg : code < 0
  int : -2147483648 ≤ code

/-- `-ENOENT`. -/
def enoent : ℤ := -2

/-- A result as a `size_t`. -/
def sizeT (res : ℤ) : ℕ := (res % 4294967296).toNat

/-- What a write does: it stores this many bytes and says so, or it fails with so many
stored. -/
inductive WriteResult
  | written (n : ℕ)
  | failed (err : Errno) (stored : ℕ)

/-- What a write of these bytes stores, and what it returns. -/
def WriteResult.stored (bytes : Bytes) : WriteResult → Bytes
  | .written n => bytes.take n
  | .failed _ n => bytes.take n

def WriteResult.ret (bytes : Bytes) : WriteResult → ℤ
  | .written n => (bytes.take n).length
  | .failed err _ => err.code

/-- What a call returns that gives 0 for success. -/
def ret : Option Errno → ℤ
  | some err => err.code
  | none => 0

/-- How the calls of a helper end, `none` for the success of `fs_open` and `fs_close`.
`fs_read` reads no more than it is asked for. `givesBack` is whether a failing `fs_close`
gives the file structure back. -/
structure Calls where
  fsOpen : Option Errno
  fsRead : Except Errno ℕ
  fsWrite : WriteResult
  fsClose : Option Errno
  givesBack : Bool

/-- What the helpers rely on: after `fs_close` the file structure is free, whatever it
returned. -/
def Calls.Closes (calls : Calls) : Prop := calls.fsClose = none ∨ calls.givesBack = true

/-- The files and the file structures in use. -/
structure Disk where
  files : Fs.Files Bytes
  handles : List Bytes

/-- The flags beside `FS_O_RDWR`. -/
structure OpenFlags where
  create : Bool
  append : Bool

/-- Memory, `none` for a byte that nothing was stored in. -/
abbrev Mem := List (Option UInt8)

namespace Disk

/-- `fs_open`. -/
def fsOpen (disk : Disk) (name : Bytes) (flags : OpenFlags) : Option Errno → ℤ × Disk
  | some err => (err.code, disk)
  | none =>
      if flags.create = false ∧ disk.files name = none then (enoent, disk)
      else
        (0, { files := Function.update disk.files name (some ((disk.files name).getD []))
              handles := name :: disk.handles })

/-- The contents of a file after a write at an offset. -/
def writeAt (content : Bytes) (pos : ℕ) (bytes : Bytes) : Bytes :=
  content.take pos ++ bytes ++ content.drop (pos + bytes.length)

/-- `fs_write` on a file just opened. With `FS_O_APPEND` it writes at the end. -/
def fsWrite (disk : Disk) (name : Bytes) (flags : OpenFlags) (bytes : Bytes)
    (result : WriteResult) : ℤ × Disk :=
  let content := (disk.files name).getD []
  let pos := if flags.append then content.length else 0
  (result.ret bytes,
    { disk with
      files := Function.update disk.files name (some (writeAt content pos (result.stored bytes))) })

/-- `fs_read` on a file just opened: its result, and what it stores. -/
def fsRead (disk : Disk) (name : Bytes) (size : ℕ) : Except Errno ℕ → ℤ × Bytes
  | .ok n =>
      let bytes := (((disk.files name).getD []).take size).take n
      (bytes.length, bytes)
  | .error err => (err.code, [])

/-- `fs_close`. -/
def fsClose (disk : Disk) (name : Bytes) (givesBack : Bool) (err : Option Errno) : ℤ × Disk :=
  (ret err,
    if err.isNone || givesBack then { disk with handles := disk.handles.erase name } else disk)

end Disk

/-- `fs_helper_file_write`. The comparison with `contents_len` is one of `size_t`s. -/
def fsHelperFileWrite (calls : Calls) (disk : Disk) (filePath fileContents : Bytes)
    (isAppend : Bool) : ℤ × Disk :=
  match fname filePath with
  | .error err => (err, disk)
  | .ok name =>
      let flags : OpenFlags := { create := true, append := isAppend }
      let opened := disk.fsOpen name flags calls.fsOpen
      if opened.1 ≠ 0 then opened
      else
        let written := opened.2.fsWrite name flags fileContents calls.fsWrite
        if sizeT written.1 ≠ fileContents.length then (enomem, written.2)
        else
          let closed := written.2.fsClose name calls.givesBack calls.fsClose
          if closed.1 ≠ 0 then closed else (0, closed.2)

/-- What `fs_helper_file_read` leaves: its result, the files, the caller's buffer and
`*contents_len`. -/
structure Read where
  ret : ℤ
  disk : Disk
  fileContents : Mem
  contentsLen : ℕ

/-- `fs_helper_file_read`. -/
def fsHelperFileRead (calls : Calls) (disk : Disk) (filePath : Bytes) (fileContents : Mem)
    (contentsLen : ℕ) : Read :=
  match fname filePath with
  | .error err => ⟨err, disk, fileContents, contentsLen⟩
  | .ok name =>
      let opened := disk.fsOpen name { create := true, append := false } calls.fsOpen
      if opened.1 ≠ 0 then ⟨opened.1, opened.2, fileContents, contentsLen⟩
      else
        let read := opened.2.fsRead name contentsLen calls.fsRead
        let mem := read.2.map some ++ fileContents.drop read.2.length
        let closed := opened.2.fsClose name calls.givesBack calls.fsClose
        ⟨closed.1, closed.2, mem, sizeT read.1⟩

/-- What the module submits: `FS_EVT_ERROR`, or a `FS_EVT_READ_FILE_RES` with what of the
read buffer it carries and its `dyndata.size`. -/
inductive Submitted
  | error (err : ℤ)
  | readFileRes (filePath : Bytes) (dyndata : Mem) (size : ℕ)

/-- What a request leaves: the files, the state, how much was copied out of the read
buffer, and what was submitted. -/
structure Answered where
  disk : Disk
  state : Fs.StateType
  copied : ℕ
  submitted : List Submitted

/-- `on_state_ready` for `FS_EVT_READ_FILE_REQ`. The buffer holds what lay in it. -/
def onReadFileReq (calls : Calls) (disk : Disk) (filePath : FilePath) : Answered :=
  let buf : Mem := List.replicate fileReadBufferSize none
  let read := fsHelperFileRead calls disk filePath.text buf fileReadBufferSize
  let bytesRead := read.contentsLen
  { disk := read.disk
    state := if read.ret ≠ 0 then .error else .ready
    copied := bytesRead
    submitted :=
      (if read.ret ≠ 0 then [.error read.ret] else []) ++
        [.readFileRes filePath.text (read.fileContents.take bytesRead) bytesRead] }

end Heaty.FsImpl
