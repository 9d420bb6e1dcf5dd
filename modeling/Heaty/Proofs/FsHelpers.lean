import Heaty.Spec.FsImpl

/-! Which calls of the file system make the helpers of fs_impl.c do what they are for,
and what they leave otherwise. -/

namespace Heaty.FsImpl

open Utils (overwrite overwrite_eq_self_iff)
open Disk (writeAt)

variable {calls : Calls} {disk : Disk} {filePath fileContents : Bytes} {isAppend : Bool}
  {name : Bytes} {err : Errno}

theorem Errno.code_ne_zero (err : Errno) : err.code ≠ 0 := err.neg.ne

theorem sizeT_natCast {n : ℕ} (h : n < 4294967296) : sizeT n = n := by
  unfold sizeT
  omega

theorem sizeT_errno (err : Errno) : sizeT err.code = (err.code + 4294967296).toNat := by
  have hneg := err.neg
  have hint := err.int
  unfold sizeT
  omega

theorem fileReadBufferSize_lt_sizeT (err : Errno) : fileReadBufferSize < sizeT err.code := by
  have hint := err.int
  rw [sizeT_errno, fileReadBufferSize]
  omega

theorem fname_of_fits (h : Fits filePath) : fname filePath = .ok (fullName filePath) := by
  have hpos : 0 < (fullName filePath).length := by simp [fullName, mntPoint, text]
  unfold Fits at h
  rw [fname, if_neg (by omega), List.take_of_length_le (by omega)]

theorem FilePath.fits (filePath : FilePath) : Fits filePath.text := by
  have hlen := filePath.terminated
  simp only [Fits, fullName, fnameSize, List.length_append,
    show (Heaty.text "/").length = 1 by decide]
  omega

theorem fsOpen_create (disk : Disk) (name : Bytes) {flags : OpenFlags} (h : flags.create = true) :
    disk.fsOpen name flags none =
      (0, { files := Function.update disk.files name (some ((disk.files name).getD []))
            handles := name :: disk.handles }) := by
  simp [Disk.fsOpen, h]

theorem ret_eq_zero_iff {res : Option Errno} : ret res = 0 ↔ res = none := by
  cases res with
  | none => simp [ret]
  | some err => simp [ret, err.code_ne_zero]

/-- The file structures in use behind the `fs_close` of this one. -/
def Calls.handles (calls : Calls) (name : Bytes) (handles : List Bytes) : List Bytes :=
  if calls.fsClose.isNone || calls.givesBack then handles else name :: handles

theorem fsClose_opened (files : Fs.Files Bytes) (handles : List Bytes) (name : Bytes) :
    Disk.fsClose ⟨files, name :: handles⟩ name calls.givesBack calls.fsClose =
      (ret calls.fsClose, ⟨files, calls.handles name handles⟩) := by
  simp only [Disk.fsClose, Calls.handles, List.erase_cons_head]
  split_ifs <;> rfl

theorem handles_eq_iff {handles : List Bytes} :
    calls.handles name handles = handles ↔ calls.Closes := by
  cases hclose : calls.fsClose <;> cases hback : calls.givesBack <;>
    simp [Calls.handles, Calls.Closes, hclose, hback]

theorem writeAt_zero (content bytes : Bytes) :
    writeAt content 0 bytes = overwrite bytes content := by
  simp [writeAt, overwrite]

theorem writeAt_length (content bytes : Bytes) :
    writeAt content content.length bytes = content ++ bytes := by
  simp [writeAt]

/-- A write to a file just opened changes the files as a request of the module does. -/
theorem fsWrite_opened (files : Fs.Files Bytes) (handles : List Bytes) (name : Bytes)
    (create isAppend : Bool) (bytes : Bytes) (result : WriteResult) :
    Disk.fsWrite ⟨Function.update files name (some ((files name).getD [])), handles⟩ name
        ⟨create, isAppend⟩ bytes result =
      (result.ret bytes, ⟨files.write name (result.stored bytes) isAppend, handles⟩) := by
  cases isAppend <;> simp [Disk.fsWrite, Fs.Files.write, writeAt_zero, writeAt_length]

def Calls.WritesAll (calls : Calls) (fileContents : Bytes) : Prop :=
  match calls.fsWrite with
  | .written n => fileContents.length ≤ n
  | .failed _ _ => False

/-- The write fails with an error that as a `size_t` is the length of the payload. -/
def Calls.TakenForLength (calls : Calls) (fileContents : Bytes) : Prop :=
  match calls.fsWrite with
  | .written _ => False
  | .failed err _ => sizeT err.code = fileContents.length

instance (calls : Calls) (fileContents : Bytes) : Decidable (calls.WritesAll fileContents) :=
  match h : calls.fsWrite with
  | .written n => decidable_of_iff (fileContents.length ≤ n) (by simp [Calls.WritesAll, h])
  | .failed _ _ => isFalse (by simp [Calls.WritesAll, h])

theorem check_passes_iff (hsize : fileContents.length < 4294967296) :
    sizeT (calls.fsWrite.ret fileContents) = fileContents.length ↔
      calls.WritesAll fileContents ∨ calls.TakenForLength fileContents := by
  cases hwrite : calls.fsWrite with
  | written n =>
    have hlt : (fileContents.take n).length < 4294967296 := by
      rw [List.length_take]
      omega
    simp only [Calls.WritesAll, Calls.TakenForLength, hwrite, WriteResult.ret, or_false]
    rw [sizeT_natCast hlt, List.length_take]
    omega
  | failed err n => simp [Calls.WritesAll, Calls.TakenForLength, hwrite, WriteResult.ret]

theorem stored_of_writesAll (h : calls.WritesAll fileContents) :
    calls.fsWrite.stored fileContents = fileContents := by
  cases hwrite : calls.fsWrite with
  | written n =>
    simp only [Calls.WritesAll, hwrite] at h
    exact List.take_of_length_le h
  | failed err n => simp [Calls.WritesAll, hwrite] at h

theorem fsHelperFileWrite_unopened (hfits : Fits filePath) (hopen : calls.fsOpen = some err) :
    fsHelperFileWrite calls disk filePath fileContents isAppend = (err.code, disk) := by
  simp [fsHelperFileWrite, fname_of_fits hfits, hopen, Disk.fsOpen, err.code_ne_zero]

/-- Once the file is open, it depends on the check behind `fs_write` whether it is
closed again. -/
theorem fsHelperFileWrite_opened (hfits : Fits filePath) (hopen : calls.fsOpen = none) :
    fsHelperFileWrite calls disk filePath fileContents isAppend =
      let files := disk.files.write (fullName filePath) (calls.fsWrite.stored fileContents) isAppend
      if sizeT (calls.fsWrite.ret fileContents) ≠ fileContents.length then
        (enomem, ⟨files, fullName filePath :: disk.handles⟩)
      else (ret calls.fsClose, ⟨files, calls.handles (fullName filePath) disk.handles⟩) := by
  simp only [fsHelperFileWrite, fname_of_fits hfits, hopen]
  rw [fsOpen_create _ _ rfl]
  simp only [ne_eq, not_true_eq_false, if_false, fsWrite_opened, fsClose_opened]
  split_ifs with hcheck hclose
  · rw [hclose]
  · rfl
  · rfl

def Calls.io (calls : Calls) (fileContents : Bytes) : Fs.Io where
  fsModuleSetup := 0
  fsOpen := ret calls.fsOpen
  fsWrite := calls.fsWrite.ret fileContents
  stored := (calls.fsWrite.stored fileContents).length
  fsClose := ret calls.fsClose
  fsUnlink := 0

theorem take_stored (result : WriteResult) (bytes : Bytes) :
    bytes.take (result.stored bytes).length = result.stored bytes := by
  cases result <;> simp [WriteResult.stored]

theorem storedOf_io (hopen : calls.fsOpen = none) :
    (calls.io fileContents).storedOf fileContents = calls.fsWrite.stored fileContents := by
  have hret : (calls.io fileContents).fsOpen = 0 := ret_eq_zero_iff.2 hopen
  unfold Fs.Io.storedOf
  rw [if_neg (not_not.2 hret)]
  split_ifs with hshort
  · exact take_stored _ _
  · rw [not_or, not_not] at hshort
    cases hwrite : calls.fsWrite with
    | written n =>
      have hlen : (fileContents.take n).length = fileContents.length := by
        simpa only [Calls.io, hwrite, WriteResult.ret, Nat.cast_inj] using hshort.1
      exact ((List.take_prefix n fileContents).eq_of_length hlen).symm
    | failed err n =>
      have hneg := err.neg
      have hlen : err.code = fileContents.length := by
        simpa only [Calls.io, hwrite, WriteResult.ret] using hshort.1
      omega

/-- What the model of the module says of a write is what the calls do, for a payload
that no error code is taken for. -/
theorem fsHelperFileWrite_io (hfits : Fits filePath) (hsize : fileContents.length < 2147483648) :
    let result := fsHelperFileWrite calls disk filePath fileContents isAppend
    Fs.fsHelperFileWrite (calls.io fileContents) disk.files (fullName filePath) fileContents
      isAppend = (result.1, result.2.files) := by
  cases hopen : calls.fsOpen with
  | some err =>
    have hret : (calls.io fileContents).fsOpen = err.code := by simp [Calls.io, hopen, ret]
    simp only [Fs.fsHelperFileWrite, hret, fsHelperFileWrite_unopened hfits hopen]
    rw [if_pos err.code_ne_zero]
  | none =>
    have hret : (calls.io fileContents).fsOpen = 0 := ret_eq_zero_iff.2 hopen
    have hcheck : sizeT (calls.fsWrite.ret fileContents) = fileContents.length ↔
        (calls.io fileContents).fsWrite = fileContents.length := by
      cases hwrite : calls.fsWrite with
      | written n =>
        simp only [Calls.io, hwrite, WriteResult.ret, Nat.cast_inj]
        rw [sizeT_natCast (by rw [List.length_take]; omega)]
      | failed err n =>
        have hneg := err.neg
        have hint := err.int
        simp only [Calls.io, hwrite, WriteResult.ret, sizeT_errno]
        omega
    simp only [Fs.fsHelperFileWrite, hret, storedOf_io hopen, fsHelperFileWrite_opened hfits hopen,
      ne_eq, not_true_eq_false, if_false, hcheck]
    by_cases hshort : (calls.io fileContents).fsWrite = fileContents.length
    · simp only [hshort, not_true_eq_false, if_false]
      split_ifs with hclose
      · exact Prod.ext hclose.symm rfl
      · rfl
    · simp only [hshort, not_false_eq_true, if_true]

def Calls.WriteFails (calls : Calls) (fileContents : Bytes) : Prop :=
  calls.fsOpen ≠ none ∨ ¬ calls.WritesAll fileContents ∨ calls.fsClose ≠ none

/-- What a caller of `fs_helper_file_write` can expect of its result. -/
structure Written (calls : Calls) (disk : Disk) (filePath fileContents : Bytes) (isAppend : Bool)
    (result : ℤ × Disk) : Prop where
  whole : result.1 = 0 → isAppend = false →
    result.2.files (fullName filePath) = some fileContents
  appended : result.1 = 0 → isAppend = true →
    result.2.files (fullName filePath) =
      some ((disk.files (fullName filePath)).getD [] ++ fileContents)
  others : ∀ name, name ≠ fullName filePath → result.2.files name = disk.files name
  reported : calls.WriteFails fileContents → result.1 ≠ 0
  closed : calls.WriteFails fileContents → result.2.handles = disk.handles

/-- The file cannot be opened. Or `fs_close` frees the file structure, and the payload is
written and covers what the file held, unless it is appended or `fs_close` fails, or a failed
write passes for a complete one and `fs_close` fails. -/
def Calls.WriteOk (calls : Calls) (disk : Disk) (filePath fileContents : Bytes)
    (isAppend : Bool) : Prop :=
  calls.fsOpen ≠ none ∨ calls.Closes ∧
    (calls.WritesAll fileContents ∧
        (calls.fsClose ≠ none ∨ isAppend = true ∨
          ((disk.files (fullName filePath)).getD []).length ≤ fileContents.length) ∨
      calls.TakenForLength fileContents ∧ calls.fsClose ≠ none)

theorem write_others (files : Fs.Files Bytes) (bytes : Bytes) (isAppend : Bool)
    {name other : Bytes} (h : other ≠ name) : files.write name bytes isAppend other = files other :=
  Function.update_of_ne h _ _

theorem write_append (files : Fs.Files Bytes) (name bytes : Bytes) :
    files.write name bytes true name = some ((files name).getD [] ++ bytes) := by
  simp [Fs.Files.write]

theorem write_overwrite (files : Fs.Files Bytes) (name bytes : Bytes) :
    files.write name bytes false name = some (overwrite bytes ((files name).getD [])) := by
  simp [Fs.Files.write]

theorem written_of_unopened (hfits : Fits filePath) (hopen : calls.fsOpen ≠ none) :
    Written calls disk filePath fileContents isAppend
      (fsHelperFileWrite calls disk filePath fileContents isAppend) := by
  obtain ⟨err, herr⟩ := Option.ne_none_iff_exists'.1 hopen
  rw [fsHelperFileWrite_unopened hfits herr]
  exact ⟨fun h => absurd h err.code_ne_zero, fun h => absurd h err.code_ne_zero,
    fun _ _ => rfl, fun _ => err.code_ne_zero, fun _ => rfl⟩

/-- A payload that was written makes up the file when it covers what the file held. -/
theorem written_of_writesAll_iff (hfits : Fits filePath)
    (hsize : fileContents.length < 4294967296) (hopen : calls.fsOpen = none)
    (hall : calls.WritesAll fileContents) :
    Written calls disk filePath fileContents isAppend
        (fsHelperFileWrite calls disk filePath fileContents isAppend) ↔
      calls.Closes ∧ (calls.fsClose ≠ none ∨ isAppend = true ∨
        ((disk.files (fullName filePath)).getD []).length ≤ fileContents.length) := by
  have hcheck := (check_passes_iff hsize).2 (Or.inl hall)
  rw [fsHelperFileWrite_opened hfits hopen]
  simp only [hcheck, ne_eq, not_true_eq_false, if_false, stored_of_writesAll hall]
  cases hclose : calls.fsClose with
  | some err =>
    have hfails : calls.WriteFails fileContents := by simp [Calls.WriteFails, hclose]
    simp only [reduceCtorEq, not_false_eq_true, true_or, and_true]
    constructor
    · intro h
      exact handles_eq_iff.1 (h.closed hfails)
    · intro h
      exact ⟨fun h => absurd h err.code_ne_zero, fun h => absurd h err.code_ne_zero,
        fun _ h => write_others _ _ _ h, fun _ => err.code_ne_zero, fun _ => handles_eq_iff.2 h⟩
  | none =>
    have hgood : ¬ calls.WriteFails fileContents := by simp [Calls.WriteFails, hopen, hall, hclose]
    have hcloses : calls.Closes := Or.inl hclose
    cases isAppend with
    | true =>
      simp only [hcloses, not_true_eq_false, true_or, or_true, and_true, iff_true]
      exact ⟨fun _ h => absurd h (by decide), fun _ _ => write_append _ _ _,
        fun _ h => write_others _ _ _ h, fun h => absurd h hgood, fun h => absurd h hgood⟩
    | false =>
      simp only [hcloses, not_true_eq_false, Bool.false_eq_true, false_or, true_and]
      rw [← overwrite_eq_self_iff]
      constructor
      · intro h
        simpa only [write_overwrite, Option.some.injEq] using h.whole rfl rfl
      · intro hcovers
        exact ⟨fun _ _ => by simp only [write_overwrite, hcovers], fun _ h => absurd h (by decide),
          fun _ h => write_others _ _ _ h, fun h => absurd h hgood, fun h => absurd h hgood⟩

/-- A write that falls short leaves the file open, unless it passes for a complete one. -/
theorem written_of_short_iff (hfits : Fits filePath)
    (hsize : fileContents.length < 4294967296) (hopen : calls.fsOpen = none)
    (hall : ¬ calls.WritesAll fileContents) :
    Written calls disk filePath fileContents isAppend
        (fsHelperFileWrite calls disk filePath fileContents isAppend) ↔
      calls.Closes ∧ calls.TakenForLength fileContents ∧ calls.fsClose ≠ none := by
  have hfails : calls.WriteFails fileContents := Or.inr (Or.inl hall)
  rw [fsHelperFileWrite_opened hfits hopen]
  by_cases hcheck : sizeT (calls.fsWrite.ret fileContents) = fileContents.length
  · have htaken := ((check_passes_iff hsize).1 hcheck).resolve_left hall
    simp only [hcheck, ne_eq, not_true_eq_false, if_false, htaken, true_and]
    cases hclose : calls.fsClose with
    | some err =>
      simp only [reduceCtorEq, not_false_eq_true, and_true]
      constructor
      · intro h
        exact handles_eq_iff.1 (h.closed hfails)
      · intro h
        exact ⟨fun h => absurd h err.code_ne_zero, fun h => absurd h err.code_ne_zero,
          fun _ h => write_others _ _ _ h, fun _ => err.code_ne_zero,
          fun _ => handles_eq_iff.2 h⟩
    | none => simpa using fun h : Written _ _ _ _ _ _ => h.reported hfails rfl
  · have htaken : ¬ calls.TakenForLength fileContents :=
      fun h => hcheck ((check_passes_iff hsize).2 (Or.inr h))
    simp only [hcheck, ne_eq, not_false_eq_true, if_true, htaken, false_and, and_false, iff_false]
    intro h
    exact List.cons_ne_self _ _ (h.closed hfails)

/-- The helper writes what it reports, and closes the file, exactly in these cases. -/
theorem fsHelperFileWrite_written_iff (hfits : Fits filePath)
    (hsize : fileContents.length < 4294967296) :
    Written calls disk filePath fileContents isAppend
        (fsHelperFileWrite calls disk filePath fileContents isAppend) ↔
      calls.WriteOk disk filePath fileContents isAppend := by
  by_cases hopen : calls.fsOpen = none
  · by_cases hall : calls.WritesAll fileContents
    · have htaken : ¬ calls.TakenForLength fileContents := by
        intro htaken
        cases hwrite : calls.fsWrite <;>
          simp [Calls.WritesAll, Calls.TakenForLength, hwrite] at hall htaken
      simpa [Calls.WriteOk, hopen, hall, htaken] using
        written_of_writesAll_iff hfits hsize hopen hall
    · simpa [Calls.WriteOk, hopen, hall] using written_of_short_iff hfits hsize hopen hall
  · simpa [Calls.WriteOk, hopen] using written_of_unopened hfits hopen

def Calls.good : Calls := ⟨none, .ok fileReadBufferSize, .written 2, none, true⟩
def Calls.short : Calls := ⟨none, .ok fileReadBufferSize, .written 1, none, true⟩

def oneFile (content : Bytes) : Disk where
  files := Function.update (fun _ => none) (fullName (text "a")) (some content)
  handles := []

theorem fsHelperFileWrite_written_iff_two :
    Written .good (oneFile [1]) (text "a") [8, 9] false
      (fsHelperFileWrite .good (oneFile [1]) (text "a") [8, 9] false) :=
  (fsHelperFileWrite_written_iff (by decide) (by decide)).2
    (Or.inr ⟨Or.inl rfl, Or.inl ⟨by decide, Or.inr (Or.inr (by decide))⟩⟩)

/-- What lies behind a shorter payload stays in the file, and a short write leaves the
file open. -/
theorem tail_and_handle_stay :
    ¬ Written .good (oneFile [1, 2, 3]) (text "a") [8, 9] false
        (fsHelperFileWrite .good (oneFile [1, 2, 3]) (text "a") [8, 9] false) ∧
      ¬ Written .short (oneFile []) (text "a") [8, 9] true
        (fsHelperFileWrite .short (oneFile []) (text "a") [8, 9] true) := by
  constructor
  · intro h
    exact absurd (h.whole (by decide) rfl) (by decide)
  · intro h
    exact absurd (h.closed (Or.inr (Or.inl (by decide)))) (by decide)

def Calls.ReadFails (calls : Calls) (disk : Disk) (filePath : FilePath) : Prop :=
  disk.files (fullName filePath.text) = none ∨ calls.fsOpen ≠ none ∨
    (∃ err, calls.fsRead = .error err) ∨ calls.fsClose ≠ none

/-- What can be expected of a read request: it changes no file, it copies no more than
the read buffer, a response carries the first part of the file, and a failure is
reported. -/
structure ReadAnswered (calls : Calls) (disk : Disk) (filePath : FilePath) (answer : Answered) :
    Prop where
  unchanged : answer.disk.files = disk.files
  bounded : answer.copied ≤ fileReadBufferSize
  exact : ∀ path dyndata size, .readFileRes path dyndata size ∈ answer.submitted →
    ∃ content, disk.files (fullName filePath.text) = some content ∧
      dyndata = (content.take fileReadBufferSize).map some ∧
      size = min content.length fileReadBufferSize
  reported : calls.ReadFails disk filePath →
    (∃ err, .error err ∈ answer.submitted) ∧
      ∀ path dyndata size, .readFileRes path dyndata size ∈ answer.submitted → none ∉ dyndata

def Calls.ReadOk (calls : Calls) (disk : Disk) (filePath : FilePath) : Prop :=
  calls.fsOpen = none ∧
    ∃ content, disk.files (fullName filePath.text) = some content ∧
      ∃ n, calls.fsRead = .ok n ∧ min content.length fileReadBufferSize ≤ n

variable {filePath : FilePath}

theorem none_notMem_map_some (bs : Bytes) : none ∉ bs.map some := by simp

theorem unopened_submits (hopen : calls.fsOpen = some err) :
    Submitted.readFileRes filePath.text (List.replicate fileReadBufferSize none)
      fileReadBufferSize ∈ (onReadFileReq calls disk filePath).submitted := by
  have hread : fsHelperFileRead calls disk filePath.text (List.replicate fileReadBufferSize none)
      fileReadBufferSize =
      ⟨err.code, disk, List.replicate fileReadBufferSize none, fileReadBufferSize⟩ := by
    simp [fsHelperFileRead, fname_of_fits filePath.fits, hopen, Disk.fsOpen, err.code_ne_zero]
  simp [onReadFileReq, hread]

def Calls.readBytes (calls : Calls) (disk : Disk) (name : Bytes) : Bytes :=
  match calls.fsRead with
  | .ok n => (((disk.files name).getD []).take fileReadBufferSize).take n
  | .error _ => []

/-- A file that is opened is created. -/
theorem fsHelperFileRead_opened (hfits : Fits name) (hopen : calls.fsOpen = none) (buf : Mem) :
    fsHelperFileRead calls disk name buf fileReadBufferSize =
      { ret := ret calls.fsClose
        disk :=
          { files := Function.update disk.files (fullName name)
              (some ((disk.files (fullName name)).getD []))
            handles := calls.handles (fullName name) disk.handles }
        fileContents := (calls.readBytes disk (fullName name)).map some ++
          buf.drop (calls.readBytes disk (fullName name)).length
        contentsLen :=
          match calls.fsRead with
          | .ok _ => (calls.readBytes disk (fullName name)).length
          | .error err => sizeT err.code } := by
  simp only [fsHelperFileRead, fname_of_fits hfits, hopen]
  rw [fsOpen_create _ _ rfl]
  simp only [ne_eq, not_true_eq_false, if_false, fsClose_opened]
  cases hread : calls.fsRead with
  | error err => simp [Disk.fsRead, Calls.readBytes, hread]
  | ok n =>
    have hlt : ((((disk.files (fullName name)).getD []).take fileReadBufferSize).take n).length <
        4294967296 := by
      simp only [List.length_take, fileReadBufferSize]
      omega
    simp only [Disk.fsRead, Calls.readBytes, hread, Function.update_self, Option.getD_some,
      sizeT_natCast hlt]

theorem fsHelperFileRead_io (hfits : Fits name) (buf : Mem) :
    let read := fsHelperFileRead calls disk name buf fileReadBufferSize
    Fs.fsHelperFileRead (calls.io []) disk.files (fullName name) = (read.ret, read.disk.files) := by
  cases hopen : calls.fsOpen with
  | some err =>
    simp [Fs.fsHelperFileRead, Calls.io, ret, fsHelperFileRead, fname_of_fits hfits, hopen,
      Disk.fsOpen, err.code_ne_zero]
  | none => simp [Fs.fsHelperFileRead, Calls.io, hopen, ret, fsHelperFileRead_opened hfits hopen]

theorem onReadFileReq_read (disk : Disk) (filePath : FilePath) {n : ℕ}
    (hopen : calls.fsOpen = none) (hread : calls.fsRead = .ok n) :
    let bytes := calls.readBytes disk (fullName filePath.text)
    (onReadFileReq calls disk filePath).copied = bytes.length ∧
      (onReadFileReq calls disk filePath).submitted =
        (if calls.fsClose = none then [] else [.error (ret calls.fsClose)]) ++
          [.readFileRes filePath.text (bytes.map some) bytes.length] := by
  simp only [onReadFileReq, fsHelperFileRead_opened filePath.fits hopen, hread]
  refine ⟨trivial, ?_⟩
  congr 1
  · simp only [ne_eq, ret_eq_zero_iff, ite_not]
  · rw [List.take_left' (by simp)]

theorem onReadFileReq_files (hopen : calls.fsOpen = none) :
    (onReadFileReq calls disk filePath).disk.files =
      Function.update disk.files (fullName filePath.text)
        (some ((disk.files (fullName filePath.text)).getD [])) := by
  simp only [onReadFileReq, fsHelperFileRead_opened filePath.fits hopen]

theorem readBytes_eq_iff {content : Bytes} {n : ℕ} (hread : calls.fsRead = .ok n)
    (hfile : disk.files name = some content) :
    calls.readBytes disk name = content.take fileReadBufferSize ↔
      min content.length fileReadBufferSize ≤ n := by
  simp [Calls.readBytes, hread, hfile, Nat.min_comm]

theorem readAnswered_of_readOk (h : calls.ReadOk disk filePath) :
    ReadAnswered calls disk filePath (onReadFileReq calls disk filePath) := by
  obtain ⟨hopen, content, hfile, n, hread, hn⟩ := h
  have hbytes := (readBytes_eq_iff hread hfile).2 hn
  obtain ⟨hcopied, hsubmitted⟩ :=
    onReadFileReq_read disk filePath hopen hread
  rw [hbytes] at hcopied hsubmitted
  have hres : ∀ path dyndata size,
      Submitted.readFileRes path dyndata size ∈ (onReadFileReq calls disk filePath).submitted →
        dyndata = (content.take fileReadBufferSize).map some ∧
          size = min content.length fileReadBufferSize := by
    intro path dyndata size hmem
    rw [hsubmitted] at hmem
    split_ifs at hmem <;> simp_all [Nat.min_comm]
  refine ⟨?_, ?_, fun path dyndata size hmem => ⟨content, hfile, hres _ _ _ hmem⟩,
    fun hfails => ⟨?_, fun path dyndata size hmem => ?_⟩⟩
  · rw [onReadFileReq_files hopen, hfile]
    exact Function.update_eq_self_iff.2 (by rw [hfile]; rfl)
  · rw [hcopied, List.length_take]
    exact Nat.min_le_left _ _
  · have hclose : calls.fsClose ≠ none := by
      simpa [Calls.ReadFails, hfile, hopen, hread] using hfails
    exact ⟨ret calls.fsClose, by simp [hsubmitted, hclose]⟩
  · rw [(hres _ _ _ hmem).1]
    exact none_notMem_map_some _

theorem readOk_of_readAnswered
    (h : ReadAnswered calls disk filePath (onReadFileReq calls disk filePath)) :
    calls.ReadOk disk filePath := by
  cases hopen : calls.fsOpen with
  | some err =>
    obtain ⟨content, -, hunread, -⟩ := h.exact _ _ _ (unopened_submits hopen)
    have hnone : none ∈ (content.take fileReadBufferSize).map some :=
      hunread ▸ List.mem_replicate.2 ⟨by decide, rfl⟩
    exact absurd hnone (none_notMem_map_some _)
  | none =>
    -- a file that was not there is there now
    have hfile := congrFun (onReadFileReq_files hopen ▸ h.unchanged) (fullName filePath.text)
    rw [Function.update_self] at hfile
    cases hread : calls.fsRead with
    | error err =>
      have hbounded := h.bounded
      simp only [onReadFileReq, fsHelperFileRead_opened filePath.fits hopen, hread] at hbounded
      exact absurd (fileReadBufferSize_lt_sizeT err) (by omega)
    | ok n =>
      obtain ⟨hcopied, hsubmitted⟩ :=
        onReadFileReq_read disk filePath hopen hread
      have hmem : Submitted.readFileRes filePath.text _ _ ∈
          (onReadFileReq calls disk filePath).submitted :=
        hsubmitted ▸ List.mem_append_right _ (List.mem_singleton_self _)
      obtain ⟨content, hcontent, hdata, -⟩ := h.exact _ _ _ hmem
      refine ⟨hopen, content, hcontent, n, hread, (readBytes_eq_iff hread hcontent).1 ?_⟩
      exact List.map_injective_iff.2 (Option.some_injective _) hdata

/-- A read request is answered as it should be exactly when it can be answered. -/
theorem onReadFileReq_answered_iff :
    ReadAnswered calls disk filePath (onReadFileReq calls disk filePath) ↔
      calls.ReadOk disk filePath :=
  ⟨readOk_of_readAnswered, readAnswered_of_readOk⟩

def missingPath : FilePath := ⟨text "b", by decide⟩

/-- Reading a file that is not there creates it, and a negative result of `fs_read` is
copied by. -/
theorem read_creates_and_overruns :
    ¬ ReadAnswered .good (oneFile [1]) missingPath (onReadFileReq .good (oneFile [1]) missingPath) ∧
      ¬ ReadAnswered { Calls.good with fsRead := .error ⟨-5, by decide, by decide⟩ } (oneFile [1])
        ⟨text "a", by decide⟩
        (onReadFileReq { Calls.good with fsRead := .error ⟨-5, by decide, by decide⟩ } (oneFile [1])
          ⟨text "a", by decide⟩) := by
  constructor
  · intro h
    exact absurd (congrFun h.unchanged (fullName missingPath.text)) (by decide)
  · intro h
    exact absurd h.bounded (by decide)

end Heaty.FsImpl
