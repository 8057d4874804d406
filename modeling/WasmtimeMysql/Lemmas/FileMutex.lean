import WasmtimeMysql.GuestStorage
import WasmtimeMysql.Lemmas.FileFrame
import WasmtimeMysql.Lemmas.RegularFile

/-!
# The mutex of the file module

The methods of `HostFiles` lock the mutex of `HostFilesInner` before they look the fd up, and hold it until their host call has returned.
An import reads guest memory before it calls its method, or writes to it afterwards, without the mutex. So an import is a program of its
own accesses to guest memory and of methods, each of which is one step among the threads (`through_unixMethods`, `through_windowsMethods`).
-/

namespace WasmtimeMysql

open Effects Effects.Prog Bytes

/-- The methods of `HostFiles` that the imports of a file call. The check of the size before `HostFiles::truncate` is counted in: it asks
nobody. -/
inductive FileMethod where
  | close (fd : Int32)
  | pread (fd : Int32) (len : Nat) (offset : UInt64)
  | pwrite (fd : Int32) (buf : List UInt8) (offset : UInt64)
  | seek (fd : Int32) (offset : Int64) (whence : Int32)
  | truncate (fd : Int32) (size : Int64)
  deriving DecidableEq, Repr

/-- What each returns; `pread` what it has put into its buffer as well. -/
@[reducible] def FileMethod.Resp : FileMethod → Type
  | .close _ => Int32
  | .pread .. => Int32 × List UInt8
  | .pwrite .. => Int32
  | .seek .. => Int64
  | .truncate .. => Int32

@[reducible] def FileMethods : Sig := ⟨FileMethod, FileMethod.Resp⟩

section
variable {P : Type} {Host : Sig} (ioErrno : IoError → Errno) (closeFile : Int32 → FileProg P Host Int32)

/-- What a method runs while it holds the mutex. -/
def FileMethod.prog : (m : FileMethod) → FileProg P Host m.Resp
  | .close fd => closeFile fd
  | .pread fd len offset => HostFiles.preadFile ioErrno fd len offset
  | .pwrite fd buf offset => HostFiles.pwriteFile ioErrno fd buf offset
  | .seek fd offset whence => HostFiles.seek ioErrno fd offset whence
  | .truncate fd size => HostFiles.truncate ioErrno fd size

/-- A command of guest memory, or what the method runs. -/
def FileMethod.inPlace : (c : (GuestMem.sum FileMethods).Cmd) → FileProg P Host ((GuestMem.sum FileMethods).Resp c)
  | .inl c => Prog.cmd (S := GuestMem.sum (FileSig P Host)) (.inl c)
  | .inr m => m.prog ioErrno closeFile

/-- What `pread` does with the answer of its method. -/
def deliver (bufPtr : Int32) (len : Nat) (answer : Int32 × List UInt8) : Prog (GuestMem.sum FileMethods) Int32 :=
  if answer.1 ≤ 0 then pure answer.1
  else do
    let bytes ← sliceTo (fill len answer.2) answer.1.toNatClampNeg
    match ← writeGuest bufPtr bytes with
    | .ok () => return answer.1
    | .error errno => return negErrno errno

/-- The import `pread`, over its method. -/
def methodPread (fd bufPtr len : Int32) (offset : Int64) : Prog (GuestMem.sum FileMethods) Int32 := do
  match checkedLen len with
  | .error errno => return negErrno errno
  | .ok len =>
    alloc len
    let answer ← host (H := FileMethods) (.pread fd len offset.toUInt64)
    deliver bufPtr len answer

/-- The import `pwrite`, over its method. -/
def methodPwrite (fd bufPtr len : Int32) (offset : Int64) : Prog (GuestMem.sum FileMethods) Int32 := do
  match ← readGuest bufPtr len with
  | .error errno => return negErrno errno
  | .ok buf => host (H := FileMethods) (.pwrite fd buf offset.toUInt64)

/-- The imports of a file, over their methods. The other imports are none. -/
def methodImport : FileImport → Prog (GuestMem.sum FileMethods) Int64
  | .close fd => Int32.toInt64 <$> host (H := FileMethods) (.close fd)
  | .pread fd bufPtr len offset => Int32.toInt64 <$> methodPread fd bufPtr len offset
  | .pwrite fd bufPtr len offset => Int32.toInt64 <$> methodPwrite fd bufPtr len offset
  | .seek fd offset whence => host (H := FileMethods) (.seek fd offset whence)
  | .truncate fd size => Int32.toInt64 <$> host (H := FileMethods) (.truncate fd size)
  | _ => .panic

variable {closeFile}

/-- A method in its place is the method. -/
theorem through_host (m : FileMethod) :
    (host (H := FileMethods) m).through (FileMethod.inPlace ioErrno closeFile) = m.prog ioErrno closeFile := through_cmd _ _

theorem through_host_bind {α : Type} (m : FileMethod) (f : m.Resp → Prog (GuestMem.sum FileMethods) α) :
    (host (H := FileMethods) m >>= f).through (FileMethod.inPlace ioErrno closeFile) =
      m.prog ioErrno closeFile >>= fun r => (f r).through (FileMethod.inPlace ioErrno closeFile) := by
  rw [through_bind, through_host]

theorem through_sliceTo (bytes : List UInt8) (n : Nat) :
    (sliceTo bytes n : Prog (GuestMem.sum FileMethods) _).through (FileMethod.inPlace ioErrno closeFile) = sliceTo bytes n := by
  unfold sliceTo
  split <;> rfl

/-- With its method in place, the import `pread` is the one of the module. -/
theorem through_methodPread (fd bufPtr len : Int32) (offset : Int64) :
    (methodPread fd bufPtr len offset).through (FileMethod.inPlace ioErrno closeFile) = HostFiles.pread ioErrno fd bufPtr len offset := by
  unfold methodPread HostFiles.pread
  cases checkedLen len with
  | error errno => rfl
  | ok n =>
    refine congrArg (alloc n >>= ·) (funext fun _ => ?_)
    refine (through_host_bind ioErrno (.pread fd n offset.toUInt64) _).trans ?_
    refine congrArg (HostFiles.preadFile ioErrno fd n offset.toUInt64 >>= ·) (funext fun answer => ?_)
    obtain ⟨rc, data⟩ := answer
    simp only [deliver]
    by_cases hrc : rc ≤ 0
    · simp only [if_pos hrc]
      rfl
    · simp only [if_neg hrc, through_bind, through_sliceTo]
      refine congrArg (sliceTo (fill n data) rc.toNatClampNeg >>= ·) (funext fun bytes => ?_)
      refine congrArg (writeGuest bufPtr bytes >>= ·) (funext fun written => ?_)
      cases written <;> rfl

/-- So is the import `pwrite`. -/
theorem through_methodPwrite (fd bufPtr len : Int32) (offset : Int64) :
    (methodPwrite fd bufPtr len offset).through (FileMethod.inPlace ioErrno closeFile) = HostFiles.pwrite ioErrno fd bufPtr len offset := by
  unfold methodPwrite HostFiles.pwrite
  refine congrArg (readGuest bufPtr len >>= ·) (funext fun read => ?_)
  cases read with
  | error errno => rfl
  | ok buf => exact through_host ioErrno _

end

/-- The imports of a file on Unix are their methods between their accesses to guest memory. -/
theorem through_unixMethods (lc : Libc) {fd : Int32} {c : FileImport} (hc : c.OnFile fd) :
    (methodImport c).through (FileMethod.inPlace (Unix.ioErrno lc) Unix.closeFile) = Unix.fileProg lc c := by
  cases c with
  | pread _ bufPtr len offset => exact (through_map _ _ _).trans (congrArg _ (through_methodPread _ _ _ _ _))
  | pwrite _ bufPtr len offset => exact (through_map _ _ _).trans (congrArg _ (through_methodPwrite _ _ _ _ _))
  | seek _ offset whence => exact through_host _ _
  | truncate _ size => exact (through_map _ _ _).trans (congrArg _ (through_host _ _))
  | close _ => exact (through_map _ _ _).trans (congrArg _ (through_host _ _))
  | _ => exact hc.elim

/-- So are they on Windows. -/
theorem through_windowsMethods (toUppercase : Str → Str) {fd : Int32} {c : FileImport} (hc : c.OnFile fd) :
    (methodImport c).through (FileMethod.inPlace Windows.ioErrno Windows.closeFile) = Windows.fileProg toUppercase c := by
  cases c with
  | pread _ bufPtr len offset => exact (through_map _ _ _).trans (congrArg _ (through_methodPread _ _ _ _ _))
  | pwrite _ bufPtr len offset => exact (through_map _ _ _).trans (congrArg _ (through_methodPwrite _ _ _ _ _))
  | seek _ offset whence => exact through_host _ _
  | truncate _ size => exact (through_map _ _ _).trans (congrArg _ (through_host _ _))
  | close _ => exact (through_map _ _ _).trans (congrArg _ (through_host _ _))
  | _ => exact hc.elim

end WasmtimeMysql
