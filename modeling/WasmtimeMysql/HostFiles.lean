import WasmtimeMysql.GuestMemory
import WasmtimeMysql.HostPaths
import WasmtimeMysql.Lib.FdTable

/-!
# The file imports

`host_files.rs`: the table of open files and the nine imports of the module `waasmtime_mysql_files`, as programs over guest memory,
the table and the calls to the host. Most of the module is one text for both hosts (`read_at` and `seek_read` are one command here, as
are `write_at` and `seek_write`); what differs stands in the sections for Unix and for Windows.

An import that looks a file up keeps the mutex of the table until its host call has returned: the commands of an import from its
first table operation on are one critical section. A `File` closes its descriptor when it is dropped, which is a command too.
-/

namespace WasmtimeMysql

open Effects Bytes

/-! ## std::fs -/

/-- `std::fs::File`: the descriptor (Unix) or the handle (Windows) it owns. -/
structure File where
  raw : UInt64
  deriving DecidableEq, Repr

/-- `std::fs::OpenOptions`, with `OpenOptions::new` for what is not set. -/
structure OpenOptions where
  read : Bool := false
  write : Bool := false
  append : Bool := false
  create : Bool := false
  createNew : Bool := false
  truncate : Bool := false
  deriving DecidableEq, Repr

/-- `std::io::SeekFrom` -/
inductive SeekFrom where
  | start (offset : UInt64)
  | current (offset : Int64)
  | fromEnd (offset : Int64)
  deriving DecidableEq, Repr

/-- The calls to std's files that both hosts make. A buffer to read into is given by its length. -/
inductive Fs.Cmd (P : Type) where
  | openFile (path : P) (options : OpenOptions)
  /-- A file that goes out of scope. -/
  | drop (file : File)
  /-- `read_at` on Unix, `seek_read` on Windows -/
  | readAt (file : File) (len : Nat) (offset : UInt64)
  /-- `write_at` on Unix, `seek_write` on Windows -/
  | writeAt (file : File) (buf : List UInt8) (offset : UInt64)
  | seek (file : File) (pos : SeekFrom)
  | setLen (file : File) (size : UInt64)
  | syncData (file : File)
  | syncAll (file : File)

/-- The answer of a read: the count, and what was put into the buffer. -/
structure ReadAnswer where
  n : Nat
  data : List UInt8
  deriving DecidableEq, Repr

@[reducible] def Fs.Cmd.Resp {P : Type} : Fs.Cmd P → Type
  | .openFile .. => Except IoError File
  | .drop _ => Unit
  | .readAt .. => Except IoError ReadAnswer
  | .writeAt .. => Except IoError Nat
  | .seek .. => Except IoError UInt64
  | .setLen .. => Except IoError Unit
  | .syncData _ => Except IoError Unit
  | .syncAll _ => Except IoError Unit

/-- The signature of std's files. -/
@[reducible] def Fs (P : Type) : Sig := ⟨Fs.Cmd P, Fs.Cmd.Resp⟩

/-! ## The table -/

/-- `GUEST_FD_BASE` of the file module. -/
def fileFdBase : Int32 := 20000

/-- `HostFilesInner`, as far as both hosts have it. -/
structure HostFilesInner (P : Type) where
  preopens : List (PreopenMapping P)
  files : FdTable fileFdBase File

/-- The commands on it. An entry of the table never changes in place. -/
inductive HostFilesInner.Cmd where
  | preopens
  | files (c : FdTable.Cmd File Empty)

@[reducible] def HostFilesInner.Cmd.Resp (P : Type) : HostFilesInner.Cmd → Type
  | .preopens => List (PreopenMapping P)
  | .files c => c.Resp

/-- The signature of the table. -/
@[reducible] def HostFilesInner.Sig (P : Type) : Effects.Sig := ⟨HostFilesInner.Cmd, HostFilesInner.Cmd.Resp P⟩

/-- What a command answers and leaves. -/
def HostFilesInner.handle {P : Type} (a : HostFilesInner P) : (c : HostFilesInner.Cmd) → c.Resp P × HostFilesInner P
  | .preopens => (a.preopens, a)
  | .files c => ((a.files.handle Empty.elim c).1, { a with files := (a.files.handle Empty.elim c).2 })

/-- The machine of the table. -/
def HostFilesInner.machine (P : Type) : Machine (HostFilesInner.Sig P) (HostFilesInner P) := .det HostFilesInner.handle

/-- The commands of a file module: the table, std's files, and what only one host has. -/
@[reducible] def FileSig (P : Type) (Host : Sig) : Sig := (HostFilesInner.Sig P).sum ((Fs P).sum Host)

/-- A program of a file module. -/
abbrev FileProg (P : Type) (Host : Sig) (α : Type) : Type := Prog (GuestMem.sum (FileSig P Host)) α

section
variable {P : Type} {Host : Sig}

/-- A command on the table of files. -/
def files (c : FdTable.Cmd File Empty) : FileProg P Host c.Resp := host (H := FileSig P Host) (.inl (.files c))

/-- A call to std's files. -/
def fs (c : Fs.Cmd P) : FileProg P Host c.Resp := host (H := FileSig P Host) (.inr (.inl c))

/-- A command that only this host has. -/
def own (c : Host.Cmd) : FileProg P Host (Host.Resp c) := host (H := FileSig P Host) (.inr (.inr c))

/-- `inner.preopens` -/
def getPreopens : FileProg P Host (List (PreopenMapping P)) := host (H := FileSig P Host) (.inl .preopens)

/-- A pure result that may be a panic. -/
def ofOutcome {α : Type} : Outcome α → FileProg P Host α
  | .returned a => return a
  | .panicked => .panic

end

/-! ## The flags of the guest -/

def wasiOAppend : Int32 := 0x0001

def wasiOCreat : Int32 := (0x0001 : Int32) <<< 12

def wasiODirectory : Int32 := (0x0002 : Int32) <<< 12

def wasiOExcl : Int32 := (0x0004 : Int32) <<< 12

def wasiOTrunc : Int32 := (0x0008 : Int32) <<< 12

def wasiORdonly : Int32 := 0x04000000

def wasiOWronly : Int32 := 0x10000000

/-- The options `HostFiles::open` sets for the guest's flags. -/
def openOptions (flags : Int32) : OpenOptions :=
  let write := flags &&& wasiOWronly != 0
  let create := flags &&& wasiOCreat != 0
  let excl := flags &&& wasiOExcl != 0
  { read := flags &&& wasiORdonly != 0 || !write
    write
    append := flags &&& wasiOAppend != 0
    create := create && !excl
    createNew := create && excl
    truncate := flags &&& wasiOTrunc != 0 }

/-- `libc::SEEK_SET` -/
def seekSet : Int32 := 0

/-- `libc::SEEK_CUR` -/
def seekCur : Int32 := 1

/-- `libc::SEEK_END` -/
def seekEnd : Int32 := 2

/-! ## The imports -/

/-- A call to an import of the module, with its arguments. -/
inductive FileImport where
  | openFile (pathPtr flags mode : Int32)
  | close (fd : Int32)
  | pread (fd bufPtr len : Int32) (offset : Int64)
  | pwrite (fd bufPtr len : Int32) (offset : Int64)
  | seek (fd : Int32) (offset : Int64) (whence : Int32)
  | truncate (fd : Int32) (size : Int64)
  | sync (fd dataOnly : Int32)
  | syncParent (pathPtr : Int32)
  | lockExclusive (fd : Int32)
  deriving DecidableEq, Repr

namespace HostFiles

section
variable (os : PathOs) {Host : Sig} (ioErrno : IoError → Errno)

/-- `HostFiles::resolve` -/
def resolve (guestPath : Str) : FileProg os.Path Host (Except Errno os.Path) := do
  let preopens ← getPreopens
  ofOutcome (WasmtimeMysql.resolve os preopens guestPath)

/-- `HostFiles::resolve_parent` -/
def resolveParent (guestPath : Str) : FileProg os.Path Host (Except Errno os.Path) := do
  let preopens ← getPreopens
  ofOutcome (WasmtimeMysql.resolveParent os preopens guestPath)

/-- `HostFiles::open` up to the host's file, which both hosts have: the file and the path it was opened by. -/
def openHost (guestPath : Str) (flags : Int32) : FileProg os.Path Host (Except Errno (os.Path × File)) := do
  match ← resolve os guestPath with
  | .error errno => return .error errno
  | .ok hostPath =>
    if flags &&& wasiODirectory ≠ 0 then return .error .eisdir
    else
      match ← fs (.openFile hostPath (openOptions flags)) with
      | .ok file => return .ok (hostPath, file)
      | .error err => return .error (ioErrno err)

end

section
variable {P : Type} {Host : Sig} (ioErrno : IoError → Errno)

/-- The new entry of `HostFiles::open`. A file that it replaces is dropped. -/
def insertFile (file : File) : FileProg P Host Int32 := do
  let (fd, replaced) ← files (.insert file)
  match replaced with
  | some old =>
    fs (.drop old)
    return fd
  | none => return fd

/-- `HostFiles::pread`: the return code, and what was put into the buffer. -/
def preadFile (fd : Int32) (len : Nat) (offset : UInt64) : FileProg P Host (Int32 × List UInt8) := do
  match ← files (.get fd) with
  | none => return (negErrno .ebadf, [])
  | some file =>
    match ← fs (.readAt file len offset) with
    | .ok answer =>
      match i32TryFromUsize answer.n with
      | some n => return (n, answer.data)
      | none => return (negErrno .eoverflow, answer.data)
    | .error err => return (negErrno (ioErrno err), [])

/-- The import `pread`. -/
def pread (fd bufPtr len : Int32) (offset : Int64) : FileProg P Host Int32 := do
  match checkedLen len with
  | .error errno => return negErrno errno
  | .ok len =>
    alloc len
    let (rc, data) ← preadFile ioErrno fd len offset.toUInt64
    if rc ≤ 0 then return rc
    else
      let bytes ← sliceTo (fill len data) rc.toNatClampNeg
      match ← writeGuest bufPtr bytes with
      | .ok () => return rc
      | .error errno => return negErrno errno

/-- `HostFiles::pwrite` -/
def pwriteFile (fd : Int32) (buf : List UInt8) (offset : UInt64) : FileProg P Host Int32 := do
  match ← files (.get fd) with
  | none => return negErrno .ebadf
  | some file =>
    match ← fs (.writeAt file buf offset) with
    | .ok n =>
      match i32TryFromUsize n with
      | some n => return n
      | none => return negErrno .eoverflow
    | .error err => return negErrno (ioErrno err)

/-- The import `pwrite`. -/
def pwrite (fd bufPtr len : Int32) (offset : Int64) : FileProg P Host Int32 := do
  match ← readGuest bufPtr len with
  | .error errno => return negErrno errno
  | .ok buf => pwriteFile ioErrno fd buf offset.toUInt64

/-- The `SeekFrom` of `HostFiles::seek`. -/
def seekFrom (offset : Int64) (whence : Int32) : Except Errno SeekFrom :=
  if whence = seekSet then
    if offset < 0 then .error .einval else .ok (.start offset.toUInt64)
  else if whence = seekCur then .ok (.current offset)
  else if whence = seekEnd then .ok (.fromEnd offset)
  else .error .einval

/-- The import `seek`: the position, as an `i64`. -/
def seek (fd : Int32) (offset : Int64) (whence : Int32) : FileProg P Host Int64 := do
  match ← files (.get fd) with
  | none => return (negErrno .ebadf).toInt64
  | some file =>
    match seekFrom offset whence with
    | .error errno => return (negErrno errno).toInt64
    | .ok pos =>
      match ← fs (.seek file pos) with
      | .ok pos => if pos.toNat < 2 ^ 63 then return pos.toInt64 else return (negErrno .eoverflow).toInt64
      | .error err => return (negErrno (ioErrno err)).toInt64

/-- The end of an import whose host call has no value. -/
def unitResult (result : Except IoError Unit) : Int32 :=
  match result with
  | .ok () => 0
  | .error err => negErrno (ioErrno err)

/-- The import `truncate`. -/
def truncate (fd : Int32) (size : Int64) : FileProg P Host Int32 := do
  if size < 0 then return negErrno .einval
  else
    match ← files (.get fd) with
    | none => return negErrno .ebadf
    | some file =>
      let result ← fs (.setLen file size.toUInt64)
      return unitResult ioErrno result

/-- The import `sync`. -/
def sync (fd dataOnly : Int32) : FileProg P Host Int32 := do
  match ← files (.get fd) with
  | none => return negErrno .ebadf
  | some file =>
    let result ← if dataOnly ≠ 0 then fs (.syncData file) else fs (.syncAll file)
    return unitResult ioErrno result

end

end HostFiles

/-! ## Unix -/

namespace Unix

/-- What only Unix has: `fcntl(fd, F_SETLK, F_WRLCK over the whole file)` and `std::io::Error::last_os_error()`. -/
inductive FileHost.Cmd where
  | setlk (file : File)
  | lastOsError
  deriving DecidableEq, Repr

@[reducible] def FileHost.Cmd.Resp : FileHost.Cmd → Type
  | .setlk _ => Int32
  | .lastOsError => IoError

@[reducible] def FileHost : Sig := ⟨FileHost.Cmd, FileHost.Cmd.Resp⟩

/-- The commands of the Unix file module. -/
@[reducible] def Files : Sig := GuestMem.sum (FileSig Str FileHost)

/-- `io_errno` on Unix. -/
def ioErrno (lc : Libc) (err : IoError) : Errno :=
  match err.rawOsError with
  | none => .eio
  | some code => fromHostErrno lc code

section
variable (lc : Libc)

/-- The import `open`. -/
def openFile (pathPtr flags : Int32) : FileProg Str FileHost Int32 := do
  match ← readCstr pathPtr with
  | .error errno => return negErrno errno
  | .ok path =>
    match ← HostFiles.openHost unixPaths (ioErrno lc) path flags with
    | .error errno => return negErrno errno
    | .ok (_, file) => HostFiles.insertFile file

/-- The import `close`. -/
def closeFile (fd : Int32) : FileProg Str FileHost Int32 := do
  match ← files (.remove fd) with
  | some file =>
    fs (.drop file)
    return 0
  | none => return negErrno .ebadf

/-- `File::open(parent).and_then(|directory| directory.sync_all())` -/
def syncDirectory (parent : Str) : FileProg Str FileHost (Except IoError Unit) := do
  match ← fs (.openFile parent { read := true }) with
  | .error err => return .error err
  | .ok directory =>
    let result ← fs (.syncAll directory)
    fs (.drop directory)
    return result

/-- The import `sync_parent`. -/
def syncParent (pathPtr : Int32) : FileProg Str FileHost Int32 := do
  match ← readCstr pathPtr with
  | .error errno => return negErrno errno
  | .ok path =>
    match ← HostFiles.resolveParent unixPaths path with
    | .error errno => return negErrno errno
    | .ok parent =>
      let result ← syncDirectory parent
      return HostFiles.unitResult (ioErrno lc) result

/-- The import `lock_exclusive`. -/
def lockExclusive (fd : Int32) : FileProg Str FileHost Int32 := do
  match ← files (.get fd) with
  | none => return negErrno .ebadf
  | some file =>
    let rc ← @own Str FileHost (.setlk file)
    if rc = 0 then return 0
    else
      let err ← @own Str FileHost .lastOsError
      return negErrno (ioErrno lc err)

end

/-- What a call runs. A result of 32 bits is given as its `i64`. -/
def fileProg (lc : Libc) : FileImport → FileProg Str FileHost Int64
  | .openFile pathPtr flags _ => Int32.toInt64 <$> openFile lc pathPtr flags
  | .close fd => Int32.toInt64 <$> closeFile fd
  | .pread fd bufPtr len offset => Int32.toInt64 <$> HostFiles.pread (ioErrno lc) fd bufPtr len offset
  | .pwrite fd bufPtr len offset => Int32.toInt64 <$> HostFiles.pwrite (ioErrno lc) fd bufPtr len offset
  | .seek fd offset whence => HostFiles.seek (ioErrno lc) fd offset whence
  | .truncate fd size => Int32.toInt64 <$> HostFiles.truncate (ioErrno lc) fd size
  | .sync fd dataOnly => Int32.toInt64 <$> HostFiles.sync (ioErrno lc) fd dataOnly
  | .syncParent pathPtr => Int32.toInt64 <$> syncParent lc pathPtr
  | .lockExclusive fd => Int32.toInt64 <$> lockExclusive lc fd

end Unix

/-! ## Windows -/

namespace Windows

/-- `HANDLE` -/
abbrev Handle : Type := UInt64

/-- The two maps of `HostFilesInner` that only Windows has: the path a file was opened by, and the locks by path. A lock path is kept by its
components, as `PathBuf`s are compared. -/
structure LockMaps where
  lockPaths : Int32 → Option WinParts
  locks : WinParts → Option Handle

/-- The operations on the two maps. -/
inductive LockMaps.Cmd where
  | lockPathsInsert (fd : Int32) (path : WinParts)
  | lockPathsGet (fd : Int32)
  | lockPathsRemove (fd : Int32)
  | locksContains (path : WinParts)
  | locksInsert (path : WinParts) (handle : Handle)
  deriving DecidableEq, Repr

/-- The answer to each operation; an insert answers the lock it replaced, whose handle is closed. -/
@[reducible] def LockMaps.Cmd.Resp : LockMaps.Cmd → Type
  | .lockPathsInsert .. => Unit
  | .lockPathsGet _ => Option WinParts
  | .lockPathsRemove _ => Unit
  | .locksContains _ => Bool
  | .locksInsert .. => Option Handle

/-- The signature of the two maps. -/
@[reducible] def LockMaps.Sig : Effects.Sig := ⟨LockMaps.Cmd, LockMaps.Cmd.Resp⟩

/-- What an operation answers and leaves. -/
def LockMaps.handle (m : LockMaps) : (c : LockMaps.Cmd) → c.Resp × LockMaps
  | .lockPathsInsert fd path => ((), { m with lockPaths := fun g => if g = fd then some path else m.lockPaths g })
  | .lockPathsGet fd => (m.lockPaths fd, m)
  | .lockPathsRemove fd => ((), { m with lockPaths := fun g => if g = fd then none else m.lockPaths g })
  | .locksContains path => ((m.locks path).isSome, m)
  | .locksInsert path handle => (m.locks path, { m with locks := fun q => if q = path then some handle else m.locks q })

/-- The calls of the Windows file module that are not std's. A null handle and an invalid one are `none`. -/
inductive Win32.Cmd where
  | canonicalize (path : WinPath)
  | createFileMappingW (name : List UInt16)
  | getLastError
  | closeHandle (handle : Handle)
  | createFileW (path : WinPath)
  | flushFileBuffers (handle : Handle)
  | lastOsError
  deriving DecidableEq, Repr

@[reducible] def Win32.Cmd.Resp : Win32.Cmd → Type
  | .canonicalize _ => Except IoError WinParts
  | .createFileMappingW _ => Option Handle
  | .getLastError => Int32
  | .closeHandle _ => Unit
  | .createFileW _ => Option Handle
  | .flushFileBuffers _ => Int32
  | .lastOsError => IoError

/-- The signature of the Win32 calls. -/
@[reducible] def Win32 : Sig := ⟨Win32.Cmd, Win32.Cmd.Resp⟩

/-- What only Windows has. -/
@[reducible] def FileHost : Sig := LockMaps.Sig.sum Win32

/-- The commands of the Windows file module. -/
@[reducible] def Files : Sig := GuestMem.sum (FileSig WinPath FileHost)

/-- An operation on the two maps. -/
def lockMaps (c : LockMaps.Cmd) : FileProg WinPath FileHost c.Resp := @own WinPath FileHost (.inl c)

/-- A Win32 call. -/
def win32 (c : Win32.Cmd) : FileProg WinPath FileHost c.Resp := @own WinPath FileHost (.inr c)

/-- `io_errno` on Windows. -/
def ioErrno (err : IoError) : Errno :=
  match err.rawOsError with
  | none => .eio
  | some code => fromWindowsError code

/-! ### The name of a lock -/

/-- The text of a prefix. -/
def prefixText : WinPrefix → Str
  | .disk letter => [letter, ':']
  | .unc server share => "\\\\".toList ++ server ++ '\\' :: share
  | .deviceNs name => "\\\\.\\".toList ++ name
  | .verbatim name => "\\\\?\\".toList ++ name
  | .verbatimUnc server share => "\\\\?\\UNC\\".toList ++ server ++ '\\' :: share
  | .verbatimDisk letter => "\\\\?\\".toList ++ [letter, ':']

/-- `Path::as_os_str`, in the spelling of `std::fs::canonicalize`: backslashes only, and none at the end. -/
def pathText (path : WinParts) : Str :=
  (match path.drive with
    | some p => prefixText p
    | none => []) ++ (if path.root then ['\\'] else []) ++ ['\\'].intercalate (path.comps.map componentText)

/-- `str::encode_utf16` -/
def encodeUtf16 (s : Str) : List UInt16 :=
  s.flatMap fun c =>
    if c.toNat < 0x10000 then [UInt16.ofNat c.toNat]
    else [UInt16.ofNat (0xd800 + (c.toNat - 0x10000) / 0x400), UInt16.ofNat (0xdc00 + (c.toNat - 0x10000) % 0x400)]

/-- One round of the loop of `windows_lock_name`. -/
def hashUnit (hash : UInt64) (unit : UInt16) : UInt64 := (hash ^^^ unit.toUInt64) * 0x100000001b3

/-- The format `016x`. -/
def hex16 (hash : UInt64) : Str :=
  let digits := Nat.toDigits 16 hash.toNat
  List.replicate (16 - digits.length) '0' ++ digits

/-- `windows_lock_name`. The case mapping is `str::to_uppercase`, which Unicode's tables define. -/
def windowsLockName (toUppercase : Str → Str) (path : WinParts) : List UInt16 :=
  let hash := (encodeUtf16 (toUppercase (pathText path))).foldl hashUnit 0xcbf29ce484222325
  encodeUtf16 ("Local\\wasmtime-mysql-file-".toList ++ hex16 hash) ++ [0]

/-! ### The imports -/

/-- The import `open`. The lock path is the canonical one, or the path itself when there is none. -/
def openFile (pathPtr flags : Int32) : FileProg WinPath FileHost Int32 := do
  match ← readCstr pathPtr with
  | .error errno => return negErrno errno
  | .ok path =>
    match ← HostFiles.openHost windowsPaths ioErrno path flags with
    | .error errno => return negErrno errno
    | .ok (hostPath, file) =>
      let canonical ← win32 (.canonicalize hostPath)
      let lockPath := match canonical with
        | .ok path => path
        | .error _ => parseWinPath hostPath.text
      let fd ← HostFiles.insertFile file
      lockMaps (.lockPathsInsert fd lockPath)
      return fd

/-- The import `close`. -/
def closeFile (fd : Int32) : FileProg WinPath FileHost Int32 := do
  match ← files (.remove fd) with
  | some file =>
    fs (.drop file)
    lockMaps (.lockPathsRemove fd)
    return 0
  | none => return negErrno .ebadf

/-- `sync_directory` -/
def syncDirectory (path : WinPath) : FileProg WinPath FileHost (Except IoError Unit) := do
  match ← win32 (.createFileW path) with
  | none =>
    let err ← win32 .lastOsError
    return .error err
  | some handle =>
    let flushed ← win32 (.flushFileBuffers handle)
    if flushed ≠ 0 then
      win32 (.closeHandle handle)
      return .ok ()
    else
      let err ← win32 .lastOsError
      win32 (.closeHandle handle)
      return .error err

/-- The import `sync_parent`. -/
def syncParent (pathPtr : Int32) : FileProg WinPath FileHost Int32 := do
  match ← readCstr pathPtr with
  | .error errno => return negErrno errno
  | .ok path =>
    match ← HostFiles.resolveParent windowsPaths path with
    | .error errno => return negErrno errno
    | .ok parent =>
      let result ← syncDirectory parent
      return HostFiles.unitResult ioErrno result

/-- `ERROR_ALREADY_EXISTS` -/
def errorAlreadyExists : Int32 := 183

/-- The new lock of `lock_exclusive`. A lock that it replaces is dropped, which closes its handle. -/
def insertLock (path : WinParts) (handle : Handle) : FileProg WinPath FileHost Unit := do
  match ← lockMaps (.locksInsert path handle) with
  | some old => win32 (.closeHandle old)
  | none => return ()

/-- The import `lock_exclusive`. -/
def lockExclusive (toUppercase : Str → Str) (fd : Int32) : FileProg WinPath FileHost Int32 := do
  match ← lockMaps (.lockPathsGet fd) with
  | none => return negErrno .ebadf
  | some lockPath =>
    if ← lockMaps (.locksContains lockPath) then return 0
    else
      match ← files (.get fd) with
      | none => return negErrno .ebadf
      | some _ =>
        match ← win32 (.createFileMappingW (windowsLockName toUppercase lockPath)) with
        | none =>
          let err ← win32 .lastOsError
          return negErrno (ioErrno err)
        | some handle =>
          if (← win32 .getLastError) = errorAlreadyExists then
            win32 (.closeHandle handle)
            return negErrno .eagain
          else
            insertLock lockPath handle
            return 0

/-- What a call runs. A result of 32 bits is given as its `i64`. -/
def fileProg (toUppercase : Str → Str) : FileImport → FileProg WinPath FileHost Int64
  | .openFile pathPtr flags _ => Int32.toInt64 <$> openFile pathPtr flags
  | .close fd => Int32.toInt64 <$> closeFile fd
  | .pread fd bufPtr len offset => Int32.toInt64 <$> HostFiles.pread ioErrno fd bufPtr len offset
  | .pwrite fd bufPtr len offset => Int32.toInt64 <$> HostFiles.pwrite ioErrno fd bufPtr len offset
  | .seek fd offset whence => HostFiles.seek ioErrno fd offset whence
  | .truncate fd size => Int32.toInt64 <$> HostFiles.truncate ioErrno fd size
  | .sync fd dataOnly => Int32.toInt64 <$> HostFiles.sync ioErrno fd dataOnly
  | .syncParent pathPtr => Int32.toInt64 <$> syncParent pathPtr
  | .lockExclusive fd => Int32.toInt64 <$> lockExclusive toUppercase fd

end Windows

end WasmtimeMysql
