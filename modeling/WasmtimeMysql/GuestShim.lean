import WasmtimeMysql.HostFiles
import WasmtimeMysql.HostSockets
import WasmtimeMysql.Lib.Prog

/-!
# The guest's side of the imports

How MySQL reads the results: `mysql_wasi_socket_shim.c` for the sockets, and what the patches add to InnoDB's `os0file.cc` for the
files. A negative result is an errno; the shim stores it and returns -1. `ssize_t` has 32 bits on wasm32, `os_offset_t` is an unsigned
integer of 64 bits.
-/

namespace WasmtimeMysql

open Effects Effects.Prog

/-- What a shim returns, and the errno it stored, if it did. -/
structure Decoded (α : Type) where
  value : α
  errno : Option Int32
  deriving DecidableEq, Repr

/-- The body that the four decoders of 32 bits share. -/
def decodeRc (rc : Int32) : Decoded Int32 := if rc < 0 then ⟨-1, some (-rc)⟩ else ⟨rc, none⟩

/-- `decode_i32` -/
def decodeI32 (rc : Int32) : Decoded Int32 := decodeRc rc

/-- `decode_ssize` -/
def decodeSsize (rc : Int32) : Decoded Int32 := decodeRc rc

/-- `os_wasi_decode_i32` -/
def osWasiDecodeI32 (rc : Int32) : Decoded Int32 := decodeRc rc

/-- `os_wasi_decode_ssize` -/
def osWasiDecodeSsize (rc : Int32) : Decoded Int32 := decodeRc rc

/-- `os_wasi_file_seek`, from the result of the import on. -/
def osWasiFileSeek (rc : Int64) : Decoded UInt64 :=
  if rc < 0 then ⟨(-1 : Int64).toUInt64, some (-rc).toInt32⟩ else ⟨rc.toUInt64, none⟩

/-- `os_wasi_resolve_path`: `cwd` is what `getcwd` put into its buffer, if it fitted. The text and its NUL have to fit into the buffer. -/
def osWasiResolvePath (cwd : Option Str) (path : Str) (bufferLen : Nat) : Except Errno Str :=
  if path.startsWithSlash ∨ bufferLen = 0 then .ok path
  else
    match cwd with
    | none => .ok path
    | some cwd => if cwd.len + 1 + path.len ≥ bufferLen then .error .enametoolong else .ok (cwd ++ '/' :: path)

/-- The decoder of each socket import. -/
def SocketImport.decode : SocketImport → Int32 → Decoded Int32
  | .send .. => decodeSsize
  | .recv .. => decodeSsize
  | .sendto .. => decodeSsize
  | .recvfrom .. => decodeSsize
  | _ => decodeI32

/-- The decoder of each file import with a result of 32 bits. -/
def FileImport.decode : FileImport → Int32 → Decoded Int32
  | .pread .. => osWasiDecodeSsize
  | .pwrite .. => osWasiDecodeSsize
  | _ => osWasiDecodeI32

/-! ### Polling -/

/-- A guest that calls the socket imports. -/
@[reducible] def GuestSockets : Sig := ⟨SocketImport, fun _ => Int32⟩

/-- `struct timespec`: `time_t` has 64 bits, `long` has 32. -/
structure Timespec where
  tvSec : Int64
  tvNsec : Int32
  deriving DecidableEq, Repr

/-- `waasmtime_mysql_poll`; `nfds_t` is an unsigned `long`. -/
def waasmtimeMysqlPoll (fds : Int32) (nfds : UInt32) (timeout : Int32) : Prog GuestSockets (Decoded Int32) :=
  if nfds > 0x7fffffff then pure ⟨-1, some Errno.einval.code⟩
  else do
    let rc ← cmd (S := GuestSockets) (.poll fds nfds.toInt32 timeout)
    pure (decodeI32 rc)

/-- `waasmtime_mysql_ppoll`, without the signal mask it does not look at. The conversion to `int` and the sum wrap. -/
def waasmtimeMysqlPpoll (fds : Int32) (nfds : UInt32) : Option Timespec → Prog GuestSockets (Decoded Int32)
  | none => waasmtimeMysqlPoll fds nfds (-1)
  | some timeout =>
    if timeout.tvSec > 2147483647 / 1000 then pure ⟨-1, some Errno.einval.code⟩
    else waasmtimeMysqlPoll fds nfds ((timeout.tvSec * 1000).toInt32 + timeout.tvNsec / 1000000)

/-! ### Results -/

/-- A result that is not negative is returned as it is. -/
theorem decodeRc_of_nonneg {rc : Int32} (h : 0 ≤ rc) : decodeRc rc = ⟨rc, none⟩ := by
  have hlt : ¬rc < 0 := Int32.not_lt.mpr h
  rw [decodeRc, if_neg hlt]

/-- An errno comes back as -1 and the errno. -/
theorem decodeRc_negErrno (e : Errno) : decodeRc (negErrno e) = ⟨-1, some e.code⟩ := by
  rw [decodeRc, if_pos (negErrno_lt_zero e), neg_negErrno]

theorem SocketImport.decode_eq (c : SocketImport) : c.decode = decodeRc := by cases c <;> rfl

theorem FileImport.decode_eq (c : FileImport) : c.decode = decodeRc := by cases c <;> rfl

theorem osWasiFileSeek_of_nonneg {rc : Int64} (h : 0 ≤ rc) : osWasiFileSeek rc = ⟨rc.toUInt64, none⟩ := by
  have hlt : ¬rc < 0 := Int64.not_lt.mpr h
  rw [osWasiFileSeek, if_neg hlt]

theorem osWasiFileSeek_negErrno (e : Errno) :
    osWasiFileSeek (negErrno e).toInt64 = ⟨(-1 : Int64).toUInt64, some e.code⟩ := by cases e <;> decide

end WasmtimeMysql
