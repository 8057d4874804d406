import WasmtimeMysql.GuestShim

/-!
# InnoDB's files in the guest

What the patches put into `os0file.cc`: the `os_wasi_file_*` functions over the file imports, and the functions of InnoDB that are written
with them as far as the patches show them. `size_t` has 32 bits on wasm32. A result that is an `int32_t` comes as its `i64` from the import
modules (`Unix.fileProg`, `Windows.fileProg`).
-/

namespace WasmtimeMysql

open Effects Effects.Prog

/-- A guest that calls the file imports. -/
@[reducible] def GuestFiles : Sig := ⟨FileImport, fun _ => Int64⟩

namespace Os0file

/-- The call of an import with a result of 32 bits. -/
def import32 (c : FileImport) : Prog GuestFiles Int32 := do
  let rc ← cmd (S := GuestFiles) c
  pure rc.toInt32

/-- `INT32_MAX` -/
def int32Max : UInt32 := 0x7fffffff

/-- `os_wasi_file_close` -/
def osWasiFileClose (fd : Int32) : Prog GuestFiles (Decoded Int32) := do
  let rc ← import32 (.close fd)
  pure (osWasiDecodeI32 rc)

/-- `os_wasi_file_pread` -/
def osWasiFilePread (fd buf : Int32) (len : UInt32) (offset : UInt64) : Prog GuestFiles (Decoded Int32) :=
  if len > int32Max then pure ⟨-1, some Errno.einval.code⟩
  else do
    let rc ← import32 (.pread fd buf len.toInt32 offset.toInt64)
    pure (osWasiDecodeSsize rc)

/-- `os_wasi_file_pwrite` -/
def osWasiFilePwrite (fd buf : Int32) (len : UInt32) (offset : UInt64) : Prog GuestFiles (Decoded Int32) :=
  if len > int32Max then pure ⟨-1, some Errno.einval.code⟩
  else do
    let rc ← import32 (.pwrite fd buf len.toInt32 offset.toInt64)
    pure (osWasiDecodeSsize rc)

/-- `os_wasi_file_seek` -/
def osWasiFileSeek (fd : Int32) (offset : UInt64) (whence : Int32) : Prog GuestFiles (Decoded UInt64) := do
  let rc ← cmd (S := GuestFiles) (.seek fd offset.toInt64 whence)
  pure (WasmtimeMysql.osWasiFileSeek rc)

/-- `os_wasi_file_truncate` -/
def osWasiFileTruncate (fd : Int32) (size : UInt64) : Prog GuestFiles (Decoded Int32) := do
  let rc ← import32 (.truncate fd size.toInt64)
  pure (osWasiDecodeI32 rc)

/-! ### InnoDB -/

/-- `SyncFileIO::execute`, for a request that is a read or a write. -/
def execute (isRead : Bool) (fh buf : Int32) (n : UInt32) (offset : UInt64) : Prog GuestFiles (Decoded Int32) :=
  if isRead then osWasiFilePread fh buf n offset else osWasiFilePwrite fh buf n offset

/-- `os_file_get_size`: the size, and the last errno that was stored. -/
def osFileGetSize (file : Int32) : Prog GuestFiles (Decoded UInt64) := do
  let pos ← osWasiFileSeek file 0 seekCur
  let fileSize ← osWasiFileSeek file 0 seekEnd
  let restored ← osWasiFileSeek file pos.value seekSet
  pure ⟨fileSize.value, restored.errno <|> fileSize.errno <|> pos.errno⟩

/-- The seek of `os_file_seek`; `off_t` is a signed integer of 64 bits. -/
def osFileSeek (file : Int32) (offset : UInt64) : Prog GuestFiles (Decoded Int64) := do
  let ret ← osWasiFileSeek file offset seekSet
  pure ⟨ret.value.toInt64, ret.errno⟩

end Os0file

end WasmtimeMysql
