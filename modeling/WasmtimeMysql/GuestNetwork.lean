import WasmtimeMysql.GuestShim

/-!
# The guest's sockets

`socket` and `bind` of `mysql_wasi_socket_shim.c`, which MySQL calls instead of libc's. Each is one import and its decoder; a length that does not
fit an `int32_t` is refused before the import. `socklen_t` is an unsigned integer of 32 bits on wasm32, and a pointer is passed as it is. `poll` and
`ppoll` stand in `GuestShim`.
-/

namespace WasmtimeMysql

open Effects Effects.Prog

namespace GuestNetwork

/-- `checked_size_to_i32` and `checked_socklen_to_i32`, which have the same body. -/
def checkedToI32 (value : UInt32) : Option Int32 := if value > 0x7fffffff then none else some value.toInt32

/-- What a function returns that has stored `EINVAL`. -/
def refused : Decoded Int32 := ⟨-1, some Errno.einval.code⟩

/-- An import, and its decoder. -/
def decoded (c : SocketImport) : Prog GuestSockets (Decoded Int32) := do
  let rc ← cmd (S := GuestSockets) c
  pure (c.decode rc)

/-- An import and its decoder, with the import carried out. -/
@[simp] theorem through_decoded {T : Sig} (h : SocketImport → Prog T Int32) (c : SocketImport) :
    (decoded c).through h = h c >>= fun rc => pure (c.decode rc) := rfl

/-- The import of a function that checks one length. -/
def checked (len : UInt32) (c : Int32 → SocketImport) : Prog GuestSockets (Decoded Int32) :=
  match checkedToI32 len with
  | none => pure refused
  | some len => decoded (c len)

/-- `waasmtime_mysql_socket` -/
def waasmtimeMysqlSocket (domain ty protocol : Int32) : Prog GuestSockets (Decoded Int32) := decoded (.socket domain ty protocol)

/-- `waasmtime_mysql_bind` -/
def waasmtimeMysqlBind (fd addr : Int32) (len : UInt32) : Prog GuestSockets (Decoded Int32) := checked len (.bind fd addr)

end GuestNetwork

end WasmtimeMysql
