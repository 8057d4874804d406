import WasmtimeMysql.GuestErrno
import WasmtimeMysql.Lib.Bytes
import WasmtimeMysql.Lib.Prog

/-!
# Guest memory

What the imports read from and write to the guest's linear memory: `checked_range`, `checked_len`, `read_guest`, `write_guest`,
`read_u32`, `write_u32` and `read_cstr`. `host_files.rs` and `host_sockets.rs` each have their own copy of the first four, word for
word the same, so one definition stands for both. A memory is reached through the export `memory`, which may be an owned memory, a
memory shared with other threads, something else, or missing. `usize` has 64 bits.

`GuestMem` is the signature of these accesses, `guestMachine` what they do.
-/

namespace WasmtimeMysql

open Effects Bytes

/-- `MAX_IO_LEN`: the most bytes one import transfers. -/
def maxIoLen : Nat := 16 * 1024 * 1024

/-- `MAX_PATH_LEN`: the most bytes of a path. -/
def maxPathLen : Nat := 16 * 1024

/-- What `caller.get_export("memory")` finds. -/
inductive Export where
  | missing
  | memory (data : List UInt8)
  | sharedMemory (data : List UInt8)
  | other
  deriving DecidableEq, Repr

/-- The bytes of the guest's memory, if it has one. -/
def Export.data : Export → List UInt8
  | .memory data => data
  | .sharedMemory data => data
  | _ => []

/-- `usize::try_from` on an `i32`. -/
def usizeTryFrom (x : Int32) : Option Nat := if x < 0 then none else some x.toNatClampNeg

/-- `i32::try_from` on a `usize`. -/
def i32TryFromUsize (n : Nat) : Option Int32 := if n < 2 ^ 31 then some (Int32.ofNat n) else none

/-- `checked_len`. -/
def checkedLen (len : Int32) : Except Errno Nat :=
  match usizeTryFrom len with
  | none => .error .einval
  | some len => if len > maxIoLen then .error .einval else .ok len

/-- `checked_range`: the start and the end of a range of guest memory. -/
def checkedRange (ptr len : Int32) (memoryLen : Nat) : Except Errno (Nat × Nat) :=
  match usizeTryFrom ptr with
  | none => .error .efault
  | some ptr =>
    match checkedLen len with
    | .error errno => .error errno
    | .ok len =>
      -- `checked_add` on `usize`
      if ptr + len ≥ 2 ^ 64 then .error .efault
      else if ptr + len > memoryLen then .error .efault
      else .ok (ptr, ptr + len)

/-- The loop of the shared-memory branch of `read_guest`: one byte pushed for each cell. -/
def pushCells (cells : List UInt8) : List UInt8 := cells.foldl (fun bytes cell => bytes ++ [cell]) []

/-- `read_guest`. -/
def Export.readGuest (e : Export) (ptr len : Int32) : Except Errno (List UInt8) :=
  match e with
  | .missing => .error .efault
  | .memory data => (checkedRange ptr len data.length).map fun range => (data.take range.2).drop range.1
  | .sharedMemory data =>
    (checkedRange ptr len data.length).map fun range => pushCells ((data.take range.2).drop range.1)
  | .other => .error .efault

/-- The range `write_guest` writes to. -/
def writeRange (ptr : Int32) (bytes : List UInt8) (memoryLen : Nat) : Except Errno (Nat × Nat) :=
  match i32TryFromUsize bytes.length with
  | none => .error .einval
  | some len => checkedRange ptr len memoryLen

/-- `write_guest`: the memory after the write. The owned memory is copied into as a block, the shared one cell by cell. -/
def Export.writeGuest (e : Export) (ptr : Int32) (bytes : List UInt8) : Except Errno Export :=
  match e with
  | .missing => .error .efault
  | .memory data => (writeRange ptr bytes data.length).map fun range => .memory (overwrite data range.1 bytes)
  | .sharedMemory data => (writeRange ptr bytes data.length).map fun range => .sharedMemory (setCells data range.1 bytes)
  | .other => .error .efault

/-- `std::str::from_utf8`: the characters of a valid encoding. -/
def fromUtf8 (bytes : List UInt8) : Option (List Char) := (ByteArray.mk bytes.toArray).utf8Decode?.map Array.toList

/-- The loop of the shared-memory branch of `read_cstr`: bytes are pushed until a NUL, if the cells have one. -/
def pushUntilNul (bytes : List UInt8) : List UInt8 → Option (List UInt8)
  | [] => none
  | cell :: cells => if cell = 0 then some bytes else pushUntilNul (bytes ++ [cell]) cells

/-- `read_cstr`: the string at a guest address. -/
def Export.readCstr (e : Export) (ptr : Int32) : Except Errno (List Char) :=
  match usizeTryFrom ptr with
  | none => .error .efault
  | some start =>
    match e with
    | .missing => .error .efault
    | .memory data =>
      if start ≥ data.length then .error .efault
      else
        let maxEnd := min (min (start + maxPathLen) (2 ^ 64 - 1)) data.length
        match ((data.take maxEnd).drop start).idxOf? 0 with
        | none => .error .enametoolong
        | some len =>
          match fromUtf8 ((data.take (start + len)).drop start) with
          | some path => .ok path
          | none => .error .einval
    | .sharedMemory data =>
      if start ≥ data.length then .error .efault
      else
        let maxEnd := min (min (start + maxPathLen) (2 ^ 64 - 1)) data.length
        match pushUntilNul [] ((data.take maxEnd).drop start) with
        | none => .error .enametoolong
        | some bytes =>
          match fromUtf8 bytes with
          | some path => .ok path
          | none => .error .einval
    | .other => .error .efault

/-! ## The accesses as commands -/

/-- The accesses an import makes to guest memory, and the buffers it allocates on the host (`vec![0_u8; n]`). -/
inductive GuestMem.Cmd where
  | readGuest (ptr len : Int32)
  | writeGuest (ptr : Int32) (bytes : List UInt8)
  | readCstr (ptr : Int32)
  | alloc (n : Nat)
  deriving DecidableEq

/-- The answer to each access. -/
@[reducible] def GuestMem.Cmd.Resp : GuestMem.Cmd → Type
  | .readGuest .. => Except Errno (List UInt8)
  | .writeGuest .. => Except Errno Unit
  | .readCstr .. => Except Errno (List Char)
  | .alloc .. => Unit

/-- The signature of guest memory. -/
@[reducible] def GuestMem : Sig := ⟨GuestMem.Cmd, GuestMem.Cmd.Resp⟩

/-- What an access answers and leaves. A write that fails leaves the memory as it was. -/
def Export.handle (e : Export) : (c : GuestMem.Cmd) → c.Resp × Export
  | .readGuest ptr len => (e.readGuest ptr len, e)
  | .writeGuest ptr bytes =>
    match e.writeGuest ptr bytes with
    | .ok e' => (.ok (), e')
    | .error errno => (.error errno, e)
  | .readCstr ptr => (e.readCstr ptr, e)
  | .alloc _ => ((), e)

/-- The machine of guest memory. -/
def guestMachine : Machine GuestMem Export := .det Export.handle

section
variable {H : Sig}

/-- A command of the host side. -/
def host (c : H.Cmd) : Prog (GuestMem.sum H) (H.Resp c) := .cmd (S := GuestMem.sum H) (.inr c)

def readGuest (ptr len : Int32) : Prog (GuestMem.sum H) (Except Errno (List UInt8)) :=
  .cmd (S := GuestMem.sum H) (.inl (.readGuest ptr len))

def writeGuest (ptr : Int32) (bytes : List UInt8) : Prog (GuestMem.sum H) (Except Errno Unit) :=
  .cmd (S := GuestMem.sum H) (.inl (.writeGuest ptr bytes))

def readCstr (ptr : Int32) : Prog (GuestMem.sum H) (Except Errno (List Char)) :=
  .cmd (S := GuestMem.sum H) (.inl (.readCstr ptr))

/-- `vec![0_u8; n]` -/
def alloc (n : Nat) : Prog (GuestMem.sum H) Unit := .cmd (S := GuestMem.sum H) (.inl (.alloc n))

/-- `read_u32`: the little-endian word at a guest address. -/
def readU32 (ptr : Int32) : Prog (GuestMem.sum H) (Except Errno UInt32) := do
  match ← readGuest ptr 4 with
  | .ok bytes => return .ok (UInt32.ofNat (ofLeBytes bytes))
  | .error errno => return .error errno

/-- `write_u32`, and `write_guest_u32` of the Windows module. -/
def writeU32 (ptr : Int32) (value : UInt32) : Prog (GuestMem.sum H) (Except Errno Unit) :=
  writeGuest ptr (leBytes 4 value.toNat)

/-- `&bytes[..n]`, which panics when there are fewer than `n` bytes. -/
def sliceTo (bytes : List UInt8) (n : Nat) : Prog (GuestMem.sum H) (List UInt8) :=
  if n ≤ bytes.length then return bytes.take n else .panic

end

end WasmtimeMysql
