import WasmtimeMysql.GuestErrno
import WasmtimeMysql.Lib.Registers

/-!
# The guest's libc shim

What `mysql_wasi_libc_shim.h` gives MySQL for functions that wasi-libc does not have. A C string is the list of its bytes before the NUL.
-/

namespace WasmtimeMysql

open Effects Effects.Prog

/-! ### `mkstemp` -/

/-- What `open` returns, and `errno` after it. -/
structure OpenResult where
  fd : Int32
  errno : Int32
  deriving DecidableEq, Repr

/-- A guest that opens files with `O_CREAT | O_EXCL | O_RDWR`, by their names. -/
@[reducible] def ExclusiveOpens : Sig := ⟨List UInt8, fun _ => OpenResult⟩

/-- What `mkstemp` returns, with `errno` and the buffer after it. -/
structure Stemp where
  fd : Int32
  errno : Int32
  pattern : List UInt8
  deriving DecidableEq, Repr

/-- The letters of the names. -/
def alphabet : List UInt8 :=
  ['a', 'b', 'c', 'd', 'e', 'f', 'g', 'h', 'i', 'j', 'k', 'l', 'm', 'n', 'o', 'p', 'q', 'r', 's', 't', 'u', 'v', 'w', 'x', 'y', 'z',
   '0', '1', '2', '3', '4', '5', '6', '7', '8', '9'].map Char.toUInt8

/-- The loop that writes the number of the attempt over the last six bytes, from the last one on. -/
def writeAttempt (pattern : List UInt8) (attempt : Nat) : List UInt8 :=
  ((List.range 6).foldl (fun s i => (s.1.set (pattern.length - 1 - i) (alphabet.getD (s.2 % 36) 0), s.2 / 36)) (pattern, attempt)).1

/-- The loop over the attempts, of which `remaining` are left. -/
def tryNames : Nat → Nat → List UInt8 → Prog ExclusiveOpens Stemp
  | 0, _, pattern => pure ⟨-1, Errno.eexist.code, pattern⟩
  | remaining + 1, attempt, pattern => do
    let pattern := writeAttempt pattern attempt
    let opened ← cmd (S := ExclusiveOpens) pattern
    if opened.fd ≥ 0 then pure ⟨opened.fd, opened.errno, pattern⟩
    else if opened.errno ≠ Errno.eexist.code then pure ⟨-1, opened.errno, pattern⟩
    else tryNames remaining (attempt + 1) pattern

/-- The test of the last six bytes. -/
def endsInXs (pattern : List UInt8) : Bool :=
  !(pattern.length < 6 || pattern.drop (pattern.length - 6) ≠ List.replicate 6 'X'.toUInt8)

/-- `waasmtime_mysql_mkstemp` -/
def waasmtimeMysqlMkstemp (pattern : List UInt8) : Prog ExclusiveOpens Stemp :=
  if endsInXs pattern then tryNames (36 * 36 * 36) 0 pattern else pure ⟨-1, Errno.einval.code, pattern⟩

/-! ### `qsort_r` -/

/-- The static variables through which the adapter gets the comparator and its argument. -/
inductive Static where
  | comparatorFn
  | comparatorArg
  deriving DecidableEq, Repr

section
variable (α Cmp Arg : Type)

/-- The pointers they hold; none is `NULL`. -/
@[reducible] def Static.Value : Static → Type
  | .comparatorFn => Option Cmp
  | .comparatorArg => Option Arg

/-- A comparator called with two elements and its argument. -/
structure Comparison where
  compar : Cmp
  left : α
  right : α
  arg : Option Arg
  deriving DecidableEq, Repr

/-- The comparisons that `qsort` asks for. -/
@[reducible] def Comparing : Sig := ⟨α × α, fun _ => Int32⟩

/-- Accesses to the static variables, and calls of comparators. -/
@[reducible] def Statics : Sig := Registers (Static.Value Cmp Arg) ⟨Comparison α Cmp Arg, fun _ => Int32⟩

/-- The arguments of `qsort_r`, with the array as the list of its elements. -/
structure QsortCall where
  base : List α
  compar : Cmp
  arg : Option Arg
  deriving DecidableEq, Repr

end

variable {α Cmp Arg : Type}

/-- `waasmtime_mysql_qsort_r_adapter`. A call through `NULL` is a trap. -/
def waasmtimeMysqlQsortRAdapter (elements : α × α) : Prog (Statics α Cmp Arg) Int32 := do
  let fn ← cmd (S := Statics α Cmp Arg) (.load .comparatorFn)
  let arg ← cmd (S := Statics α Cmp Arg) (.load .comparatorArg)
  match fn with
  | none => .panic
  | some compar => cmd (S := Statics α Cmp Arg) (.other ⟨compar, elements.1, elements.2, arg⟩)

/-- `qsort_r`, with libc's `qsort`: the array it leaves. -/
def qsortR (qsort : List α → Prog (Comparing α) (List α)) (call : QsortCall α Cmp Arg) : Prog (Statics α Cmp Arg) (List α) := do
  cmd (S := Statics α Cmp Arg) (.store .comparatorFn (some call.compar))
  cmd (S := Statics α Cmp Arg) (.store .comparatorArg call.arg)
  let sorted ← (qsort call.base).through waasmtimeMysqlQsortRAdapter
  cmd (S := Statics α Cmp Arg) (.store .comparatorFn none)
  cmd (S := Statics α Cmp Arg) (.store .comparatorArg none)
  pure sorted

end WasmtimeMysql
