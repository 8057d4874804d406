import WasmtimeMysql.Lemmas.Memory
import WasmtimeMysql.Lib.Discipline

/-!
# Results that tell the truth about a trace

An import returns one number. What it should be is read from the trace of the import: every step either succeeded or failed, and one of
them has the result of the operation. `Report` says how to read the traces of an import, `Report.Tells` that a number is right for a
trace.
-/

namespace WasmtimeMysql

open Effects

/-- How the trace of an import is read: which steps failed, which have the result, which transferred a count that is no `i32`, and
whether the checks that the import makes by itself passed. -/
structure Report (S : Sig) where
  fails : Event S → Bool
  answer : Event S → Option Int
  overflows : Event S → Bool
  valid : List (Event S) → Bool

namespace Report

variable {S : Sig} (R : Report S)

/-- The checks passed and every step succeeded. -/
def Succeeded (tr : List (Event S)) : Prop := R.valid tr = true ∧ tr.any R.fails = false

/-- The number is right for the trace: the result of the operation if everything succeeded, and otherwise an errno, negated. -/
structure Tells (v : Int) (tr : List (Event S)) : Prop where
  ok : R.Succeeded tr → 0 ≤ v ∧ tr.findSome? R.answer = some v
  error : ¬R.Succeeded tr → ∃ errno : Errno, v = -errno.code.toInt
  noOverflow : tr.any R.overflows = false

/-- Steps that succeed, transfer nothing and do not have the result. -/
structure Silent (tr : List (Event S)) : Prop where
  clean : tr.any R.fails = false
  fits : tr.any R.overflows = false
  answer : tr.findSome? R.answer = none

/-- Steps of which one fails and that transfer nothing. -/
structure Broken (tr : List (Event S)) : Prop where
  failed : tr.any R.fails = true
  fits : tr.any R.overflows = false

end Report

section
variable {S : Sig} {R : Report S} {tr tr' : List (Event S)} {ev : Event S}

theorem any_snoc {p : Event S → Bool} : (tr ++ [ev]).any p = (tr.any p || p ev) := by
  rw [List.any_append, List.any_cons, List.any_nil, Bool.or_false]

/-- One more step of which something does not hold either. -/
theorem none_snoc {p : Event S → Bool} (h : tr.any p = false) (hev : p ev = false) : (tr ++ [ev]).any p = false := by
  rw [any_snoc, h, hev]
  rfl

/-- The last step has the result. -/
theorem answer_snoc {f : Event S → Option Int} {v : Int} (h : tr.findSome? f = none) (hev : f ev = some v) :
    (tr ++ [ev]).findSome? f = some v := by
  rw [List.findSome?_append, h, List.findSome?_cons, hev]
  rfl

theorem Report.Silent.append (h : R.Silent tr) (h' : R.Silent tr') : R.Silent (tr ++ tr') := by
  refine ⟨?_, ?_, ?_⟩
  · rw [List.any_append, h.clean, h'.clean]
    rfl
  · rw [List.any_append, h.fits, h'.fits]
    rfl
  · rw [List.findSome?_append, h.answer, h'.answer]
    rfl

theorem Report.Silent.broken (h : R.Silent tr) (h' : R.Broken tr') : R.Broken (tr ++ tr') := by
  refine ⟨?_, ?_⟩
  · rw [List.any_append, h'.failed, Bool.or_true]
  · rw [List.any_append, h.fits, h'.fits]
    rfl

/-- A check or a step failed, and the number is an errno. -/
theorem Report.tells_error {v : Int} (hv : ∃ errno : Errno, v = -errno.code.toInt) (h : R.valid tr = false ∨ tr.any R.fails = true)
    (hov : tr.any R.overflows = false) : R.Tells v tr := by
  refine ⟨?_, fun _ => hv, hov⟩
  rintro ⟨hvalid, hsteps⟩
  rcases h with h | h
  · cases hvalid.symm.trans h
  · cases hsteps.symm.trans h

/-- Everything succeeded, and the number is the result. -/
theorem Report.tells_ok {v : Int} (hvalid : R.valid tr = true) (hsteps : tr.any R.fails = false)
    (hov : tr.any R.overflows = false) (hv : 0 ≤ v) (hanswer : tr.findSome? R.answer = some v) : R.Tells v tr := by
  refine ⟨fun _ => ⟨hv, hanswer⟩, ?_, hov⟩
  intro hnot
  exact absurd ⟨hvalid, hsteps⟩ hnot

end

/-! ## Guest memory -/

/-- An access to guest memory failed. -/
def memFailed : (c : GuestMem.Cmd) → c.Resp → Bool
  | .readGuest .., .error _ => true
  | .writeGuest .., .error _ => true
  | .readCstr _, .error _ => true
  | _, _ => false

/-- A read never returns more than `MAX_IO_LEN` bytes. -/
def memRelies : (c : GuestMem.Cmd) → c.Resp → Prop
  | .readGuest .., .ok bytes => bytes.length ≤ maxIoLen
  | _, _ => True

theorem memRelies_of_guestMachine {e e' : Export} {c : GuestMem.Cmd} {r : c.Resp} (h : guestMachine e c r e') : memRelies c r := by
  obtain ⟨hr, -⟩ := Machine.eq_of_det (S := GuestMem) h
  subst hr
  cases c with
  | readGuest ptr len =>
    cases hread : e.readGuest ptr len with
    | error errno =>
      simp only [Export.handle, hread]
      trivial
    | ok bytes =>
      simp only [Export.handle, hread]
      exact checkedLen_le (Export.checkedLen_of_readGuest hread)
  | _ => trivial

/-- A count of at most `MAX_IO_LEN` is an `i32`. -/
theorem i32TryFromUsize_of_le {n : Nat} (h : n ≤ maxIoLen) :
    i32TryFromUsize n = some (Int32.ofNat n) ∧ 0 ≤ Int32.ofNat n ∧ (Int32.ofNat n).toInt = n := by
  have hmax : maxIoLen < 2 ^ 31 := by decide
  have hlt : n < 2 ^ 31 := Nat.lt_of_le_of_lt h hmax
  have htoInt : (Int32.ofNat n).toInt = n := Int32.toInt_ofNat_of_lt hlt
  refine ⟨by rw [i32TryFromUsize, if_pos hlt], ?_, htoInt⟩
  rw [Int32.le_iff_toInt_le, htoInt]
  exact Int.natCast_nonneg n

/-- A transfer of some bytes is a positive number, and that of the bytes. -/
theorem ofNat_length_pos {data : List UInt8} (hle : data.length ≤ maxIoLen) (hne : data ≠ []) :
    ¬Int32.ofNat data.length ≤ 0 ∧ (Int32.ofNat data.length).toNatClampNeg = data.length := by
  obtain ⟨-, -, htoInt⟩ := i32TryFromUsize_of_le hle
  constructor
  · have hlength := List.length_pos_iff.mpr hne
    have hzero : (0 : Int32).toInt = 0 := by decide
    rw [Int32.le_iff_toInt_le, htoInt, hzero]
    omega
  · rw [← Int32.toNat_toInt, htoInt]
    rfl

end WasmtimeMysql
