import WasmtimeMysql.HostSocketsWindows
import WasmtimeMysql.Lib.Flags

/-!
# Socket types on the three hosts

The guest's type of a socket has flag bits in two encodings, and a base in two. The three builds are to take them apart alike. macOS does
not: it has no flag bits of its own in a socket type, and its mask leaves the POSIX bits in the base, where they are refused. So the hosts
agree on exactly the types without these bits and on those that all of them refuse (`sameType_iff`).
-/

namespace WasmtimeMysql

open Flags

/-- What an import learns from the guest's type, if it accepts it: whether the socket is a stream, and whether nonblocking mode is wanted. -/
structure SocketKind where
  stream : Bool
  nonblocking : Bool
  deriving DecidableEq, Repr

/-- `normalize_socket_type` on Unix. -/
def unixSocketKind (lc : Libc) (ty : Int32) : Except Errno SocketKind :=
  (Unix.normalizeSocketType lc ty).map fun normalized => ⟨normalized.ty = lc.sockStream, normalized.nonblocking⟩

/-- `normalize_socket_type` on Windows, where `SOCK_STREAM` is 1. -/
def windowsSocketKind (ty : Int32) : Except Errno SocketKind :=
  (Windows.normalizeSocketType ty).map fun normalized => ⟨normalized.ty = 1, normalized.nonblocking⟩

/-- The flag bits of POSIX. -/
def posixFlags : Int32 := 0x800 ||| 0x80000

/-- The flag bits of wasi-libc. -/
def wasiFlags : Int32 := wasiAltSockCloexec ||| wasiAltSockNonblock

/-- A stream or a datagram socket, in the encoding of POSIX or of wasi-libc. -/
def IsBase (base : Int32) : Prop := base = 1 ∨ base = 2 ∨ base = 5 ∨ base = 6

instance (base : Int32) : Decidable (IsBase base) := inferInstanceAs (Decidable (_ ∨ _))

/-- The hosts agree on a type, and each accepts it exactly when it is a stream or a datagram socket without the flag bits. -/
def SameType (ty : Int32) : Prop :=
  (unixSocketKind linux ty = windowsSocketKind ty ∧ unixSocketKind macos ty = windowsSocketKind ty) ∧
  ∀ kind ∈ [unixSocketKind linux ty, unixSocketKind macos ty, windowsSocketKind ty],
    kind.isOk = true ↔ IsBase (ty &&& ~~~(posixFlags ||| wasiFlags))

namespace SocketTypesAux

/-- The kind that a base stands for. -/
def kindOf (base : Int32) (nonblocking : Bool) : Except Errno SocketKind :=
  if base = 1 ∨ base = wasiAltSockStream then .ok ⟨true, nonblocking⟩
  else if base = 2 ∨ base = wasiAltSockDgram then .ok ⟨false, nonblocking⟩
  else .error .enotsup

/-- The comparisons of `normalize_socket_type`, and what is learnt from either result. -/
theorem map_kind {N : Type} {kind : N → SocketKind} {stream dgram : N} {nonblocking : Bool} (hstream : kind stream = ⟨true, nonblocking⟩)
    (hdgram : kind dgram = ⟨false, nonblocking⟩) (base : Int32) :
    (if base = 1 ∨ base = wasiAltSockStream then Except.ok stream
      else if base = 2 ∨ base = wasiAltSockDgram then .ok dgram else .error .enotsup).map kind = kindOf base nonblocking := by
  unfold kindOf
  split
  · exact congrArg Except.ok hstream
  · split
    · exact congrArg Except.ok hdgram
    · rfl

theorem kindOf_isOk (base : Int32) (nonblocking : Bool) : (kindOf base nonblocking).isOk = true ↔ IsBase base := by
  unfold kindOf IsBase
  split
  · rename_i h
    exact iff_of_true rfl (h.imp_right fun h => .inr (.inr h))
  · rename_i h
    split
    · rename_i h'
      exact iff_of_true rfl (.inr (h'.imp_right .inl))
    · rename_i h'
      refine iff_of_false Bool.false_ne_true ?_
      rintro (h1 | h2 | h5 | h6)
      · exact h (.inl h1)
      · exact h' (.inl h2)
      · exact h' (.inr h5)
      · exact h (.inr h6)

theorem kindOf_of_not_isBase {base : Int32} (h : ¬IsBase base) (nonblocking : Bool) : kindOf base nonblocking = .error .enotsup := by
  unfold kindOf
  rw [if_neg fun hstream => h (hstream.imp_right fun h => .inr (.inr h)), if_neg fun hdgram => h (.inr (hdgram.imp_right .inl))]

/-- A base has no flags of POSIX. -/
theorem posixFlags_of_isBase {base : Int32} (h : IsBase base) : base &&& posixFlags = 0 := by
  rcases h with rfl | rfl | rfl | rfl <;> decide

theorem windowsSocketKind_eq (ty : Int32) :
    windowsSocketKind ty = kindOf (ty &&& ~~~(posixFlags ||| wasiFlags)) (ty &&& 0x800 != 0 || ty &&& wasiAltSockNonblock != 0) := by
  have hnonblock : (ty &&& (posixFlags ||| wasiFlags)) &&& (0x800 ||| wasiAltSockNonblock) = ty &&& (0x800 ||| wasiAltSockNonblock) :=
    and_and_of_subset (by decide)
  rw [← and_or_bne, ← hnonblock]
  unfold windowsSocketKind Windows.normalizeSocketType
  refine map_kind ?_ ?_ _
  · rfl
  · rfl

theorem unixSocketKind_eq {lc : Libc} (hstream : lc.sockStream = 1) (hdgram : lc.sockDgram = 2) {mask : Int32}
    (hmask : Unix.hostSocketFlagMask lc ||| wasiAltSockCloexec ||| wasiAltSockNonblock = mask) (ty : Int32) :
    unixSocketKind lc ty =
      kindOf (ty &&& ~~~mask) (Unix.hasHostSockNonblock lc (ty &&& mask) || (ty &&& mask) &&& wasiAltSockNonblock != 0) := by
  unfold unixSocketKind Unix.normalizeSocketType
  simp only [hstream, hdgram, hmask]
  refine map_kind ?_ ?_ _
  · rfl
  · rfl

/-- Linux has the POSIX flags in its own constants, and takes them one by one. -/
theorem linuxSocketKind_eq (ty : Int32) : unixSocketKind linux ty = windowsSocketKind ty := by
  have hmask : Unix.hostSocketFlagMask linux ||| wasiAltSockCloexec ||| wasiAltSockNonblock = posixFlags ||| wasiFlags := by decide
  have hhost : (ty &&& (posixFlags ||| wasiFlags)) &&& 0x800 = ty &&& 0x800 := and_and_of_subset (by decide)
  have halt : (ty &&& (posixFlags ||| wasiFlags)) &&& wasiAltSockNonblock = ty &&& wasiAltSockNonblock := and_and_of_subset (by decide)
  rw [windowsSocketKind_eq, unixSocketKind_eq rfl rfl hmask, halt, ← hhost]
  rfl

/-- macOS leaves the POSIX flags in the base. -/
theorem macosSocketKind_eq (ty : Int32) :
    unixSocketKind macos ty = kindOf (ty &&& ~~~wasiFlags) (ty &&& wasiAltSockNonblock != 0) := by
  have hmask : Unix.hostSocketFlagMask macos ||| wasiAltSockCloexec ||| wasiAltSockNonblock = wasiFlags := by decide
  have halt : (ty &&& wasiFlags) &&& wasiAltSockNonblock = ty &&& wasiAltSockNonblock := and_and_of_subset (by decide)
  rw [unixSocketKind_eq rfl rfl hmask, halt]
  rfl

/-- macOS accepts a type when it has no POSIX flags and its base is one without them. -/
theorem isBase_macos_iff (ty : Int32) :
    IsBase (ty &&& ~~~wasiFlags) ↔ ty &&& posixFlags = 0 ∧ IsBase (ty &&& ~~~(posixFlags ||| wasiFlags)) := by
  have hflags : (ty &&& ~~~wasiFlags) &&& posixFlags = ty &&& posixFlags := clear_and_of_disjoint (by decide)
  constructor
  · intro h
    have hposix := posixFlags_of_isBase h
    rw [clear_or, clear_of_and_eq_zero hposix]
    exact ⟨hflags.symm.trans hposix, h⟩
  · rintro ⟨hposix, h⟩
    rwa [clear_or, clear_of_and_eq_zero (hflags.trans hposix)] at h

end SocketTypesAux

open SocketTypesAux in
/-- The hosts agree on exactly the types without the POSIX flag bits, and on those that are no stream or datagram type with any flags. -/
theorem sameType_iff (ty : Int32) : SameType ty ↔ ty &&& posixFlags = 0 ∨ ¬IsBase (ty &&& ~~~(posixFlags ||| wasiFlags)) := by
  constructor
  · rintro ⟨-, hok⟩
    have hmacos := hok (unixSocketKind macos ty) (by simp)
    rw [macosSocketKind_eq, kindOf_isOk, isBase_macos_iff] at hmacos
    by_cases hbase : IsBase (ty &&& ~~~(posixFlags ||| wasiFlags))
    · exact .inl (hmacos.mpr hbase).1
    · exact .inr hbase
  · intro h
    have hkind : unixSocketKind macos ty = windowsSocketKind ty := by
      rw [macosSocketKind_eq, windowsSocketKind_eq]
      rcases h with hposix | hbase
      · have hnonblock : ty &&& 0x800 = 0 := by
          have hsub : (ty &&& posixFlags) &&& 0x800 = ty &&& 0x800 := and_and_of_subset (by decide)
          rw [← hsub, hposix]
          rfl
        have hflags : (ty &&& ~~~wasiFlags) &&& posixFlags = ty &&& posixFlags := clear_and_of_disjoint (by decide)
        rw [clear_or, clear_of_and_eq_zero (hflags.trans hposix), hnonblock]
        rfl
      · have hmacos : ¬IsBase (ty &&& ~~~wasiFlags) := fun hb => hbase ((isBase_macos_iff ty).mp hb).2
        rw [kindOf_of_not_isBase hmacos, kindOf_of_not_isBase hbase]
    refine ⟨⟨linuxSocketKind_eq ty, hkind⟩, ?_⟩
    intro kind hmem
    have heq : kind = windowsSocketKind ty := by
      simp only [List.mem_cons, List.not_mem_nil, or_false] at hmem
      rcases hmem with rfl | rfl | rfl
      · exact linuxSocketKind_eq ty
      · exact hkind
      · rfl
    rw [heq, windowsSocketKind_eq, kindOf_isOk]

/-- `SOCK_STREAM | SOCK_NONBLOCK` of POSIX is a nonblocking stream on Linux and on Windows, and refused on macOS. -/
theorem types_differ : ¬∀ ty, SameType ty := by
  intro h
  have hkind := (h 0x801).1.2
  exact absurd hkind (by decide)

end WasmtimeMysql
