import WasmtimeMysql.Lemmas.Results
import WasmtimeMysql.Lemmas.Wp

/-!
# The results of the socket imports on Unix

What each import returns is right for its trace (`tells_of_runs`): the result of the operation when every step succeeded, an errno
when one failed. The kernel may answer anything, except that it sends at most what it was given.
-/

namespace WasmtimeMysql

open Effects

namespace Unix

/-! ## What the steps of an import say -/

/-- The step failed. -/
def stepFailed : Event Sockets → Bool
  | ⟨.inl c, r⟩ => memFailed c r
  | ⟨.inr (.inl .networkAllowed), allowed⟩ => !allowed
  | ⟨.inr (.inl (.sockets (.insert _))), _⟩ => false
  | ⟨.inr (.inl (.sockets (.get _))), found⟩ => found.isNone
  | ⟨.inr (.inl (.sockets (.remove _))), found⟩ => found.isNone
  | ⟨.inr (.inl (.sockets (.modify ..))), _⟩ => false
  | ⟨.inr (.inr c), r⟩ => failed c r

/-- The arguments are valid, as far as the import checks them itself. -/
def argsOk (lc : Libc) : SocketImport → Bool
  | .socket _ ty _ => (normalizeSocketType lc ty).isOk
  | .recv _ _ len _ => (checkedLen len).isOk
  | .recvfrom _ _ len _ _ _ => (checkedLen len).isOk
  | .fcntl _ cmd _ => cmd == wasiFGetfl || cmd == wasiFSetfl
  | .poll _ nfds _ => (checkedPollCount nfds).isOk
  | _ => true

/-- The result of the operation, if this is the step that has it. A new socket's is its guest fd. -/
def answerOf (lc : Libc) : SocketImport → Event Sockets → Option Int
  | .socket .., ⟨.inr (.inl (.sockets (.insert _))), r⟩ => some r.1.toInt
  | .accept .., ⟨.inr (.inl (.sockets (.insert _))), r⟩ => some r.1.toInt
  | .bind .., ⟨.inr (.inr (.bind ..)), rc⟩ => some rc.toInt
  | .listen .., ⟨.inr (.inr (.listen ..)), rc⟩ => some rc.toInt
  | .connect .., ⟨.inr (.inr (.connect ..)), rc⟩ => some rc.toInt
  | .getsockname .., ⟨.inr (.inr (.getsockname ..)), _⟩ => some 0
  | .getpeername .., ⟨.inr (.inr (.getpeername ..)), _⟩ => some 0
  | .setsockopt .., ⟨.inr (.inr (.setsockopt ..)), rc⟩ => some rc.toInt
  | .getsockopt .., ⟨.inr (.inr (.getsockopt ..)), _⟩ => some 0
  | .send .., ⟨.inr (.inr (.send ..)), rc⟩ => some rc.toInt
  | .recv .., ⟨.inr (.inr (.recv ..)), answer⟩ => some answer.rc.toInt
  | .sendto .., ⟨.inr (.inr (.sendto ..)), rc⟩ => some rc.toInt
  | .recvfrom .., ⟨.inr (.inr (.recvfrom ..)), answer⟩ => some answer.rc.toInt
  | .shutdown .., ⟨.inr (.inr (.shutdown ..)), rc⟩ => some rc.toInt
  | .close .., ⟨.inr (.inr (.close ..)), rc⟩ => some rc.toInt
  | .fcntl _ cmd _, ⟨.inr (.inr (.fcntl _ .getfl)), flags⟩ =>
    if cmd = wasiFGetfl then some (if flags &&& lc.oNonblock ≠ 0 then wasiONonblock.toInt else 0) else none
  | .fcntl .., ⟨.inr (.inr (.fcntl _ (.setfl _))), rc⟩ => some rc.toInt
  | .poll .., ⟨.inr (.inr (.poll ..)), answer⟩ => some answer.rc.toInt
  | _, _ => none

/-- The step transferred a count that `cvt_ssize` would turn into `EOVERFLOW`. -/
def overflows : Event Sockets → Bool
  | ⟨.inr (.inr (.send ..)), rc⟩ => 0 ≤ rc && (i32TryFromUsize rc.toNatClampNeg).isNone
  | ⟨.inr (.inr (.sendto ..)), rc⟩ => 0 ≤ rc && (i32TryFromUsize rc.toNatClampNeg).isNone
  | _ => false

/-- The host sends at most what it was given. What it says it has received may be more than there was room for. -/
def netContract : (c : Net.Cmd) → c.Resp → Prop
  | .send _ buf _, rc => rc.toInt ≤ buf.length
  | .sendto _ buf _ _, rc => rc.toInt ≤ buf.length
  | _, _ => True

/-- What the imports rely on: the table hands out descriptors from the base on. -/
def relies : (c : Sockets.Cmd) → Sockets.Resp c → Prop
  | .inl c, r => memRelies c r
  | .inr (.inl (.sockets (.insert _))), r => socketFdBase ≤ r.1
  | .inr (.inl _), _ => True
  | .inr (.inr c), r => netContract c r

/-- How the trace of an import is read. -/
@[reducible] def report (lc : Libc) (c : SocketImport) : Report Sockets where
  fails := stepFailed
  answer := answerOf lc c
  overflows := overflows
  valid _ := argsOk lc c

/-- The value is right for the trace. -/
abbrev Tells (lc : Libc) (c : SocketImport) (v : Int32) (tr : List (Event Sockets)) : Prop := (report lc c).Tells v.toInt tr

/-! ## The steps -/

/-- The trace so far, as what an import is known by. -/
abbrev steps : Discipline Sockets (List (Event Sockets)) := .history relies

section
variable {tr : List (Event Sockets)}

/-- A read fails, or gives no more than `MAX_IO_LEN` bytes. -/
theorem steps_readGuest {ptr len : Int32} {Q : Except Errno (List UInt8) → List (Event Sockets) → Prop}
    (herr : ∀ errno, Q (.error errno) (tr ++ [⟨.inl (.readGuest ptr len), .error errno⟩]))
    (hok : ∀ bytes, bytes.length ≤ maxIoLen → Q (.ok bytes) (tr ++ [⟨.inl (.readGuest ptr len), .ok bytes⟩])) :
    (readGuest ptr len : Import _).Obeys steps Q tr := by
  refine ⟨trivial, ?_⟩
  intro r hr
  cases r with
  | error errno => exact herr errno
  | ok bytes => exact hok bytes hr

/-- A word is one read. -/
theorem steps_readU32 {ptr : Int32} {Q : Except Errno UInt32 → List (Event Sockets) → Prop}
    (herr : ∀ errno, Q (.error errno) (tr ++ [⟨.inl (.readGuest ptr 4), .error errno⟩]))
    (hok : ∀ bytes word, Q (.ok word) (tr ++ [⟨.inl (.readGuest ptr 4), .ok bytes⟩])) :
    (readU32 ptr : Import _).Obeys steps Q tr := by
  refine Prog.obeys_bind.mpr (steps_readGuest herr ?_)
  intro bytes _
  exact hok bytes _

/-- A write fails or is done. -/
theorem steps_writeGuest {ptr : Int32} {bytes : List UInt8} {Q : Except Errno Unit → List (Event Sockets) → Prop}
    (herr : ∀ errno, Q (.error errno) (tr ++ [⟨.inl (.writeGuest ptr bytes), .error errno⟩]))
    (hok : Q (.ok ()) (tr ++ [⟨.inl (.writeGuest ptr bytes), .ok ()⟩])) :
    (writeGuest ptr bytes : Import _).Obeys steps Q tr := by
  refine ⟨trivial, ?_⟩
  intro r _
  cases r with
  | error errno => exact herr errno
  | ok _ => exact hok

/-- A word is one write. -/
theorem steps_writeU32 {ptr : Int32} {value : UInt32} {Q : Except Errno Unit → List (Event Sockets) → Prop}
    (herr : ∀ errno, Q (.error errno) (tr ++ [⟨.inl (.writeGuest ptr (Bytes.leBytes 4 value.toNat)), .error errno⟩]))
    (hok : Q (.ok ()) (tr ++ [⟨.inl (.writeGuest ptr (Bytes.leBytes 4 value.toNat)), .ok ()⟩])) :
    (writeU32 ptr value : Import _).Obeys steps Q tr := steps_writeGuest herr hok

/-- An allocation is a step that does not fail. -/
theorem steps_alloc {n : Nat} {Q : Unit → List (Event Sockets) → Prop} (h : Q () (tr ++ [⟨.inl (.alloc n), ()⟩])) :
    (alloc n : Import _).Obeys steps Q tr := ⟨trivial, fun _ _ => h⟩

/-- A slice is no step. Beyond the end nothing is returned. -/
theorem steps_sliceTo {bytes : List UInt8} {n : Nat} {Q : List UInt8 → List (Event Sockets) → Prop}
    (h : n ≤ bytes.length → Q (bytes.take n) tr) : (sliceTo bytes n : Import _).Obeys steps Q tr := by
  unfold sliceTo
  split
  · rename_i hle
    exact h hle
  · trivial

/-- A lookup fails with `EBADF`, or gives a socket. -/
theorem steps_get {fd : Int32} {Q : Except Errno HostSocket → List (Event Sockets) → Prop}
    (hnone : Q (.error .ebadf) (tr ++ [⟨.inr (.inl (.sockets (.get fd))), none⟩]))
    (hsome : ∀ socket, Q (.ok socket) (tr ++ [⟨.inr (.inl (.sockets (.get fd))), some socket⟩])) :
    (get fd).Obeys steps Q tr := by
  refine ⟨trivial, ?_⟩
  intro found _
  cases found with
  | none => exact hnone
  | some socket => exact hsome socket

/-- A call of libc answers as relied on. -/
theorem steps_libc {c : Net.Cmd} {Q : c.Resp → List (Event Sockets) → Prop}
    (h : ∀ r, netContract c r → Q r (tr ++ [⟨.inr (.inr c), r⟩])) : (libc c).Obeys steps Q tr := ⟨trivial, h⟩

/-- The errno is one step. -/
theorem steps_lastErrno {lc : Libc} {Q : Errno → List (Event Sockets) → Prop}
    (h : ∀ r errno, Q errno (tr ++ [⟨.inr (.inr .lastOsError), r⟩])) : (lastErrno lc).Obeys steps Q tr := by
  refine Prog.obeys_bind.mpr (steps_libc ?_)
  intro r _
  cases r with
  | none => exact h none _
  | some code => exact h (some code) _

/-- The new socket is in the table, and its guest fd is the result. -/
theorem steps_insert {raw guestDomain hostDomain : Int32} {Q : Int32 → List (Event Sockets) → Prop}
    (h : ∀ r : Int32 × Option HostSocket, 0 ≤ r.1 →
      Q r.1 (tr ++ [⟨.inr (.inl (.sockets (.insert ⟨raw, guestDomain, hostDomain⟩))), r⟩])) :
    (insert raw guestDomain hostDomain).Obeys steps Q tr := by
  refine ⟨trivial, ?_⟩
  intro r hr
  have hbase : (0 : Int32) ≤ socketFdBase := by decide
  exact h r (Int32.le_trans hbase hr)

/-! ## The end of an import -/

variable {lc : Libc} {c : SocketImport}

/-- A failed step, or a check that failed, and an errno. -/
theorem tells_error {errno : Errno} (h : argsOk lc c = false ∨ tr.any stepFailed = true) (hov : tr.any overflows = false) :
    Tells lc c (negErrno errno) tr := Report.tells_error ⟨errno, toInt_negErrno errno⟩ h hov

/-- The last step failed. -/
theorem tells_error_last {errno : Errno} {ev : Event Sockets} (hev : stepFailed ev = true) (hov : (tr ++ [ev]).any overflows = false) :
    Tells lc c (negErrno errno) (tr ++ [ev]) := by
  refine tells_error (.inr ?_) hov
  rw [any_snoc, hev, Bool.or_true]

/-- Steps that all succeeded, and the result. -/
theorem tells_ok {v : Int32} (hargs : argsOk lc c = true) (hsteps : tr.any stepFailed = false) (hov : tr.any overflows = false)
    (hv : 0 ≤ v) (hanswer : tr.findSome? (answerOf lc c) = some v.toInt) : Tells lc c v tr :=
  Report.tells_ok hargs hsteps hov (Int32.le_iff_toInt_le.mp hv) hanswer

/-- `neg_last_errno` after a failed call. -/
theorem tells_negLastErrno (h : tr.any stepFailed = true) (hov : tr.any overflows = false) :
    (negLastErrno lc).Obeys steps (Tells lc c) tr := by
  refine Prog.obeys_bind.mpr (steps_lastErrno ?_)
  intro r errno
  refine tells_error (.inr ?_) ?_
  · rw [any_snoc, h, Bool.true_or]
  · rw [any_snoc, hov]
    rfl

/-- `cvt_i32` right after the call whose return code it is. -/
theorem tells_cvtI32 {rc : Int32} {ev : Event Sockets} (hargs : argsOk lc c = true) (hbefore : tr.any stepFailed = false)
    (hcall : stepFailed ev = decide (rc < 0)) (hov : (tr ++ [ev]).any overflows = false)
    (hanswer : (tr ++ [ev]).findSome? (answerOf lc c) = some rc.toInt) :
    (cvtI32 lc rc).Obeys steps (Tells lc c) (tr ++ [ev]) := by
  unfold cvtI32
  split
  · rename_i hrc
    refine tells_negLastErrno ?_ hov
    rw [any_snoc, hcall, decide_eq_true hrc, Bool.or_true]
  · rename_i hrc
    refine tells_ok hargs (none_snoc hbefore ?_) hov (Int32.not_lt.mp hrc) hanswer
    rw [hcall, decide_eq_false hrc]

/-- A count that is not negative is its clamped value. -/
theorem toNatClampNeg_eq {rc : Int64} (hrc : ¬rc < 0) : (rc.toNatClampNeg : Int) = rc.toInt :=
  Int64.cast_toNatClampNeg rc (Int64.not_lt.mp hrc)

/-- A count that is not negative and at most `n` is so clamped, too. -/
theorem toNatClampNeg_le {rc : Int64} {n : Nat} (hrc : ¬rc < 0) (hn : rc.toInt ≤ n) : rc.toNatClampNeg ≤ n := by
  have heq := toNatClampNeg_eq hrc
  omega

/-- `cvt_ssize` right after a transfer of at most `MAX_IO_LEN` bytes. -/
theorem tells_cvtSsize {rc : Int64} {n : Nat} {ev : Event Sockets} (hn : rc.toInt ≤ n) (hmax : n ≤ maxIoLen)
    (hargs : argsOk lc c = true) (hbefore : tr.any stepFailed = false) (hcall : stepFailed ev = decide (rc < 0))
    (hov : tr.any overflows = false)
    (hevent : overflows ev = (decide (0 ≤ rc) && (i32TryFromUsize rc.toNatClampNeg).isNone))
    (hanswer : (tr ++ [ev]).findSome? (answerOf lc c) = some rc.toInt) :
    (cvtSsize lc rc).Obeys steps (Tells lc c) (tr ++ [ev]) := by
  unfold cvtSsize
  split
  · rename_i hrc
    have hneg : ¬0 ≤ rc := Int64.not_le.mpr hrc
    refine tells_negLastErrno ?_ ?_
    · rw [any_snoc, hcall, decide_eq_true hrc, Bool.or_true]
    · rw [any_snoc, hov, hevent, decide_eq_false hneg]
      rfl
  · rename_i hrc
    have hle := toNatClampNeg_le hrc hn
    obtain ⟨hfits, hnonneg, htoInt⟩ := i32TryFromUsize_of_le (Nat.le_trans hle hmax)
    rw [hfits]
    refine tells_ok hargs (none_snoc hbefore ?_) ?_ hnonneg ?_
    · rw [hcall, decide_eq_false hrc]
    · rw [any_snoc, hov, hevent, hfits, Option.isNone_some, Bool.and_false]
      rfl
    · rw [hanswer, htoInt, toNatClampNeg_eq hrc]

end

/-! ## The imports -/

section
variable (lc : Libc)

/-- The import tells the truth about its steps. -/
def Honest (c : SocketImport) (p : Import Int32) : Prop := p.Obeys steps (Tells lc c) []

/-- `bind` is honest. -/
theorem honest_bind (fd addrPtr addrLen : Int32) : Honest lc (.bind fd addrPtr addrLen) (Unix.bind lc fd addrPtr addrLen) := by
  refine Prog.obeys_bind.mpr (steps_get (tells_error (.inr rfl) rfl) ?_)
  intro socket
  refine Prog.obeys_bind.mpr (steps_readGuest (fun _ => tells_error (.inr rfl) rfl) ?_)
  intro addr _
  refine Prog.obeys_bind.mpr (steps_libc ?_)
  intro rc _
  exact tells_cvtI32 rfl rfl rfl rfl rfl

/-- `listen` is honest. -/
theorem honest_listen (fd backlog : Int32) : Honest lc (.listen fd backlog) (Unix.listen lc fd backlog) := by
  refine Prog.obeys_bind.mpr (steps_get (tells_error (.inr rfl) rfl) ?_)
  intro socket
  refine Prog.obeys_bind.mpr (steps_libc ?_)
  intro rc _
  exact tells_cvtI32 rfl rfl rfl rfl rfl

/-- `connect` is honest. -/
theorem honest_connect (fd addrPtr addrLen : Int32) :
    Honest lc (.connect fd addrPtr addrLen) (Unix.connect lc fd addrPtr addrLen) := by
  refine Prog.obeys_bind.mpr (steps_get (tells_error (.inr rfl) rfl) ?_)
  intro socket
  refine Prog.obeys_bind.mpr (steps_readGuest (fun _ => tells_error (.inr rfl) rfl) ?_)
  intro addr _
  refine Prog.obeys_bind.mpr (steps_libc ?_)
  intro rc _
  exact tells_cvtI32 rfl rfl rfl rfl rfl

/-- `setsockopt` is honest. -/
theorem honest_setsockopt (fd level optname optvalPtr optlen : Int32) :
    Honest lc (.setsockopt fd level optname optvalPtr optlen) (Unix.setsockopt lc fd level optname optvalPtr optlen) := by
  refine Prog.obeys_bind.mpr (steps_get (tells_error (.inr rfl) rfl) ?_)
  intro socket
  refine Prog.obeys_bind.mpr (steps_readGuest (fun _ => tells_error (.inr rfl) rfl) ?_)
  intro optval _
  refine Prog.obeys_bind.mpr (steps_libc ?_)
  intro rc _
  exact tells_cvtI32 rfl rfl rfl rfl rfl

/-- `shutdown` is honest. -/
theorem honest_shutdown (fd how : Int32) : Honest lc (.shutdown fd how) (Unix.shutdown lc fd how) := by
  refine Prog.obeys_bind.mpr (steps_get (tells_error (.inr rfl) rfl) ?_)
  intro socket
  refine Prog.obeys_bind.mpr (steps_libc ?_)
  intro rc _
  exact tells_cvtI32 rfl rfl rfl rfl rfl

/-- `close` is honest. -/
theorem honest_close (fd : Int32) : Honest lc (.close fd) (Unix.close lc fd) := by
  refine Prog.obeys_bind.mpr ⟨trivial, ?_⟩
  intro found _
  cases found with
  | none => exact tells_error (.inr rfl) rfl
  | some socket =>
    refine Prog.obeys_bind.mpr (steps_libc ?_)
    intro rc _
    exact tells_cvtI32 rfl rfl rfl rfl rfl

/-- `send` is honest, since the kernel sends no more than the buffer. -/
theorem honest_send (fd bufPtr len flags : Int32) : Honest lc (.send fd bufPtr len flags) (Unix.send lc fd bufPtr len flags) := by
  refine Prog.obeys_bind.mpr (steps_get (tells_error (.inr rfl) rfl) ?_)
  intro socket
  refine Prog.obeys_bind.mpr (steps_readGuest (fun _ => tells_error (.inr rfl) rfl) ?_)
  intro buf hbuf
  refine Prog.obeys_bind.mpr (steps_libc ?_)
  intro rc hrc
  exact tells_cvtSsize hrc hbuf rfl rfl rfl rfl rfl rfl

/-- `sendto` is honest, since the kernel sends no more than the buffer. -/
theorem honest_sendto (fd bufPtr len flags addrPtr addrLen : Int32) :
    Honest lc (.sendto fd bufPtr len flags addrPtr addrLen) (Unix.sendto lc fd bufPtr len flags addrPtr addrLen) := by
  refine Prog.obeys_bind.mpr (steps_get (tells_error (.inr rfl) rfl) ?_)
  intro socket
  refine Prog.obeys_bind.mpr (steps_readGuest (fun _ => tells_error (.inr rfl) rfl) ?_)
  intro buf hbuf
  refine Prog.obeys_bind.mpr (steps_readGuest (fun _ => tells_error (.inr rfl) rfl) ?_)
  intro addr _
  refine Prog.obeys_bind.mpr (steps_libc ?_)
  intro rc hrc
  exact tells_cvtSsize hrc hbuf rfl rfl rfl rfl rfl rfl

/-- `recv` is honest, since a count that is too large is never returned. -/
theorem honest_recv (fd bufPtr len flags : Int32) : Honest lc (.recv fd bufPtr len flags) (Unix.recv lc fd bufPtr len flags) := by
  refine Prog.obeys_bind.mpr (steps_get (tells_error (.inr rfl) rfl) ?_)
  intro socket
  simp only [Prog.pure_eq, Prog.ret_bind]
  cases hlen : checkedLen len with
  | error errno =>
    have hargs : argsOk lc (.recv fd bufPtr len flags) = false := by rw [argsOk, hlen]; rfl
    exact tells_error (.inl hargs) rfl
  | ok n =>
    have hargs : argsOk lc (.recv fd bufPtr len flags) = true := by rw [argsOk, hlen]; rfl
    refine Prog.obeys_bind.mpr (steps_alloc ?_)
    refine Prog.obeys_bind.mpr (steps_libc ?_)
    intro answer _
    split
    · rename_i hrc
      exact tells_negLastErrno (by rw [any_snoc]; simp [stepFailed, failed, hrc]) rfl
    · rename_i hrc
      -- a count that is more than there was room for is not sliced
      refine Prog.obeys_bind.mpr (steps_sliceTo fun hle => ?_)
      rw [Bytes.length_fill] at hle
      obtain ⟨-, hnonneg, htoInt⟩ := i32TryFromUsize_of_le (Nat.le_trans hle (checkedLen_le hlen))
      refine Prog.obeys_bind.mpr (steps_writeGuest (fun _ => tells_error_last rfl rfl) ?_)
      refine tells_ok hargs (none_snoc (none_snoc rfl (decide_eq_false hrc)) rfl) rfl hnonneg ?_
      rw [htoInt, toNatClampNeg_eq hrc]
      rfl

/-- `recvfrom` is honest, for the same reason. -/
theorem honest_recvfrom (fd bufPtr len flags addrPtr addrLenPtr : Int32) :
    Honest lc (.recvfrom fd bufPtr len flags addrPtr addrLenPtr) (Unix.recvfrom lc fd bufPtr len flags addrPtr addrLenPtr) := by
  refine Prog.obeys_bind.mpr (steps_get (tells_error (.inr rfl) rfl) ?_)
  intro socket
  simp only [Prog.pure_eq, Prog.ret_bind]
  cases hlen : checkedLen len with
  | error errno =>
    have hargs : argsOk lc (.recvfrom fd bufPtr len flags addrPtr addrLenPtr) = false := by rw [argsOk, hlen]; rfl
    exact tells_error (.inl hargs) rfl
  | ok n =>
    have hargs : argsOk lc (.recvfrom fd bufPtr len flags addrPtr addrLenPtr) = true := by rw [argsOk, hlen]; rfl
    refine Prog.obeys_bind.mpr (steps_readU32 (fun _ => tells_error (.inr rfl) rfl) ?_)
    intro bytes addrLen
    refine Prog.obeys_bind.mpr (steps_alloc ?_)
    refine Prog.obeys_bind.mpr (steps_alloc ?_)
    refine Prog.obeys_bind.mpr (steps_libc ?_)
    intro answer _
    split
    · rename_i hrc
      exact tells_negLastErrno (by rw [any_snoc]; simp [stepFailed, failed, hrc]) rfl
    · rename_i hrc
      -- a count that is more than there was room for is not sliced
      refine Prog.obeys_bind.mpr (steps_sliceTo fun hle => ?_)
      rw [Bytes.length_fill] at hle
      obtain ⟨-, hnonneg, htoInt⟩ := i32TryFromUsize_of_le (Nat.le_trans hle (checkedLen_le hlen))
      refine Prog.obeys_bind.mpr (steps_writeGuest (fun _ => tells_error_last rfl rfl) ?_)
      refine Prog.obeys_bind.mpr (steps_sliceTo fun _ => ?_)
      refine Prog.obeys_bind.mpr (steps_writeGuest (fun _ => tells_error_last rfl rfl) ?_)
      refine Prog.obeys_bind.mpr (steps_writeU32 (fun _ => tells_error_last rfl rfl) ?_)
      refine tells_ok hargs (none_snoc (none_snoc (none_snoc (none_snoc rfl (decide_eq_false hrc)) rfl) rfl) rfl) rfl hnonneg ?_
      rw [htoInt, toNatClampNeg_eq hrc]
      rfl

/-- Writing an address or an option back, after a call that succeeded: the result is 0. -/
theorem honest_writeBack {c : SocketImport} {tr : List (Event Sockets)} {ptr lenPtr : Int32} {bytes : List UInt8} {len : UInt32}
    (hargs : argsOk lc c = true) (hclean : tr.any stepFailed = false) (hov : tr.any overflows = false)
    (hanswer : tr.findSome? (answerOf lc c) = some 0) :
    (do
      let reported ← sliceTo bytes len.toNat
      match ← writeGuest ptr reported with
      | .error errno => return negErrno errno
      | .ok () =>
        match ← writeU32 lenPtr len with
        | .ok () => return 0
        | .error errno => return negErrno errno : Import Int32).Obeys steps (Tells lc c) tr := by
  refine Prog.obeys_bind.mpr (steps_sliceTo fun _ => ?_)
  refine Prog.obeys_bind.mpr (steps_writeGuest (fun _ => tells_error_last rfl (none_snoc hov rfl)) ?_)
  refine Prog.obeys_bind.mpr (steps_writeU32 (fun _ => tells_error_last rfl (none_snoc (none_snoc hov rfl) rfl)) ?_)
  refine tells_ok hargs (none_snoc (none_snoc hclean rfl) rfl) (none_snoc (none_snoc hov rfl) rfl) (Int32.le_refl 0) ?_
  rw [List.findSome?_append, List.findSome?_append, hanswer]
  rfl

/-- The import that `sock_name` is for. -/
def nameImport (fd addrPtr addrLenPtr : Int32) : NameKind → SocketImport
  | .localName => .getsockname fd addrPtr addrLenPtr
  | .peer => .getpeername fd addrPtr addrLenPtr

/-- `getsockname` and `getpeername` are honest. -/
theorem honest_sockName (fd addrPtr addrLenPtr : Int32) (kind : NameKind) :
    Honest lc (nameImport fd addrPtr addrLenPtr kind) (Unix.sockName lc fd addrPtr addrLenPtr kind) := by
  refine Prog.obeys_bind.mpr (steps_get (tells_error (.inr rfl) rfl) ?_)
  intro socket
  simp only [Prog.pure_eq, Prog.ret_bind]
  refine Prog.obeys_bind.mpr (steps_readU32 (fun _ => tells_error (.inr rfl) rfl) ?_)
  intro bytes addrLen
  refine Prog.obeys_bind.mpr (steps_alloc ?_)
  cases kind <;>
  · refine Prog.obeys_bind.mpr (steps_libc ?_)
    intro name _
    split
    · rename_i hrc
      exact tells_negLastErrno (by rw [any_snoc]; simp [stepFailed, failed, hrc]) rfl
    · rename_i hrc
      exact honest_writeBack lc rfl (none_snoc rfl (decide_eq_false hrc)) rfl rfl

/-- `getsockopt` is honest. -/
theorem honest_getsockopt (fd level optname optvalPtr optlenPtr : Int32) :
    Honest lc (.getsockopt fd level optname optvalPtr optlenPtr) (Unix.getsockopt lc fd level optname optvalPtr optlenPtr) := by
  refine Prog.obeys_bind.mpr (steps_get (tells_error (.inr rfl) rfl) ?_)
  intro socket
  simp only [Prog.pure_eq, Prog.ret_bind]
  refine Prog.obeys_bind.mpr (steps_readU32 (fun _ => tells_error (.inr rfl) rfl) ?_)
  intro bytes optlen
  refine Prog.obeys_bind.mpr (steps_alloc ?_)
  refine Prog.obeys_bind.mpr (steps_libc ?_)
  intro answer _
  split
  · rename_i hrc
    exact tells_negLastErrno (by rw [any_snoc]; simp [stepFailed, failed, hrc]) rfl
  · rename_i hrc
    have hclean := decide_eq_false hrc
    split
    · refine Prog.obeys_bind.mpr (steps_sliceTo fun _ => ?_)
      exact honest_writeBack lc rfl (none_snoc rfl hclean) rfl rfl
    · exact honest_writeBack lc rfl (none_snoc rfl hclean) rfl rfl

/-- `fcntl` is honest. -/
theorem honest_fcntl (fd cmd arg : Int32) : Honest lc (.fcntl fd cmd arg) (Unix.fcntl lc fd cmd arg) := by
  refine Prog.obeys_bind.mpr (steps_get (tells_error (.inr rfl) rfl) ?_)
  intro socket
  simp only [Prog.pure_eq, Prog.ret_bind]
  unfold socketFcntl
  split
  · rename_i hcmd
    subst hcmd
    refine Prog.obeys_bind.mpr (steps_libc ?_)
    intro flags _
    split
    · rename_i hrc
      exact tells_negLastErrno (by rw [any_snoc]; simp [stepFailed, failed, hrc]) rfl
    · rename_i hrc
      have hflag {v : Int} (h : (if flags &&& lc.oNonblock ≠ 0 then wasiONonblock.toInt else 0) = v) :
          List.findSome? (answerOf lc (.fcntl fd wasiFGetfl arg)) [⟨.inr (.inl (.sockets (.get fd))), some socket⟩,
            ⟨.inr (.inr (.fcntl socket.rawFd .getfl)), flags⟩] = some v := congrArg some h
      split
      · rename_i hset
        exact tells_ok rfl (none_snoc rfl (decide_eq_false hrc)) rfl (by decide) (hflag (if_pos hset))
      · rename_i hset
        exact tells_ok rfl (none_snoc rfl (decide_eq_false hrc)) rfl (by decide) (hflag (if_neg hset))
  · rename_i hget
    split
    · rename_i hcmd
      subst hcmd
      refine Prog.obeys_bind.mpr (steps_libc ?_)
      intro flags _
      split
      · rename_i hrc
        exact tells_negLastErrno (by rw [any_snoc]; simp [stepFailed, failed, hrc]) rfl
      · rename_i hrc
        refine Prog.obeys_bind.mpr (steps_libc ?_)
        intro rc _
        exact tells_cvtI32 rfl (none_snoc rfl (decide_eq_false hrc)) rfl rfl rfl
    · rename_i hset
      have hargs : argsOk lc (.fcntl fd cmd arg) = false := by simp [argsOk, hget, hset]
      exact tells_error (.inl hargs) rfl

/-- `close` of a socket that could not be handed to the guest: the errno is that of the step that failed. -/
theorem honest_closeAfter {c : SocketImport} {tr : List (Event Sockets)} {raw : Int32} {errno : Errno}
    (h : tr.any stepFailed = true) (hov : tr.any overflows = false) :
    (do
      let _ ← libc (.close raw)
      return negErrno errno : Import Int32).Obeys steps (Tells lc c) tr := by
  refine Prog.obeys_bind.mpr (steps_libc ?_)
  intro rc _
  refine tells_error (.inr ?_) (none_snoc hov rfl)
  rw [any_snoc, h, Bool.true_or]

/-- `accept` is honest. -/
theorem honest_accept (fd addrPtr addrLenPtr : Int32) :
    Honest lc (.accept fd addrPtr addrLenPtr) (Unix.accept lc fd addrPtr addrLenPtr) := by
  refine Prog.obeys_bind.mpr (steps_get (tells_error (.inr rfl) rfl) ?_)
  intro socket
  simp only [Prog.pure_eq, Prog.ret_bind]
  refine Prog.obeys_bind.mpr (steps_readU32 (fun _ => tells_error (.inr rfl) rfl) ?_)
  intro bytes addrLen
  refine Prog.obeys_bind.mpr (steps_alloc ?_)
  refine Prog.obeys_bind.mpr (steps_libc ?_)
  intro accepted _
  split
  · rename_i hrc
    exact tells_negLastErrno (by rw [any_snoc]; simp [stepFailed, failed, hrc]) rfl
  · rename_i hrc
    refine Prog.obeys_bind.mpr (steps_sliceTo fun _ => ?_)
    refine Prog.obeys_bind.mpr (steps_writeGuest ?_ ?_)
    · intro errno
      exact honest_closeAfter lc (by rw [any_snoc]; exact Bool.or_true _) rfl
    · refine Prog.obeys_bind.mpr (steps_writeU32 ?_ ?_)
      · intro errno
        exact honest_closeAfter lc (by rw [any_snoc]; exact Bool.or_true _) rfl
      · refine steps_insert ?_
        intro r hr
        exact tells_ok rfl (none_snoc (none_snoc (none_snoc (none_snoc rfl (decide_eq_false hrc)) rfl) rfl) rfl) rfl hr rfl

/-- One block of `configure_socket_type_flags`. -/
theorem steps_addFlag (domain ty protocol : Int32) {tr : List (Event Sockets)} {wanted : Bool} {raw : Int32} {getFlags : Fcntl}
    {setFlags : Int32 → Fcntl} {flag : Int32} {Q : Except Errno Unit → List (Event Sockets) → Prop}
    (herr : ∀ errno tr', (report lc (.socket domain ty protocol)).Broken tr' → Q (.error errno) (tr ++ tr'))
    (hok : ∀ tr', (report lc (.socket domain ty protocol)).Silent tr' → Q (.ok ()) (tr ++ tr')) :
    (addFlag lc wanted raw getFlags setFlags flag).Obeys steps Q tr := by
  unfold addFlag
  split
  · refine Prog.obeys_bind.mpr (steps_libc ?_)
    intro flags _
    split
    · rename_i hrc
      refine Prog.obeys_bind.mpr (steps_lastErrno ?_)
      intro r errno
      rw [List.append_assoc]
      exact herr errno _ ⟨by simp [stepFailed, failed, hrc], rfl⟩
    · rename_i hrc
      refine Prog.obeys_bind.mpr (steps_libc ?_)
      intro rc _
      split
      · rename_i hrc'
        refine Prog.obeys_bind.mpr (steps_lastErrno ?_)
        intro r errno
        rw [List.append_assoc, List.append_assoc]
        exact herr errno _ ⟨by simp [stepFailed, failed, hrc'], rfl⟩
      · rename_i hrc'
        rw [List.append_assoc]
        exact hok _ ⟨by simp [stepFailed, failed, Int32.not_lt.mp hrc, Int32.not_lt.mp hrc'], rfl, rfl⟩
  · have hdone := hok [] ⟨rfl, rfl, rfl⟩
    rw [List.append_nil] at hdone
    exact hdone

/-- The flags of a new socket: a step fails, or all are silent. -/
theorem steps_configureSocketTypeFlags (domain ty protocol : Int32) {tr : List (Event Sockets)} {raw : Int32}
    {socketType : NormalizedSocketType} {Q : Except Errno Unit → List (Event Sockets) → Prop}
    (herr : ∀ errno tr', (report lc (.socket domain ty protocol)).Broken tr' → Q (.error errno) (tr ++ tr'))
    (hok : ∀ tr', (report lc (.socket domain ty protocol)).Silent tr' → Q (.ok ()) (tr ++ tr')) :
    (configureSocketTypeFlags lc raw socketType).Obeys steps Q tr := by
  refine Prog.obeys_bind.mpr (steps_addFlag lc domain ty protocol herr ?_)
  intro tr₁ h₁
  refine steps_addFlag lc domain ty protocol ?_ ?_
  · intro errno tr₂ h₂
    rw [List.append_assoc]
    exact herr errno _ (h₁.broken h₂)
  · intro tr₂ h₂
    rw [List.append_assoc]
    exact hok _ (h₁.append h₂)

/-- `socket` is honest. -/
theorem honest_socket (domain ty protocol : Int32) :
    Honest lc (.socket domain ty protocol) (Unix.socket lc domain ty protocol) := by
  refine Prog.obeys_bind.mpr ⟨trivial, ?_⟩
  intro (allowed : Bool) _
  cases allowed with
  | false => exact tells_error (.inr rfl) rfl
  | true =>
    simp only [Prog.Obeys, Bool.not_true, Bool.false_eq_true, if_false]
    cases htype : normalizeSocketType lc ty with
    | error errno =>
      have hargs : argsOk lc (.socket domain ty protocol) = false := by rw [argsOk, htype]; rfl
      exact tells_error (.inl hargs) rfl
    | ok socketType =>
      have hargs : argsOk lc (.socket domain ty protocol) = true := by rw [argsOk, htype]; rfl
      simp only [Prog.pure_eq, Prog.ret_bind]
      refine Prog.obeys_bind.mpr (steps_libc ?_)
      intro rawFd _
      split
      · rename_i hrc
        exact tells_negLastErrno (by rw [any_snoc]; simp [stepFailed, failed, hrc]) rfl
      · rename_i hrc
        have hbefore : (report lc (.socket domain ty protocol)).Silent [⟨.inr (.inl .networkAllowed), true⟩,
            ⟨.inr (.inr (.socket (normalizeSocketDomain lc domain) socketType.ty protocol)), rawFd⟩] :=
          ⟨by simp [stepFailed, failed, Int32.not_lt.mp hrc], rfl, rfl⟩
        refine Prog.obeys_bind.mpr (steps_configureSocketTypeFlags lc domain ty protocol ?_ ?_)
        · intro errno tr' htr'
          have hbroken := hbefore.broken htr'
          exact honest_closeAfter lc hbroken.failed hbroken.fits
        · intro tr' htr'
          have hsilent := hbefore.append htr'
          refine steps_insert ?_
          intro r hr
          exact tells_ok hargs (none_snoc hsilent.clean rfl) (none_snoc hsilent.fits rfl) hr (answer_snoc hsilent.answer rfl)

/-- The first loop of `poll`: its steps are lookups. -/
theorem steps_hostPollFds (fdsPtr nfds timeout : Int32) (chunks : List (List UInt8))
    {tr : List (Event Sockets)} {Q : Except Errno (List PollFd) → List (Event Sockets) → Prop}
    (herr : ∀ errno tr', (report lc (.poll fdsPtr nfds timeout)).Broken tr' → Q (.error errno) (tr ++ tr'))
    (hok : ∀ fds tr', (report lc (.poll fdsPtr nfds timeout)).Silent tr' → Q (.ok fds) (tr ++ tr')) :
    (hostPollFds chunks).Obeys steps Q tr := by
  induction chunks generalizing tr Q with
  | nil =>
    have hdone := hok [] [] ⟨rfl, rfl, rfl⟩
    rw [List.append_nil] at hdone
    exact hdone
  | cons chunk chunks ih =>
    -- the rest of the loop after the entry's own steps
    have hrest (raw : Int32) (tr₁ : List (Event Sockets)) (h₁ : (report lc (.poll fdsPtr nfds timeout)).Silent tr₁) :
        (pushEntry ⟨raw, (guestPollFd chunk).2⟩ (hostPollFds chunks)).Obeys steps Q (tr ++ tr₁) := by
      refine Prog.obeys_bind.mpr (ih ?_ ?_)
      · intro errno tr₂ h₂
        rw [List.append_assoc]
        exact herr errno _ (h₁.broken h₂)
      · intro fds tr₂ h₂
        rw [List.append_assoc]
        exact hok _ _ (h₁.append h₂)
    unfold hostPollFds
    by_cases hneg : (guestPollFd chunk).1 < 0
    · simp only [hneg, if_true, Prog.pure_eq, Prog.ret_bind]
      have hdone := hrest (guestPollFd chunk).1 [] ⟨rfl, rfl, rfl⟩
      rw [List.append_nil] at hdone
      exact hdone
    · simp only [hneg, if_false]
      refine Prog.obeys_bind.mpr (steps_get (herr _ _ ⟨rfl, rfl⟩) ?_)
      intro socket
      exact hrest socket.rawFd _ ⟨rfl, rfl, rfl⟩

/-- The second loop of `poll`: its steps are writes. -/
theorem steps_writeRevents (fdsPtr nfds timeout : Int32) (revents : List UInt16) {index : Nat} {tr : List (Event Sockets)}
    {Q : Except Errno Unit → List (Event Sockets) → Prop}
    (herr : ∀ errno tr', (report lc (.poll fdsPtr nfds timeout)).Broken tr' → Q (.error errno) (tr ++ tr'))
    (hok : ∀ tr', (report lc (.poll fdsPtr nfds timeout)).Silent tr' → Q (.ok ()) (tr ++ tr')) :
    (writeRevents fdsPtr index revents : Import _).Obeys steps Q tr := by
  induction revents generalizing index tr Q with
  | nil =>
    have hdone := hok [] ⟨rfl, rfl, rfl⟩
    rw [List.append_nil] at hdone
    exact hdone
  | cons revent revents ih =>
    refine Prog.obeys_bind.mpr (steps_writeGuest (fun errno => herr errno _ ⟨rfl, rfl⟩) ?_)
    have hwrite : (report lc (.poll fdsPtr nfds timeout)).Silent
        [⟨.inl (.writeGuest (fdsPtr + Int32.ofNat index * 8 + 6) (Bytes.leBytes 2 revent.toNat)), .ok ()⟩] := ⟨rfl, rfl, rfl⟩
    refine ih ?_ ?_
    · intro errno tr₂ h₂
      rw [List.append_assoc]
      exact herr errno _ (hwrite.broken h₂)
    · intro tr₂ h₂
      rw [List.append_assoc]
      exact hok _ (hwrite.append h₂)

/-- `poll` is honest. -/
theorem honest_poll (fdsPtr nfds timeout : Int32) : Honest lc (.poll fdsPtr nfds timeout) (Unix.poll lc fdsPtr nfds timeout) := by
  unfold Honest Unix.poll
  simp only [Prog.pure_eq, Prog.ret_bind]
  cases hcount : checkedPollCount nfds with
  | error errno =>
    have hargs : argsOk lc (.poll fdsPtr nfds timeout) = false := by rw [argsOk, hcount]; rfl
    exact tells_error (.inl hargs) rfl
  | ok n =>
    have hargs : argsOk lc (.poll fdsPtr nfds timeout) = true := by rw [argsOk, hcount]; rfl
    refine Prog.obeys_bind.mpr (steps_readGuest (fun _ => tells_error (.inr rfl) rfl) ?_)
    intro bytes _
    have hread : (report lc (.poll fdsPtr nfds timeout)).Silent [⟨.inl (.readGuest fdsPtr (Int32.ofNat (n * 8))), .ok bytes⟩] :=
      ⟨rfl, rfl, rfl⟩
    refine Prog.obeys_bind.mpr (steps_hostPollFds lc fdsPtr nfds timeout _ ?_ ?_)
    · intro errno tr₁ h₁
      have hbroken := hread.broken h₁
      exact tells_error (.inr hbroken.failed) hbroken.fits
    · intro hostFds tr₁ h₁
      have hsilent := hread.append h₁
      refine Prog.obeys_bind.mpr (steps_libc ?_)
      intro answer _
      split
      · rename_i hrc
        refine tells_negLastErrno ?_ (none_snoc hsilent.fits rfl)
        rw [any_snoc]
        simp [stepFailed, failed, hrc]
      · rename_i hrc
        have hpolled : stepFailed ⟨.inr (.inr (.poll hostFds timeout)), answer⟩ = false := decide_eq_false hrc
        refine Prog.obeys_bind.mpr (steps_writeRevents lc fdsPtr nfds timeout _ ?_ ?_)
        · intro errno tr₂ h₂
          refine tells_error (.inr ?_) ?_
          · rw [List.any_append, h₂.failed, Bool.or_true]
          · rw [List.any_append, h₂.fits, Bool.or_false]
            exact none_snoc hsilent.fits rfl
        · intro tr₂ h₂
          refine tells_ok hargs ?_ ?_ (Int32.not_lt.mp hrc) ?_
          · rw [List.any_append, h₂.clean, Bool.or_false]
            exact none_snoc hsilent.clean hpolled
          · rw [List.any_append, h₂.fits, Bool.or_false]
            exact none_snoc hsilent.fits rfl
          · rw [List.findSome?_append]
            have hanswer : (_ ++ [⟨.inr (.inr (.poll hostFds timeout)), answer⟩]).findSome? (answerOf lc (.poll fdsPtr nfds timeout)) =
                some answer.rc.toInt := answer_snoc hsilent.answer rfl
            exact congrArg (fun found : Option Int => found.or _) hanswer

/-- Every import tells the truth about its steps. -/
theorem honest_prog (c : SocketImport) : Honest lc c (prog lc c) := by
  cases c with
  | socket domain ty protocol => exact honest_socket lc domain ty protocol
  | bind fd addrPtr addrLen => exact honest_bind lc fd addrPtr addrLen
  | listen fd backlog => exact honest_listen lc fd backlog
  | accept fd addrPtr addrLenPtr => exact honest_accept lc fd addrPtr addrLenPtr
  | connect fd addrPtr addrLen => exact honest_connect lc fd addrPtr addrLen
  | getsockname fd addrPtr addrLenPtr => exact honest_sockName lc fd addrPtr addrLenPtr .localName
  | getpeername fd addrPtr addrLenPtr => exact honest_sockName lc fd addrPtr addrLenPtr .peer
  | setsockopt fd level optname optvalPtr optlen => exact honest_setsockopt lc fd level optname optvalPtr optlen
  | getsockopt fd level optname optvalPtr optlenPtr => exact honest_getsockopt lc fd level optname optvalPtr optlenPtr
  | send fd bufPtr len flags => exact honest_send lc fd bufPtr len flags
  | recv fd bufPtr len flags => exact honest_recv lc fd bufPtr len flags
  | sendto fd bufPtr len flags addrPtr addrLen => exact honest_sendto lc fd bufPtr len flags addrPtr addrLen
  | recvfrom fd bufPtr len flags addrPtr addrLenPtr => exact honest_recvfrom lc fd bufPtr len flags addrPtr addrLenPtr
  | shutdown fd how => exact honest_shutdown lc fd how
  | close fd => exact honest_close lc fd
  | fcntl fd cmd arg => exact honest_fcntl lc fd cmd arg
  | poll fdsPtr nfds timeout => exact honest_poll lc fdsPtr nfds timeout

end

/-- A kernel that keeps to the contract and is otherwise free. -/
def anyNet : Machine Net Unit := fun _ c r _ => netContract c r

/-- The machine of the module answers as relied on. -/
theorem relies_of_machine {s s' : Export × (AppState HostSocket × Unit)} {c : Sockets.Cmd} {r : Sockets.Resp c}
    (h : machine anyNet s c r s') : relies c r := by
  match c, r, h with
  | .inl c, r, h => exact memRelies_of_guestMachine h.1
  | .inr (.inl .networkAllowed), _, _ => trivial
  | .inr (.inl (.sockets (.insert e))), r, h =>
    obtain ⟨hr, -⟩ := Machine.eq_of_det (S := AppState.Sig HostSocket Empty) h.1.1
    subst hr
    exact s.2.1.sockets.base_le
  | .inr (.inl (.sockets (.get _))), _, _ => trivial
  | .inr (.inl (.sockets (.remove _))), _, _ => trivial
  | .inr (.inr c), r, h => exact h.1.1

/-- What an import returns tells the truth about its trace. -/
theorem tells_of_runs {lc : Libc} {c : SocketImport} {s s' : Export × (AppState HostSocket × Unit)} {tr : List (Event Sockets)}
    {v : Int32} (h : Runs (machine anyNet) (prog lc c) s tr (.returned v) s') : Tells lc c v tr := by
  have htells := Prog.Obeys.of_runs (fun _ _ _ _ => relies_of_machine) h (honest_prog lc c) rfl
  rw [Discipline.after_history] at htells
  exact htells

end Unix

end WasmtimeMysql
