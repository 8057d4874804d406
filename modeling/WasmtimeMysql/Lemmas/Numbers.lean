import WasmtimeMysql.Lemmas.Programs
import WasmtimeMysql.Lib.Discipline

/-!
# What an import does with raw numbers

Every import of the Unix module is orderly with the numbers of its sockets. It copies numbers out of the table and calls libc on
them; or it makes a socket, whose number is its own until it inserts or closes it; or it takes one out of the table and closes it
(`orderly_prog`). When it returns it owns no number (`tidy_prog`).
-/

namespace WasmtimeMysql.Unix

open Effects

/-- The numbers a call is made on. `poll` ignores negative ones. -/
def named : Net.Cmd → List Int32
  | .socket .. => []
  | .bind raw _ => [raw]
  | .listen raw _ => [raw]
  | .accept raw _ => [raw]
  | .connect raw _ => [raw]
  | .getsockname raw _ => [raw]
  | .getpeername raw _ => [raw]
  | .setsockopt raw .. => [raw]
  | .getsockopt raw .. => [raw]
  | .send raw .. => [raw]
  | .recv raw .. => [raw]
  | .sendto raw .. => [raw]
  | .recvfrom raw .. => [raw]
  | .shutdown raw _ => [raw]
  | .close raw => [raw]
  | .fcntl raw _ => [raw]
  | .poll fds _ => (fds.map (·.fd)).filter (0 ≤ ·)
  | .lastOsError => []

/-- The number of the socket a call made. -/
def madeBy : (c : Net.Cmd) → c.Resp → Option Int32
  | .socket .., rc => if rc < 0 then none else some rc
  | .accept .., answer => if answer.rc < 0 then none else some answer.rc
  | _, _ => none

/-! ## The phases -/

/-- How far an import is with the numbers it works on. -/
inductive Phase where
  /-- It has copied these numbers out of the table. -/
  | copied (raws : List Int32)
  /-- It has made a socket and owns its number. -/
  | made (raw : Int32)
  /-- It has taken a number out of the table and owns it. -/
  | taken (raw : Int32)
  /-- It has given the number up. -/
  | done
  deriving DecidableEq

/-- The numbers a phase may call the kernel on. -/
def Phase.Has (raw : Int32) : Phase → Prop
  | .copied raws => raw ∈ raws
  | .made x => raw = x
  | .taken _ => False
  | .done => False

/-- The import owns no number. -/
def Phase.Settled : Phase → Prop
  | .copied _ => True
  | .made _ => False
  | .taken _ => False
  | .done => True

/-- The phases of an import: it copies numbers and calls the kernel on them, or makes a socket of its own and inserts or closes it, or
takes one out of the table and closes it. -/
def numbers : Discipline Sockets Phase where
  allows f
    | .inl _ => True
    | .inr (.inl .networkAllowed) => True
    | .inr (.inl (.sockets (.get _))) => ∃ raws, f = .copied raws
    | .inr (.inl (.sockets (.remove _))) => f = .copied []
    | .inr (.inl (.sockets (.insert e))) => f = .made e.rawFd
    | .inr (.inl (.sockets (.modify ..))) => False
    | .inr (.inr (.socket ..)) => f = .copied []
    | .inr (.inr (.accept raw _)) => f = .copied [raw]
    | .inr (.inr (.close raw)) => f = .made raw ∨ f = .taken raw
    | .inr (.inr c) => ∀ raw ∈ named c, f.Has raw
  relies _ _ := True
  next f
    | .inr (.inl (.sockets (.get _))), some socket =>
      match f with
      | .copied raws => .copied (socket.rawFd :: raws)
      | f => f
    | .inr (.inl (.sockets (.remove _))), some socket => .taken socket.rawFd
    | .inr (.inl (.sockets (.insert _))), _ => .done
    | .inr (.inr (.close _)), _ => .done
    | .inr (.inr c), r =>
      match madeBy c r with
      | some raw => .made raw
      | none => f
    | _, _ => f

namespace NumbersAux

section
variable {f : Phase}

/-- Guest memory has nothing to do with the phases: reading it, ... -/
theorem obeys_readGuest {ptr len : Int32} {Q : Except Errno (List UInt8) → Phase → Prop} (h : ∀ r, Q r f) :
    (readGuest ptr len : Import _).Obeys numbers Q f := ⟨trivial, fun r _ => h r⟩

/-- ... writing it, ... -/
theorem obeys_writeGuest {ptr : Int32} {bytes : List UInt8} {Q : Except Errno Unit → Phase → Prop} (h : ∀ r, Q r f) :
    (writeGuest ptr bytes : Import _).Obeys numbers Q f := ⟨trivial, fun r _ => h r⟩

/-- ... a word of it, ... -/
theorem obeys_writeU32 {ptr : Int32} {value : UInt32} {Q : Except Errno Unit → Phase → Prop} (h : ∀ r, Q r f) :
    (writeU32 ptr value : Import _).Obeys numbers Q f := ⟨trivial, fun r _ => h r⟩

/-- ... allocating, ... -/
theorem obeys_alloc {n : Nat} {Q : Unit → Phase → Prop} (h : Q () f) : (alloc n : Import _).Obeys numbers Q f :=
  ⟨trivial, fun _ _ => h⟩

/-- ... reading a word ... -/
theorem obeys_readU32 {ptr : Int32} {Q : Except Errno UInt32 → Phase → Prop} (h : ∀ r, Q r f) :
    (readU32 ptr : Import _).Obeys numbers Q f := by
  refine Prog.obeys_bind.mpr (obeys_readGuest ?_)
  intro r
  cases r <;> exact h _

/-- ... and slicing leave the phase as it is. -/
theorem obeys_sliceTo {bytes : List UInt8} {n : Nat} {Q : List UInt8 → Phase → Prop} (h : ∀ r, Q r f) :
    (sliceTo bytes n : Import _).Obeys numbers Q f := by
  unfold sliceTo
  split
  · exact h _
  · trivial

/-- A lookup copies the number of the socket. -/
theorem obeys_get {fd : Int32} {raws : List Int32} {Q : Except Errno HostSocket → Phase → Prop}
    (herr : Q (.error .ebadf) (.copied raws)) (hok : ∀ socket, Q (.ok socket) (.copied (socket.rawFd :: raws))) :
    (get fd).Obeys numbers Q (.copied raws) := by
  refine ⟨⟨raws, rfl⟩, ?_⟩
  intro found _
  cases found with
  | none => exact herr
  | some socket => exact hok socket

/-- A call that neither makes a socket nor closes one. -/
def IsPlain : Net.Cmd → Prop
  | .socket .. => False
  | .accept .. => False
  | .close _ => False
  | _ => True

/-- Such a call may be made on the numbers of its phase, and leaves the phase as it is. -/
theorem obeys_libc {c : Net.Cmd} {Q : c.Resp → Phase → Prop} (hc : IsPlain c) (hnamed : ∀ raw ∈ named c, f.Has raw)
    (h : ∀ r, Q r f) : (libc c).Obeys numbers Q f := by
  cases c <;> first | exact hc.elim | exact ⟨hnamed, fun r _ => h r⟩

/-- The errno is asked for on no number. -/
theorem obeys_lastErrno {lc : Libc} {Q : Errno → Phase → Prop} (h : ∀ r, Q r f) : (lastErrno lc).Obeys numbers Q f := by
  refine Prog.obeys_bind.mpr (obeys_libc trivial nofun ?_)
  intro r
  cases r <;> exact h _

/-- The same for its negation, ... -/
theorem obeys_negLastErrno {lc : Libc} {Q : Int32 → Phase → Prop} (h : ∀ r, Q r f) :
    (negLastErrno lc).Obeys numbers Q f := Prog.obeys_bind.mpr (obeys_lastErrno fun _ => h _)

/-- ... `cvt_i32` ... -/
theorem obeys_cvtI32 {lc : Libc} {rc : Int32} {Q : Int32 → Phase → Prop} (h : ∀ r, Q r f) :
    (cvtI32 lc rc).Obeys numbers Q f := by
  unfold cvtI32
  split
  · exact obeys_negLastErrno h
  · exact h _

/-- ... and `cvt_ssize`. -/
theorem obeys_cvtSsize {lc : Libc} {rc : Int64} {Q : Int32 → Phase → Prop} (h : ∀ r, Q r f) :
    (cvtSsize lc rc).Obeys numbers Q f := by
  unfold cvtSsize
  split
  · exact obeys_negLastErrno h
  · split <;> exact h _

end

/-! ## The imports -/

/-- The import obeys the discipline from its start. -/
def Orderly (p : Import Int32) : Prop := p.Obeys numbers (fun _ _ => True) (.copied [])

/-- It also owns no number when it returns. -/
def Tidy (p : Import Int32) : Prop := p.Obeys numbers (fun _ f => f.Settled) (.copied [])

variable (lc : Libc)

/-- `bind` works on the number it has copied. -/
theorem tidy_bind (fd addrPtr addrLen : Int32) : Tidy (Unix.bind lc fd addrPtr addrLen) := by
  refine Prog.obeys_bind.mpr (obeys_get trivial ?_)
  intro socket
  refine Prog.obeys_bind.mpr (obeys_readGuest ?_)
  rintro (errno | addr)
  · trivial
  · refine Prog.obeys_bind.mpr (obeys_libc trivial (fun _ h => h) ?_)
    exact fun rc => obeys_cvtI32 fun _ => trivial

/-- `listen` works on the number it has copied. -/
theorem tidy_listen (fd backlog : Int32) : Tidy (Unix.listen lc fd backlog) := by
  refine Prog.obeys_bind.mpr (obeys_get trivial ?_)
  intro socket
  refine Prog.obeys_bind.mpr (obeys_libc trivial (fun _ h => h) ?_)
  exact fun rc => obeys_cvtI32 fun _ => trivial

/-- `connect` works on the number it has copied. -/
theorem tidy_connect (fd addrPtr addrLen : Int32) : Tidy (Unix.connect lc fd addrPtr addrLen) := by
  refine Prog.obeys_bind.mpr (obeys_get trivial ?_)
  intro socket
  refine Prog.obeys_bind.mpr (obeys_readGuest ?_)
  rintro (errno | addr)
  · trivial
  · refine Prog.obeys_bind.mpr (obeys_libc trivial (fun _ h => h) ?_)
    exact fun rc => obeys_cvtI32 fun _ => trivial

/-- `shutdown` works on the number it has copied. -/
theorem tidy_shutdown (fd how : Int32) : Tidy (Unix.shutdown lc fd how) := by
  refine Prog.obeys_bind.mpr (obeys_get trivial ?_)
  intro socket
  refine Prog.obeys_bind.mpr (obeys_libc trivial (fun _ h => h) ?_)
  exact fun rc => obeys_cvtI32 fun _ => trivial

/-- `setsockopt` works on the number it has copied. -/
theorem tidy_setsockopt (fd level optname optvalPtr optlen : Int32) :
    Tidy (Unix.setsockopt lc fd level optname optvalPtr optlen) := by
  refine Prog.obeys_bind.mpr (obeys_get trivial ?_)
  intro socket
  refine Prog.obeys_bind.mpr (obeys_readGuest ?_)
  rintro (errno | optval)
  · trivial
  · refine Prog.obeys_bind.mpr (obeys_libc trivial (fun _ h => h) ?_)
    exact fun rc => obeys_cvtI32 fun _ => trivial

/-- `send` works on the number it has copied. -/
theorem tidy_send (fd bufPtr len flags : Int32) : Tidy (Unix.send lc fd bufPtr len flags) := by
  refine Prog.obeys_bind.mpr (obeys_get trivial ?_)
  intro socket
  refine Prog.obeys_bind.mpr (obeys_readGuest ?_)
  rintro (errno | buf)
  · trivial
  · refine Prog.obeys_bind.mpr (obeys_libc trivial (fun _ h => h) ?_)
    exact fun rc => obeys_cvtSsize fun _ => trivial

/-- `sendto` works on the number it has copied. -/
theorem tidy_sendto (fd bufPtr len flags addrPtr addrLen : Int32) :
    Tidy (Unix.sendto lc fd bufPtr len flags addrPtr addrLen) := by
  refine Prog.obeys_bind.mpr (obeys_get trivial ?_)
  intro socket
  refine Prog.obeys_bind.mpr (obeys_readGuest ?_)
  rintro (errno | buf)
  · trivial
  · refine Prog.obeys_bind.mpr (obeys_readGuest ?_)
    rintro (errno | addr)
    · trivial
    · refine Prog.obeys_bind.mpr (obeys_libc trivial (fun _ h => h) ?_)
      exact fun rc => obeys_cvtSsize fun _ => trivial

/-- `recv` works on the number it has copied. -/
theorem tidy_recv (fd bufPtr len flags : Int32) : Tidy (Unix.recv lc fd bufPtr len flags) := by
  refine Prog.obeys_bind.mpr (obeys_get trivial ?_)
  intro socket
  simp only [Prog.pure_eq, Prog.ret_bind]
  cases checkedLen len with
  | error errno => trivial
  | ok len =>
    refine Prog.obeys_bind.mpr (obeys_alloc ?_)
    refine Prog.obeys_bind.mpr (obeys_libc trivial (fun _ h => h) ?_)
    intro answer
    split
    · exact obeys_negLastErrno fun _ => trivial
    · refine Prog.obeys_bind.mpr (obeys_sliceTo ?_)
      intro received
      refine Prog.obeys_bind.mpr (obeys_writeGuest ?_)
      rintro (errno | _) <;> trivial

/-- `recvfrom` works on the number it has copied. -/
theorem tidy_recvfrom (fd bufPtr len flags addrPtr addrLenPtr : Int32) :
    Tidy (Unix.recvfrom lc fd bufPtr len flags addrPtr addrLenPtr) := by
  refine Prog.obeys_bind.mpr (obeys_get trivial ?_)
  intro socket
  simp only [Prog.pure_eq, Prog.ret_bind]
  cases checkedLen len with
  | error errno => trivial
  | ok len =>
    refine Prog.obeys_bind.mpr (obeys_readU32 ?_)
    rintro (errno | addrLen)
    · trivial
    · refine Prog.obeys_bind.mpr (obeys_alloc ?_)
      refine Prog.obeys_bind.mpr (obeys_alloc ?_)
      refine Prog.obeys_bind.mpr (obeys_libc trivial (fun _ h => h) ?_)
      intro answer
      split
      · exact obeys_negLastErrno fun _ => trivial
      · refine Prog.obeys_bind.mpr (obeys_sliceTo ?_)
        intro received
        refine Prog.obeys_bind.mpr (obeys_writeGuest ?_)
        rintro (errno | _)
        · trivial
        · refine Prog.obeys_bind.mpr (obeys_sliceTo ?_)
          intro reported
          refine Prog.obeys_bind.mpr (obeys_writeGuest ?_)
          rintro (errno | _)
          · trivial
          · refine Prog.obeys_bind.mpr (obeys_writeU32 ?_)
            rintro (errno | _) <;> trivial

/-- `sock_name`, of either kind. -/
theorem tidy_sockName (fd addrPtr addrLenPtr : Int32) (kind : NameKind) :
    Tidy (Unix.sockName lc fd addrPtr addrLenPtr kind) := by
  refine Prog.obeys_bind.mpr (obeys_get trivial ?_)
  intro socket
  simp only [Prog.pure_eq, Prog.ret_bind]
  refine Prog.obeys_bind.mpr (obeys_readU32 ?_)
  rintro (errno | addrLen)
  · trivial
  · refine Prog.obeys_bind.mpr (obeys_alloc ?_)
    have hname {Q : BufAnswer → Phase → Prop} (h : ∀ answer, Q answer (.copied [socket.rawFd])) :
        (callName kind socket.rawFd addrLen).Obeys numbers Q (.copied [socket.rawFd]) := by
      cases kind <;> exact obeys_libc trivial (fun _ h => h) h
    refine Prog.obeys_bind.mpr (hname ?_)
    intro name
    split
    · exact obeys_negLastErrno fun _ => trivial
    · refine Prog.obeys_bind.mpr (obeys_sliceTo ?_)
      intro reported
      refine Prog.obeys_bind.mpr (obeys_writeGuest ?_)
      rintro (errno | _)
      · trivial
      · refine Prog.obeys_bind.mpr (obeys_writeU32 ?_)
        rintro (errno | _) <;> trivial

/-- The value of an option goes to the guest. -/
theorem obeys_reportOption (optvalPtr optlenPtr : Int32) (len : UInt32) (optval : List UInt8) {raws : List Int32} : (do
    let reported ← sliceTo optval len.toNat
    match ← writeGuest optvalPtr reported with
    | .error errno => return negErrno errno
    | .ok () =>
      match ← writeU32 optlenPtr len with
      | .ok () => return 0
      | .error errno => return negErrno errno : Import Int32).Obeys numbers (fun _ f => f.Settled) (.copied raws) := by
  refine Prog.obeys_bind.mpr (obeys_sliceTo ?_)
  intro reported
  refine Prog.obeys_bind.mpr (obeys_writeGuest ?_)
  rintro (errno | _)
  · trivial
  · refine Prog.obeys_bind.mpr (obeys_writeU32 ?_)
    rintro (errno | _) <;> trivial

/-- `getsockopt` works on the number it has copied. -/
theorem tidy_getsockopt (fd level optname optvalPtr optlenPtr : Int32) :
    Tidy (Unix.getsockopt lc fd level optname optvalPtr optlenPtr) := by
  refine Prog.obeys_bind.mpr (obeys_get trivial ?_)
  intro socket
  simp only [Prog.pure_eq, Prog.ret_bind]
  refine Prog.obeys_bind.mpr (obeys_readU32 ?_)
  rintro (errno | optlen)
  · trivial
  · refine Prog.obeys_bind.mpr (obeys_alloc ?_)
    refine Prog.obeys_bind.mpr (obeys_libc trivial (fun _ h => h) ?_)
    intro answer
    split
    · exact obeys_negLastErrno fun _ => trivial
    · split
      · refine Prog.obeys_bind.mpr (obeys_sliceTo ?_)
        intro _
        exact obeys_reportOption optvalPtr optlenPtr answer.len _
      · exact obeys_reportOption optvalPtr optlenPtr answer.len _

/-- Both commands of `socket_fcntl` work on its number. -/
theorem tidy_socketFcntl (rawFd cmd arg : Int32) :
    (socketFcntl lc rawFd cmd arg).Obeys numbers (fun _ f => f.Settled) (.copied [rawFd]) := by
  unfold socketFcntl
  split
  · refine Prog.obeys_bind.mpr (obeys_libc trivial (fun _ h => h) ?_)
    intro flags
    split
    · exact obeys_negLastErrno fun _ => trivial
    · split <;> trivial
  · split
    · refine Prog.obeys_bind.mpr (obeys_libc trivial (fun _ h => h) ?_)
      intro flags
      split
      · exact obeys_negLastErrno fun _ => trivial
      · refine Prog.obeys_bind.mpr (obeys_libc trivial (fun _ h => h) ?_)
        exact fun rc => obeys_cvtI32 fun _ => trivial
    · trivial

/-- `fcntl` works on the number it has copied. -/
theorem tidy_fcntl (fd cmd arg : Int32) : Tidy (Unix.fcntl lc fd cmd arg) := by
  refine Prog.obeys_bind.mpr (obeys_get trivial ?_)
  intro socket
  exact tidy_socketFcntl lc socket.rawFd cmd arg

/-- A socket that was made may be closed. -/
theorem obeys_close_made {raw : Int32} {Q : Int32 → Phase → Prop} (h : ∀ rc, Q rc .done) :
    (libc (.close raw)).Obeys numbers Q (.made raw) := ⟨.inl rfl, fun r _ => h r⟩

/-- `close` takes the number out of the table and closes it. -/
theorem tidy_close (fd : Int32) : Tidy (Unix.close lc fd) := by
  refine Prog.obeys_bind.mpr ⟨rfl, ?_⟩
  rintro (_ | socket) _
  · trivial
  · refine Prog.obeys_bind.mpr ⟨.inr rfl, ?_⟩
    exact fun rc _ => obeys_cvtI32 fun _ => trivial

/-- The new socket goes into the table. -/
theorem obeys_insert {raw guestDomain hostDomain : Int32} :
    (insert raw guestDomain hostDomain).Obeys numbers (fun _ f => f.Settled) (.made raw) := ⟨rfl, fun _ _ => trivial⟩

/-- `accept` of libc is called on the listener, and may make a socket. -/
theorem obeys_accept {raw : Int32} {addrLen : UInt32} {Q : BufAnswer → Phase → Prop}
    (hfail : ∀ answer, answer.rc < 0 → Q answer (.copied [raw])) (hok : ∀ answer, ¬answer.rc < 0 → Q answer (.made answer.rc)) :
    (libc (.accept raw addrLen)).Obeys numbers Q (.copied [raw]) := by
  refine ⟨rfl, ?_⟩
  intro answer _
  by_cases hrc : answer.rc < 0
  · have hnext : numbers.next (.copied [raw]) (.inr (.inr (.accept raw addrLen))) answer = .copied [raw] := by
      simp [numbers, madeBy, hrc]
    rw [hnext]
    exact hfail answer hrc
  · have hnext : numbers.next (.copied [raw]) (.inr (.inr (.accept raw addrLen))) answer = .made answer.rc := by
      simp [numbers, madeBy, hrc]
    rw [hnext]
    exact hok answer hrc

/-- `accept` inserts the socket that it makes, or closes it. -/
theorem tidy_accept (fd addrPtr addrLenPtr : Int32) : Tidy (Unix.accept lc fd addrPtr addrLenPtr) := by
  refine Prog.obeys_bind.mpr (obeys_get trivial ?_)
  intro socket
  simp only [Prog.pure_eq, Prog.ret_bind]
  refine Prog.obeys_bind.mpr (obeys_readU32 ?_)
  rintro (errno | addrLen)
  · trivial
  · refine Prog.obeys_bind.mpr (obeys_alloc ?_)
    refine Prog.obeys_bind.mpr (obeys_accept ?_ ?_)
    · intro accepted hrc
      rw [if_pos hrc]
      exact obeys_negLastErrno fun _ => trivial
    · intro accepted hrc
      rw [if_neg hrc]
      refine Prog.obeys_bind.mpr (obeys_sliceTo ?_)
      intro reported
      refine Prog.obeys_bind.mpr (obeys_writeGuest ?_)
      rintro (errno | _)
      · exact Prog.obeys_bind.mpr (obeys_close_made fun _ => trivial)
      · refine Prog.obeys_bind.mpr (obeys_writeU32 ?_)
        rintro (errno | _)
        · exact Prog.obeys_bind.mpr (obeys_close_made fun _ => trivial)
        · exact obeys_insert

/-- A flag is added to a socket that was made, ... -/
theorem obeys_addFlag {wanted : Bool} {raw : Int32} {getFlags : Fcntl} {setFlags : Int32 → Fcntl} {flag : Int32}
    {Q : Except Errno Unit → Phase → Prop} (h : ∀ r, Q r (.made raw)) :
    (addFlag lc wanted raw getFlags setFlags flag).Obeys numbers Q (.made raw) := by
  have hnamed (cmd : Fcntl) : ∀ x ∈ named (.fcntl raw cmd), (Phase.made raw).Has x := fun x hx => List.mem_singleton.mp hx
  unfold addFlag
  split
  · refine Prog.obeys_bind.mpr (obeys_libc trivial (hnamed _) ?_)
    intro flags
    split
    · exact Prog.obeys_bind.mpr (obeys_lastErrno fun _ => h _)
    · refine Prog.obeys_bind.mpr (obeys_libc trivial (hnamed _) ?_)
      intro rc
      split
      · exact Prog.obeys_bind.mpr (obeys_lastErrno fun _ => h _)
      · exact h _
  · exact h _

/-- ... and so are all its flags. -/
theorem obeys_configureSocketTypeFlags {raw : Int32} {socketType : NormalizedSocketType}
    {Q : Except Errno Unit → Phase → Prop} (h : ∀ r, Q r (.made raw)) :
    (configureSocketTypeFlags lc raw socketType).Obeys numbers Q (.made raw) := by
  refine Prog.obeys_bind.mpr (obeys_addFlag lc ?_)
  rintro (errno | _)
  · exact h _
  · exact obeys_addFlag lc h

/-- `socket` of libc may make a socket. -/
theorem obeys_socket {domain ty protocol : Int32} {Q : Int32 → Phase → Prop} (hfail : ∀ rc, rc < 0 → Q rc (.copied []))
    (hok : ∀ rc, ¬rc < 0 → Q rc (.made rc)) : (libc (.socket domain ty protocol)).Obeys numbers Q (.copied []) := by
  refine ⟨rfl, ?_⟩
  intro (rc : Int32) _
  by_cases hrc : rc < 0
  · have hnext : numbers.next (.copied []) (.inr (.inr (.socket domain ty protocol))) rc = .copied [] := by
      simp [numbers, madeBy, hrc]
    rw [hnext]
    exact hfail rc hrc
  · have hnext : numbers.next (.copied []) (.inr (.inr (.socket domain ty protocol))) rc = .made rc := by
      simp [numbers, madeBy, hrc]
    rw [hnext]
    exact hok rc hrc

/-- `socket` inserts the socket that it makes, or closes it. -/
theorem tidy_socket (domain ty protocol : Int32) : Tidy (Unix.socket lc domain ty protocol) := by
  refine Prog.obeys_bind.mpr ⟨trivial, ?_⟩
  intro (allowed : Bool) _
  cases allowed with
  | false => trivial
  | true =>
    simp only [Prog.Obeys, Bool.not_true, Bool.false_eq_true, if_false]
    cases normalizeSocketType lc ty with
    | error errno => trivial
    | ok socketType =>
      simp only [Prog.pure_eq, Prog.ret_bind]
      refine Prog.obeys_bind.mpr (obeys_socket ?_ ?_)
      · intro rawFd hrc
        rw [if_pos hrc]
        exact obeys_negLastErrno fun _ => trivial
      · intro rawFd hrc
        rw [if_neg hrc]
        refine Prog.obeys_bind.mpr (obeys_configureSocketTypeFlags lc ?_)
        rintro (errno | _)
        · exact Prog.obeys_bind.mpr (obeys_close_made fun _ => trivial)
        · exact obeys_insert

/-- The first loop of `poll` copies the numbers of all its entries. -/
theorem obeys_hostPollFds (chunks : List (List UInt8)) {raws : List Int32} {Q : Except Errno (List PollFd) → Phase → Prop}
    (herr : ∀ errno raws', Q (.error errno) (.copied raws'))
    (hok : ∀ fds raws', raws ⊆ raws' → (∀ entry ∈ fds, 0 ≤ entry.fd → entry.fd ∈ raws') → Q (.ok fds) (.copied raws')) :
    (hostPollFds chunks).Obeys numbers Q (.copied raws) := by
  induction chunks generalizing raws Q with
  | nil => exact hok [] raws (List.Subset.refl raws) (List.forall_mem_nil _)
  | cons chunk chunks ih =>
    -- after the entry: its number is copied, or negative
    have hrest (raw : Int32) (raws' : List Int32) (hsub : raws ⊆ raws') (hraw : 0 ≤ raw → raw ∈ raws') :
        (pushEntry ⟨raw, (guestPollFd chunk).2⟩ (hostPollFds chunks)).Obeys numbers Q (.copied raws') := by
      refine Prog.obeys_bind.mpr (ih ?_ ?_)
      · intro errno raws''
        exact herr errno raws''
      · intro fds raws'' hsub' hfds
        refine hok _ raws'' (List.Subset.trans hsub hsub') ?_
        intro entry hentry hpos
        rcases List.mem_cons.mp hentry with rfl | hentry
        · exact hsub' (hraw hpos)
        · exact hfds entry hentry hpos
    unfold hostPollFds
    by_cases hneg : (guestPollFd chunk).1 < 0
    · simp only [hneg, if_true, Prog.pure_eq, Prog.ret_bind]
      refine hrest (guestPollFd chunk).1 raws (List.Subset.refl raws) ?_
      intro hpos
      exact absurd hneg (Int32.not_lt.mpr hpos)
    · simp only [hneg, if_false]
      refine Prog.obeys_bind.mpr (obeys_get (herr _ _) ?_)
      intro socket
      exact hrest socket.rawFd _ (List.subset_cons_self _ _) fun _ => List.mem_cons_self

/-- The second loop only writes. -/
theorem obeys_writeRevents (fdsPtr : Int32) (revents : List UInt16) {index : Nat} {f : Phase}
    {Q : Except Errno Unit → Phase → Prop} (h : ∀ r, Q r f) :
    (writeRevents fdsPtr index revents : Import _).Obeys numbers Q f := by
  induction revents generalizing index with
  | nil => exact h _
  | cons revent revents ih =>
    refine Prog.obeys_bind.mpr (obeys_writeGuest ?_)
    rintro (errno | _)
    · exact h _
    · exact ih

/-- `poll` works on the numbers it has copied. -/
theorem tidy_poll (fdsPtr nfds timeout : Int32) : Tidy (Unix.poll lc fdsPtr nfds timeout) := by
  unfold Tidy Unix.poll
  simp only [Prog.pure_eq, Prog.ret_bind]
  cases checkedPollCount nfds with
  | error errno => trivial
  | ok nfds =>
    refine Prog.obeys_bind.mpr (obeys_readGuest ?_)
    rintro (errno | bytes)
    · trivial
    · refine Prog.obeys_bind.mpr (obeys_hostPollFds _ (fun _ _ => trivial) ?_)
      intro hostFds raws _ hfds
      have hnamed : ∀ raw ∈ named (.poll hostFds timeout), (Phase.copied raws).Has raw := by
        intro raw hraw
        obtain ⟨hmem, hpos⟩ := List.mem_filter.mp hraw
        obtain ⟨entry, hentry, rfl⟩ := List.mem_map.mp hmem
        exact hfds entry hentry (of_decide_eq_true hpos)
      refine Prog.obeys_bind.mpr (obeys_libc trivial hnamed ?_)
      intro answer
      split
      · exact obeys_negLastErrno fun _ => trivial
      · refine Prog.obeys_bind.mpr (obeys_writeRevents _ _ ?_)
        rintro (errno | _) <;> trivial

/-- Every import obeys the discipline, and ends settled. -/
theorem tidy_prog (c : SocketImport) : Tidy (prog lc c) := by
  cases c with
  | socket => exact tidy_socket lc _ _ _
  | bind => exact tidy_bind lc _ _ _
  | listen => exact tidy_listen lc _ _
  | accept => exact tidy_accept lc _ _ _
  | connect => exact tidy_connect lc _ _ _
  | getsockname => exact tidy_sockName lc _ _ _ _
  | getpeername => exact tidy_sockName lc _ _ _ _
  | setsockopt => exact tidy_setsockopt lc _ _ _ _ _
  | getsockopt => exact tidy_getsockopt lc _ _ _ _ _
  | send => exact tidy_send lc _ _ _ _
  | recv => exact tidy_recv lc _ _ _ _
  | sendto => exact tidy_sendto lc _ _ _ _ _ _
  | recvfrom => exact tidy_recvfrom lc _ _ _ _ _ _
  | shutdown => exact tidy_shutdown lc _ _
  | close => exact tidy_close lc _
  | fcntl => exact tidy_fcntl lc _ _ _
  | poll => exact tidy_poll lc _ _ _

/-- Every import obeys the discipline. -/
theorem orderly_prog (c : SocketImport) : Orderly (prog lc c) := (tidy_prog lc c).mono fun _ _ _ => trivial

end NumbersAux

end WasmtimeMysql.Unix
