import WasmtimeMysql.GuestMemory
import WasmtimeMysql.Lib.FdTable

/-!
# The socket imports on Unix

`host_sockets.rs`: the table of host sockets and the seventeen imports of the module `waasmtime_mysql_sockets`, as programs over
guest memory, the table and the libc calls. Each table operation takes and drops the mutex, so it is one command; the libc call that
follows is another. A buffer handed to the kernel comes back as what the kernel put into it (`Bytes.fill`), and the length it stored
is an answer of its own: nothing here says that the two agree. The build is a release build, so `i32` arithmetic wraps.
-/

namespace WasmtimeMysql

open Effects Bytes

/-! ## The table -/

/-- `GUEST_FD_BASE` of the socket module. -/
def socketFdBase : Int32 := 10000

/-- What the imports reach through `caller.data()`. -/
structure AppState (E : Type) where
  networkAllowed : Bool
  sockets : FdTable socketFdBase E

/-- The commands on it; `U` are the changes a socket entry may get. -/
inductive AppState.Cmd (E U : Type) where
  | networkAllowed
  | sockets (c : FdTable.Cmd E U)

@[reducible] def AppState.Cmd.Resp {E U : Type} : AppState.Cmd E U → Type
  | .networkAllowed => Bool
  | .sockets c => c.Resp

/-- The signature of the application state. -/
@[reducible] def AppState.Sig (E U : Type) : Effects.Sig := ⟨AppState.Cmd E U, AppState.Cmd.Resp⟩

/-- What a command answers and leaves. -/
def AppState.handle {E U : Type} (apply : U → E → E) (a : AppState E) : (c : AppState.Cmd E U) → c.Resp × AppState E
  | .networkAllowed => (a.networkAllowed, a)
  | .sockets c => ((a.sockets.handle apply c).1, { a with sockets := (a.sockets.handle apply c).2 })

/-- The machine of the application state. -/
def AppState.machine {E U : Type} (apply : U → E → E) : Machine (AppState.Sig E U) (AppState E) :=
  .det (AppState.handle apply)

/-- The commands of a socket module: the application state and the calls to the host. -/
@[reducible] def SocketSig (E U : Type) (Net : Sig) : Sig := (AppState.Sig E U).sum Net

section
variable {E U : Type} {Net : Sig}

/-- A call to the host. -/
def call (c : Net.Cmd) : Prog (GuestMem.sum (SocketSig E U Net)) (Net.Resp c) := host (H := SocketSig E U Net) (.inr c)

/-- `caller.data().network_allowed` -/
def networkAllowed : Prog (GuestMem.sum (SocketSig E U Net)) Bool := host (H := SocketSig E U Net) (.inl .networkAllowed)

/-- `HostSockets::insert`. The entry it may replace is dropped without a call to the host. -/
def insertSocket (e : E) : Prog (GuestMem.sum (SocketSig E U Net)) Int32 := do
  let (fd, _) ← host (H := SocketSig E U Net) (.inl (.sockets (.insert e)))
  return fd

/-- `ok_or(errno::EBADF)` -/
def okOrEbadf {α : Type} : Option α → Except Errno α
  | some a => .ok a
  | none => .error .ebadf

/-- `HostSockets::get` -/
def getSocket (fd : Int32) : Prog (GuestMem.sum (SocketSig E U Net)) (Except Errno E) := do
  let found ← host (H := SocketSig E U Net) (.inl (.sockets (.get fd)))
  return okOrEbadf found

/-- `HostSockets::remove` -/
def removeSocket (fd : Int32) : Prog (GuestMem.sum (SocketSig E U Net)) (Except Errno E) := do
  let found ← host (H := SocketSig E U Net) (.inl (.sockets (.remove fd)))
  return okOrEbadf found

end

/-! ## Constants of the guest -/

def wasiAltAfInet : Int32 := 1

def wasiAltSockDgram : Int32 := 5

def wasiAltSockStream : Int32 := 6

def wasiAltSockCloexec : Int32 := 0x2000

def wasiAltSockNonblock : Int32 := 0x4000

def wasiSolSocket : Int32 := 0x7fffffff

def wasiFGetfl : Int32 := 3

def wasiFSetfl : Int32 := 4

def wasiONonblock : Int32 := 0x0004

def wasiSoError : Int32 := 4

/-- `MAX_POLL_FDS` -/
def maxPollFds : Nat := 16384

/-! ## What the Unix and the Windows module share -/

/-- A call to an import of the module, with its arguments. -/
inductive SocketImport where
  | socket (domain ty protocol : Int32)
  | bind (fd addrPtr addrLen : Int32)
  | listen (fd backlog : Int32)
  | accept (fd addrPtr addrLenPtr : Int32)
  | connect (fd addrPtr addrLen : Int32)
  | getsockname (fd addrPtr addrLenPtr : Int32)
  | getpeername (fd addrPtr addrLenPtr : Int32)
  | setsockopt (fd level optname optvalPtr optlen : Int32)
  | getsockopt (fd level optname optvalPtr optlenPtr : Int32)
  | send (fd bufPtr len flags : Int32)
  | recv (fd bufPtr len flags : Int32)
  | sendto (fd bufPtr len flags addrPtr addrLen : Int32)
  | recvfrom (fd bufPtr len flags addrPtr addrLenPtr : Int32)
  | shutdown (fd how : Int32)
  | close (fd : Int32)
  | fcntl (fd cmd arg : Int32)
  | poll (fdsPtr nfds timeout : Int32)
  deriving DecidableEq, Repr

/-- `NameKind` -/
inductive NameKind where
  | localName
  | peer
  deriving DecidableEq, Repr

/-- `checked_poll_count` -/
def checkedPollCount (nfds : Int32) : Except Errno Nat :=
  match usizeTryFrom nfds with
  | none => .error .einval
  | some nfds => if nfds > maxPollFds then .error .einval else .ok nfds

/-- `is_guest_socket_level` -/
def isGuestSocketLevel (level : Int32) : Bool := level == 1 || level == wasiSolSocket

/-- `write_sockaddr_family`, word for word the same in both modules: the family goes to the first two bytes, if there are
two and it fits. -/
def writeSockaddrFamily (addr : List UInt8) (family : Int32) : List UInt8 :=
  if addr.length < 2 then addr
  else if family < 0 ∨ family.toInt ≥ 2 ^ 16 then addr
  else overwrite addr 0 (leBytes 2 family.toNatClampNeg)

@[simp] theorem length_writeSockaddrFamily (addr : List UInt8) (family : Int32) :
    (writeSockaddrFamily addr family).length = addr.length := by
  unfold writeSockaddrFamily
  split
  · rfl
  · split
    · rfl
    · exact length_overwrite (by rw [length_leBytes]; omega)

/-- The guest fd and the events of one guest `pollfd` of eight bytes. -/
def guestPollFd (chunk : List UInt8) : Int32 × UInt16 :=
  (Int32.ofNat (ofLeBytes (chunk.take 4)), UInt16.ofNat (ofLeBytes ((chunk.take 6).drop 4)))

/-- `bytes.chunks_exact(8)` of `n` chunks. -/
def chunksExact8 : Nat → List UInt8 → List (List UInt8)
  | 0, _ => []
  | n + 1, bytes => bytes.take 8 :: chunksExact8 n (bytes.drop 8)

@[simp] theorem length_chunksExact8 (n : Nat) (bytes : List UInt8) : (chunksExact8 n bytes).length = n := by
  induction n generalizing bytes with
  | zero => rfl
  | succ n ih => rw [chunksExact8, List.length_cons, ih]

/-- The second loop of `poll`, from an index on: the `revents` of each entry, at `fds_ptr + index * 8 + 6` in `i32`. -/
def writeRevents {H : Sig} (fdsPtr : Int32) : Nat → List UInt16 → Prog (GuestMem.sum H) (Except Errno Unit)
  | _, [] => return .ok ()
  | index, revents :: rest => do
    match ← writeGuest (fdsPtr + Int32.ofNat index * 8 + 6) (leBytes 2 revents.toNat) with
    | .error errno => return .error errno
    | .ok () => writeRevents fdsPtr (index + 1) rest

/-! ## libc -/

namespace Unix

/-- `HostSocket` on Unix. -/
structure HostSocket where
  rawFd : Int32
  guestDomain : Int32
  hostDomain : Int32
  deriving DecidableEq, Repr

/-- A libc `pollfd` as the import fills it in. -/
structure PollFd where
  fd : Int32
  events : UInt16
  deriving DecidableEq, Repr

/-- `fcntl` commands the module uses. -/
inductive Fcntl where
  | getfd
  | setfd (flags : Int32)
  | getfl
  | setfl (flags : Int32)
  deriving DecidableEq, Repr

/-- The libc calls of the module. An address or option buffer is given by its length, the data sent by itself. -/
inductive Net.Cmd where
  | socket (domain ty protocol : Int32)
  | bind (rawFd : Int32) (addr : List UInt8)
  | listen (rawFd backlog : Int32)
  | accept (rawFd : Int32) (addrLen : UInt32)
  | connect (rawFd : Int32) (addr : List UInt8)
  | getsockname (rawFd : Int32) (addrLen : UInt32)
  | getpeername (rawFd : Int32) (addrLen : UInt32)
  | setsockopt (rawFd level optname : Int32) (optval : List UInt8)
  | getsockopt (rawFd level optname : Int32) (optlen : UInt32)
  | send (rawFd : Int32) (buf : List UInt8) (flags : Int32)
  | recv (rawFd : Int32) (len : Nat) (flags : Int32)
  | sendto (rawFd : Int32) (buf : List UInt8) (flags : Int32) (addr : List UInt8)
  | recvfrom (rawFd : Int32) (len : Nat) (flags : Int32) (addrLen : UInt32)
  | shutdown (rawFd how : Int32)
  | close (rawFd : Int32)
  | fcntl (rawFd : Int32) (cmd : Fcntl)
  | poll (fds : List PollFd) (timeout : Int32)
  /-- `std::io::Error::last_os_error().raw_os_error()` -/
  | lastOsError
  deriving DecidableEq, Repr

/-- A return code with what the kernel put into a buffer and the length it stored. -/
structure BufAnswer where
  rc : Int32
  data : List UInt8
  len : UInt32
  deriving DecidableEq, Repr

/-- The answer of `recv`. -/
structure RecvAnswer where
  rc : Int64
  data : List UInt8
  deriving DecidableEq, Repr

/-- The answer of `recvfrom`. -/
structure RecvfromAnswer where
  rc : Int64
  data : List UInt8
  addr : List UInt8
  addrLen : UInt32
  deriving DecidableEq, Repr

/-- The answer of `poll`: the `revents` fields in the order of the entries. -/
structure PollAnswer where
  rc : Int32
  revents : List UInt16
  deriving DecidableEq, Repr

@[reducible] def Net.Cmd.Resp : Net.Cmd → Type
  | .socket .. => Int32
  | .bind .. => Int32
  | .listen .. => Int32
  | .accept .. => BufAnswer
  | .connect .. => Int32
  | .getsockname .. => BufAnswer
  | .getpeername .. => BufAnswer
  | .setsockopt .. => Int32
  | .getsockopt .. => BufAnswer
  | .send .. => Int64
  | .recv .. => RecvAnswer
  | .sendto .. => Int64
  | .recvfrom .. => RecvfromAnswer
  | .shutdown .. => Int32
  | .close .. => Int32
  | .fcntl .. => Int32
  | .poll .. => PollAnswer
  | .lastOsError => Option Int32

/-- The signature of the libc calls. -/
@[reducible] def Net : Sig := ⟨Net.Cmd, Net.Cmd.Resp⟩

/-- The call failed: its return code is negative. -/
def failed : (c : Net.Cmd) → c.Resp → Bool
  | .socket .., rc => rc < 0
  | .bind .., rc => rc < 0
  | .listen .., rc => rc < 0
  | .accept .., answer => answer.rc < 0
  | .connect .., rc => rc < 0
  | .getsockname .., answer => answer.rc < 0
  | .getpeername .., answer => answer.rc < 0
  | .setsockopt .., rc => rc < 0
  | .getsockopt .., answer => answer.rc < 0
  | .send .., rc => rc < 0
  | .recv .., answer => answer.rc < 0
  | .sendto .., rc => rc < 0
  | .recvfrom .., answer => answer.rc < 0
  | .shutdown .., rc => rc < 0
  | .close .., rc => rc < 0
  | .fcntl .., rc => rc < 0
  | .poll .., answer => answer.rc < 0
  | .lastOsError, _ => false

/-- The commands of the Unix socket module. An entry of the table never changes in place. -/
@[reducible] def Sockets : Sig := GuestMem.sum (SocketSig HostSocket Empty Net)

/-- A program of the Unix socket module. -/
abbrev Import (α : Type) : Type := Prog Sockets α

/-- A libc call. -/
def libc (c : Net.Cmd) : Import (Net.Resp c) := @call HostSocket Empty Net c

def get (fd : Int32) : Import (Except Errno HostSocket) := getSocket fd

def remove (fd : Int32) : Import (Except Errno HostSocket) := removeSocket fd

def insert (rawFd guestDomain hostDomain : Int32) : Import Int32 := insertSocket (HostSocket.mk rawFd guestDomain hostDomain)

/-! ## Results -/

/-- `last_errno` -/
def lastErrno (lc : Libc) : Import Errno := do
  match ← libc .lastOsError with
  | some code => return fromHostErrno lc code
  | none => return .eio

/-- `neg_last_errno` -/
def negLastErrno (lc : Libc) : Import Int32 := do
  let errno ← lastErrno lc
  return negErrno errno

/-- `cvt_i32` -/
def cvtI32 (lc : Libc) (rc : Int32) : Import Int32 := if rc < 0 then negLastErrno lc else return rc

/-- `cvt_ssize` -/
def cvtSsize (lc : Libc) (rc : Int64) : Import Int32 :=
  if rc < 0 then negLastErrno lc
  else match i32TryFromUsize rc.toNatClampNeg with
    | some n => return n
    | none => return negErrno .eoverflow

/-! ## Socket types, domains, levels and addresses -/

/-- `NormalizedSocketType` -/
structure NormalizedSocketType where
  ty : Int32
  closeOnExec : Bool
  nonblocking : Bool
  deriving DecidableEq, Repr

/-- `host_socket_flag_mask` -/
def hostSocketFlagMask (lc : Libc) : Int32 :=
  match lc.sockFlags with
  | some (cloexec, nonblock) => cloexec ||| nonblock
  | none => 0

/-- `has_host_sock_cloexec` -/
def hasHostSockCloexec (lc : Libc) (flags : Int32) : Bool :=
  match lc.sockFlags with
  | some (cloexec, _) => flags &&& cloexec != 0
  | none => false

/-- `has_host_sock_nonblock` -/
def hasHostSockNonblock (lc : Libc) (flags : Int32) : Bool :=
  match lc.sockFlags with
  | some (_, nonblock) => flags &&& nonblock != 0
  | none => false

/-- `normalize_socket_type` -/
def normalizeSocketType (lc : Libc) (ty : Int32) : Except Errno NormalizedSocketType :=
  let flagMask := hostSocketFlagMask lc ||| wasiAltSockCloexec ||| wasiAltSockNonblock
  let base := ty &&& ~~~flagMask
  let flags := ty &&& flagMask
  let normalized (ty : Int32) : NormalizedSocketType :=
    { ty
      closeOnExec := hasHostSockCloexec lc flags || flags &&& wasiAltSockCloexec != 0
      nonblocking := hasHostSockNonblock lc flags || flags &&& wasiAltSockNonblock != 0 }
  if base = lc.sockStream ∨ base = wasiAltSockStream then .ok (normalized lc.sockStream)
  else if base = lc.sockDgram ∨ base = wasiAltSockDgram then .ok (normalized lc.sockDgram)
  else .error .enotsup

/-- A block of `configure_socket_type_flags`: if a flag is wanted, read the flags of its kind and set them with it. -/
def addFlag (lc : Libc) (wanted : Bool) (rawFd : Int32) (getFlags : Fcntl) (setFlags : Int32 → Fcntl) (flag : Int32) :
    Import (Except Errno Unit) :=
  if wanted then do
    let flags ← libc (.fcntl rawFd getFlags)
    if flags < 0 then
      return .error (← lastErrno lc)
    let rc ← libc (.fcntl rawFd (setFlags (flags ||| flag)))
    if rc < 0 then
      return .error (← lastErrno lc)
    return .ok ()
  else return .ok ()

/-- `configure_socket_type_flags` -/
def configureSocketTypeFlags (lc : Libc) (rawFd : Int32) (socketType : NormalizedSocketType) : Import (Except Errno Unit) := do
  match ← addFlag lc socketType.closeOnExec rawFd .getfd .setfd lc.fdCloexec with
  | .error errno => return .error errno
  | .ok () => addFlag lc socketType.nonblocking rawFd .getfl .setfl lc.oNonblock

/-- `normalize_socket_domain` -/
def normalizeSocketDomain (lc : Libc) (domain : Int32) : Int32 :=
  if domain = wasiAltAfInet then lc.afInet
  else if domain = lc.afInet then lc.afInet
  else if domain = lc.afInet6 then lc.afInet6
  else domain

/-- `normalize_socket_level` -/
def normalizeSocketLevel (lc : Libc) (level : Int32) : Int32 := if isGuestSocketLevel level then lc.solSocket else level

/-- `normalize_sockaddr_for_host` -/
def normalizeSockaddrForHost (addr : List UInt8) (hostDomain : Int32) : List UInt8 := writeSockaddrFamily addr hostDomain

/-- `denormalize_sockaddr_for_guest` -/
def denormalizeSockaddrForGuest (addr : List UInt8) (guestDomain : Int32) : List UInt8 := writeSockaddrFamily addr guestDomain

/-! ## The imports -/

section
variable (lc : Libc)

/-- The import `socket`. -/
def socket (domain ty protocol : Int32) : Import Int32 := do
  if !(← networkAllowed) then
    return negErrno .enetdown
  let socketType ← match normalizeSocketType lc ty with
    | .ok socketType => pure socketType
    | .error errno => return negErrno errno
  let hostDomain := normalizeSocketDomain lc domain
  let rawFd ← libc (.socket hostDomain socketType.ty protocol)
  if rawFd < 0 then
    return ← negLastErrno lc
  match ← configureSocketTypeFlags lc rawFd socketType with
  | .error errno =>
    let _ ← libc (.close rawFd)
    return negErrno errno
  | .ok () => insert rawFd domain hostDomain

/-- The import `bind`. -/
def bind (fd addrPtr addrLen : Int32) : Import Int32 := do
  let socket ← match ← get fd with
    | .ok socket => pure socket
    | .error errno => return negErrno errno
  let addr ← match ← readGuest addrPtr addrLen with
    | .ok addr => pure addr
    | .error errno => return negErrno errno
  let rc ← libc (.bind socket.rawFd (normalizeSockaddrForHost addr socket.hostDomain))
  cvtI32 lc rc

/-- The import `listen`. -/
def listen (fd backlog : Int32) : Import Int32 := do
  let socket ← match ← get fd with
    | .ok socket => pure socket
    | .error errno => return negErrno errno
  let rc ← libc (.listen socket.rawFd backlog)
  cvtI32 lc rc

/-- The import `accept`. -/
def accept (fd addrPtr addrLenPtr : Int32) : Import Int32 := do
  let socket ← match ← get fd with
    | .ok socket => pure socket
    | .error errno => return negErrno errno
  let addrLen ← match ← readU32 addrLenPtr with
    | .ok len => pure len
    | .error errno => return negErrno errno
  alloc addrLen.toNat
  let accepted ← libc (.accept socket.rawFd addrLen)
  if accepted.rc < 0 then
    return ← negLastErrno lc
  let addr := denormalizeSockaddrForGuest (fill addrLen.toNat accepted.data) socket.guestDomain
  let reported ← sliceTo addr accepted.len.toNat
  match ← writeGuest addrPtr reported with
  | .error errno =>
    let _ ← libc (.close accepted.rc)
    return negErrno errno
  | .ok () =>
    match ← writeU32 addrLenPtr accepted.len with
    | .error errno =>
      let _ ← libc (.close accepted.rc)
      return negErrno errno
    | .ok () => insert accepted.rc socket.guestDomain socket.hostDomain

/-- The import `connect`. -/
def connect (fd addrPtr addrLen : Int32) : Import Int32 := do
  let socket ← match ← get fd with
    | .ok socket => pure socket
    | .error errno => return negErrno errno
  let addr ← match ← readGuest addrPtr addrLen with
    | .ok addr => pure addr
    | .error errno => return negErrno errno
  let rc ← libc (.connect socket.rawFd (normalizeSockaddrForHost addr socket.hostDomain))
  cvtI32 lc rc

/-- The call that `sock_name` makes for each kind. -/
def callName (kind : NameKind) (rawFd : Int32) (addrLen : UInt32) : Import BufAnswer :=
  match kind with
  | .localName => libc (.getsockname rawFd addrLen)
  | .peer => libc (.getpeername rawFd addrLen)

/-- `sock_name` -/
def sockName (fd addrPtr addrLenPtr : Int32) (kind : NameKind) : Import Int32 := do
  let socket ← match ← get fd with
    | .ok socket => pure socket
    | .error errno => return negErrno errno
  let addrLen ← match ← readU32 addrLenPtr with
    | .ok len => pure len
    | .error errno => return negErrno errno
  alloc addrLen.toNat
  let name ← callName kind socket.rawFd addrLen
  if name.rc < 0 then
    return ← negLastErrno lc
  let addr := denormalizeSockaddrForGuest (fill addrLen.toNat name.data) socket.guestDomain
  let reported ← sliceTo addr name.len.toNat
  match ← writeGuest addrPtr reported with
  | .error errno => return negErrno errno
  | .ok () =>
    match ← writeU32 addrLenPtr name.len with
    | .ok () => return 0
    | .error errno => return negErrno errno

/-- The import `getsockname`. -/
def getsockname (fd addrPtr addrLenPtr : Int32) : Import Int32 := sockName lc fd addrPtr addrLenPtr .localName

/-- The import `getpeername`. -/
def getpeername (fd addrPtr addrLenPtr : Int32) : Import Int32 := sockName lc fd addrPtr addrLenPtr .peer

/-- The import `setsockopt`. -/
def setsockopt (fd level optname optvalPtr optlen : Int32) : Import Int32 := do
  let socket ← match ← get fd with
    | .ok socket => pure socket
    | .error errno => return negErrno errno
  let optval ← match ← readGuest optvalPtr optlen with
    | .ok optval => pure optval
    | .error errno => return negErrno errno
  let rc ← libc (.setsockopt socket.rawFd (normalizeSocketLevel lc level) optname optval)
  cvtI32 lc rc

/-- The option value with its first four bytes, a host error, replaced by the guest's errno. -/
def translateSoError (optval : List UInt8) : List UInt8 :=
  let hostError := Int32.ofNat (ofLeBytes (optval.take 4))
  overwrite optval 0 (leBytes 4 (fromHostErrno lc hostError).code.toUInt32.toNat)

/-- The import `getsockopt`. -/
def getsockopt (fd level optname optvalPtr optlenPtr : Int32) : Import Int32 := do
  let socket ← match ← get fd with
    | .ok socket => pure socket
    | .error errno => return negErrno errno
  let optlen ← match ← readU32 optlenPtr with
    | .ok len => pure len
    | .error errno => return negErrno errno
  alloc optlen.toNat
  let answer ← libc (.getsockopt socket.rawFd (normalizeSocketLevel lc level) optname optlen)
  if answer.rc < 0 then
    return ← negLastErrno lc
  let optval ←
    if isGuestSocketLevel level ∧ optname = wasiSoError ∧ answer.len.toNat ≥ 4 then do
      -- `optval[..4]` panics on a shorter buffer
      let _ ← sliceTo (fill optlen.toNat answer.data) 4
      pure (translateSoError lc (fill optlen.toNat answer.data))
    else pure (fill optlen.toNat answer.data)
  let reported ← sliceTo optval answer.len.toNat
  match ← writeGuest optvalPtr reported with
  | .error errno => return negErrno errno
  | .ok () =>
    match ← writeU32 optlenPtr answer.len with
    | .ok () => return 0
    | .error errno => return negErrno errno

/-- The import `send`. -/
def send (fd bufPtr len flags : Int32) : Import Int32 := do
  let socket ← match ← get fd with
    | .ok socket => pure socket
    | .error errno => return negErrno errno
  let buf ← match ← readGuest bufPtr len with
    | .ok buf => pure buf
    | .error errno => return negErrno errno
  let rc ← libc (.send socket.rawFd buf flags)
  cvtSsize lc rc

/-- The import `recv`. -/
def recv (fd bufPtr len flags : Int32) : Import Int32 := do
  let socket ← match ← get fd with
    | .ok socket => pure socket
    | .error errno => return negErrno errno
  let len ← match checkedLen len with
    | .ok len => pure len
    | .error errno => return negErrno errno
  alloc len
  let answer ← libc (.recv socket.rawFd len flags)
  if answer.rc < 0 then
    return ← negLastErrno lc
  let rc := answer.rc.toNatClampNeg
  let received ← sliceTo (fill len answer.data) rc
  match ← writeGuest bufPtr received with
  | .ok () => return Int32.ofNat rc
  | .error errno => return negErrno errno

/-- The import `sendto`. -/
def sendto (fd bufPtr len flags addrPtr addrLen : Int32) : Import Int32 := do
  let socket ← match ← get fd with
    | .ok socket => pure socket
    | .error errno => return negErrno errno
  let buf ← match ← readGuest bufPtr len with
    | .ok buf => pure buf
    | .error errno => return negErrno errno
  let addr ← match ← readGuest addrPtr addrLen with
    | .ok addr => pure addr
    | .error errno => return negErrno errno
  let rc ← libc (.sendto socket.rawFd buf flags (normalizeSockaddrForHost addr socket.hostDomain))
  cvtSsize lc rc

/-- The import `recvfrom`. -/
def recvfrom (fd bufPtr len flags addrPtr addrLenPtr : Int32) : Import Int32 := do
  let socket ← match ← get fd with
    | .ok socket => pure socket
    | .error errno => return negErrno errno
  let len ← match checkedLen len with
    | .ok len => pure len
    | .error errno => return negErrno errno
  let addrLen ← match ← readU32 addrLenPtr with
    | .ok len => pure len
    | .error errno => return negErrno errno
  alloc len
  alloc addrLen.toNat
  let answer ← libc (.recvfrom socket.rawFd len flags addrLen)
  if answer.rc < 0 then
    return ← negLastErrno lc
  let rc := answer.rc.toNatClampNeg
  let received ← sliceTo (fill len answer.data) rc
  match ← writeGuest bufPtr received with
  | .error errno => return negErrno errno
  | .ok () =>
    let addr := denormalizeSockaddrForGuest (fill addrLen.toNat answer.addr) socket.guestDomain
    let reported ← sliceTo addr answer.addrLen.toNat
    match ← writeGuest addrPtr reported with
    | .error errno => return negErrno errno
    | .ok () =>
      match ← writeU32 addrLenPtr answer.addrLen with
      | .ok () => return Int32.ofNat rc
      | .error errno => return negErrno errno

/-- The import `shutdown`. -/
def shutdown (fd how : Int32) : Import Int32 := do
  let socket ← match ← get fd with
    | .ok socket => pure socket
    | .error errno => return negErrno errno
  let rc ← libc (.shutdown socket.rawFd how)
  cvtI32 lc rc

/-- The import `close`. -/
def close (fd : Int32) : Import Int32 := do
  let socket ← match ← remove fd with
    | .ok socket => pure socket
    | .error errno => return negErrno errno
  let rc ← libc (.close socket.rawFd)
  cvtI32 lc rc

/-- `socket_fcntl` -/
def socketFcntl (rawFd cmd arg : Int32) : Import Int32 := do
  if cmd = wasiFGetfl then
    let flags ← libc (.fcntl rawFd .getfl)
    if flags < 0 then
      return ← negLastErrno lc
    if flags &&& lc.oNonblock ≠ 0 then return wasiONonblock else return 0
  else if cmd = wasiFSetfl then
    let flags ← libc (.fcntl rawFd .getfl)
    if flags < 0 then
      return ← negLastErrno lc
    let flags := if arg &&& wasiONonblock ≠ 0 then flags ||| lc.oNonblock else flags &&& ~~~lc.oNonblock
    let rc ← libc (.fcntl rawFd (.setfl flags))
    cvtI32 lc rc
  else return negErrno .einval

/-- The import `fcntl`. -/
def fcntl (fd cmd arg : Int32) : Import Int32 := do
  let socket ← match ← get fd with
    | .ok socket => pure socket
    | .error errno => return negErrno errno
  socketFcntl lc socket.rawFd cmd arg

/-- The end of a round of the first loop of `poll`: the entry stands before those of the other rounds. -/
def pushEntry (entry : PollFd) (rounds : Import (Except Errno (List PollFd))) : Import (Except Errno (List PollFd)) := do
  match ← rounds with
  | .ok rest => return .ok (entry :: rest)
  | .error errno => return .error errno

/-- The first loop of `poll`: the host entries of the guest's. A negative fd is passed on as it is. -/
def hostPollFds : List (List UInt8) → Import (Except Errno (List PollFd))
  | [] => return .ok []
  | chunk :: chunks => do
    let (guestFd, events) := guestPollFd chunk
    let rawFd ←
      if guestFd < 0 then pure guestFd
      else match ← get guestFd with
        | .ok socket => pure socket.rawFd
        | .error errno => return .error errno
    pushEntry { fd := rawFd, events } (hostPollFds chunks)

/-- The import `poll`. -/
def poll (fdsPtr nfds timeout : Int32) : Import Int32 := do
  let nfds ← match checkedPollCount nfds with
    | .ok nfds => pure nfds
    | .error errno => return negErrno errno
  let bytes ← match ← readGuest fdsPtr (Int32.ofNat (nfds * 8)) with
    | .ok bytes => pure bytes
    | .error errno => return negErrno errno
  let hostFds ← match ← hostPollFds (chunksExact8 nfds bytes) with
    | .ok hostFds => pure hostFds
    | .error errno => return negErrno errno
  let answer ← libc (.poll hostFds timeout)
  if answer.rc < 0 then
    return ← negLastErrno lc
  let revents := hostFds.zipIdx.map fun entry => answer.revents.getD entry.2 0
  match ← writeRevents fdsPtr 0 revents with
  | .error errno => return negErrno errno
  | .ok () => return answer.rc

end

/-- `Drop for HostSocketsInner`, with the entries in the order the table is drained. -/
def dropSockets : List (Int32 × HostSocket) → Prog Net Unit
  | [] => return ()
  | (_, socket) :: rest => do
    let _ ← .cmd (S := Net) (.close socket.rawFd)
    dropSockets rest

/-- What a call runs. -/
def prog (lc : Libc) : SocketImport → Import Int32
  | .socket domain ty protocol => Unix.socket lc domain ty protocol
  | .bind fd addrPtr addrLen => Unix.bind lc fd addrPtr addrLen
  | .listen fd backlog => Unix.listen lc fd backlog
  | .accept fd addrPtr addrLenPtr => Unix.accept lc fd addrPtr addrLenPtr
  | .connect fd addrPtr addrLen => Unix.connect lc fd addrPtr addrLen
  | .getsockname fd addrPtr addrLenPtr => Unix.getsockname lc fd addrPtr addrLenPtr
  | .getpeername fd addrPtr addrLenPtr => Unix.getpeername lc fd addrPtr addrLenPtr
  | .setsockopt fd level optname optvalPtr optlen => Unix.setsockopt lc fd level optname optvalPtr optlen
  | .getsockopt fd level optname optvalPtr optlenPtr => Unix.getsockopt lc fd level optname optvalPtr optlenPtr
  | .send fd bufPtr len flags => Unix.send lc fd bufPtr len flags
  | .recv fd bufPtr len flags => Unix.recv lc fd bufPtr len flags
  | .sendto fd bufPtr len flags addrPtr addrLen => Unix.sendto lc fd bufPtr len flags addrPtr addrLen
  | .recvfrom fd bufPtr len flags addrPtr addrLenPtr => Unix.recvfrom lc fd bufPtr len flags addrPtr addrLenPtr
  | .shutdown fd how => Unix.shutdown lc fd how
  | .close fd => Unix.close lc fd
  | .fcntl fd cmd arg => Unix.fcntl lc fd cmd arg
  | .poll fdsPtr nfds timeout => Unix.poll lc fdsPtr nfds timeout

end Unix

end WasmtimeMysql
