import WasmtimeMysql.HostSockets

/-!
# The socket imports on Windows

`host_sockets_windows.rs`: the same seventeen imports over WinSock. A socket is a handle, not a small number, the status flags of a
socket are kept in the table, and addresses, options, timeouts and poll events are translated. `asUsize` is the `as usize` of an
`i32` on a 64-bit host.
-/

namespace WasmtimeMysql.Windows

open Effects Bytes

/-! ## WinSock -/

/-- `SOCKET` -/
abbrev Socket : Type := UInt64

/-- `INVALID_SOCKET` -/
def invalidSocket : Socket := 0xffffffffffffffff

/-- `SOCKET_ERROR` -/
def socketError : Int32 := -1

/-- `HostSocket` on Windows. -/
structure HostSocket where
  rawSocket : Socket
  guestDomain : Int32
  hostDomain : Int32
  statusFlags : Int32
  deriving DecidableEq, Repr

/-- `WSAPOLLFD` as the import fills it in. -/
structure WsaPollFd where
  fd : Socket
  events : UInt16
  deriving DecidableEq, Repr

/-- The WinSock calls of the module. -/
inductive Net.Cmd where
  /-- `WSAStartup`, run once in the process: the code it returned. -/
  | wsaStartup
  | socket (domain ty protocol : Int32)
  | ioctlsocketFionbio (rawSocket : Socket) (enabled : UInt32)
  | bind (rawSocket : Socket) (addr : List UInt8)
  | listen (rawSocket : Socket) (backlog : Int32)
  | accept (rawSocket : Socket) (addrLen : Int32)
  | connect (rawSocket : Socket) (addr : List UInt8)
  | getsockname (rawSocket : Socket) (addrLen : Int32)
  | getpeername (rawSocket : Socket) (addrLen : Int32)
  | setsockopt (rawSocket : Socket) (level optname : Int32) (optval : List UInt8)
  | getsockopt (rawSocket : Socket) (level optname optlen : Int32)
  | send (rawSocket : Socket) (buf : List UInt8) (flags : Int32)
  | recv (rawSocket : Socket) (len : Nat) (flags : Int32)
  | sendto (rawSocket : Socket) (buf : List UInt8) (flags : Int32) (addr : List UInt8)
  | recvfrom (rawSocket : Socket) (len : Nat) (flags : Int32) (addrLen : Int32)
  | shutdown (rawSocket : Socket) (how : Int32)
  | closesocket (rawSocket : Socket)
  | wsaPoll (fds : List WsaPollFd) (timeout : Int32)
  | wsaGetLastError
  deriving DecidableEq, Repr

/-- The answer of `accept`: the socket, what was put into the address buffer, and the length stored. -/
structure AcceptAnswer where
  accepted : Socket
  data : List UInt8
  len : Int32
  deriving DecidableEq, Repr

/-- A return code with what was put into a buffer and the length stored. -/
structure BufAnswer where
  rc : Int32
  data : List UInt8
  len : Int32
  deriving DecidableEq, Repr

/-- The answer of `recv`. -/
structure RecvAnswer where
  rc : Int32
  data : List UInt8
  deriving DecidableEq, Repr

/-- The answer of `recvfrom`. -/
structure RecvfromAnswer where
  rc : Int32
  data : List UInt8
  addr : List UInt8
  addrLen : Int32
  deriving DecidableEq, Repr

/-- The answer of `WSAPoll`. -/
structure PollAnswer where
  rc : Int32
  revents : List UInt16
  deriving DecidableEq, Repr

@[reducible] def Net.Cmd.Resp : Net.Cmd → Type
  | .wsaStartup => Int32
  | .socket .. => Socket
  | .ioctlsocketFionbio .. => Int32
  | .bind .. => Int32
  | .listen .. => Int32
  | .accept .. => AcceptAnswer
  | .connect .. => Int32
  | .getsockname .. => BufAnswer
  | .getpeername .. => BufAnswer
  | .setsockopt .. => Int32
  | .getsockopt .. => BufAnswer
  | .send .. => Int32
  | .recv .. => RecvAnswer
  | .sendto .. => Int32
  | .recvfrom .. => RecvfromAnswer
  | .shutdown .. => Int32
  | .closesocket .. => Int32
  | .wsaPoll .. => PollAnswer
  | .wsaGetLastError => Int32

/-- The signature of the WinSock calls. -/
@[reducible] def Net : Sig := ⟨Net.Cmd, Net.Cmd.Resp⟩

/-- The call failed. `WSAStartup` returns its error itself. -/
def failed : (c : Net.Cmd) → c.Resp → Bool
  | .wsaStartup, rc => rc != 0
  | .socket .., rawSocket => rawSocket == invalidSocket
  | .ioctlsocketFionbio .., rc => rc == socketError
  | .bind .., rc => rc == socketError
  | .listen .., rc => rc == socketError
  | .accept .., answer => answer.accepted == invalidSocket
  | .connect .., rc => rc == socketError
  | .getsockname .., answer => answer.rc == socketError
  | .getpeername .., answer => answer.rc == socketError
  | .setsockopt .., rc => rc == socketError
  | .getsockopt .., answer => answer.rc == socketError
  | .send .., rc => rc == socketError
  | .recv .., answer => answer.rc == socketError
  | .sendto .., rc => rc == socketError
  | .recvfrom .., answer => answer.rc == socketError
  | .shutdown .., rc => rc == socketError
  | .closesocket .., rc => rc == socketError
  | .wsaPoll .., answer => answer.rc == socketError
  | .wsaGetLastError, _ => false

/-- `set_status_flags` on an entry. -/
def HostSocket.setStatusFlags (statusFlags : Int32) (socket : HostSocket) : HostSocket := { socket with statusFlags }

/-- The commands of the Windows socket module. -/
@[reducible] def Sockets : Sig := GuestMem.sum (SocketSig HostSocket Int32 Net)

/-- A program of the Windows socket module. -/
abbrev Import (α : Type) : Type := Prog Sockets α

/-- A WinSock call. -/
def ws (c : Net.Cmd) : Import (Net.Resp c) := @call HostSocket Int32 Net c

def get (fd : Int32) : Import (Except Errno HostSocket) := getSocket fd

def remove (fd : Int32) : Import (Except Errno HostSocket) := removeSocket fd

def insert (rawSocket : Socket) (guestDomain hostDomain statusFlags : Int32) : Import Int32 :=
  insertSocket (HostSocket.mk rawSocket guestDomain hostDomain statusFlags)

/-- `HostSockets::set_status_flags` -/
def setStatusFlags (fd statusFlags : Int32) : Import (Except Errno Unit) := do
  let found ← host (H := SocketSig HostSocket Int32 Net) (.inl (.sockets (.modify fd statusFlags)))
  return okOrEbadf found

/-! ## Results -/

/-- `neg_last_socket_errno` -/
def negLastSocketErrno : Import Int32 := do
  let code ← ws .wsaGetLastError
  return -socketErrno code

/-- `cvt_socket_i32` -/
def cvtSocketI32 (rc : Int32) : Import Int32 := if rc = socketError then negLastSocketErrno else return rc

/-- `as usize` of an `i32`. -/
def asUsize (x : Int32) : Nat := (x.toInt % 2 ^ 64).toNat

/-- `checked_sockaddr_len` -/
def checkedSockaddrLen (value : UInt32) : Except Errno Nat :=
  match i32TryFromUsize value.toNat with
  | none => .error .einval
  | some value => checkedLen value

/-- `read_u32(...).and_then(checked_sockaddr_len)` -/
def readSockaddrLen (ptr : Int32) : Import (Except Errno Nat) := do
  match ← readU32 ptr with
  | .ok value => return checkedSockaddrLen value
  | .error errno => return .error errno

/-- `ensure_winsock`: the error is the guest's number. -/
def ensureWinsock : Import (Except Int32 Unit) := do
  let rc ← ws .wsaStartup
  if rc = 0 then return .ok () else return .error (socketErrno rc)

/-! ## Socket types, domains, options, timeouts and poll events -/

/-- `NormalizedSocketType` -/
structure NormalizedSocketType where
  ty : Int32
  nonblocking : Bool
  deriving DecidableEq, Repr

/-- `normalize_socket_type` -/
def normalizeSocketType (ty : Int32) : Except Errno NormalizedSocketType :=
  let flagMask : Int32 := 0x800 ||| 0x80000 ||| wasiAltSockCloexec ||| wasiAltSockNonblock
  let base := ty &&& ~~~flagMask
  let flags := ty &&& flagMask
  let nonblocking := flags &&& (0x800 ||| wasiAltSockNonblock) != 0
  if base = 1 ∨ base = wasiAltSockStream then .ok { ty := 1, nonblocking }
  else if base = 2 ∨ base = wasiAltSockDgram then .ok { ty := 2, nonblocking }
  else .error .enotsup

/-- `normalize_socket_domain` -/
def normalizeSocketDomain (domain : Int32) : Int32 :=
  if domain = wasiAltAfInet ∨ domain = 2 then 2
  else if domain = 10 ∨ domain = 23 then 23
  else domain

/-- `normalize_sockaddr_for_host` -/
def normalizeSockaddrForHost (addr : List UInt8) (hostDomain : Int32) : List UInt8 := writeSockaddrFamily addr hostDomain

/-- `denormalize_sockaddr_for_guest` -/
def denormalizeSockaddrForGuest (addr : List UInt8) (guestDomain : Int32) : List UInt8 := writeSockaddrFamily addr guestDomain

def guestSoReuseaddr : Int32 := 2

def guestSoError : Int32 := 4

def guestSoKeepalive : Int32 := 9

def guestSoRcvtimeo : Int32 := 20

def guestSoSndtimeo : Int32 := 21

/-- `normalize_socket_option`: the level and the option of WinSock. -/
def normalizeSocketOption (level optname : Int32) : Int32 × Int32 :=
  if isGuestSocketLevel level then
    (0xffff,
      if optname = guestSoReuseaddr then 0x0004
      else if optname = guestSoError then 0x1007
      else if optname = guestSoKeepalive then 0x0008
      else if optname = guestSoRcvtimeo then 0x1006
      else if optname = guestSoSndtimeo then 0x1005
      else optname)
  else if level = 0 then (0, if optname = 1 then 3 else optname)
  else if level = 41 then (41, if optname = 26 then 27 else optname)
  else (level, optname)

/-- `is_guest_timeout` -/
def isGuestTimeout (level optname : Int32) : Bool :=
  isGuestSocketLevel level && (optname == guestSoRcvtimeo || optname == guestSoSndtimeo)

/-- An `i64` result that saturates. -/
def satI64 (x : Int) : Int := max (-2 ^ 63) (min x (2 ^ 63 - 1))

/-- `i64::from_le_bytes` -/
def i64FromLeBytes (bytes : List UInt8) : Int := (Int64.ofNat (ofLeBytes bytes)).toInt

/-- `guest_timeout_to_windows` -/
def guestTimeoutToWindows (guest : List UInt8) : List UInt8 :=
  if guest.length < 16 then guest
  else
    let seconds := i64FromLeBytes (guest.take 8)
    let micros := i64FromLeBytes ((guest.take 16).drop 8)
    let millis := satI64 (satI64 (seconds * 1000) + satI64 (micros + 999) / 1000)
    leBytes 4 (max 0 (min millis (2 ^ 32 - 1))).toNat

/-- `windows_timeout_to_guest` -/
def windowsTimeoutToGuest (windows : List UInt8) (requestedLen : Nat) : List UInt8 :=
  if requestedLen < 16 ∨ windows.length < 4 then windows
  else
    let millis := ofLeBytes (windows.take 4)
    leBytes 8 (millis / 1000) ++ leBytes 8 (millis % 1000 * 1000)

/-- `normalize_message_flags` -/
def normalizeMessageFlags (flags : Int32) : Int32 := flags &&& 0x0002

/-- The bits of the second column for the bits of the first that are set. -/
def translateBits (table : List (UInt16 × UInt16)) (bits : UInt16) : UInt16 :=
  table.foldl (fun normalized row => if bits &&& row.1 ≠ 0 then normalized ||| row.2 else normalized) 0

/-- `guest_poll_events_to_windows`: POLLIN, POLLPRI, POLLOUT -/
def guestPollEventsToWindows : UInt16 → UInt16 := translateBits [(0x0001, 0x0300), (0x0002, 0x0400), (0x0004, 0x0010)]

/-- `windows_poll_events_to_guest`: POLLIN, POLLPRI, POLLOUT, POLLERR, POLLHUP, POLLNVAL -/
def windowsPollEventsToGuest : UInt16 → UInt16 :=
  translateBits [(0x0300, 0x0001), (0x0400, 0x0002), (0x0010, 0x0004), (0x0001, 0x0008), (0x0002, 0x0010), (0x0004, 0x0020)]

/-! ## The imports -/

/-- The import `socket`. -/
def socket (domain ty protocol : Int32) : Import Int32 := do
  if !(← networkAllowed) then
    return negErrno .enetdown
  match ← ensureWinsock with
  | .error errno => return -errno
  | .ok () =>
    let socketType ← match normalizeSocketType ty with
      | .ok socketType => pure socketType
      | .error errno => return negErrno errno
    let hostDomain := normalizeSocketDomain domain
    let rawSocket ← ws (.socket hostDomain socketType.ty protocol)
    if rawSocket = invalidSocket then
      return ← negLastSocketErrno
    if socketType.nonblocking then
      if (← ws (.ioctlsocketFionbio rawSocket 1)) = socketError then
        let _ ← ws (.closesocket rawSocket)
        return ← negLastSocketErrno
      insert rawSocket domain hostDomain wasiONonblock
    else insert rawSocket domain hostDomain 0

/-- The import `bind`. -/
def bind (fd addrPtr addrLen : Int32) : Import Int32 := do
  let socket ← match ← get fd with
    | .ok socket => pure socket
    | .error errno => return negErrno errno
  let addr ← match ← readGuest addrPtr addrLen with
    | .ok addr => pure addr
    | .error errno => return negErrno errno
  let rc ← ws (.bind socket.rawSocket (normalizeSockaddrForHost addr socket.hostDomain))
  cvtSocketI32 rc

/-- The import `listen`. -/
def listen (fd backlog : Int32) : Import Int32 := do
  let socket ← match ← get fd with
    | .ok socket => pure socket
    | .error errno => return negErrno errno
  let rc ← ws (.listen socket.rawSocket backlog)
  cvtSocketI32 rc

/-- The import `accept`. -/
def accept (fd addrPtr addrLenPtr : Int32) : Import Int32 := do
  let socket ← match ← get fd with
    | .ok socket => pure socket
    | .error errno => return negErrno errno
  let requestedLen ← match ← readSockaddrLen addrLenPtr with
    | .ok len => pure len
    | .error errno => return negErrno errno
  alloc requestedLen
  let answer ← ws (.accept socket.rawSocket (Int32.ofNat requestedLen))
  if answer.accepted = invalidSocket then
    return ← negLastSocketErrno
  if answer.len < 0 ∨ asUsize answer.len > requestedLen then
    let _ ← ws (.closesocket answer.accepted)
    return negErrno .eio
  let addr := denormalizeSockaddrForGuest (fill requestedLen answer.data) socket.guestDomain
  let reported ← sliceTo addr (asUsize answer.len)
  match ← writeGuest addrPtr reported with
  | .error errno =>
    let _ ← ws (.closesocket answer.accepted)
    return negErrno errno
  | .ok () =>
    match ← writeU32 addrLenPtr answer.len.toUInt32 with
    | .error errno =>
      let _ ← ws (.closesocket answer.accepted)
      return negErrno errno
    | .ok () => insert answer.accepted socket.guestDomain socket.hostDomain socket.statusFlags

/-- The import `connect`. -/
def connect (fd addrPtr addrLen : Int32) : Import Int32 := do
  let socket ← match ← get fd with
    | .ok socket => pure socket
    | .error errno => return negErrno errno
  let addr ← match ← readGuest addrPtr addrLen with
    | .ok addr => pure addr
    | .error errno => return negErrno errno
  let rc ← ws (.connect socket.rawSocket (normalizeSockaddrForHost addr socket.hostDomain))
  cvtSocketI32 rc

/-- The call that `socket_name` makes for each kind. -/
def callName (kind : NameKind) (rawSocket : Socket) (addrLen : Int32) : Import BufAnswer :=
  match kind with
  | .localName => ws (.getsockname rawSocket addrLen)
  | .peer => ws (.getpeername rawSocket addrLen)

/-- `socket_name` -/
def socketName (fd addrPtr addrLenPtr : Int32) (kind : NameKind) : Import Int32 := do
  let socket ← match ← get fd with
    | .ok socket => pure socket
    | .error errno => return negErrno errno
  let requestedLen ← match ← readSockaddrLen addrLenPtr with
    | .ok len => pure len
    | .error errno => return negErrno errno
  alloc requestedLen
  let answer ← callName kind socket.rawSocket (Int32.ofNat requestedLen)
  if answer.rc = socketError then
    return ← negLastSocketErrno
  if answer.len < 0 ∨ asUsize answer.len > requestedLen then
    return negErrno .eio
  let addr := denormalizeSockaddrForGuest (fill requestedLen answer.data) socket.guestDomain
  let reported ← sliceTo addr (asUsize answer.len)
  match ← writeGuest addrPtr reported with
  | .error errno => return negErrno errno
  | .ok () =>
    match ← writeU32 addrLenPtr answer.len.toUInt32 with
    | .ok () => return 0
    | .error errno => return negErrno errno

/-- The import `getsockname`. -/
def getsockname (fd addrPtr addrLenPtr : Int32) : Import Int32 := socketName fd addrPtr addrLenPtr .localName

/-- The import `getpeername`. -/
def getpeername (fd addrPtr addrLenPtr : Int32) : Import Int32 := socketName fd addrPtr addrLenPtr .peer

/-- The import `setsockopt`. -/
def setsockopt (fd level optname optvalPtr optlen : Int32) : Import Int32 := do
  let socket ← match ← get fd with
    | .ok socket => pure socket
    | .error errno => return negErrno errno
  let optval ← match ← readGuest optvalPtr optlen with
    | .ok optval => pure optval
    | .error errno => return negErrno errno
  let (hostLevel, hostOptname) := normalizeSocketOption level optname
  let optval := if isGuestTimeout level optname then guestTimeoutToWindows optval else optval
  let rc ← ws (.setsockopt socket.rawSocket hostLevel hostOptname optval)
  cvtSocketI32 rc

/-- What `getsockopt` makes of the bytes WinSock returned, before it cuts them to the guest's length. -/
def guestOption (level optname : Int32) (requestedLen : Nat) (result : List UInt8) : List UInt8 :=
  if isGuestTimeout level optname then windowsTimeoutToGuest result requestedLen
  else if isGuestSocketLevel level ∧ optname = guestSoError ∧ result.length = 4 then
    leBytes 4 (socketErrno (Int32.ofNat (ofLeBytes (result.take 4)))).toUInt32.toNat
  else result

/-- The import `getsockopt`. -/
def getsockopt (fd level optname optvalPtr optlenPtr : Int32) : Import Int32 := do
  let socket ← match ← get fd with
    | .ok socket => pure socket
    | .error errno => return negErrno errno
  let requestedLen ← match ← readSockaddrLen optlenPtr with
    | .ok len => pure len
    | .error errno => return negErrno errno
  let (hostLevel, hostOptname) := normalizeSocketOption level optname
  let bufLen := if isGuestTimeout level optname then 4 else requestedLen
  alloc bufLen
  let answer ← ws (.getsockopt socket.rawSocket hostLevel hostOptname (Int32.ofNat bufLen))
  if answer.rc = socketError then
    return ← negLastSocketErrno
  if answer.len < 0 ∨ asUsize answer.len > bufLen then
    return negErrno .eio
  let optval ← sliceTo (fill bufLen answer.data) (asUsize answer.len)
  let result := (guestOption level optname requestedLen optval).take requestedLen
  match ← writeGuest optvalPtr result with
  | .error errno => return negErrno errno
  | .ok () =>
    match ← writeU32 optlenPtr (UInt32.ofNat result.length) with
    | .ok () => return 0
    | .error errno => return negErrno errno

/-- The import `send`. -/
def send (fd bufPtr len flags : Int32) : Import Int32 := do
  let socket ← match ← get fd with
    | .ok socket => pure socket
    | .error errno => return negErrno errno
  let buf ← match ← readGuest bufPtr len with
    | .ok buf => pure buf
    | .error errno => return negErrno errno
  let rc ← ws (.send socket.rawSocket buf (normalizeMessageFlags flags))
  cvtSocketI32 rc

/-- The import `recv`. -/
def recv (fd bufPtr len flags : Int32) : Import Int32 := do
  let socket ← match ← get fd with
    | .ok socket => pure socket
    | .error errno => return negErrno errno
  let len ← match checkedLen len with
    | .ok len => pure len
    | .error errno => return negErrno errno
  alloc len
  let answer ← ws (.recv socket.rawSocket len (normalizeMessageFlags flags))
  if answer.rc = socketError then
    return ← negLastSocketErrno
  let received ← sliceTo (fill len answer.data) (asUsize answer.rc)
  match ← writeGuest bufPtr received with
  | .ok () => return answer.rc
  | .error errno => return negErrno errno

/-- The import `sendto`. -/
def sendto (fd bufPtr len flags addrPtr addrLen : Int32) : Import Int32 := do
  let socket ← match ← get fd with
    | .ok socket => pure socket
    | .error errno => return negErrno errno
  let buf ← match ← readGuest bufPtr len with
    | .ok buf => pure buf
    | .error errno => return negErrno errno
  let addr ← match ← readGuest addrPtr addrLen with
    | .ok addr => pure addr
    | .error errno => return negErrno errno
  let rc ← ws (.sendto socket.rawSocket buf (normalizeMessageFlags flags) (normalizeSockaddrForHost addr socket.hostDomain))
  cvtSocketI32 rc

/-- The import `recvfrom`. -/
def recvfrom (fd bufPtr len flags addrPtr addrLenPtr : Int32) : Import Int32 := do
  let socket ← match ← get fd with
    | .ok socket => pure socket
    | .error errno => return negErrno errno
  let len ← match checkedLen len with
    | .ok len => pure len
    | .error errno => return negErrno errno
  let requestedAddrLen ← match ← readSockaddrLen addrLenPtr with
    | .ok len => pure len
    | .error errno => return negErrno errno
  alloc len
  alloc requestedAddrLen
  let answer ← ws (.recvfrom socket.rawSocket len (normalizeMessageFlags flags) (Int32.ofNat requestedAddrLen))
  if answer.rc = socketError then
    return ← negLastSocketErrno
  if answer.addrLen < 0 ∨ asUsize answer.addrLen > requestedAddrLen then
    return negErrno .eio
  let received ← sliceTo (fill len answer.data) (asUsize answer.rc)
  match ← writeGuest bufPtr received with
  | .error errno => return negErrno errno
  | .ok () =>
    let addr := denormalizeSockaddrForGuest (fill requestedAddrLen answer.addr) socket.guestDomain
    let reported ← sliceTo addr (asUsize answer.addrLen)
    match ← writeGuest addrPtr reported with
    | .error errno => return negErrno errno
    | .ok () =>
      match ← writeU32 addrLenPtr answer.addrLen.toUInt32 with
      | .ok () => return answer.rc
      | .error errno => return negErrno errno

/-- The import `shutdown`. -/
def shutdown (fd how : Int32) : Import Int32 := do
  let socket ← match ← get fd with
    | .ok socket => pure socket
    | .error errno => return negErrno errno
  let rc ← ws (.shutdown socket.rawSocket how)
  cvtSocketI32 rc

/-- The import `close`. -/
def close (fd : Int32) : Import Int32 := do
  let socket ← match ← remove fd with
    | .ok socket => pure socket
    | .error errno => return negErrno errno
  let rc ← ws (.closesocket socket.rawSocket)
  cvtSocketI32 rc

/-- The import `fcntl`. -/
def fcntl (fd cmd arg : Int32) : Import Int32 := do
  let socket ← match ← get fd with
    | .ok socket => pure socket
    | .error errno => return negErrno errno
  if cmd = wasiFGetfl then return socket.statusFlags
  else if cmd = wasiFSetfl then
    let statusFlags := arg &&& wasiONonblock
    let enabled : UInt32 := if statusFlags ≠ 0 then 1 else 0
    if (← ws (.ioctlsocketFionbio socket.rawSocket enabled)) = socketError then
      return ← negLastSocketErrno
    match ← setStatusFlags fd statusFlags with
    | .ok () => return 0
    | .error errno => return negErrno errno
  else return negErrno .einval

/-- The end of a round of the first loop of `poll`: the entry stands before those of the other rounds. -/
def pushEntry (entry : Bool × WsaPollFd) (rounds : Import (Except Errno (List (Bool × WsaPollFd)))) :
    Import (Except Errno (List (Bool × WsaPollFd))) := do
  match ← rounds with
  | .ok rest => return .ok (entry :: rest)
  | .error errno => return .error errno

/-- The first loop of `poll`: for each guest entry whether it is ignored, and the host entry. -/
def hostPollFds : List (List UInt8) → Import (Except Errno (List (Bool × WsaPollFd)))
  | [] => return .ok []
  | chunk :: chunks => do
    let (guestFd, events) := guestPollFd chunk
    let entry ←
      if guestFd < 0 then pure (true, { fd := invalidSocket, events := 0 : WsaPollFd })
      else match ← get guestFd with
        | .ok socket => pure (false, { fd := socket.rawSocket, events := guestPollEventsToWindows events : WsaPollFd })
        | .error errno => return .error errno
    pushEntry entry (hostPollFds chunks)

/-- The import `poll`. -/
def poll (fdsPtr nfds timeout : Int32) : Import Int32 := do
  let nfds ← match checkedPollCount nfds with
    | .ok nfds => pure nfds
    | .error errno => return negErrno errno
  let bytes ← match ← readGuest fdsPtr (Int32.ofNat (nfds * 8)) with
    | .ok bytes => pure bytes
    | .error errno => return negErrno errno
  let entries ← match ← hostPollFds (chunksExact8 nfds bytes) with
    | .ok entries => pure entries
    | .error errno => return negErrno errno
  let answer ← ws (.wsaPoll (entries.map Prod.snd) timeout)
  if answer.rc = socketError then
    return ← negLastSocketErrno
  let revents := entries.zipIdx.map fun entry =>
    if entry.1.1 then 0 else windowsPollEventsToGuest (answer.revents.getD entry.2 0)
  match ← writeRevents fdsPtr 0 revents with
  | .error errno => return negErrno errno
  | .ok () => return answer.rc

/-- `Drop for HostSocketsInner`, with the entries in the order the table is drained. -/
def dropSockets : List (Int32 × HostSocket) → Prog Net Unit
  | [] => return ()
  | (_, socket) :: rest => do
    let _ ← .cmd (S := Net) (.closesocket socket.rawSocket)
    dropSockets rest

/-- What a call runs. The imports have the names and the arguments they have on Unix. -/
def prog : SocketImport → Import Int32
  | .socket domain ty protocol => socket domain ty protocol
  | .bind fd addrPtr addrLen => bind fd addrPtr addrLen
  | .listen fd backlog => listen fd backlog
  | .accept fd addrPtr addrLenPtr => accept fd addrPtr addrLenPtr
  | .connect fd addrPtr addrLen => connect fd addrPtr addrLen
  | .getsockname fd addrPtr addrLenPtr => getsockname fd addrPtr addrLenPtr
  | .getpeername fd addrPtr addrLenPtr => getpeername fd addrPtr addrLenPtr
  | .setsockopt fd level optname optvalPtr optlen => setsockopt fd level optname optvalPtr optlen
  | .getsockopt fd level optname optvalPtr optlenPtr => getsockopt fd level optname optvalPtr optlenPtr
  | .send fd bufPtr len flags => send fd bufPtr len flags
  | .recv fd bufPtr len flags => recv fd bufPtr len flags
  | .sendto fd bufPtr len flags addrPtr addrLen => sendto fd bufPtr len flags addrPtr addrLen
  | .recvfrom fd bufPtr len flags addrPtr addrLenPtr => recvfrom fd bufPtr len flags addrPtr addrLenPtr
  | .shutdown fd how => shutdown fd how
  | .close fd => close fd
  | .fcntl fd cmd arg => fcntl fd cmd arg
  | .poll fdsPtr nfds timeout => poll fdsPtr nfds timeout

end WasmtimeMysql.Windows
