/-!
# Errno values

The guest is compiled with wasi-libc, whose values are the WASI Preview 1 errno enumeration (`Errno`). Host errno numbers are
platform-specific: on Unix they are libc's (`Libc`, with the Linux and macOS numbers), on Windows they are Win32 error codes and
WinSock codes. `fromHostErrno`, `fromWindowsError` and `socketErrno` translate them to the guest's.
-/

namespace WasmtimeMysql

/-- The errno constants of `guest_errno.rs`. `EOPNOTSUPP` is the same constant as `ENOTSUP`. -/
inductive Errno where
  | e2big | eacces | eaddrinuse | eaddrnotavail | eafnosupport | eagain | ealready | ebadf | ebusy | econnaborted
  | econnrefused | econnreset | edestaddrreq | eexist | efault | efbig | ehostunreach | einprogress | eintr | einval | eio
  | eisconn | eisdir | eloop | emfile | emsgsize | enametoolong | enetdown | enetreset | enetunreach | enfile | enobufs
  | enodev | enoent | enomem | enoprotoopt | enospc | enosys | enotconn | enotdir | enotempty | enotsock | enotsup
  | eoverflow | eperm | epipe | eprotonosupport | eprototype | erange | erofs | espipe | etimedout | enotcapable
  deriving DecidableEq, Repr

/-- The number of an errno constant in the guest's ABI. -/
def Errno.code : Errno → Int32
  | .e2big => 1
  | .eacces => 2
  | .eaddrinuse => 3
  | .eaddrnotavail => 4
  | .eafnosupport => 5
  | .eagain => 6
  | .ealready => 7
  | .ebadf => 8
  | .ebusy => 10
  | .econnaborted => 13
  | .econnrefused => 14
  | .econnreset => 15
  | .edestaddrreq => 17
  | .eexist => 20
  | .efault => 21
  | .efbig => 22
  | .ehostunreach => 23
  | .einprogress => 26
  | .eintr => 27
  | .einval => 28
  | .eio => 29
  | .eisconn => 30
  | .eisdir => 31
  | .eloop => 32
  | .emfile => 33
  | .emsgsize => 35
  | .enametoolong => 37
  | .enetdown => 38
  | .enetreset => 39
  | .enetunreach => 40
  | .enfile => 41
  | .enobufs => 42
  | .enodev => 43
  | .enoent => 44
  | .enomem => 48
  | .enoprotoopt => 50
  | .enospc => 51
  | .enosys => 52
  | .enotconn => 53
  | .enotdir => 54
  | .enotempty => 55
  | .enotsock => 57
  | .enotsup => 58
  | .eoverflow => 61
  | .eperm => 63
  | .epipe => 64
  | .eprotonosupport => 66
  | .eprototype => 67
  | .erange => 68
  | .erofs => 69
  | .espipe => 70
  | .etimedout => 73
  | .enotcapable => 76

/-- `neg_errno`: what an import returns for an error. -/
def negErrno (errno : Errno) : Int32 := -errno.code

theorem Errno.one_le_code (e : Errno) : 1 ≤ e.code := by cases e <;> decide

theorem Errno.code_le (e : Errno) : e.code ≤ 76 := by cases e <;> decide

/-- An error is always a negative value, and negating it gives the errno back. -/
theorem negErrno_lt_zero (e : Errno) : negErrno e < 0 := by cases e <;> decide

theorem neg_negErrno (e : Errno) : -negErrno e = e.code := by cases e <;> decide

theorem toInt_negErrno (e : Errno) : (negErrno e).toInt = -e.code.toInt := by cases e <;> decide

/-! ## Unix: libc's numbers -/

/-- The libc constants the runner is compiled against. `SOCK_CLOEXEC` and `SOCK_NONBLOCK` exist on Linux and Android only
(`sockFlags`). `soError` is the kernel's number for `SO_ERROR`: the runner never names it. -/
structure Libc where
  (e2big eacces eaddrinuse eaddrnotavail eafnosupport eagain ewouldblock ealready ebadf ebusy econnaborted econnrefused
   econnreset edestaddrreq eexist efault efbig ehostunreach einprogress eintr einval eisconn eisdir eloop emfile emsgsize
   enametoolong enetdown enetreset enetunreach enfile enobufs enodev enoent enomem enoprotoopt enospc enosys enotconn
   enotdir enotempty enotsock eopnotsupp enotsup eoverflow eperm epipe eprotonosupport eprototype erange erofs espipe
   etimedout : Int32)
  afInet : Int32
  afInet6 : Int32
  sockStream : Int32
  sockDgram : Int32
  sockFlags : Option (Int32 × Int32)
  solSocket : Int32
  soError : Int32
  oNonblock : Int32
  fdCloexec : Int32

/-- The constants on Linux. -/
def linux : Libc where
  e2big := 7
  eacces := 13
  eaddrinuse := 98
  eaddrnotavail := 99
  eafnosupport := 97
  eagain := 11
  ewouldblock := 11
  ealready := 114
  ebadf := 9
  ebusy := 16
  econnaborted := 103
  econnrefused := 111
  econnreset := 104
  edestaddrreq := 89
  eexist := 17
  efault := 14
  efbig := 27
  ehostunreach := 113
  einprogress := 115
  eintr := 4
  einval := 22
  eisconn := 106
  eisdir := 21
  eloop := 40
  emfile := 24
  emsgsize := 90
  enametoolong := 36
  enetdown := 100
  enetreset := 102
  enetunreach := 101
  enfile := 23
  enobufs := 105
  enodev := 19
  enoent := 2
  enomem := 12
  enoprotoopt := 92
  enospc := 28
  enosys := 38
  enotconn := 107
  enotdir := 20
  enotempty := 39
  enotsock := 88
  eopnotsupp := 95
  enotsup := 95
  eoverflow := 75
  eperm := 1
  epipe := 32
  eprotonosupport := 93
  eprototype := 91
  erange := 34
  erofs := 30
  espipe := 29
  etimedout := 110
  afInet := 2
  afInet6 := 10
  sockStream := 1
  sockDgram := 2
  sockFlags := some (0x80000, 0x800)
  solSocket := 1
  soError := 4
  oNonblock := 0x800
  fdCloexec := 1

/-- The constants on macOS. -/
def macos : Libc where
  e2big := 7
  eacces := 13
  eaddrinuse := 48
  eaddrnotavail := 49
  eafnosupport := 47
  eagain := 35
  ewouldblock := 35
  ealready := 37
  ebadf := 9
  ebusy := 16
  econnaborted := 53
  econnrefused := 61
  econnreset := 54
  edestaddrreq := 39
  eexist := 17
  efault := 14
  efbig := 27
  ehostunreach := 65
  einprogress := 36
  eintr := 4
  einval := 22
  eisconn := 56
  eisdir := 21
  eloop := 62
  emfile := 24
  emsgsize := 40
  enametoolong := 63
  enetdown := 50
  enetreset := 52
  enetunreach := 51
  enfile := 23
  enobufs := 55
  enodev := 19
  enoent := 2
  enomem := 12
  enoprotoopt := 42
  enospc := 28
  enosys := 78
  enotconn := 57
  enotdir := 20
  enotempty := 66
  enotsock := 38
  eopnotsupp := 102
  enotsup := 45
  eoverflow := 84
  eperm := 1
  epipe := 32
  eprotonosupport := 43
  eprototype := 41
  erange := 34
  erofs := 30
  espipe := 29
  etimedout := 60
  afInet := 2
  afInet6 := 30
  sockStream := 1
  sockDgram := 2
  sockFlags := none
  solSocket := 0xffff
  soError := 0x1007
  oNonblock := 4
  fdCloexec := 1

/-- The supported hosts. -/
inductive HostOs where
  | linux
  | macos
  | windows
  deriving DecidableEq, Repr

/-- The comparisons of `from_host_errno`, in the order the chain makes them. -/
def Libc.errnoChain (lc : Libc) : List (Int32 × Errno) :=
  [(lc.e2big, .e2big), (lc.eacces, .eacces), (lc.eaddrinuse, .eaddrinuse), (lc.eaddrnotavail, .eaddrnotavail),
   (lc.eafnosupport, .eafnosupport), (lc.eagain, .eagain), (lc.ewouldblock, .eagain), (lc.ealready, .ealready),
   (lc.ebadf, .ebadf), (lc.ebusy, .ebusy), (lc.econnaborted, .econnaborted), (lc.econnrefused, .econnrefused),
   (lc.econnreset, .econnreset), (lc.edestaddrreq, .edestaddrreq), (lc.eexist, .eexist), (lc.efault, .efault),
   (lc.efbig, .efbig), (lc.ehostunreach, .ehostunreach), (lc.einprogress, .einprogress), (lc.eintr, .eintr),
   (lc.einval, .einval), (lc.eisconn, .eisconn), (lc.eisdir, .eisdir), (lc.eloop, .eloop), (lc.emfile, .emfile),
   (lc.emsgsize, .emsgsize), (lc.enametoolong, .enametoolong), (lc.enetdown, .enetdown), (lc.enetreset, .enetreset),
   (lc.enetunreach, .enetunreach), (lc.enfile, .enfile), (lc.enobufs, .enobufs), (lc.enodev, .enodev),
   (lc.enoent, .enoent), (lc.enomem, .enomem), (lc.enoprotoopt, .enoprotoopt), (lc.enospc, .enospc), (lc.enosys, .enosys),
   (lc.enotconn, .enotconn), (lc.enotdir, .enotdir), (lc.enotempty, .enotempty), (lc.enotsock, .enotsock),
   (lc.eopnotsupp, .enotsup), (lc.enotsup, .enotsup), (lc.eoverflow, .eoverflow), (lc.eperm, .eperm), (lc.epipe, .epipe),
   (lc.eprotonosupport, .eprotonosupport), (lc.eprototype, .eprototype), (lc.erange, .erange), (lc.erofs, .erofs),
   (lc.espipe, .espipe), (lc.etimedout, .etimedout)]

/-- `from_host_errno`: the guest errno of a libc errno. Anything the chain does not name is `EIO`. -/
def fromHostErrno (lc : Libc) (code : Int32) : Errno :=
  match lc.errnoChain.find? (fun row => code == row.1) with
  | some row => row.2
  | none => .eio

/-! ## Windows -/

/-- `from_windows_error`: the guest errno of a Win32 error code. -/
def fromWindowsError (code : Int32) : Errno :=
  if code = 2 ∨ code = 3 then .enoent
  else if code = 5 then .eacces
  else if code = 6 then .ebadf
  else if code = 8 ∨ code = 14 then .enomem
  else if code = 19 then .erofs
  else if code = 32 then .ebusy
  else if code = 33 then .eagain
  else if code = 80 ∨ code = 183 then .eexist
  else if code = 87 then .einval
  else if code = 112 then .enospc
  else if code = 145 then .enotempty
  else if code = 267 then .enotdir
  else if code = 995 then .eintr
  else .eio

/-- The WinSock arms of `socket_errno`: the code of each `WSAE` constant and the guest errno it maps to. -/
def wsaErrnoArms : List (Int32 × Errno) :=
  [(10004, .eintr), (10009, .ebadf), (10013, .eacces), (10014, .efault), (10022, .einval), (10024, .emfile),
   (10035, .eagain), (10036, .einprogress), (10037, .ealready), (10038, .enotsock), (10039, .edestaddrreq),
   (10040, .emsgsize), (10041, .eprototype), (10042, .enoprotoopt), (10043, .eprotonosupport), (10044, .enotsup),
   (10045, .enotsup), (10046, .eafnosupport), (10047, .eafnosupport), (10048, .eaddrinuse), (10049, .eaddrnotavail),
   (10050, .enetdown), (10051, .enetunreach), (10052, .enetreset), (10053, .econnaborted), (10054, .econnreset),
   (10055, .enobufs), (10056, .eisconn), (10057, .enotconn), (10058, .enotconn), (10060, .etimedout),
   (10061, .econnrefused), (10064, .ehostunreach), (10065, .ehostunreach)]

/-- `socket_errno`: the guest number of a WinSock error code. Unlike `from_host_errno` it maps 0 to 0. -/
def socketErrno (code : Int32) : Int32 :=
  if code = 0 then 0
  else match wsaErrnoArms.find? (fun arm => code == arm.1) with
    | some arm => arm.2.code
    | none => Errno.eio.code

/-- Every WinSock code but 0 is an errno of the guest. -/
theorem socketErrno_of_ne_zero {code : Int32} (h : code ≠ 0) : ∃ e : Errno, socketErrno code = e.code := by
  unfold socketErrno
  rw [if_neg h]
  split
  · exact ⟨_, rfl⟩
  · exact ⟨.eio, rfl⟩

end WasmtimeMysql
