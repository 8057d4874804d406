import WasmtimeMysql.Lemmas.Frame
import WasmtimeMysql.Lemmas.Programs

/-!
# The socket imports keep to their output regions

One lemma for each import, on Unix and on Windows: either it issues no write at all, or each of its writes goes to a region its arguments
name (`frames_unix`, `frames_windows`).
-/

namespace WasmtimeMysql

open Effects Bytes

namespace FrameAux

/-- A call to the host writes nothing. -/
theorem noWrite_of_isCall {E U : Type} {Net : Sig} {α : Type} {p : Prog (GuestMem.sum (SocketSig E U Net)) α} (hp : p.Only IsCall) :
    p.Only NoWrite := by
  refine hp.mono fun c hc => ?_
  cases c with
  | inl c => exact hc.elim
  | inr c => trivial

/-- A lookup in the table writes nothing to guest memory, ... -/
theorem noWrite_getSocket {E U : Type} {Net : Sig} (fd : Int32) :
    (getSocket fd : Prog (GuestMem.sum (SocketSig E U Net)) _).Only NoWrite := .bind (noWrite_host _) fun _ => trivial

/-- ... a removal neither, ... -/
theorem noWrite_removeSocket {E U : Type} {Net : Sig} (fd : Int32) :
    (removeSocket fd : Prog (GuestMem.sum (SocketSig E U Net)) _).Only NoWrite := .bind (noWrite_host _) fun _ => trivial

/-- ... nor an insertion. -/
theorem noWrite_insertSocket {E U : Type} {Net : Sig} (x : E) :
    (insertSocket x : Prog (GuestMem.sum (SocketSig E U Net)) _).Only NoWrite := .bind (noWrite_host _) fun _ => trivial

/-! ## The socket imports on Unix -/

section
open Unix
variable (lc : Libc)

/-- A call of libc writes nothing to guest memory by itself. -/
theorem noWrite_libc {c : Unix.Net.Cmd} {α : Type} {k : Unix.Net.Resp c → Import α} (hk : ∀ r, (k r).Only NoWrite) :
    (libc c >>= k).Only NoWrite := .bind (noWrite_host _) hk

/-- The errno of a call is asked for without a write. -/
theorem noWrite_negLastErrno : (negLastErrno lc).Only NoWrite := noWrite_of_isCall (only_negLastErrno lc)

/-- `cvt_i32` writes nothing. -/
theorem noWrite_cvtI32 (rc : Int32) : (cvtI32 lc rc).Only NoWrite := by
  unfold cvtI32
  split
  · exact noWrite_negLastErrno lc
  · trivial

/-- `cvt_ssize` writes nothing. -/
theorem noWrite_cvtSsize (rc : Int64) : (cvtSsize lc rc).Only NoWrite := by
  unfold cvtSsize
  split
  · exact noWrite_negLastErrno lc
  · split <;> trivial

/-- `socket` has no output. -/
theorem noWrite_socket (domain ty protocol : Int32) : (Unix.socket lc domain ty protocol).Only NoWrite := by
  refine .bind (noWrite_host _) ?_
  intro allowed
  split
  · trivial
  · cases normalizeSocketType lc ty with
    | error errno => trivial
    | ok socketType =>
      simp only [Prog.pure_eq, Prog.ret_bind]
      refine noWrite_libc fun rawFd => ?_
      split
      · exact noWrite_negLastErrno lc
      · refine noWrite_try (noWrite_of_isCall (only_configureSocketTypeFlags lc _ _)) ?_ ?_
        · exact fun _ => noWrite_libc fun _ => trivial
        · exact fun _ => noWrite_insertSocket _

/-- `bind` only reads its address. -/
theorem noWrite_bind (fd addrPtr addrLen : Int32) : (Unix.bind lc fd addrPtr addrLen).Only NoWrite := by
  refine noWrite_try (noWrite_getSocket fd) (fun _ => trivial) fun socket => ?_
  refine noWrite_try (noWrite_readGuest addrPtr addrLen) (fun _ => trivial) fun addr => ?_
  exact noWrite_libc fun rc => noWrite_cvtI32 lc rc

/-- `listen` has no output. -/
theorem noWrite_listen (fd backlog : Int32) : (Unix.listen lc fd backlog).Only NoWrite := by
  refine noWrite_try (noWrite_getSocket fd) (fun _ => trivial) fun socket => ?_
  exact noWrite_libc fun rc => noWrite_cvtI32 lc rc

/-- `connect` only reads its address. -/
theorem noWrite_connect (fd addrPtr addrLen : Int32) : (Unix.connect lc fd addrPtr addrLen).Only NoWrite := by
  refine noWrite_try (noWrite_getSocket fd) (fun _ => trivial) fun socket => ?_
  refine noWrite_try (noWrite_readGuest addrPtr addrLen) (fun _ => trivial) fun addr => ?_
  exact noWrite_libc fun rc => noWrite_cvtI32 lc rc

/-- `setsockopt` only reads its value. -/
theorem noWrite_setsockopt (fd level optname optvalPtr optlen : Int32) :
    (Unix.setsockopt lc fd level optname optvalPtr optlen).Only NoWrite := by
  refine noWrite_try (noWrite_getSocket fd) (fun _ => trivial) fun socket => ?_
  refine noWrite_try (noWrite_readGuest optvalPtr optlen) (fun _ => trivial) fun optval => ?_
  exact noWrite_libc fun rc => noWrite_cvtI32 lc rc

/-- `send` only reads its buffer. -/
theorem noWrite_send (fd bufPtr len flags : Int32) : (Unix.send lc fd bufPtr len flags).Only NoWrite := by
  refine noWrite_try (noWrite_getSocket fd) (fun _ => trivial) fun socket => ?_
  refine noWrite_try (noWrite_readGuest bufPtr len) (fun _ => trivial) fun buf => ?_
  exact noWrite_libc fun rc => noWrite_cvtSsize lc rc

/-- `sendto` only reads its buffer and its address. -/
theorem noWrite_sendto (fd bufPtr len flags addrPtr addrLen : Int32) :
    (Unix.sendto lc fd bufPtr len flags addrPtr addrLen).Only NoWrite := by
  refine noWrite_try (noWrite_getSocket fd) (fun _ => trivial) fun socket => ?_
  refine noWrite_try (noWrite_readGuest bufPtr len) (fun _ => trivial) fun buf => ?_
  refine noWrite_try (noWrite_readGuest addrPtr addrLen) (fun _ => trivial) fun addr => ?_
  exact noWrite_libc fun rc => noWrite_cvtSsize lc rc

/-- `shutdown` has no output. -/
theorem noWrite_shutdown (fd how : Int32) : (Unix.shutdown lc fd how).Only NoWrite := by
  refine noWrite_try (noWrite_getSocket fd) (fun _ => trivial) fun socket => ?_
  exact noWrite_libc fun rc => noWrite_cvtI32 lc rc

/-- `close` has no output. -/
theorem noWrite_close (fd : Int32) : (Unix.close lc fd).Only NoWrite := by
  refine noWrite_try (noWrite_removeSocket fd) (fun _ => trivial) fun socket => ?_
  exact noWrite_libc fun rc => noWrite_cvtI32 lc rc

/-- `fcntl` answers with its result alone. -/
theorem noWrite_fcntl (fd cmd arg : Int32) : (Unix.fcntl lc fd cmd arg).Only NoWrite := by
  refine noWrite_try (noWrite_getSocket fd) (fun _ => trivial) fun socket => ?_
  simp only [Prog.pure_eq, Prog.ret_bind]
  unfold socketFcntl
  split
  · refine noWrite_libc fun flags => ?_
    split
    · exact noWrite_negLastErrno lc
    · split <;> trivial
  · split
    · refine noWrite_libc fun flags => ?_
      split
      · exact noWrite_negLastErrno lc
      · exact noWrite_libc fun rc => noWrite_cvtI32 lc rc
    · trivial

/-- Each entry of the guest's is one entry of the host's. -/
theorem frames_hostPollFds {e : Export} {out : List Region} (chunks : List (List UInt8))
    {Q : Except Errno (List PollFd) → Bool → Prop} (herr : ∀ errno, Q (.error errno) false)
    (hok : ∀ fds : List PollFd, fds.length = chunks.length → Q (.ok fds) false) :
    (Unix.hostPollFds chunks).Obeys (framing _ e out) Q false := by
  induction chunks generalizing Q with
  | nil => exact hok [] rfl
  | cons chunk chunks ih =>
    have hrest (raw : Int32) :
        (Unix.pushEntry ⟨raw, (guestPollFd chunk).2⟩ (Unix.hostPollFds chunks)).Obeys (framing _ e out) Q false := by
      refine Prog.obeys_bind.mpr (ih ?_ ?_)
      · intro errno
        exact herr errno
      · intro fds hfds
        exact hok _ (congrArg (· + 1) hfds)
    unfold Unix.hostPollFds
    by_cases hneg : (guestPollFd chunk).1 < 0
    · simp only [hneg, if_true, Prog.pure_eq, Prog.ret_bind]
      exact hrest (guestPollFd chunk).1
    · simp only [hneg, if_false]
      refine Prog.obeys_bind.mpr (frames_noWrite (noWrite_getSocket _) ?_)
      intro found
      cases found with
      | error errno => exact herr errno
      | ok socket => exact hrest socket.rawFd

variable {e : Export}

/-- A call of libc leaves guest memory to its caller. -/
theorem frames_libc {out : List Region} {wrote : Bool} {c : Unix.Net.Cmd} {Q : Unix.Net.Resp c → Bool → Prop}
    (h : ∀ answer, Q answer wrote) : (libc c).Obeys (framing _ e out) Q wrote := frames_host h

/-- `accept` writes the address and its length, and nothing else. -/
theorem frames_accept (fd addrPtr addrLenPtr : Int32) :
    Frames e (writeBackRegions e addrPtr addrLenPtr) (Unix.accept lc fd addrPtr addrLenPtr) := by
  refine frames_try (noWrite_getSocket fd) (fun _ => trivial) fun socket => ?_
  simp only [Prog.pure_eq, Prog.ret_bind]
  refine frames_lengthWord (fun _ => trivial) fun addrLen hword => ?_
  refine Prog.obeys_bind.mpr (frames_alloc ?_)
  refine Prog.obeys_bind.mpr (frames_libc fun accepted => ?_)
  split
  · exact frames_noWrite (noWrite_negLastErrno lc) fun _ => trivial
  · refine Prog.obeys_bind.mpr (frames_sliceTo fun reported hle => ?_)
    rw [denormalizeSockaddrForGuest, length_writeSockaddrFamily, length_fill, ← hword] at hle
    refine Prog.obeys_bind.mpr (frames_writeGuest (.buffer (fun _ hr => hr) hle) fun answer => ?_)
    cases answer with
    | error errno => exact Prog.obeys_bind.mpr (frames_libc fun _ => trivial)
    | ok _ =>
      refine Prog.obeys_bind.mpr (frames_writeU32 (.word fun _ hr => hr) fun answer => ?_)
      cases answer with
      | error errno => exact Prog.obeys_bind.mpr (frames_libc fun _ => trivial)
      | ok _ => exact Prog.obeys_bind.mpr (frames_host fun _ => trivial)

/-- Either of the calls that ask for a name leaves guest memory alone. -/
theorem frames_callName {out : List Region} {wrote : Bool} {kind : NameKind} {rawFd : Int32} {addrLen : UInt32}
    {Q : BufAnswer → Bool → Prop} (h : ∀ answer, Q answer wrote) : (callName kind rawFd addrLen).Obeys (framing _ e out) Q wrote := by
  cases kind with
  | localName => exact frames_libc h
  | peer => exact frames_libc h

/-- `getsockname` and `getpeername` write the address and its length. -/
theorem frames_sockName (fd addrPtr addrLenPtr : Int32) (kind : NameKind) :
    Frames e (writeBackRegions e addrPtr addrLenPtr) (Unix.sockName lc fd addrPtr addrLenPtr kind) := by
  refine frames_try (noWrite_getSocket fd) (fun _ => trivial) fun socket => ?_
  simp only [Prog.pure_eq, Prog.ret_bind]
  refine frames_lengthWord (fun _ => trivial) fun addrLen hword => ?_
  refine Prog.obeys_bind.mpr (frames_alloc ?_)
  refine Prog.obeys_bind.mpr (frames_callName fun name => ?_)
  split
  · exact frames_noWrite (noWrite_negLastErrno lc) fun _ => trivial
  · refine Prog.obeys_bind.mpr (frames_sliceTo fun reported hle => ?_)
    rw [denormalizeSockaddrForGuest, length_writeSockaddrFamily, length_fill, ← hword] at hle
    refine Prog.obeys_bind.mpr (frames_writeGuest (.buffer (fun _ hr => hr) hle) fun answer => ?_)
    cases answer with
    | error errno => trivial
    | ok _ =>
      refine Prog.obeys_bind.mpr (frames_writeU32 (.word fun _ hr => hr) fun answer => ?_)
      cases answer <;> trivial

/-- A translated error takes as many bytes as the host's. -/
theorem length_translateSoError {optval : List UInt8} (h : 4 ≤ optval.length) : (translateSoError lc optval).length = optval.length := by
  rw [translateSoError, length_overwrite (by rw [length_leBytes]; omega)]

/-- The end of `getsockopt`: the option, cut to the length the host stored, and that length. -/
theorem frames_reportOption {optvalPtr optlenPtr : Int32} {optval : List UInt8} {len : UInt32}
    (hle : optval.length ≤ e.lengthWord optlenPtr) :
    (do
      let reported ← sliceTo optval len.toNat
      match ← writeGuest optvalPtr reported with
      | .error errno => return negErrno errno
      | .ok () =>
        match ← writeU32 optlenPtr len with
        | .ok () => return 0
        | .error errno => return negErrno errno : Import Int32).Obeys
      (framing _ e (writeBackRegions e optvalPtr optlenPtr)) (fun _ _ => True) false := by
  refine Prog.obeys_bind.mpr (frames_sliceTo fun reported hreported => ?_)
  refine Prog.obeys_bind.mpr (frames_writeGuest (.buffer (fun _ hr => hr) (hreported.trans hle)) fun answer => ?_)
  cases answer with
  | error errno => trivial
  | ok _ =>
    refine Prog.obeys_bind.mpr (frames_writeU32 (.word fun _ hr => hr) fun answer => ?_)
    cases answer <;> trivial

/-- `getsockopt` writes the option and its length. -/
theorem frames_getsockopt (fd level optname optvalPtr optlenPtr : Int32) :
    Frames e (writeBackRegions e optvalPtr optlenPtr) (Unix.getsockopt lc fd level optname optvalPtr optlenPtr) := by
  refine frames_try (noWrite_getSocket fd) (fun _ => trivial) fun socket => ?_
  simp only [Prog.pure_eq, Prog.ret_bind]
  refine frames_lengthWord (fun _ => trivial) fun optlen hword => ?_
  refine Prog.obeys_bind.mpr (frames_alloc ?_)
  refine Prog.obeys_bind.mpr (frames_libc fun answer => ?_)
  split
  · exact frames_noWrite (noWrite_negLastErrno lc) fun _ => trivial
  · have hfill : (fill optlen.toNat answer.data).length = e.lengthWord optlenPtr := by rw [length_fill, hword]
    split
    · unfold sliceTo
      split
      · rename_i h4
        exact frames_reportOption (by rw [length_translateSoError lc h4, hfill])
      · trivial
    · exact frames_reportOption (Nat.le_of_eq hfill)

/-- `recv` writes to its buffer only. -/
theorem frames_recv (fd bufPtr len flags : Int32) :
    Frames e (regionAt bufPtr len.toNatClampNeg) (Unix.recv lc fd bufPtr len flags) := by
  refine frames_try (noWrite_getSocket fd) (fun _ => trivial) fun socket => ?_
  simp only [Prog.pure_eq, Prog.ret_bind]
  cases hlen : checkedLen len with
  | error errno => trivial
  | ok n =>
    have hn := eq_of_checkedLen hlen
    refine Prog.obeys_bind.mpr (frames_alloc ?_)
    refine Prog.obeys_bind.mpr (frames_libc fun answer => ?_)
    split
    · exact frames_noWrite (noWrite_negLastErrno lc) fun _ => trivial
    · refine Prog.obeys_bind.mpr (frames_sliceTo fun received hle => ?_)
      rw [length_fill, hn] at hle
      refine Prog.obeys_bind.mpr (frames_writeGuest (.of_regionAt (fun _ hr => hr) hle) fun answer => ?_)
      cases answer <;> trivial

/-- `recvfrom` writes to its buffer, the address and its length. -/
theorem frames_recvfrom (fd bufPtr len flags addrPtr addrLenPtr : Int32) :
    Frames e (regionAt bufPtr len.toNatClampNeg ++ writeBackRegions e addrPtr addrLenPtr)
      (Unix.recvfrom lc fd bufPtr len flags addrPtr addrLenPtr) := by
  refine frames_try (noWrite_getSocket fd) (fun _ => trivial) fun socket => ?_
  simp only [Prog.pure_eq, Prog.ret_bind]
  cases hlen : checkedLen len with
  | error errno => trivial
  | ok n =>
    have hn := eq_of_checkedLen hlen
    refine frames_lengthWord (fun _ => trivial) fun addrLen hword => ?_
    refine Prog.obeys_bind.mpr (frames_alloc ?_)
    refine Prog.obeys_bind.mpr (frames_alloc ?_)
    refine Prog.obeys_bind.mpr (frames_libc fun answer => ?_)
    split
    · exact frames_noWrite (noWrite_negLastErrno lc) fun _ => trivial
    · refine Prog.obeys_bind.mpr (frames_sliceTo fun received hle => ?_)
      rw [length_fill, hn] at hle
      refine Prog.obeys_bind.mpr (frames_writeGuest (.of_regionAt (fun _ hr => List.mem_append_left _ hr) hle) fun written => ?_)
      cases written with
      | error errno => trivial
      | ok _ =>
        refine Prog.obeys_bind.mpr (frames_sliceTo fun reported haddr => ?_)
        rw [denormalizeSockaddrForGuest, length_writeSockaddrFamily, length_fill, ← hword] at haddr
        refine Prog.obeys_bind.mpr (frames_writeGuest (.buffer (fun _ hr => List.mem_append_right _ hr) haddr) fun written => ?_)
        cases written with
        | error errno => trivial
        | ok _ =>
          refine Prog.obeys_bind.mpr (frames_writeU32 (.word fun _ hr => List.mem_append_right _ hr) fun written => ?_)
          cases written <;> trivial

/-- `poll` writes the `revents` of the entries, and leaves the rest of them. -/
theorem frames_poll (fdsPtr nfds timeout : Int32) : Frames e (reventsRegions fdsPtr nfds) (Unix.poll lc fdsPtr nfds timeout) := by
  unfold Frames Unix.poll
  simp only [Prog.pure_eq, Prog.ret_bind]
  cases hcount : checkedPollCount nfds with
  | error errno => trivial
  | ok n =>
    obtain ⟨hn, hmax⟩ := eq_of_checkedPollCount hcount
    refine Prog.obeys_bind.mpr (frames_readGuest ?_)
    cases hread : e.readGuest fdsPtr (Int32.ofNat (n * 8)) with
    | error errno => trivial
    | ok bytes =>
      -- the entries were read, so their address is not negative
      obtain ⟨-, start, -, hstart, -⟩ := Export.readGuest_ok hread
      refine Prog.obeys_bind.mpr (frames_hostPollFds _ (fun _ => trivial) fun hostFds hlength => ?_)
      rw [length_chunksExact8] at hlength
      refine Prog.obeys_bind.mpr (frames_libc fun answer => ?_)
      split
      · exact frames_noWrite (noWrite_negLastErrno lc) fun _ => trivial
      · refine Prog.obeys_bind.mpr (frames_writeRevents hstart (by omega) _ ?_ fun written _ => ?_)
        · rw [List.length_map, List.length_zipIdx]
          omega
        · cases written <;> trivial

/-- Every import writes to its outputs only. -/
theorem frames_unix (c : SocketImport) : Frames e (c.outputs e) (Unix.prog lc c) := by
  cases c with
  | socket domain ty protocol => exact .of_noWrite (noWrite_socket lc domain ty protocol)
  | bind fd addrPtr addrLen => exact .of_noWrite (noWrite_bind lc fd addrPtr addrLen)
  | listen fd backlog => exact .of_noWrite (noWrite_listen lc fd backlog)
  | accept fd addrPtr addrLenPtr => exact frames_accept lc fd addrPtr addrLenPtr
  | connect fd addrPtr addrLen => exact .of_noWrite (noWrite_connect lc fd addrPtr addrLen)
  | getsockname fd addrPtr addrLenPtr => exact frames_sockName lc fd addrPtr addrLenPtr .localName
  | getpeername fd addrPtr addrLenPtr => exact frames_sockName lc fd addrPtr addrLenPtr .peer
  | setsockopt fd level optname optvalPtr optlen => exact .of_noWrite (noWrite_setsockopt lc fd level optname optvalPtr optlen)
  | getsockopt fd level optname optvalPtr optlenPtr => exact frames_getsockopt lc fd level optname optvalPtr optlenPtr
  | send fd bufPtr len flags => exact .of_noWrite (noWrite_send lc fd bufPtr len flags)
  | recv fd bufPtr len flags => exact frames_recv lc fd bufPtr len flags
  | sendto fd bufPtr len flags addrPtr addrLen => exact .of_noWrite (noWrite_sendto lc fd bufPtr len flags addrPtr addrLen)
  | recvfrom fd bufPtr len flags addrPtr addrLenPtr => exact frames_recvfrom lc fd bufPtr len flags addrPtr addrLenPtr
  | shutdown fd how => exact .of_noWrite (noWrite_shutdown lc fd how)
  | close fd => exact .of_noWrite (noWrite_close lc fd)
  | fcntl fd cmd arg => exact .of_noWrite (noWrite_fcntl lc fd cmd arg)
  | poll fdsPtr nfds timeout => exact frames_poll lc fdsPtr nfds timeout

end

end FrameAux

/-! ## The socket imports on Windows -/

namespace WindowsFrameAux

open Windows FrameAux

/-- A call of WinSock writes nothing to guest memory by itself. -/
theorem noWrite_ws {c : Windows.Net.Cmd} {α : Type} {k : Windows.Net.Resp c → Import α} (hk : ∀ r, (k r).Only NoWrite) :
    (ws c >>= k).Only NoWrite := .bind (noWrite_host _) hk

/-- The error of a call is asked for without a write. -/
theorem noWrite_negLastSocketErrno : negLastSocketErrno.Only NoWrite := noWrite_of_isCall only_negLastSocketErrno

/-- `cvt_socket_i32` writes nothing. -/
theorem noWrite_cvtSocketI32 (rc : Int32) : (cvtSocketI32 rc).Only NoWrite := by
  unfold cvtSocketI32
  split
  · exact noWrite_negLastSocketErrno
  · trivial

/-- `socket` has no output. -/
theorem noWrite_socket (domain ty protocol : Int32) : (Windows.socket domain ty protocol).Only NoWrite := by
  refine .bind (noWrite_host _) ?_
  intro allowed
  split
  · trivial
  · refine .bind (noWrite_of_isCall only_ensureWinsock) ?_
    intro started
    cases started with
    | error errno => trivial
    | ok _ =>
      simp only
      cases normalizeSocketType ty with
      | error errno => trivial
      | ok socketType =>
        simp only [Prog.pure_eq, Prog.ret_bind]
        refine noWrite_ws fun rawSocket => ?_
        split
        · exact noWrite_negLastSocketErrno
        · split
          · refine noWrite_ws fun rc => ?_
            split
            · exact noWrite_ws fun _ => noWrite_negLastSocketErrno
            · exact noWrite_insertSocket _
          · exact noWrite_insertSocket _

/-- `bind` only reads its address. -/
theorem noWrite_bind (fd addrPtr addrLen : Int32) : (Windows.bind fd addrPtr addrLen).Only NoWrite := by
  refine noWrite_try (noWrite_getSocket fd) (fun _ => trivial) fun socket => ?_
  refine noWrite_try (noWrite_readGuest addrPtr addrLen) (fun _ => trivial) fun addr => ?_
  exact noWrite_ws fun rc => noWrite_cvtSocketI32 rc

/-- `listen` has no output. -/
theorem noWrite_listen (fd backlog : Int32) : (Windows.listen fd backlog).Only NoWrite := by
  refine noWrite_try (noWrite_getSocket fd) (fun _ => trivial) fun socket => ?_
  exact noWrite_ws fun rc => noWrite_cvtSocketI32 rc

/-- `connect` only reads its address. -/
theorem noWrite_connect (fd addrPtr addrLen : Int32) : (Windows.connect fd addrPtr addrLen).Only NoWrite := by
  refine noWrite_try (noWrite_getSocket fd) (fun _ => trivial) fun socket => ?_
  refine noWrite_try (noWrite_readGuest addrPtr addrLen) (fun _ => trivial) fun addr => ?_
  exact noWrite_ws fun rc => noWrite_cvtSocketI32 rc

/-- `setsockopt` only reads its value. -/
theorem noWrite_setsockopt (fd level optname optvalPtr optlen : Int32) :
    (Windows.setsockopt fd level optname optvalPtr optlen).Only NoWrite := by
  refine noWrite_try (noWrite_getSocket fd) (fun _ => trivial) fun socket => ?_
  refine noWrite_try (noWrite_readGuest optvalPtr optlen) (fun _ => trivial) fun optval => ?_
  exact noWrite_ws fun rc => noWrite_cvtSocketI32 rc

/-- `send` only reads its buffer. -/
theorem noWrite_send (fd bufPtr len flags : Int32) : (Windows.send fd bufPtr len flags).Only NoWrite := by
  refine noWrite_try (noWrite_getSocket fd) (fun _ => trivial) fun socket => ?_
  refine noWrite_try (noWrite_readGuest bufPtr len) (fun _ => trivial) fun buf => ?_
  exact noWrite_ws fun rc => noWrite_cvtSocketI32 rc

/-- `sendto` only reads its buffer and its address. -/
theorem noWrite_sendto (fd bufPtr len flags addrPtr addrLen : Int32) :
    (Windows.sendto fd bufPtr len flags addrPtr addrLen).Only NoWrite := by
  refine noWrite_try (noWrite_getSocket fd) (fun _ => trivial) fun socket => ?_
  refine noWrite_try (noWrite_readGuest bufPtr len) (fun _ => trivial) fun buf => ?_
  refine noWrite_try (noWrite_readGuest addrPtr addrLen) (fun _ => trivial) fun addr => ?_
  exact noWrite_ws fun rc => noWrite_cvtSocketI32 rc

/-- `shutdown` has no output. -/
theorem noWrite_shutdown (fd how : Int32) : (Windows.shutdown fd how).Only NoWrite := by
  refine noWrite_try (noWrite_getSocket fd) (fun _ => trivial) fun socket => ?_
  exact noWrite_ws fun rc => noWrite_cvtSocketI32 rc

/-- `close` has no output. -/
theorem noWrite_close (fd : Int32) : (Windows.close fd).Only NoWrite := by
  refine noWrite_try (noWrite_removeSocket fd) (fun _ => trivial) fun socket => ?_
  exact noWrite_ws fun rc => noWrite_cvtSocketI32 rc

/-- `fcntl` answers with its result alone. -/
theorem noWrite_fcntl (fd cmd arg : Int32) : (Windows.fcntl fd cmd arg).Only NoWrite := by
  refine noWrite_try (noWrite_getSocket fd) (fun _ => trivial) fun socket => ?_
  simp only [Prog.pure_eq, Prog.ret_bind]
  split
  · trivial
  · split
    · refine noWrite_ws fun rc => ?_
      split
      · exact noWrite_negLastSocketErrno
      · exact noWrite_try (.bind (noWrite_host _) fun _ => trivial) (fun _ => trivial) fun _ => trivial
    · trivial

section
variable {e : Export} {out : List Region}

/-- A call of WinSock leaves guest memory to its caller. -/
theorem frames_ws {wrote : Bool} {c : Windows.Net.Cmd} {Q : Windows.Net.Resp c → Bool → Prop} (h : ∀ answer, Q answer wrote) :
    (ws c).Obeys (framing _ e out) Q wrote := frames_host h

/-- A length that is accepted is the length word's. -/
theorem eq_of_checkedSockaddrLen {value : UInt32} {n : Nat} (h : checkedSockaddrLen value = .ok n) : n = value.toNat := by
  unfold checkedSockaddrLen i32TryFromUsize at h
  split at h
  · cases h
  · rename_i len hlen
    split at hlen
    · rename_i hlt
      cases hlen
      rw [checkedLen_ofNat hlt] at h
      split at h
      · cases h
      · cases h
        rfl
    · cases hlen

/-- The length word is read from the memory on entry. -/
theorem frames_sockaddrLen {β : Type} {lenPtr : Int32} {k : Except Errno Nat → Import β} {Q : β → Bool → Prop}
    (herr : ∀ errno, (k (.error errno)).Obeys (framing _ e out) Q false)
    (hok : ∀ len, e.lengthWord lenPtr = len → (k (.ok len)).Obeys (framing _ e out) Q false) :
    (readSockaddrLen lenPtr >>= k).Obeys (framing _ e out) Q false := by
  unfold readSockaddrLen
  rw [bind_assoc]
  refine frames_lengthWord (fun errno => herr errno) fun value hword => ?_
  cases hlen : checkedSockaddrLen value with
  | error errno =>
    simp only [Prog.pure_eq, Prog.ret_bind, hlen]
    exact herr errno
  | ok len =>
    simp only [Prog.pure_eq, Prog.ret_bind, hlen]
    exact hok len (by rw [hword, eq_of_checkedSockaddrLen hlen])

/-- `accept` writes the address and its length, and nothing else. -/
theorem frames_accept (fd addrPtr addrLenPtr : Int32) :
    Frames e (writeBackRegions e addrPtr addrLenPtr) (Windows.accept fd addrPtr addrLenPtr) := by
  refine frames_try (noWrite_getSocket fd) (fun _ => trivial) fun socket => ?_
  simp only [Prog.pure_eq, Prog.ret_bind]
  refine frames_sockaddrLen (fun _ => trivial) fun requestedLen hword => ?_
  refine Prog.obeys_bind.mpr (frames_alloc ?_)
  refine Prog.obeys_bind.mpr (frames_ws fun answer => ?_)
  split
  · exact frames_noWrite noWrite_negLastSocketErrno fun _ => trivial
  · split
    · exact Prog.obeys_bind.mpr (frames_ws fun _ => trivial)
    · refine Prog.obeys_bind.mpr (frames_sliceTo fun reported hle => ?_)
      rw [denormalizeSockaddrForGuest, length_writeSockaddrFamily, length_fill, ← hword] at hle
      refine Prog.obeys_bind.mpr (frames_writeGuest (.buffer (fun _ hr => hr) hle) fun written => ?_)
      cases written with
      | error errno => exact Prog.obeys_bind.mpr (frames_ws fun _ => trivial)
      | ok _ =>
        refine Prog.obeys_bind.mpr (frames_writeU32 (.word fun _ hr => hr) fun written => ?_)
        cases written with
        | error errno => exact Prog.obeys_bind.mpr (frames_ws fun _ => trivial)
        | ok _ => exact Prog.obeys_bind.mpr (frames_host fun _ => trivial)

/-- Either of the calls that ask for a name leaves guest memory alone. -/
theorem frames_callName {wrote : Bool} {kind : NameKind} {rawSocket : Socket} {addrLen : Int32} {Q : BufAnswer → Bool → Prop}
    (h : ∀ answer, Q answer wrote) : (callName kind rawSocket addrLen).Obeys (framing _ e out) Q wrote := by
  cases kind with
  | localName => exact frames_ws h
  | peer => exact frames_ws h

/-- `getsockname` and `getpeername` write the address and its length. -/
theorem frames_socketName (fd addrPtr addrLenPtr : Int32) (kind : NameKind) :
    Frames e (writeBackRegions e addrPtr addrLenPtr) (Windows.socketName fd addrPtr addrLenPtr kind) := by
  refine frames_try (noWrite_getSocket fd) (fun _ => trivial) fun socket => ?_
  simp only [Prog.pure_eq, Prog.ret_bind]
  refine frames_sockaddrLen (fun _ => trivial) fun requestedLen hword => ?_
  refine Prog.obeys_bind.mpr (frames_alloc ?_)
  refine Prog.obeys_bind.mpr (frames_callName fun answer => ?_)
  split
  · exact frames_noWrite noWrite_negLastSocketErrno fun _ => trivial
  · split
    · trivial
    · refine Prog.obeys_bind.mpr (frames_sliceTo fun reported hle => ?_)
      rw [denormalizeSockaddrForGuest, length_writeSockaddrFamily, length_fill, ← hword] at hle
      refine Prog.obeys_bind.mpr (frames_writeGuest (.buffer (fun _ hr => hr) hle) fun written => ?_)
      cases written with
      | error errno => trivial
      | ok _ =>
        refine Prog.obeys_bind.mpr (frames_writeU32 (.word fun _ hr => hr) fun written => ?_)
        cases written <;> trivial

/-- `getsockopt` writes the option and its length. -/
theorem frames_getsockopt (fd level optname optvalPtr optlenPtr : Int32) :
    Frames e (writeBackRegions e optvalPtr optlenPtr) (Windows.getsockopt fd level optname optvalPtr optlenPtr) := by
  refine frames_try (noWrite_getSocket fd) (fun _ => trivial) fun socket => ?_
  simp only [Prog.pure_eq, Prog.ret_bind]
  refine frames_sockaddrLen (fun _ => trivial) fun requestedLen hword => ?_
  simp only
  -- how long the host's own buffer is does not matter
  generalize (if isGuestTimeout level optname then 4 else requestedLen) = bufLen
  refine Prog.obeys_bind.mpr (frames_alloc ?_)
  refine Prog.obeys_bind.mpr (frames_ws fun answer => ?_)
  split
  · exact frames_noWrite noWrite_negLastSocketErrno fun _ => trivial
  · split
    · trivial
    · refine Prog.obeys_bind.mpr (frames_sliceTo fun optval _ => ?_)
      -- the value may have grown in translation, but it is cut to the guest's length
      have hcut : ((guestOption level optname requestedLen optval).take requestedLen).length ≤ e.lengthWord optlenPtr := by
        rw [hword, List.length_take]
        exact Nat.min_le_left _ _
      refine Prog.obeys_bind.mpr (frames_writeGuest (.buffer (fun _ hr => hr) hcut) fun written => ?_)
      cases written with
      | error errno => trivial
      | ok _ =>
        refine Prog.obeys_bind.mpr (frames_writeU32 (.word fun _ hr => hr) fun written => ?_)
        cases written <;> trivial

/-- `recv` writes to its buffer only. -/
theorem frames_recv (fd bufPtr len flags : Int32) :
    Frames e (regionAt bufPtr len.toNatClampNeg) (Windows.recv fd bufPtr len flags) := by
  refine frames_try (noWrite_getSocket fd) (fun _ => trivial) fun socket => ?_
  simp only [Prog.pure_eq, Prog.ret_bind]
  cases hlen : checkedLen len with
  | error errno => trivial
  | ok n =>
    have hn := eq_of_checkedLen hlen
    refine Prog.obeys_bind.mpr (frames_alloc ?_)
    refine Prog.obeys_bind.mpr (frames_ws fun answer => ?_)
    split
    · exact frames_noWrite noWrite_negLastSocketErrno fun _ => trivial
    · refine Prog.obeys_bind.mpr (frames_sliceTo fun received hle => ?_)
      rw [length_fill, hn] at hle
      refine Prog.obeys_bind.mpr (frames_writeGuest (.of_regionAt (fun _ hr => hr) hle) fun written => ?_)
      cases written <;> trivial

/-- `recvfrom` writes to its buffer, the address and its length. -/
theorem frames_recvfrom (fd bufPtr len flags addrPtr addrLenPtr : Int32) :
    Frames e (regionAt bufPtr len.toNatClampNeg ++ writeBackRegions e addrPtr addrLenPtr)
      (Windows.recvfrom fd bufPtr len flags addrPtr addrLenPtr) := by
  refine frames_try (noWrite_getSocket fd) (fun _ => trivial) fun socket => ?_
  simp only [Prog.pure_eq, Prog.ret_bind]
  cases hlen : checkedLen len with
  | error errno => trivial
  | ok n =>
    have hn := eq_of_checkedLen hlen
    refine frames_sockaddrLen (fun _ => trivial) fun requestedAddrLen hword => ?_
    refine Prog.obeys_bind.mpr (frames_alloc ?_)
    refine Prog.obeys_bind.mpr (frames_alloc ?_)
    refine Prog.obeys_bind.mpr (frames_ws fun answer => ?_)
    split
    · exact frames_noWrite noWrite_negLastSocketErrno fun _ => trivial
    · split
      · trivial
      · refine Prog.obeys_bind.mpr (frames_sliceTo fun received hle => ?_)
        rw [length_fill, hn] at hle
        refine Prog.obeys_bind.mpr (frames_writeGuest (.of_regionAt (fun _ hr => List.mem_append_left _ hr) hle) fun written => ?_)
        cases written with
        | error errno => trivial
        | ok _ =>
          refine Prog.obeys_bind.mpr (frames_sliceTo fun reported haddr => ?_)
          rw [denormalizeSockaddrForGuest, length_writeSockaddrFamily, length_fill, ← hword] at haddr
          refine Prog.obeys_bind.mpr (frames_writeGuest (.buffer (fun _ hr => List.mem_append_right _ hr) haddr) fun written => ?_)
          cases written with
          | error errno => trivial
          | ok _ =>
            refine Prog.obeys_bind.mpr (frames_writeU32 (.word fun _ hr => List.mem_append_right _ hr) fun written => ?_)
            cases written <;> trivial

/-- Each entry of the guest's is one entry of the host's. -/
theorem frames_hostPollFds (chunks : List (List UInt8)) {Q : Except Errno (List (Bool × WsaPollFd)) → Bool → Prop}
    (herr : ∀ errno, Q (.error errno) false)
    (hok : ∀ entries : List (Bool × WsaPollFd), entries.length = chunks.length → Q (.ok entries) false) :
    (Windows.hostPollFds chunks).Obeys (framing _ e out) Q false := by
  induction chunks generalizing Q with
  | nil => exact hok [] rfl
  | cons chunk chunks ih =>
    have hrest (entry : Bool × WsaPollFd) : (Windows.pushEntry entry (Windows.hostPollFds chunks)).Obeys (framing _ e out) Q false := by
      refine Prog.obeys_bind.mpr (ih ?_ ?_)
      · intro errno
        exact herr errno
      · intro entries hentries
        exact hok _ (congrArg (· + 1) hentries)
    unfold Windows.hostPollFds
    by_cases hneg : (guestPollFd chunk).1 < 0
    · simp only [hneg, if_true, Prog.pure_eq, Prog.ret_bind]
      exact hrest (true, ⟨Windows.invalidSocket, 0⟩)
    · simp only [hneg, if_false]
      refine Prog.obeys_bind.mpr (frames_noWrite (noWrite_getSocket _) ?_)
      intro found
      cases found with
      | error errno => exact herr errno
      | ok socket => exact hrest (false, ⟨socket.rawSocket, Windows.guestPollEventsToWindows (guestPollFd chunk).2⟩)

/-- `poll` writes the `revents` of the entries, and leaves the rest of them. -/
theorem frames_poll (fdsPtr nfds timeout : Int32) : Frames e (reventsRegions fdsPtr nfds) (Windows.poll fdsPtr nfds timeout) := by
  unfold Frames Windows.poll
  simp only [Prog.pure_eq, Prog.ret_bind]
  cases hcount : checkedPollCount nfds with
  | error errno => trivial
  | ok n =>
    obtain ⟨hn, hmax⟩ := eq_of_checkedPollCount hcount
    refine Prog.obeys_bind.mpr (frames_readGuest ?_)
    cases hread : e.readGuest fdsPtr (Int32.ofNat (n * 8)) with
    | error errno => trivial
    | ok bytes =>
      obtain ⟨-, start, -, hstart, -⟩ := Export.readGuest_ok hread
      refine Prog.obeys_bind.mpr (frames_hostPollFds _ (fun _ => trivial) fun entries hlength => ?_)
      rw [length_chunksExact8] at hlength
      refine Prog.obeys_bind.mpr (frames_ws fun answer => ?_)
      split
      · exact frames_noWrite noWrite_negLastSocketErrno fun _ => trivial
      · refine Prog.obeys_bind.mpr (frames_writeRevents hstart (by omega) _ ?_ fun written _ => ?_)
        · rw [List.length_map, List.length_zipIdx]
          omega
        · cases written <;> trivial

/-- Every import writes to its outputs only. -/
theorem frames_windows (c : SocketImport) : Frames e (c.outputs e) (Windows.prog c) := by
  cases c with
  | socket domain ty protocol => exact .of_noWrite (noWrite_socket domain ty protocol)
  | bind fd addrPtr addrLen => exact .of_noWrite (noWrite_bind fd addrPtr addrLen)
  | listen fd backlog => exact .of_noWrite (noWrite_listen fd backlog)
  | accept fd addrPtr addrLenPtr => exact frames_accept fd addrPtr addrLenPtr
  | connect fd addrPtr addrLen => exact .of_noWrite (noWrite_connect fd addrPtr addrLen)
  | getsockname fd addrPtr addrLenPtr => exact frames_socketName fd addrPtr addrLenPtr .localName
  | getpeername fd addrPtr addrLenPtr => exact frames_socketName fd addrPtr addrLenPtr .peer
  | setsockopt fd level optname optvalPtr optlen => exact .of_noWrite (noWrite_setsockopt fd level optname optvalPtr optlen)
  | getsockopt fd level optname optvalPtr optlenPtr => exact frames_getsockopt fd level optname optvalPtr optlenPtr
  | send fd bufPtr len flags => exact .of_noWrite (noWrite_send fd bufPtr len flags)
  | recv fd bufPtr len flags => exact frames_recv fd bufPtr len flags
  | sendto fd bufPtr len flags addrPtr addrLen => exact .of_noWrite (noWrite_sendto fd bufPtr len flags addrPtr addrLen)
  | recvfrom fd bufPtr len flags addrPtr addrLenPtr => exact frames_recvfrom fd bufPtr len flags addrPtr addrLenPtr
  | shutdown fd how => exact .of_noWrite (noWrite_shutdown fd how)
  | close fd => exact .of_noWrite (noWrite_close fd)
  | fcntl fd cmd arg => exact .of_noWrite (noWrite_fcntl fd cmd arg)
  | poll fdsPtr nfds timeout => exact frames_poll fdsPtr nfds timeout

end

end WindowsFrameAux

end WasmtimeMysql
