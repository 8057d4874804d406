import Mathlib.Logic.Function.Basic
import WasmtimeMysql.Lemmas.SocketResults
import WasmtimeMysql.Lib.Inbox

/-!
# What a failed receive has taken

`recv`, `recvfrom` and `accept` ask the host first and write to the guest afterwards. When the guest's memory has no room for what came,
the guest gets an error, and what came is gone: it is in no inbox any more. `send`, `sendto`, `bind` and `connect` read the guest's memory
before they ask the host. On Windows a message that is longer than the buffer is gone as well, and is an error.

`keeps_iff` says exactly when a receive that fails has taken nothing: what the inbox gives next fits.
-/

namespace WasmtimeMysql

open Effects Bytes

/-! ## The hosts -/

/-- The address of a socket as a host reports it, which is no longer than a `sockaddr_storage`. -/
structure PeerAddr where
  bytes : List UInt8
  short : bytes.length ≤ 128
  deriving DecidableEq, Repr

/-- The inbox of a socket. -/
abbrev SocketInbox : Type := Inbox UInt8 PeerAddr (2 ^ 31 - 1)

/-- MSG_PEEK, for the guest and on every host. -/
def msgPeek : Int32 := 0x0002

/-- What a Unix host does on a receive besides taking what is next. `trunc` is MSG_TRUNC, where it asks for the length of the whole message.
`errqueue` and `oob` are the flags that ask for what is not in the inbox; `oobMessages` says that MSG_OOB asks for nothing else on messages.
`late` says that an address length from 2 ^ 31 on, which the host takes for negative, is an error only after something is taken. -/
structure RecvFlags where
  trunc : Int32
  errqueue : Int32
  oob : Int32
  oobMessages : Bool
  late : Bool
  deriving DecidableEq, Repr

/-- Linux, where UDP takes no notice of MSG_OOB and ICMP does. -/
def linuxRecvFlags (oobMessages : Bool) : RecvFlags := ⟨0x0020, 0x2000, 0x0001, oobMessages, true⟩

/-- macOS, where nothing says what becomes of a message with a negative address length. -/
def macosRecvFlags (oobMessages late : Bool) : RecvFlags := ⟨0, 0, 0x0001, oobMessages, late⟩

/-- A receive takes what is next. -/
def RecvFlags.Takes (fl : RecvFlags) (q : SocketInbox) (flags : Int32) : Prop :=
  flags &&& fl.errqueue = 0 ∧ (flags &&& fl.oob = 0 ∨ fl.oobMessages = true ∧ q.isMessages = true)

/-- The length of the address buffer is an error that the host finds late. -/
def RecvFlags.Late (fl : RecvFlags) (addrLen : UInt32) : Prop := fl.late = true ∧ 2 ^ 31 ≤ addrLen.toNat

/-- The address that a sender is reported with, or none. -/
def senderBytes : Option PeerAddr → List UInt8
  | some peer => peer.bytes
  | none => []

/-- A receive on Unix: it fails and takes nothing, it is about something else, or it takes what the inbox gives. What there is no room for
is cut off a message, and the length may be that of the whole message. A `late` error has taken what the inbox gives as well. -/
inductive Unix.Receives (fl : RecvFlags) (late : Prop) (q : SocketInbox) (n : Nat) (flags : Int32) :
    (rc : Int64) → (data : List UInt8) → (sender : Option PeerAddr) → SocketInbox → Prop where
  | fails {rc : Int64} {data : List UInt8} {sender : Option PeerAddr} (hrc : rc < 0) : Receives fl late q n flags rc data sender q
  | aside {rc : Int64} {data : List UInt8} {sender : Option PeerAddr} (haside : ¬fl.Takes q flags) :
      Receives fl late q n flags rc data sender q
  | failsLate {rc : Int64} {taken data : List UInt8} {sender : Option PeerAddr} {q' : SocketInbox} (hrc : rc < 0) (hlate : late)
      (htakes : fl.Takes q flags) (hgives : q.Gives n taken sender q') :
      Receives fl late q n flags rc data sender (if flags &&& msgPeek = 0 then q' else q)
  | takes {taken data : List UInt8} {sender : Option PeerAddr} {q' : SocketInbox} (hlate : ¬late) (htakes : fl.Takes q flags)
      (hgives : q.Gives n taken sender q') (hdata : flags &&& fl.trunc = 0 → data = taken.take n) :
      Receives fl late q n flags (Int64.ofNat (if flags &&& fl.trunc = 0 then min n taken.length else taken.length)) data sender
        (if flags &&& msgPeek = 0 then q' else q)

/-- A Unix host and the inbox of each descriptor. While the import runs nothing comes, and no peer gives up a connection that waits. -/
def Unix.inboxes (fl : RecvFlags) : Machine Unix.Net (Int32 → SocketInbox)
  | k, .recv rawFd n flags, answer, k' => ∃ sender q',
    Unix.Receives fl False (k rawFd) n flags answer.rc answer.data sender q' ∧ k' = Function.update k rawFd q'
  | k, .recvfrom rawFd n flags addrLen, answer, k' => ∃ sender q',
    Unix.Receives fl (fl.Late addrLen) (k rawFd) n flags answer.rc answer.data sender q' ∧ k' = Function.update k rawFd q' ∧
    answer.addr = (senderBytes sender).take addrLen.toNat ∧ answer.addrLen = UInt32.ofNat (senderBytes sender).length
  | k, .accept rawFd addrLen, answer, k' =>
    (answer.rc < 0 ∧ (k' = k ∨ fl.Late addrLen ∧ ∃ peer rest, k rawFd = .pending (peer :: rest) ∧
      k' = Function.update k rawFd (.pending rest))) ∨
    ∃ peer rest, k rawFd = .pending (peer :: rest) ∧ k' = Function.update k rawFd (.pending rest) ∧ ¬fl.Late addrLen ∧
      0 ≤ answer.rc ∧ answer.data = peer.bytes.take addrLen.toNat ∧ answer.len = UInt32.ofNat peer.bytes.length
  | k, _, _, k' => k' = k

/-- `WSAEFAULT` -/
def Windows.wsaefault : Int32 := 10014

/-- `WSAEMSGSIZE` -/
def Windows.wsaemsgsize : Int32 := 10040

/-- A receive on Windows, with the error it leaves: it fails and takes nothing, or it takes what the inbox gives. A message that there is no
room for is an error too, and is gone. So is one whose sender has no room in the address buffer, if `lost`: that it is an error is
documented, and what becomes of the message is not. `room` is the length of the address buffer, if there is one. -/
inductive Windows.Receives (lost : Bool) (q : SocketInbox) (n : Nat) (flags : Int32) (room : Option Nat) :
    (rc : Int32) → (data : List UInt8) → (sender : Option PeerAddr) → SocketInbox → (err : Int32) → Prop where
  | fails {data : List UInt8} {sender : Option PeerAddr} {err : Int32} (herr : err ≠ 0) :
      Receives lost q n flags room socketError data sender q err
  | fault {taken data : List UInt8} {peer : PeerAddr} {len : Nat} {q' : SocketInbox} (hlost : lost = true)
      (hgives : q.Gives n taken (some peer) q') (hroom : room = some len) (hlong : len < peer.bytes.length) :
      Receives lost q n flags room socketError data (some peer) (if flags &&& msgPeek = 0 then q' else q) wsaefault
  | long {taken : List UInt8} {sender : Option PeerAddr} {q' : SocketInbox} (hgives : q.Gives n taken sender q')
      (hfits : ∀ peer len, sender = some peer → room = some len → peer.bytes.length ≤ len) (hlong : n < taken.length) :
      Receives lost q n flags room socketError (taken.take n) sender (if flags &&& msgPeek = 0 then q' else q) wsaemsgsize
  | takes {taken : List UInt8} {sender : Option PeerAddr} {q' : SocketInbox} {err : Int32} (hgives : q.Gives n taken sender q')
      (hfits : ∀ peer len, sender = some peer → room = some len → peer.bytes.length ≤ len) (hshort : taken.length ≤ n) :
      Receives lost q n flags room (Int32.ofNat taken.length) taken sender (if flags &&& msgPeek = 0 then q' else q) err

/-- The length that WinSock stores for a sender. A stream has none, and the length is left as it was. -/
def Windows.storedLen (addrLen : Int32) : Option PeerAddr → Int32
  | some peer => Int32.ofNat peer.bytes.length
  | none => addrLen

/-- WinSock with the inbox of each socket and the last error. -/
def Windows.inboxes (lost : Bool) : Machine Windows.Net ((Windows.Socket → SocketInbox) × Int32)
  | k, .recv rawSocket n flags, answer, k' => ∃ sender q',
    Windows.Receives lost (k.1 rawSocket) n flags none answer.rc answer.data sender q' k'.2 ∧ k'.1 = Function.update k.1 rawSocket q'
  | k, .recvfrom rawSocket n flags addrLen, answer, k' => ∃ sender q',
    Windows.Receives lost (k.1 rawSocket) n flags (some addrLen.toNatClampNeg) answer.rc answer.data sender q' k'.2 ∧
    k'.1 = Function.update k.1 rawSocket q' ∧ answer.addr = senderBytes sender ∧ answer.addrLen = Windows.storedLen addrLen sender
  | k, .accept rawSocket addrLen, answer, k' =>
    (answer.accepted = Windows.invalidSocket ∧ k'.2 ≠ 0 ∧
      (k'.1 = k.1 ∨ ∃ peer rest, k.1 rawSocket = .pending (peer :: rest) ∧ lost = true ∧ addrLen.toNatClampNeg < peer.bytes.length ∧
        k'.1 = Function.update k.1 rawSocket (.pending rest))) ∨
    ∃ peer rest, k.1 rawSocket = .pending (peer :: rest) ∧ k'.1 = Function.update k.1 rawSocket (.pending rest) ∧
      answer.accepted ≠ Windows.invalidSocket ∧ peer.bytes.length ≤ addrLen.toNatClampNeg ∧ answer.data = peer.bytes ∧
      answer.len = Int32.ofNat peer.bytes.length
  | k, .wsaGetLastError, code, k' => code = k.2 ∧ k' = k
  | k, _, _, k' => k'.1 = k.1

/-! ## What has to fit -/

/-- On Unix: the guest's memory has room for what is next, cut to the buffer, and for the address that comes with it, and the length of the
address is not an error that is found late. A length that is longer than the buffer is a panic, and so returns nothing. -/
def Unix.RoomFor (fl : RecvFlags) (e : Export) (q : SocketInbox) : SocketImport → Prop
  | .recv _ bufPtr len flags => ∀ n, checkedLen len = .ok n → fl.Takes q flags → ∀ size sender, q.next n = some (size, sender) →
    (flags &&& fl.trunc = 0 ∨ size ≤ n) → e.Room bufPtr (min n size)
  | .recvfrom _ bufPtr len flags addrPtr addrLenPtr => ∀ n, checkedLen len = .ok n → ∀ addrLen, e.readU32 addrLenPtr = .ok addrLen →
    fl.Takes q flags → ∀ size sender, q.next n = some (size, sender) → ¬fl.Late addrLen ∧ ((flags &&& fl.trunc = 0 ∨ size ≤ n) →
      e.Room bufPtr (min n size) ∧ ((senderBytes sender).length ≤ addrLen.toNat → e.Room addrPtr (senderBytes sender).length))
  | .accept _ addrPtr addrLenPtr => ∀ addrLen, e.readU32 addrLenPtr = .ok addrLen → ∀ peer rest, q = .pending (peer :: rest) →
    ¬fl.Late addrLen ∧ (peer.bytes.length ≤ addrLen.toNat → e.Room addrPtr peer.bytes.length)
  | _ => True

/-- The length that the guest is told of a sender. -/
def Windows.reportedLen (addrLen : Nat) : Option PeerAddr → Nat
  | some peer => peer.bytes.length
  | none => addrLen

/-- On Windows: the buffer has room for the whole of what is next, the guest's memory for the buffer, and the address buffer and the guest's
memory for the address that comes with it. -/
def Windows.RoomFor (lost : Bool) (e : Export) (q : SocketInbox) : SocketImport → Prop
  | .recv _ bufPtr len _ => ∀ n, checkedLen len = .ok n → ∀ size sender, q.next n = some (size, sender) → size ≤ n ∧ e.Room bufPtr size
  | .recvfrom _ bufPtr len _ addrPtr addrLenPtr => ∀ n, checkedLen len = .ok n →
    ∀ addrLen, (e.readU32 addrLenPtr).bind Windows.checkedSockaddrLen = .ok addrLen → ∀ size sender, q.next n = some (size, sender) →
    (lost = true → Windows.reportedLen addrLen sender ≤ addrLen) ∧ (Windows.reportedLen addrLen sender ≤ addrLen →
      size ≤ n ∧ e.Room bufPtr size ∧ e.Room addrPtr (Windows.reportedLen addrLen sender))
  | .accept _ addrPtr addrLenPtr => ∀ addrLen, (e.readU32 addrLenPtr).bind Windows.checkedSockaddrLen = .ok addrLen →
    ∀ peer rest, q = .pending (peer :: rest) →
    (lost = true → peer.bytes.length ≤ addrLen) ∧ (peer.bytes.length ≤ addrLen → e.Room addrPtr peer.bytes.length)
  | _ => True

namespace FailedReceivesAux

/-- If the import returns an error, something holds. -/
def OnError (P : Prop) (o : Outcome Int32) : Prop := ∀ rc, o = .returned rc → rc < 0 → P

/-- Every run that returns an error, as a precondition. -/
theorem forall_runs_iff {S : Sig} {σ : Type} {M : Machine S σ} {p : Prog S Int32} {s : σ} {P : σ → Prop} :
    (∀ tr rc s', Runs M p s tr (.returned rc) s' → rc < 0 → P s') ↔ wp M p (fun _ o s' => OnError (P s') o) s := by
  rw [wp_iff_runs]
  constructor
  · rintro h tr o s' hrun rc rfl hneg
    exact h tr rc s' hrun hneg
  · intro h tr rc s' hrun hneg
    exact h tr _ s' hrun rc rfl hneg

/-- An errno is an error, ... -/
theorem onError_negErrno {P : Prop} {errno : Errno} : OnError P (.returned (negErrno errno)) ↔ P := by
  constructor
  · intro h
    exact h _ rfl (negErrno_lt_zero errno)
  · intro h rc _ _
    exact h

/-- ... and what is not negative is none. -/
theorem onError_of_nonneg {P : Prop} {rc : Int32} (hrc : 0 ≤ rc) : OnError P (.returned rc) := by
  rintro rc' ⟨⟩ hneg
  exact absurd hneg (Int32.not_lt.mpr hrc)

/-- A count that fits the buffer is no error. -/
theorem onError_count {P : Prop} {m n : Nat} {len : Int32} (hlen : checkedLen len = .ok n) (hm : m ≤ n) :
    OnError P (.returned (Int32.ofNat m)) := by
  obtain ⟨-, hnonneg, -⟩ := i32TryFromUsize_of_le (Nat.le_trans hm (checkedLen_le hlen))
  exact onError_of_nonneg hnonneg

/-! ### What is done with an answer -/

section
variable {H : Sig} {τ : Type} {N : Machine H τ} (S : τ → Prop) {e : Export} {t : τ}

/-- A slice that is too long is a panic. -/
theorem wp_sliced {bytes : List UInt8} {m : Nat} {cont : List UInt8 → Prog (GuestMem.sum H) Int32} :
    wp (guestMachine.sum N) (sliceTo bytes m >>= cont) (fun _ o s' => OnError (S s'.2) o) (e, t) ↔
      (m ≤ bytes.length → wp (guestMachine.sum N) (cont (bytes.take m)) (fun _ o s' => OnError (S s'.2) o) (e, t)) := by
  rw [wp_bind, wp_sliceTo]
  split
  · rename_i hm
    rw [wpNext_returned]
    exact ⟨fun h _ => h, fun h => h hm⟩
  · rename_i hm
    exact iff_of_true nofun fun hle => absurd hle hm

/-- A write to the guest: without room for it the import ends in an error. -/
theorem wp_delivered {ptr : Int32} {bytes : List UInt8} {cont : Except Errno Unit → Prog (GuestMem.sum H) Int32}
    (herr : ∀ errno e', wp (guestMachine.sum N) (cont (.error errno)) (fun _ o s' => OnError (S s'.2) o) (e', t) ↔ S t) :
    wp (guestMachine.sum N) (writeGuest ptr bytes >>= cont) (fun _ o s' => OnError (S s'.2) o) (e, t) ↔
      (¬e.Room ptr bytes.length → S t) ∧ (e.Room ptr bytes.length →
        wp (guestMachine.sum N) (cont (.ok ())) (fun _ o s' => OnError (S s'.2) o) (e.afterWrite ptr bytes, t)) := by
  rw [wp_bind, wp_writeGuest, wpNext_returned]
  rcases e.writeAnswer_cases ptr bytes with ⟨hroom, hok⟩ | ⟨hroom, errno, herror⟩
  · rw [hok]
    exact ⟨fun h => ⟨fun hnone => absurd hroom hnone, fun _ => h⟩, fun h => h.2 hroom⟩
  · rw [herror, herr]
    exact ⟨fun h => ⟨fun _ => h, fun hsome => absurd hsome hroom⟩, fun h => h.1 hroom⟩

/-- The word of the length was read, and so it can be written. -/
theorem wp_wordDelivered {ptr : Int32} {value : UInt32} {cont : Except Errno Unit → Prog (GuestMem.sum H) Int32} (hroom : e.Room ptr 4) :
    wp (guestMachine.sum N) (writeU32 ptr value >>= cont) (fun _ o s' => OnError (S s'.2) o) (e, t) ↔
      wp (guestMachine.sum N) (cont (.ok ())) (fun _ o s' => OnError (S s'.2) o) (e.afterWrite ptr (leBytes 4 value.toNat), t) := by
  rw [wp_bind, wp_writeU32, wpNext_returned]
  rcases e.writeAnswer_cases ptr (leBytes 4 value.toNat) with ⟨-, hok⟩ | ⟨hnone, -⟩
  · rw [hok]
  · rw [length_leBytes] at hnone
    exact absurd hroom hnone

end

/-- The first bytes of a buffer that has them. -/
theorem length_take_fill {n m : Nat} {data : List UInt8} (h : m ≤ n) : ((fill n data).take m).length = m := by
  rw [List.length_take, length_fill]
  omega

/-- The family is written within the address. -/
theorem length_addr {room : Nat} {data : List UInt8} {domain : Int32} : (writeSockaddrFamily (fill room data) domain).length = room := by
  rw [length_writeSockaddrFamily, length_fill]

/-- An address that fits the buffer is reported with its length. -/
theorem length_take_addr {room m : Nat} {data : List UInt8} {domain : Int32} (h : m ≤ room) :
    ((writeSockaddrFamily (fill room data) domain).take m).length = m := by
  rw [List.length_take, length_addr]
  omega

/-- A property of the inboxes. -/
def onInboxes {E κ : Type} (P : κ → Prop) (t : AppState E × κ) : Prop := P t.2

/-! ### On Unix -/

section
open Unix

variable (lc : Libc) {fl : RecvFlags} {e : Export} {a : AppState Unix.HostSocket} {k k' : Int32 → SocketInbox} {fd : Int32}
  {entry : Unix.HostSocket} {P : (Int32 → SocketInbox) → Prop}

/-- After a call that has failed the queues are as the call left them. -/
theorem wp_unix_failed : wp (machine (inboxes fl)) (negLastErrno lc) (fun _ o s' => OnError (P s'.2.2) o) (e, a, k) ↔ P k := by
  rw [wp_negLastErrno]
  constructor
  · intro h
    exact onError_negErrno.mp (h none k rfl)
  · rintro h code k' ⟨⟩
    exact onError_negErrno.mpr h

/-- A receive that fails keeps what there was, if every answer of the host has left it or can be written to the guest. -/
theorem wp_unix_recv (hfd : a.sockets.find fd = some entry) (bufPtr flags : Int32) {len : Int32} {n : Nat} (hlen : checkedLen len = .ok n) :
    wp (machine (inboxes fl)) (Unix.recv lc fd bufPtr len flags) (fun _ o s' => OnError (P s'.2.2) o) (e, a, k) ↔
    ∀ (answer : RecvAnswer) k', inboxes fl k (.recv entry.rawFd n flags) answer k' → P k' ∨
      ¬answer.rc < 0 ∧ (answer.rc.toNatClampNeg ≤ n → e.Room bufPtr answer.rc.toNatClampNeg) := by
  simp only [Unix.recv, wp_bind, wp_get, hfd, okOrEbadf, wpNext_returned, Prog.pure_eq, Prog.ret_bind, hlen, wp_alloc, wp_libc]
  refine forall_congr' fun answer => forall_congr' fun k' => imp_congr_right fun _ => ?_
  split
  · rename_i hrc
    rw [wp_unix_failed lc (P := P)]
    tauto
  · rename_i hrc
    refine (wp_sliced (onInboxes P)).trans ?_
    rw [length_fill]
    by_cases hm : answer.rc.toNatClampNeg ≤ n
    · refine (imp_congr_right fun _ => wp_delivered (onInboxes P) fun errno e' => by exact onError_negErrno).trans ?_
      rw [length_take_fill hm]
      have hdone : OnError (P k') (.returned (Int32.ofNat answer.rc.toNatClampNeg)) := onError_count hlen hm
      simp only [onInboxes, wp_ret, hdone]
      tauto
    · tauto

/-- What `recvfrom` returns on Unix, by the answer of the kernel and the room in guest memory. -/
theorem wp_unix_recvfrom (hfd : a.sockets.find fd = some entry) (bufPtr flags addrPtr : Int32) {len addrLenPtr : Int32} {n : Nat}
    {addrLen : UInt32} (hlen : checkedLen len = .ok n) (hword : e.readU32 addrLenPtr = .ok addrLen) :
    wp (machine (inboxes fl)) (Unix.recvfrom lc fd bufPtr len flags addrPtr addrLenPtr) (fun _ o s' => OnError (P s'.2.2) o) (e, a, k) ↔
    ∀ (answer : RecvfromAnswer) k', inboxes fl k (.recvfrom entry.rawFd n flags addrLen) answer k' → P k' ∨
      ¬answer.rc < 0 ∧ (answer.rc.toNatClampNeg ≤ n → e.Room bufPtr answer.rc.toNatClampNeg ∧
        (answer.addrLen.toNat ≤ addrLen.toNat → e.Room addrPtr answer.addrLen.toNat)) := by
  simp only [Unix.recvfrom, wp_bind, wp_get, hfd, okOrEbadf, wpNext_returned, Prog.pure_eq, Prog.ret_bind, hlen, wp_readU32, hword,
    wp_alloc, wp_libc, denormalizeSockaddrForGuest]
  refine forall_congr' fun answer => forall_congr' fun k' => imp_congr_right fun _ => ?_
  split
  · rename_i hrc
    rw [wp_unix_failed lc (P := P)]
    tauto
  · rename_i hrc
    refine (wp_sliced (onInboxes P)).trans ?_
    rw [length_fill]
    by_cases hm : answer.rc.toNatClampNeg ≤ n
    · refine (imp_congr_right fun _ => wp_delivered (onInboxes P) fun errno e' => by exact onError_negErrno).trans ?_
      rw [length_take_fill hm, wp_sliced (onInboxes P), length_addr]
      by_cases haddr : answer.addrLen.toNat ≤ addrLen.toNat
      · rw [wp_delivered (onInboxes P) fun errno e' => by exact onError_negErrno, length_take_addr haddr, Export.room_afterWrite]
        rw [wp_wordDelivered (onInboxes P) (Export.room_afterWrite.mpr (Export.room_afterWrite.mpr (Export.room_of_readU32 hword)))]
        have hdone : OnError (P k') (.returned (Int32.ofNat answer.rc.toNatClampNeg)) := onError_count hlen hm
        simp only [onInboxes, wp_ret, hdone]
        tauto
      · tauto
    · tauto

/-- The accepted socket is closed. -/
theorem wp_unix_closed (rawFd : Int32) (errno : Errno) :
    wp (machine (inboxes fl)) (libc (.close rawFd) >>= fun _ => Prog.ret (negErrno errno)) (fun _ o s' => OnError (P s'.2.2) o) (e, a, k) ↔
      P k := by
  rw [wp_bind, wp_libc]
  constructor
  · intro h
    exact onError_negErrno.mp (h 0 k rfl)
  · rintro h rc k' ⟨⟩
    exact onError_negErrno.mpr h

/-- What `accept` returns on Unix, by the answer of the kernel and the room in guest memory. -/
theorem wp_unix_accept (hfd : a.sockets.find fd = some entry) (addrPtr : Int32) {addrLenPtr : Int32} {addrLen : UInt32}
    (hword : e.readU32 addrLenPtr = .ok addrLen) :
    wp (machine (inboxes fl)) (Unix.accept lc fd addrPtr addrLenPtr) (fun _ o s' => OnError (P s'.2.2) o) (e, a, k) ↔
    ∀ (answer : BufAnswer) k', inboxes fl k (.accept entry.rawFd addrLen) answer k' → P k' ∨
      ¬answer.rc < 0 ∧ (answer.len.toNat ≤ addrLen.toNat → e.Room addrPtr answer.len.toNat) := by
  simp only [Unix.accept, wp_bind, wp_get, hfd, okOrEbadf, wpNext_returned, Prog.pure_eq, Prog.ret_bind, wp_readU32, hword,
    wp_alloc, wp_libc, denormalizeSockaddrForGuest]
  refine forall_congr' fun answer => forall_congr' fun k' => imp_congr_right fun _ => ?_
  split
  · rename_i hrc
    rw [wp_unix_failed lc (P := P)]
    tauto
  · rename_i hrc
    refine (wp_sliced (onInboxes P)).trans ?_
    rw [length_addr]
    by_cases haddr : answer.len.toNat ≤ addrLen.toNat
    · rw [wp_delivered (onInboxes P) fun errno e' => by exact wp_unix_closed answer.rc errno, length_take_addr haddr]
      rw [wp_wordDelivered (onInboxes P) (Export.room_afterWrite.mpr (Export.room_of_readU32 hword))]
      have hdone : OnError (P k') (.returned a.sockets.next) := onError_of_nonneg (Int32.le_trans (by decide) a.sockets.base_le)
      simp only [onInboxes, wp_insert, hdone]
      tauto
    · tauto

/-- A count as the kernel returns it. -/
theorem ofNat_count {m : Nat} (h : m < 2 ^ 31) : ¬Int64.ofNat m < 0 ∧ (Int64.ofNat m).toNatClampNeg = m := by
  refine ⟨?_, Int64.toNatClampNeg_ofNat_of_lt (by omega)⟩
  rw [Int64.lt_iff_toInt_lt, Int64.toInt_ofNat_of_lt (by omega)]
  exact Int.not_lt.mpr (Int.natCast_nonneg m)

/-- Every answer of the host can be written to the guest, if what is next can be and is not taken by a late error. -/
theorem unix_answers_iff (fl : RecvFlags) (late : Prop) {q : SocketInbox} {n : Nat} {flags : Int32} (hn : n ≤ maxIoLen)
    (hpeek : flags &&& msgPeek = 0) {R : Nat → Option PeerAddr → Prop} (hmono : ∀ m m' sender, R m sender → m' ≤ m → R m' sender) :
    (∀ rc data sender q', Receives fl late q n flags rc data sender q' →
      q' = q ∨ ¬rc < 0 ∧ (rc.toNatClampNeg ≤ n → R rc.toNatClampNeg sender)) ↔
      (fl.Takes q flags → ∀ size sender, q.next n = some (size, sender) →
        ¬late ∧ ((flags &&& fl.trunc = 0 ∨ size ≤ n) → R (min n size) sender)) := by
  have hmax : maxIoLen = 16777216 := rfl
  constructor
  · intro h htaking size sender hnext
    obtain ⟨taken, q', hgives, rfl, hne⟩ := Inbox.exists_gives hnext
    have hnever : ¬late := by
      intro hlate
      have hfails := h (-1) [] sender _ (.failsLate (by decide) hlate htaking hgives)
      rw [if_pos hpeek] at hfails
      exact (hfails.resolve_left hne).1 (by decide)
    refine ⟨hnever, fun hshort => ?_⟩
    have hcount : (if flags &&& fl.trunc = 0 then min n taken.length else taken.length) = min n taken.length := by
      split
      · rfl
      · rename_i htrunc
        have := hshort.resolve_left htrunc
        omega
    have htakes := h _ _ sender _ (.takes hnever htaking hgives fun _ => rfl)
    rw [if_pos hpeek, hcount] at htakes
    obtain ⟨-, hnat⟩ := ofNat_count (m := min n taken.length) (by omega)
    rw [hnat] at htakes
    exact (htakes.resolve_left hne).2 (Nat.min_le_left _ _)
  · intro h rc data sender q' hreceives
    cases hreceives with
    | fails => exact .inl rfl
    | aside => exact .inl rfl
    | failsLate hrc hlate htaking hgives =>
      rw [if_pos hpeek]
      rcases hgives.next with hsame | ⟨size, hnext, -⟩
      · exact .inl hsame
      · exact absurd hlate (h htaking size sender hnext).1
    | @takes taken _ _ q' hlate htaking hgives hdata =>
      rw [if_pos hpeek]
      rcases hgives.next with hsame | ⟨size, hnext, hle, hsize⟩
      · exact .inl hsame
      · right
        have hlength := hgives.length_le
        obtain ⟨hnonneg, hnat⟩ := ofNat_count (m := if flags &&& fl.trunc = 0 then min n taken.length else taken.length)
          (by split <;> omega)
        rw [hnat]
        refine ⟨hnonneg, fun hroom => ?_⟩
        by_cases htrunc : flags &&& fl.trunc = 0
        · refine hmono _ _ sender ((h htaking size sender hnext).2 (.inl htrunc)) ?_
          rw [if_pos htrunc]
          omega
        · rw [if_neg htrunc] at hroom ⊢
          refine hmono _ _ sender ((h htaking size sender hnext).2 (.inr (by omega))) ?_
          omega

/-- `recv` on Unix. -/
theorem unix_recv_iff (hfd : a.sockets.find fd = some entry) (bufPtr len flags : Int32) (hpeek : flags &&& msgPeek = 0) :
    wp (machine (inboxes fl)) (Unix.recv lc fd bufPtr len flags) (fun _ o s' => OnError (s'.2.2 entry.rawFd = k entry.rawFd) o) (e, a, k) ↔
      RoomFor fl e (k entry.rawFd) (.recv fd bufPtr len flags) := by
  cases hlen : checkedLen len with
  | error errno =>
    refine iff_of_true ?_ fun n hn => by cases hlen.symm.trans hn
    simp only [Unix.recv, wp_bind, wp_get, hfd, okOrEbadf, wpNext_returned, Prog.pure_eq, Prog.ret_bind, hlen]
    exact onError_negErrno.mpr rfl
  | ok n =>
    have hanswers := unix_answers_iff fl False (q := k entry.rawFd) (checkedLen_le hlen) hpeek (R := fun m _ => e.Room bufPtr m)
      fun m m' _ hroom hm => hroom.mono hm
    simp only [not_false_eq_true, true_and] at hanswers
    rw [wp_unix_recv lc (P := fun k' => k' entry.rawFd = k entry.rawFd) hfd bufPtr flags hlen]
    constructor
    · intro h n' hn'
      cases hlen.symm.trans hn'
      refine hanswers.mp fun rc data sender q' hreceives => ?_
      have hkept := h ⟨rc, data⟩ (Function.update k entry.rawFd q') ⟨sender, q', hreceives, rfl⟩
      rwa [Function.update_self] at hkept
    · rintro h answer k' ⟨sender, q', hreceives, rfl⟩
      rw [Function.update_self]
      exact hanswers.mpr (h n hlen) _ _ sender q' hreceives

/-- The length of an address as a word. -/
theorem toNat_ofNat_length {m : Nat} (h : m ≤ 128) : (UInt32.ofNat m).toNat = m := by
  rw [UInt32.toNat_ofNat']
  omega

/-- No address of a sender is longer than the greatest of all. -/
theorem length_senderBytes (sender : Option PeerAddr) : (senderBytes sender).length ≤ 128 := by
  cases sender with
  | none => exact Nat.zero_le _
  | some peer => exact peer.short

/-- `recvfrom` on Unix. -/
theorem unix_recvfrom_iff (hfd : a.sockets.find fd = some entry) (bufPtr len flags addrPtr addrLenPtr : Int32)
    (hpeek : flags &&& msgPeek = 0) :
    wp (machine (inboxes fl)) (Unix.recvfrom lc fd bufPtr len flags addrPtr addrLenPtr)
      (fun _ o s' => OnError (s'.2.2 entry.rawFd = k entry.rawFd) o) (e, a, k) ↔
      RoomFor fl e (k entry.rawFd) (.recvfrom fd bufPtr len flags addrPtr addrLenPtr) := by
  cases hlen : checkedLen len with
  | error errno =>
    refine iff_of_true ?_ fun n hn => by cases hlen.symm.trans hn
    simp only [Unix.recvfrom, wp_bind, wp_get, hfd, okOrEbadf, wpNext_returned, Prog.pure_eq, Prog.ret_bind, hlen]
    exact onError_negErrno.mpr rfl
  | ok n =>
    cases hword : e.readU32 addrLenPtr with
    | error errno =>
      refine iff_of_true ?_ fun n hn addrLen haddrLen => by cases hword.symm.trans haddrLen
      simp only [Unix.recvfrom, wp_bind, wp_get, hfd, okOrEbadf, wpNext_returned, Prog.pure_eq, Prog.ret_bind, hlen, wp_readU32, hword]
      exact onError_negErrno.mpr rfl
    | ok addrLen =>
      have hanswers := unix_answers_iff fl (fl.Late addrLen) (q := k entry.rawFd) (checkedLen_le hlen) hpeek
        (R := fun m sender => e.Room bufPtr m ∧
          ((senderBytes sender).length ≤ addrLen.toNat → e.Room addrPtr (senderBytes sender).length))
        fun m m' _ hroom hm => ⟨hroom.1.mono hm, hroom.2⟩
      rw [wp_unix_recvfrom lc (P := fun k' => k' entry.rawFd = k entry.rawFd) hfd bufPtr flags addrPtr hlen hword]
      constructor
      · intro h n' hn' addrLen' haddrLen'
        cases hlen.symm.trans hn'
        cases hword.symm.trans haddrLen'
        refine hanswers.mp fun rc data sender q' hreceives => ?_
        have hkept := h ⟨rc, data, (senderBytes sender).take addrLen.toNat, UInt32.ofNat (senderBytes sender).length⟩
          (Function.update k entry.rawFd q') ⟨sender, q', hreceives, rfl, rfl, rfl⟩
        rwa [Function.update_self, toNat_ofNat_length (length_senderBytes sender)] at hkept
      · rintro h ⟨rc, data, addr, stored⟩ k' ⟨sender, q', hreceives, rfl, -, rfl⟩
        rw [Function.update_self, toNat_ofNat_length (length_senderBytes sender)]
        exact hanswers.mpr (h n hlen addrLen hword) _ _ sender q' hreceives

/-- `accept` on Unix. -/
theorem unix_accept_iff (hfd : a.sockets.find fd = some entry) (addrPtr addrLenPtr : Int32) :
    wp (machine (inboxes fl)) (Unix.accept lc fd addrPtr addrLenPtr)
        (fun _ o s' => OnError (s'.2.2 entry.rawFd = k entry.rawFd) o) (e, a, k) ↔
      RoomFor fl e (k entry.rawFd) (.accept fd addrPtr addrLenPtr) := by
  cases hword : e.readU32 addrLenPtr with
  | error errno =>
    refine iff_of_true ?_ fun addrLen haddrLen => by cases hword.symm.trans haddrLen
    simp only [Unix.accept, wp_bind, wp_get, hfd, okOrEbadf, wpNext_returned, Prog.pure_eq, Prog.ret_bind, wp_readU32, hword]
    exact onError_negErrno.mpr rfl
  | ok addrLen =>
    rw [wp_unix_accept lc (P := fun k' => k' entry.rawFd = k entry.rawFd) hfd addrPtr hword]
    constructor
    · intro h addrLen' haddrLen' peer rest hpending
      cases hword.symm.trans haddrLen'
      have hgone : Function.update k entry.rawFd (.pending rest) entry.rawFd ≠ k entry.rawFd := by
        rw [Function.update_self, hpending]
        exact fun hsame => List.ne_cons_self (Inbox.pending.inj hsame)
      have hnever : ¬fl.Late addrLen := by
        intro hlate
        have hfails := h ⟨-1, [], 0⟩ (Function.update k entry.rawFd (.pending rest))
          (.inl ⟨by decide, .inr ⟨hlate, peer, rest, hpending, rfl⟩⟩)
        exact (hfails.resolve_left hgone).1 (by decide)
      refine ⟨hnever, fun hfits => ?_⟩
      have hkept := h ⟨0, peer.bytes.take addrLen.toNat, UInt32.ofNat peer.bytes.length⟩ (Function.update k entry.rawFd (.pending rest))
        (.inr ⟨peer, rest, hpending, rfl, hnever, Int32.le_refl 0, rfl, rfl⟩)
      rw [toNat_ofNat_length peer.short] at hkept
      exact (hkept.resolve_left hgone).2 hfits
    · rintro h ⟨rc, data, stored⟩ k' (⟨-, rfl | ⟨hlate, peer, rest, hpending, -⟩⟩ | ⟨peer, rest, hpending, rfl, -, hrc, -, rfl⟩)
      · exact .inl rfl
      · exact absurd hlate (h addrLen hword peer rest hpending).1
      · rw [toNat_ofNat_length peer.short]
        exact .inr ⟨Int32.not_lt.mpr hrc, (h addrLen hword peer rest hpending).2⟩

end

/-! ### On Windows -/

section
open Windows

variable {lost : Bool} {e : Export} {a : AppState Windows.HostSocket} {k : (Windows.Socket → SocketInbox) × Int32} {fd : Int32}
  {entry : Windows.HostSocket} {P : (Windows.Socket → SocketInbox) → Prop}

/-- The error of a failed call is returned, if there is one. -/
theorem wp_windows_failed :
    wp (machine (inboxes lost)) negLastSocketErrno (fun _ o s' => OnError (P s'.2.2.1) o) (e, a, k) ↔ (k.2 ≠ 0 → P k.1) := by
  rw [wp_negLastSocketErrno]
  constructor
  · intro h herr
    exact h k.2 k ⟨rfl, rfl⟩ _ rfl (neg_socketErrno_lt_zero herr)
  · rintro h code k' ⟨rfl, rfl⟩ rc ⟨⟩ hneg
    refine h ?_
    rintro herr
    rw [herr] at hneg
    exact absurd hneg (by decide)

/-- A count as WinSock returns it ... -/
theorem asUsize_ofNat {m : Nat} (h : m < 2 ^ 31) : asUsize (Int32.ofNat m) = m := by
  rw [asUsize, Int32.toInt_ofNat_of_lt h]
  omega

/-- ... is not its mark of an error. -/
theorem ofNat_ne_socketError {m : Nat} (h : m < 2 ^ 31) : Int32.ofNat m ≠ socketError := by
  intro hsame
  have hcount := asUsize_ofNat h
  rw [hsame, show asUsize socketError = 2 ^ 64 - 1 by decide] at hcount
  omega

/-- A count that fits the buffer is not negative. -/
theorem nonneg_of_asUsize {rc : Int32} {n : Nat} (hn : n ≤ maxIoLen) (h : asUsize rc ≤ n) : 0 ≤ rc := by
  have hmax : maxIoLen = 16777216 := rfl
  have hzero : (0 : Int32).toInt = 0 := by decide
  have hlow := rc.le_toInt
  unfold asUsize at h
  rw [Int32.le_iff_toInt_le, hzero]
  have hmin : Int32.minValue.toInt = -2 ^ 31 := by decide
  omega

/-- A sender has room in the address buffer. -/
def SenderFits (room : Option Nat) (sender : Option PeerAddr) : Prop :=
  ∀ peer len, sender = some peer → room = some len → peer.bytes.length ≤ len

/-- Every answer of WinSock can be written to the guest, if what is next fits the buffers and can be. -/
theorem windows_answers_iff (lost : Bool) {q : SocketInbox} {n : Nat} {flags : Int32} (room : Option Nat) (hn : n ≤ maxIoLen)
    (hpeek : flags &&& msgPeek = 0) {R : Nat → Option PeerAddr → Prop} (hmono : ∀ m m' sender, R m sender → m' ≤ m → R m' sender) :
    (∀ rc data sender q' err, Receives lost q n flags room rc data sender q' err → q' = q ∨ (rc = socketError ∧ err = 0) ∨
      rc ≠ socketError ∧ SenderFits room sender ∧ (asUsize rc ≤ n → R (asUsize rc) sender)) ↔
      (∀ size sender, q.next n = some (size, sender) →
        (lost = true → SenderFits room sender) ∧ (SenderFits room sender → size ≤ n ∧ R size sender)) := by
  have hmax : maxIoLen = 16777216 := rfl
  have herror {q' : SocketInbox} {err : Int32} {A : Prop} (hne : q' ≠ q) (herr : err ≠ 0) :
      ¬((if flags &&& msgPeek = 0 then q' else q) = q ∨ (socketError = socketError ∧ err = 0) ∨ socketError ≠ socketError ∧ A) := by
    rw [if_pos hpeek]
    rintro (hsame | ⟨-, hzero⟩ | ⟨hneq, -⟩)
    · exact hne hsame
    · exact herr hzero
    · exact hneq rfl
  constructor
  · intro h size sender hnext
    obtain ⟨taken, q', hgives, rfl, hne⟩ := Inbox.exists_gives hnext
    constructor
    · rintro hlost peer len rfl hroom
      by_contra hlong
      exact herror hne (by decide) (h _ [] _ _ _ (.fault hlost hgives hroom (Nat.not_le.mp hlong)))
    · intro hfits
      have hshort : taken.length ≤ n := by
        by_contra hlong
        exact herror hne (by decide) (h _ _ _ _ _ (.long hgives hfits (Nat.not_le.mp hlong)))
      refine ⟨hshort, ?_⟩
      have htakes := h _ _ _ _ 0 (.takes hgives hfits hshort)
      rw [if_pos hpeek, asUsize_ofNat (by omega)] at htakes
      rcases htakes with hsame | ⟨hfailed, -⟩ | ⟨-, -, hroom⟩
      · exact absurd hsame hne
      · exact absurd hfailed (ofNat_ne_socketError (by omega))
      · exact hroom hshort
  · intro h rc data sender q' err hreceives
    cases hreceives with
    | fails => exact .inl rfl
    | fault hlost hgives hroom hlong =>
      rw [if_pos hpeek]
      rcases hgives.next with hsame | ⟨size, hnext, -⟩
      · exact .inl hsame
      · exact absurd ((h _ _ hnext).1 hlost _ _ rfl hroom) (Nat.not_le.mpr hlong)
    | long hgives hfits hlong =>
      rw [if_pos hpeek]
      rcases hgives.next with hsame | ⟨size, hnext, hle, -⟩
      · exact .inl hsame
      · have hshort := ((h _ _ hnext).2 hfits).1
        omega
    | takes hgives hfits hshort =>
      rw [if_pos hpeek]
      rcases hgives.next with hsame | ⟨size, hnext, hle, -⟩
      · exact .inl hsame
      · have hroom := ((h _ _ hnext).2 hfits).2
        rw [asUsize_ofNat (by omega)]
        exact .inr (.inr ⟨ofNat_ne_socketError (by omega), hfits, fun _ => hmono _ _ _ hroom hle⟩)

/-- What `recv` returns on Windows, by the answer of WinSock and the room in guest memory. -/
theorem wp_windows_recv (hfd : a.sockets.find fd = some entry) (bufPtr flags : Int32) {len : Int32} {n : Nat}
    (hlen : checkedLen len = .ok n) :
    wp (machine (inboxes lost)) (Windows.recv fd bufPtr len flags) (fun _ o s' => OnError (P s'.2.2.1) o) (e, a, k) ↔
    ∀ (answer : RecvAnswer) k', inboxes lost k (.recv entry.rawSocket n (normalizeMessageFlags flags)) answer k' →
      P k'.1 ∨ (answer.rc = socketError ∧ k'.2 = 0) ∨
        answer.rc ≠ socketError ∧ (asUsize answer.rc ≤ n → e.Room bufPtr (asUsize answer.rc)) := by
  simp only [Windows.recv, wp_bind, wp_get, hfd, okOrEbadf, wpNext_returned, Prog.pure_eq, Prog.ret_bind, hlen, wp_alloc, wp_ws]
  refine forall_congr' fun answer => forall_congr' fun k' => imp_congr_right fun _ => ?_
  split
  · rename_i hrc
    rw [wp_windows_failed (P := P)]
    tauto
  · rename_i hrc
    refine (wp_sliced (onInboxes (P ∘ Prod.fst))).trans ?_
    rw [length_fill]
    by_cases hm : asUsize answer.rc ≤ n
    · rw [wp_delivered (onInboxes (P ∘ Prod.fst)) fun errno e' => by exact onError_negErrno, length_take_fill hm]
      have hdone : OnError (P k'.1) (.returned answer.rc) := onError_of_nonneg (nonneg_of_asUsize (checkedLen_le hlen) hm)
      simp only [onInboxes, Function.comp, wp_ret, hdone]
      tauto
    · tauto

/-- A length word that was read has its four bytes. -/
theorem room_of_sockaddrLen {ptr : Int32} {addrLen : Nat} (h : (e.readU32 ptr).bind checkedSockaddrLen = .ok addrLen) : e.Room ptr 4 := by
  cases hword : e.readU32 ptr with
  | error errno =>
    rw [hword] at h
    cases h
  | ok word => exact Export.room_of_readU32 hword

/-- What `recvfrom` returns on Windows, by the answer of WinSock and the room in guest memory. -/
theorem wp_windows_recvfrom (hfd : a.sockets.find fd = some entry) (bufPtr flags addrPtr : Int32) {len addrLenPtr : Int32} {n addrLen : Nat}
    (hlen : checkedLen len = .ok n) (hword : (e.readU32 addrLenPtr).bind checkedSockaddrLen = .ok addrLen) :
    wp (machine (inboxes lost)) (Windows.recvfrom fd bufPtr len flags addrPtr addrLenPtr) (fun _ o s' => OnError (P s'.2.2.1) o) (e, a, k) ↔
    ∀ (answer : RecvfromAnswer) k',
      inboxes lost k (.recvfrom entry.rawSocket n (normalizeMessageFlags flags) (Int32.ofNat addrLen)) answer k' →
      P k'.1 ∨ (answer.rc = socketError ∧ k'.2 = 0) ∨ answer.rc ≠ socketError ∧ ¬(answer.addrLen < 0 ∨ asUsize answer.addrLen > addrLen) ∧
        (asUsize answer.rc ≤ n → e.Room bufPtr (asUsize answer.rc) ∧ e.Room addrPtr (asUsize answer.addrLen)) := by
  simp only [Windows.recvfrom, wp_bind, wp_get, hfd, okOrEbadf, wpNext_returned, Prog.pure_eq, Prog.ret_bind, hlen, wp_readSockaddrLen,
    hword, wp_alloc, wp_ws, denormalizeSockaddrForGuest]
  refine forall_congr' fun answer => forall_congr' fun k' => imp_congr_right fun _ => ?_
  split
  · rename_i hrc
    rw [wp_windows_failed (P := P)]
    tauto
  · rename_i hrc
    split
    · rename_i hstored
      rw [wp_ret, onError_negErrno]
      tauto
    · rename_i hstored
      refine (wp_sliced (onInboxes (P ∘ Prod.fst))).trans ?_
      rw [length_fill]
      by_cases hm : asUsize answer.rc ≤ n
      · have haddr : asUsize answer.addrLen ≤ addrLen := by omega
        rw [wp_delivered (onInboxes (P ∘ Prod.fst)) fun errno e' => by exact onError_negErrno, length_take_fill hm,
          wp_sliced (onInboxes (P ∘ Prod.fst)), length_addr,
          wp_delivered (onInboxes (P ∘ Prod.fst)) fun errno e' => by exact onError_negErrno, length_take_addr haddr,
          Export.room_afterWrite, wp_wordDelivered (onInboxes (P ∘ Prod.fst))
            (Export.room_afterWrite.mpr (Export.room_afterWrite.mpr (room_of_sockaddrLen hword)))]
        have hdone : OnError (P k'.1) (.returned answer.rc) := onError_of_nonneg (nonneg_of_asUsize (checkedLen_le hlen) hm)
        simp only [onInboxes, Function.comp, wp_ret, hdone]
        tauto
      · tauto

/-- The accepted socket is closed. -/
theorem wp_windows_closed (rawSocket : Windows.Socket) (errno : Errno) :
    wp (machine (inboxes lost)) (ws (.closesocket rawSocket) >>= fun _ => Prog.ret (negErrno errno))
      (fun _ o s' => OnError (P s'.2.2.1) o) (e, a, k) ↔ P k.1 := by
  rw [wp_bind, wp_ws]
  constructor
  · intro h
    exact onError_negErrno.mp (h 0 k rfl)
  · intro h rc k' hk'
    rw [wpNext_returned, wp_ret, onError_negErrno]
    rw [show k'.1 = k.1 from hk']
    exact h

/-- What `accept` returns on Windows, by the answer of WinSock and the room in guest memory. -/
theorem wp_windows_accept (hfd : a.sockets.find fd = some entry) (addrPtr : Int32) {addrLenPtr : Int32} {addrLen : Nat}
    (hword : (e.readU32 addrLenPtr).bind checkedSockaddrLen = .ok addrLen) :
    wp (machine (inboxes lost)) (Windows.accept fd addrPtr addrLenPtr) (fun _ o s' => OnError (P s'.2.2.1) o) (e, a, k) ↔
    ∀ (answer : AcceptAnswer) k', inboxes lost k (.accept entry.rawSocket (Int32.ofNat addrLen)) answer k' →
      P k'.1 ∨ (answer.accepted = invalidSocket ∧ k'.2 = 0) ∨
        answer.accepted ≠ invalidSocket ∧ ¬(answer.len < 0 ∨ asUsize answer.len > addrLen) ∧ e.Room addrPtr (asUsize answer.len) := by
  simp only [Windows.accept, wp_bind, wp_get, hfd, okOrEbadf, wpNext_returned, Prog.pure_eq, Prog.ret_bind, wp_readSockaddrLen,
    hword, wp_alloc, wp_ws, denormalizeSockaddrForGuest]
  refine forall_congr' fun answer => forall_congr' fun k' => imp_congr_right fun _ => ?_
  split
  · rename_i hinvalid
    rw [wp_windows_failed (P := P)]
    tauto
  · rename_i hvalid
    split
    · rename_i hstored
      refine (wp_windows_closed (P := P) answer.accepted .eio).trans ?_
      tauto
    · rename_i hstored
      have haddr : asUsize answer.len ≤ addrLen := by omega
      refine (wp_sliced (onInboxes (P ∘ Prod.fst))).trans ?_
      rw [length_addr, wp_delivered (onInboxes (P ∘ Prod.fst)) fun errno e' => by exact wp_windows_closed (P := P) answer.accepted errno,
        length_take_addr haddr, wp_wordDelivered (onInboxes (P ∘ Prod.fst)) (Export.room_afterWrite.mpr (room_of_sockaddrLen hword))]
      have hdone : OnError (P k'.1) (.returned a.sockets.next) := onError_of_nonneg (Int32.le_trans (by decide) a.sockets.base_le)
      simp only [onInboxes, Function.comp, wp_insert, hdone]
      tauto

/-- WinSock sees no MSG_PEEK that the guest has not asked for. -/
theorem normalizeMessageFlags_peek {flags : Int32} (h : flags &&& msgPeek = 0) : normalizeMessageFlags flags &&& msgPeek = 0 := by
  rw [show normalizeMessageFlags flags = 0 from h]
  decide

/-- `recv` on Windows. -/
theorem windows_recv_iff (hfd : a.sockets.find fd = some entry) (bufPtr len flags : Int32) (hpeek : flags &&& msgPeek = 0) :
    wp (machine (inboxes lost)) (Windows.recv fd bufPtr len flags)
      (fun _ o s' => OnError (s'.2.2.1 entry.rawSocket = k.1 entry.rawSocket) o) (e, a, k) ↔
      RoomFor lost e (k.1 entry.rawSocket) (.recv fd bufPtr len flags) := by
  cases hlen : checkedLen len with
  | error errno =>
    refine iff_of_true ?_ fun n hn => by cases hlen.symm.trans hn
    simp only [Windows.recv, wp_bind, wp_get, hfd, okOrEbadf, wpNext_returned, Prog.pure_eq, Prog.ret_bind, hlen]
    exact onError_negErrno.mpr rfl
  | ok n =>
    have hanswers := windows_answers_iff lost (q := k.1 entry.rawSocket) none (checkedLen_le hlen)
      (normalizeMessageFlags_peek hpeek) (R := fun m _ => e.Room bufPtr m) fun m m' _ hroom hm => hroom.mono hm
    have hfits (sender : Option PeerAddr) : SenderFits none sender := fun _ _ _ h => by cases h
    rw [wp_windows_recv (P := fun k' => k' entry.rawSocket = k.1 entry.rawSocket) hfd bufPtr flags hlen]
    constructor
    · intro h n' hn' size sender hnext
      cases hlen.symm.trans hn'
      refine ((hanswers.mp fun rc data sender q' err hreceives => ?_) size sender hnext).2 (hfits sender)
      have hkept := h ⟨rc, data⟩ (Function.update k.1 entry.rawSocket q', err) ⟨sender, q', hreceives, rfl⟩
      simp only [Function.update_self] at hkept
      have hsender := hfits sender
      tauto
    · rintro h answer k' ⟨sender, q', hreceives, hk'⟩
      rw [hk', Function.update_self]
      have hkept := hanswers.mpr
        (fun size sender hnext => ⟨fun _ => hfits sender, fun _ => h n hlen size sender hnext⟩) _ _ sender q' _ hreceives
      tauto

/-- A length that has passed the check is not large. -/
theorem le_of_sockaddrLen {ptr : Int32} {addrLen : Nat}
    (h : (e.readU32 ptr).bind checkedSockaddrLen = .ok addrLen) : addrLen ≤ maxIoLen := by
  cases hword : e.readU32 ptr with
  | error errno =>
    rw [hword] at h
    cases h
  | ok word =>
    rw [hword] at h
    have hlen : checkedSockaddrLen word = .ok addrLen := h
    unfold checkedSockaddrLen at hlen
    split at hlen
    · cases hlen
    · exact checkedLen_le hlen

/-- The length stored is the one reported. -/
theorem storedLen_spec {addrLen : Nat} (haddrLen : addrLen ≤ maxIoLen) (sender : Option PeerAddr) :
    asUsize (storedLen (Int32.ofNat addrLen) sender) = reportedLen addrLen sender ∧ 0 ≤ storedLen (Int32.ofNat addrLen) sender ∧
      (SenderFits (some (Int32.ofNat addrLen).toNatClampNeg) sender ↔ reportedLen addrLen sender ≤ addrLen) := by
  have hmax : maxIoLen = 16777216 := rfl
  rw [Int32.toNatClampNeg_ofNat_of_lt (by omega)]
  cases sender with
  | none => exact ⟨asUsize_ofNat (by omega), (i32TryFromUsize_of_le haddrLen).2.1, iff_of_true nofun (Nat.le_refl _)⟩
  | some peer =>
    have hshort := peer.short
    refine ⟨asUsize_ofNat (by omega), (i32TryFromUsize_of_le (by omega)).2.1, ?_⟩
    constructor
    · intro h
      exact h peer addrLen rfl rfl
    · rintro h peer' len ⟨⟩ ⟨⟩
      exact h

/-- `recvfrom` on Windows. -/
theorem windows_recvfrom_iff (hfd : a.sockets.find fd = some entry) (bufPtr len flags addrPtr addrLenPtr : Int32)
    (hpeek : flags &&& msgPeek = 0) :
    wp (machine (inboxes lost)) (Windows.recvfrom fd bufPtr len flags addrPtr addrLenPtr)
      (fun _ o s' => OnError (s'.2.2.1 entry.rawSocket = k.1 entry.rawSocket) o) (e, a, k) ↔
      RoomFor lost e (k.1 entry.rawSocket) (.recvfrom fd bufPtr len flags addrPtr addrLenPtr) := by
  cases hlen : checkedLen len with
  | error errno =>
    refine iff_of_true ?_ fun n hn => by cases hlen.symm.trans hn
    simp only [Windows.recvfrom, wp_bind, wp_get, hfd, okOrEbadf, wpNext_returned, Prog.pure_eq, Prog.ret_bind, hlen]
    exact onError_negErrno.mpr rfl
  | ok n =>
    cases hword : (e.readU32 addrLenPtr).bind checkedSockaddrLen with
    | error errno =>
      refine iff_of_true ?_ fun n hn addrLen haddrLen => by cases hword.symm.trans haddrLen
      simp only [Windows.recvfrom, wp_bind, wp_get, hfd, okOrEbadf, wpNext_returned, Prog.pure_eq, Prog.ret_bind, hlen, wp_readSockaddrLen,
        hword]
      exact onError_negErrno.mpr rfl
    | ok addrLen =>
      have hstored := storedLen_spec (le_of_sockaddrLen hword)
      have hanswers := windows_answers_iff lost (q := k.1 entry.rawSocket) (some (Int32.ofNat addrLen).toNatClampNeg) (checkedLen_le hlen)
        (normalizeMessageFlags_peek hpeek) (R := fun m sender => e.Room bufPtr m ∧ e.Room addrPtr (reportedLen addrLen sender))
        fun m m' _ hroom hm => ⟨hroom.1.mono hm, hroom.2⟩
      rw [wp_windows_recvfrom (P := fun k' => k' entry.rawSocket = k.1 entry.rawSocket) hfd bufPtr flags addrPtr hlen hword]
      constructor
      · intro h n' hn' addrLen' haddrLen' size sender hnext
        cases hlen.symm.trans hn'
        cases hword.symm.trans haddrLen'
        rw [← (hstored sender).2.2]
        refine (hanswers.mp fun rc data sender q' err hreceives => ?_) size sender hnext
        have hkept := h ⟨rc, data, senderBytes sender, storedLen (Int32.ofNat addrLen) sender⟩
          (Function.update k.1 entry.rawSocket q', err) ⟨sender, q', hreceives, rfl, rfl, rfl⟩
        simp only [Function.update_self, (hstored sender).1, not_or, Nat.not_lt] at hkept
        rw [(hstored sender).2.2]
        tauto
      · rintro h ⟨rc, data, addr, stored⟩ k' ⟨sender, q', hreceives, hk', -, rfl⟩
        have hkept := hanswers.mpr (fun size sender hnext => ?_) _ _ sender q' _ hreceives
        · simp only [hk', Function.update_self, (hstored sender).1, not_or, Nat.not_lt]
          rw [(hstored sender).2.2] at hkept
          have hnonneg := (hstored sender).2.1
          rw [Int32.not_lt]
          tauto
        · rw [(hstored sender).2.2]
          exact h n hlen addrLen hword size sender hnext

/-- `accept` on Windows. -/
theorem windows_accept_iff (hfd : a.sockets.find fd = some entry) (addrPtr addrLenPtr : Int32) :
    wp (machine (inboxes lost)) (Windows.accept fd addrPtr addrLenPtr)
      (fun _ o s' => OnError (s'.2.2.1 entry.rawSocket = k.1 entry.rawSocket) o) (e, a, k) ↔
      RoomFor lost e (k.1 entry.rawSocket) (.accept fd addrPtr addrLenPtr) := by
  cases hword : (e.readU32 addrLenPtr).bind checkedSockaddrLen with
  | error errno =>
    refine iff_of_true ?_ fun addrLen haddrLen => by cases hword.symm.trans haddrLen
    simp only [Windows.accept, wp_bind, wp_get, hfd, okOrEbadf, wpNext_returned, Prog.pure_eq, Prog.ret_bind, wp_readSockaddrLen, hword]
    exact onError_negErrno.mpr rfl
  | ok addrLen =>
    have hmax : maxIoLen = 16777216 := rfl
    have haddrLen := le_of_sockaddrLen hword
    have hroom : (Int32.ofNat addrLen).toNatClampNeg = addrLen := Int32.toNatClampNeg_ofNat_of_lt (by omega)
    have hgone {peer : PeerAddr} {rest : List PeerAddr} (hpending : k.1 entry.rawSocket = .pending (peer :: rest)) :
        Function.update k.1 entry.rawSocket (.pending rest) entry.rawSocket ≠ k.1 entry.rawSocket := by
      rw [Function.update_self, hpending]
      exact fun hsame => List.ne_cons_self (Inbox.pending.inj hsame)
    rw [wp_windows_accept (P := fun k' => k' entry.rawSocket = k.1 entry.rawSocket) hfd addrPtr hword]
    constructor
    · intro h addrLen' haddrLen' peer rest hpending
      cases hword.symm.trans haddrLen'
      have hshort := peer.short
      constructor
      · intro hlost
        by_contra hlong
        have hkept := h ⟨invalidSocket, [], 0⟩ (Function.update k.1 entry.rawSocket (.pending rest), wsaefault)
          (.inl ⟨rfl, show wsaefault ≠ 0 by decide, .inr ⟨peer, rest, hpending, hlost, by omega, rfl⟩⟩)
        rcases hkept with hsame | ⟨-, hzero⟩ | ⟨hvalid, -⟩
        · exact hgone hpending hsame
        · exact (show wsaefault ≠ 0 by decide) hzero
        · exact hvalid rfl
      · intro hfits
        have hkept := h ⟨0, peer.bytes, Int32.ofNat peer.bytes.length⟩ (Function.update k.1 entry.rawSocket (.pending rest), 0)
          (.inr ⟨peer, rest, hpending, rfl, show (0 : Windows.Socket) ≠ invalidSocket by decide, by omega, rfl, rfl⟩)
        rcases hkept with hsame | ⟨hinvalid, -⟩ | ⟨-, -, hroom⟩
        · exact absurd hsame (hgone hpending)
        · exact absurd hinvalid (show (0 : Windows.Socket) ≠ invalidSocket by decide)
        · rwa [asUsize_ofNat (by omega)] at hroom
    · rintro h ⟨accepted, data, stored⟩ k'
        (⟨-, -, hsame | ⟨peer, rest, hpending, hlost, hlong, -⟩⟩ | ⟨peer, rest, hpending, -, hvalid, hfits, -, rfl⟩)
      · exact .inl (congrFun hsame _)
      · have := (h addrLen hword peer rest hpending).1 hlost
        omega
      · have hshort := peer.short
        rw [hroom] at hfits
        rw [asUsize_ofNat (by omega)]
        refine .inr (.inr ⟨hvalid, ?_, (h addrLen hword peer rest hpending).2 hfits⟩)
        rw [not_or, Int32.not_lt, Nat.not_lt]
        exact ⟨(i32TryFromUsize_of_le (by omega)).2.1, hfits⟩

end

end FailedReceivesAux

/-! ## Every host -/

/-- A socket module over a host with inboxes, and what has to fit there. -/
structure ReceivingHost where
  Entry : Type
  Change : Type
  apply : Change → Entry → Entry
  Net : Sig
  Kernel : Type
  kernel : Machine Net Kernel
  prog : SocketImport → Prog (GuestMem.sum (SocketSig Entry Change Net)) Int32
  inbox : Kernel → Entry → SocketInbox
  RoomFor : Export → SocketInbox → SocketImport → Prop

/-- The machine of the module. -/
abbrev ReceivingHost.machine (H : ReceivingHost) :
    Machine (GuestMem.sum (SocketSig H.Entry H.Change H.Net)) (Export × (AppState H.Entry × H.Kernel)) :=
  socketMachine guestMachine H.apply H.kernel

/-- A Unix host. -/
@[reducible] def unixReceiving (lc : Libc) (fl : RecvFlags) : ReceivingHost where
  Entry := Unix.HostSocket
  Change := Empty
  apply := Empty.elim
  Net := Unix.Net
  Kernel := Int32 → SocketInbox
  kernel := Unix.inboxes fl
  prog := Unix.prog lc
  inbox k entry := k entry.rawFd
  RoomFor := Unix.RoomFor fl

/-- Windows. -/
@[reducible] def windowsReceiving (lost : Bool) : ReceivingHost where
  Entry := Windows.HostSocket
  Change := Int32
  apply := Windows.HostSocket.setStatusFlags
  Net := Windows.Net
  Kernel := (Windows.Socket → SocketInbox) × Int32
  kernel := Windows.inboxes lost
  prog := Windows.prog
  inbox k entry := k.1 entry.rawSocket
  RoomFor := Windows.RoomFor lost

/-- What differs from protocol to protocol or is not documented: whether a message is taken on MSG_OOB, whether WinSock has taken one whose
sender has no room in the address buffer, and whether macOS has when the address length is one from 2 ^ 31 on. -/
structure ReceivePolicy where
  lost : Bool
  oobMessages : Bool
  late : Bool

/-- Each host. -/
@[reducible] def HostOs.receiving (policy : ReceivePolicy) : HostOs → ReceivingHost
  | .linux => unixReceiving WasmtimeMysql.linux (linuxRecvFlags policy.oobMessages)
  | .macos => unixReceiving WasmtimeMysql.macos (macosRecvFlags policy.oobMessages policy.late)
  | .windows => windowsReceiving policy.lost

/-- The imports that take something from the inbox of a socket: `recv` and `recvfrom` without MSG_PEEK, and `accept`. -/
def SocketImport.TakesFrom (fd : Int32) : SocketImport → Prop
  | .recv fd' _ _ flags => fd' = fd ∧ flags &&& msgPeek = 0
  | .recvfrom fd' _ _ flags _ _ => fd' = fd ∧ flags &&& msgPeek = 0
  | .accept fd' _ _ => fd' = fd
  | _ => False

open FailedReceivesAux in
/-- A receive that returns an error has taken nothing, whatever the host does, exactly when what is next in the inbox fits: the guest's
memory has room for it where the import will write it, on Windows the buffers have room for the whole of it, and on Linux the length of the
address is no late error. -/
theorem keeps_iff (os : HostOs) (policy : ReceivePolicy) (e : Export) (a : AppState (os.receiving policy).Entry)
    (k : (os.receiving policy).Kernel) (fd : Int32) (entry : (os.receiving policy).Entry) (hfd : a.sockets.find fd = some entry)
    (c : SocketImport) (hc : c.TakesFrom fd) :
    (∀ tr rc s', Runs (os.receiving policy).machine ((os.receiving policy).prog c) (e, a, k) tr (.returned rc) s' → rc < 0 →
      (os.receiving policy).inbox s'.2.2 entry = (os.receiving policy).inbox k entry) ↔
    (os.receiving policy).RoomFor e ((os.receiving policy).inbox k entry) c := by
  have hunix (lc : Libc) (fl : RecvFlags) (a : AppState Unix.HostSocket) (k : Int32 → SocketInbox) (entry : Unix.HostSocket)
      (hfd : a.sockets.find fd = some entry) : wp (Unix.machine (Unix.inboxes fl)) (Unix.prog lc c)
        (fun _ o s' => OnError (s'.2.2 entry.rawFd = k entry.rawFd) o) (e, a, k) ↔ Unix.RoomFor fl e (k entry.rawFd) c := by
    cases c with
    | recv _ bufPtr len flags =>
      obtain ⟨rfl, hpeek⟩ := hc
      exact unix_recv_iff lc hfd bufPtr len flags hpeek
    | recvfrom _ bufPtr len flags addrPtr addrLenPtr =>
      obtain ⟨rfl, hpeek⟩ := hc
      exact unix_recvfrom_iff lc hfd bufPtr len flags addrPtr addrLenPtr hpeek
    | accept _ addrPtr addrLenPtr =>
      cases hc
      exact unix_accept_iff lc hfd addrPtr addrLenPtr
    | _ => exact hc.elim
  rw [forall_runs_iff]
  cases os with
  | linux => exact hunix linux (linuxRecvFlags policy.oobMessages) a k entry hfd
  | macos => exact hunix macos (macosRecvFlags policy.oobMessages policy.late) a k entry hfd
  | windows =>
    cases c with
    | recv _ bufPtr len flags =>
      obtain ⟨rfl, hpeek⟩ := hc
      exact windows_recv_iff hfd bufPtr len flags hpeek
    | recvfrom _ bufPtr len flags addrPtr addrLenPtr =>
      obtain ⟨rfl, hpeek⟩ := hc
      exact windows_recvfrom_iff hfd bufPtr len flags addrPtr addrLenPtr hpeek
    | accept _ addrPtr addrLenPtr =>
      cases hc
      exact windows_accept_iff hfd addrPtr addrLenPtr
    | _ => exact hc.elim

namespace FailedReceivesAux

/-- A Linux host with sockets of UDP or TCP. -/
abbrev linuxHost : ReceivingHost := unixReceiving linux (linuxRecvFlags true)

/-- A guest memory of eight bytes. -/
def eightBytes : Export := .memory (List.replicate 8 0)

/-- A table with one socket. -/
def oneStream : AppState Unix.HostSocket := ⟨true, ((FdTable.empty socketFdBase Unix.HostSocket).insert ⟨7, 2, 2⟩).2⟩

/-- Its stream has two bytes. -/
def twoBytes : Int32 → SocketInbox := fun _ => .stream none [104, 105]

/-- The bytes are taken and the guest has no room for them. -/
theorem runs_lost : Runs linuxHost.machine (linuxHost.prog (.recv socketFdBase 8 2 0))
    (eightBytes, oneStream, twoBytes)
    [⟨.inr (.inl (.sockets (.get socketFdBase))), some ⟨7, 2, 2⟩⟩, ⟨.inl (.alloc 2), ()⟩,
      ⟨.inr (.inr (.recv 7 2 0)), (⟨2, [104, 105]⟩ : Unix.RecvAnswer)⟩, ⟨.inl (.writeGuest 8 [104, 105]), .error .efault⟩]
    (.returned (negErrno .efault)) (eightBytes, oneStream, Function.update twoBytes 7 (.stream none [])) := by
  have hgives : Inbox.Gives 2 (twoBytes 7) [104, 105] none (.stream none []) :=
    .bytes (m := 2) (Nat.le_refl 2) (Nat.le_refl 2) nofun
  have htakes : Unix.Receives (linuxRecvFlags true) False (twoBytes 7) 2 0 2 [104, 105] none (.stream none []) :=
    .takes not_false ⟨rfl, .inl rfl⟩ hgives fun _ => rfl
  refine .via (eightBytes, oneStream, twoBytes) ⟨⟨rfl, rfl⟩, rfl⟩ (.via (eightBytes, oneStream, twoBytes) ⟨rfl, rfl⟩ ?_)
  refine .via (eightBytes, oneStream, Function.update twoBytes 7 (.stream none [])) ⟨⟨⟨none, _, htakes, rfl⟩, rfl⟩, rfl⟩ ?_
  refine .via (eightBytes, oneStream, Function.update twoBytes 7 (.stream none [])) ⟨rfl, rfl⟩ ?_
  exact .ret _ _

end FailedReceivesAux

open FailedReceivesAux in
/-- Room for two bytes at address 0. -/
theorem keeps_two_bytes : oneStream.sockets.find socketFdBase = some ⟨7, 2, 2⟩ ∧
    ∀ tr rc s', Runs linuxHost.machine (linuxHost.prog (.recv socketFdBase 0 2 0))
      (eightBytes, oneStream, twoBytes) tr (.returned rc) s' → rc < 0 → s'.2.2 7 = twoBytes 7 := by
  refine ⟨rfl,
    (keeps_iff .linux ⟨false, true, false⟩ eightBytes oneStream twoBytes socketFdBase ⟨7, 2, 2⟩ rfl (.recv socketFdBase 0 2 0)
      ⟨rfl, by decide⟩).mpr ?_⟩
  rintro n ⟨⟩ - size sender ⟨⟩ -
  exact ⟨trivial, by decide, by decide, by decide⟩

open FailedReceivesAux in
/-- Two bytes are received and are gone: the guest's buffer is at the end of its memory, and the guest gets EFAULT. -/
theorem not_keeps_two_bytes : ¬∀ (os : HostOs) (policy : ReceivePolicy) (e : Export) (a : AppState (os.receiving policy).Entry)
    (k : (os.receiving policy).Kernel) (fd : Int32) (entry : (os.receiving policy).Entry), a.sockets.find fd = some entry →
    ∀ c : SocketImport, c.TakesFrom fd →
      ∀ tr rc s', Runs (os.receiving policy).machine ((os.receiving policy).prog c) (e, a, k) tr (.returned rc) s' →
      rc < 0 → (os.receiving policy).inbox s'.2.2 entry = (os.receiving policy).inbox k entry := by
  intro h
  have hkept := h .linux ⟨false, true, false⟩ eightBytes oneStream twoBytes socketFdBase ⟨7, 2, 2⟩ rfl (.recv socketFdBase 8 2 0)
    ⟨rfl, by decide⟩ _ _ _ runs_lost (negErrno_lt_zero .efault)
  cases hkept

end WasmtimeMysql
