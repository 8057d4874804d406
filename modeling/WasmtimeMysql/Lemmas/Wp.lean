import WasmtimeMysql.HostSocketsWindows
import WasmtimeMysql.Lemmas.Memory

/-!
# Preconditions of the commands

What each access to guest memory, each table operation and each call to the host needs, as a precondition: the rules that step
through an import. Guest memory is the machine `guestMachine`; the host side is any machine.
-/

namespace WasmtimeMysql

open Effects Bytes

section
variable {H : Sig} {τ : Type} {N : Machine H τ} {e : Export} {t : τ}

/-- An access to guest memory. -/
theorem wp_guest {c : GuestMem.Cmd} {Q : List (Event (GuestMem.sum H)) → Outcome c.Resp → Export × τ → Prop} :
    wp (guestMachine.sum N) (.cmd (S := GuestMem.sum H) (.inl c)) Q (e, t) ↔
      Q [⟨.inl c, (e.handle c).1⟩] (.returned (e.handle c).1) ((e.handle c).2, t) := by
  exact wp_inl.trans Machine.forall_det

/-- `read_guest` answers what is in guest memory. -/
@[simp] theorem wp_readGuest {ptr len : Int32}
    {Q : List (Event (GuestMem.sum H)) → Outcome (Except Errno (List UInt8)) → Export × τ → Prop} :
    wp (guestMachine.sum N) (readGuest ptr len) Q (e, t) ↔
      Q [⟨.inl (.readGuest ptr len), e.readGuest ptr len⟩] (.returned (e.readGuest ptr len)) (e, t) := wp_guest

/-- `write_guest` leaves guest memory with the bytes, if they fit. -/
@[simp] theorem wp_writeGuest {ptr : Int32} {bytes : List UInt8}
    {Q : List (Event (GuestMem.sum H)) → Outcome (Except Errno Unit) → Export × τ → Prop} :
    wp (guestMachine.sum N) (writeGuest ptr bytes) Q (e, t) ↔
      Q [⟨.inl (.writeGuest ptr bytes), e.writeAnswer ptr bytes⟩] (.returned (e.writeAnswer ptr bytes))
        (e.afterWrite ptr bytes, t) := wp_guest

/-- `write_u32` writes the four bytes of the word. -/
@[simp] theorem wp_writeU32 {ptr : Int32} {value : UInt32}
    {Q : List (Event (GuestMem.sum H)) → Outcome (Except Errno Unit) → Export × τ → Prop} :
    wp (guestMachine.sum N) (writeU32 ptr value) Q (e, t) ↔
      Q [⟨.inl (.writeGuest ptr (leBytes 4 value.toNat)), e.writeAnswer ptr (leBytes 4 value.toNat)⟩]
        (.returned (e.writeAnswer ptr (leBytes 4 value.toNat))) (e.afterWrite ptr (leBytes 4 value.toNat), t) := wp_guest

/-- `read_cstr` answers the string that is in guest memory. -/
@[simp] theorem wp_readCstr {ptr : Int32}
    {Q : List (Event (GuestMem.sum H)) → Outcome (Except Errno (List Char)) → Export × τ → Prop} :
    wp (guestMachine.sum N) (readCstr ptr) Q (e, t) ↔
      Q [⟨.inl (.readCstr ptr), e.readCstr ptr⟩] (.returned (e.readCstr ptr)) (e, t) := wp_guest

/-- An allocation changes nothing. -/
@[simp] theorem wp_alloc {n : Nat} {Q : List (Event (GuestMem.sum H)) → Outcome Unit → Export × τ → Prop} :
    wp (guestMachine.sum N) (alloc n) Q (e, t) ↔ Q [⟨.inl (.alloc n), ()⟩] (.returned ()) (e, t) := wp_guest

/-- A command of the host side. -/
@[simp] theorem wp_host {c : H.Cmd} {Q : List (Event (GuestMem.sum H)) → Outcome (H.Resp c) → Export × τ → Prop} :
    wp (guestMachine.sum N) (host c) Q (e, t) ↔ ∀ r t', N t c r t' → Q [⟨.inr c, r⟩] (.returned r) (e, t') := wp_inr

/-- `read_u32` answers the word of the four bytes there. -/
@[simp] theorem wp_readU32 {ptr : Int32}
    {Q : List (Event (GuestMem.sum H)) → Outcome (Except Errno UInt32) → Export × τ → Prop} :
    wp (guestMachine.sum N) (readU32 ptr) Q (e, t) ↔
      Q [⟨.inl (.readGuest ptr 4), e.readGuest ptr 4⟩] (.returned (e.readU32 ptr)) (e, t) := by
  unfold readU32 Export.readU32
  rw [wp_bind, wp_readGuest]
  cases e.readGuest ptr 4 <;> rfl

/-- A slice is the first bytes, and a panic if there are fewer. -/
@[simp] theorem wp_sliceTo {σ : Type} {M : Machine (GuestMem.sum H) σ} {bytes : List UInt8} {n : Nat} {s : σ}
    {Q : List (Event (GuestMem.sum H)) → Outcome (List UInt8) → σ → Prop} :
    wp M (sliceTo bytes n) Q s ↔ if n ≤ bytes.length then Q [] (.returned (bytes.take n)) s else Q [] .panicked s := by
  unfold sliceTo
  split <;> rfl

end

/-! ## Any memory

The same accesses when guest memory is any machine: the guest's other threads may have changed it, so a read may find anything.
-/

section
variable {H : Sig} {γ τ : Type} {G : Machine GuestMem γ} {N : Machine H τ} {g : γ} {t : τ}

/-- `read_guest` on any memory. -/
theorem wp_readGuest_any {ptr len : Int32}
    {Q : List (Event (GuestMem.sum H)) → Outcome (Except Errno (List UInt8)) → γ × τ → Prop} :
    wp (G.sum N) (readGuest ptr len) Q (g, t) ↔
      ∀ r g', G g (.readGuest ptr len) r g' → Q [⟨.inl (.readGuest ptr len), r⟩] (.returned r) (g', t) := wp_inl

/-- `write_guest` on any memory. -/
theorem wp_writeGuest_any {ptr : Int32} {bytes : List UInt8}
    {Q : List (Event (GuestMem.sum H)) → Outcome (Except Errno Unit) → γ × τ → Prop} :
    wp (G.sum N) (writeGuest ptr bytes) Q (g, t) ↔
      ∀ r g', G g (.writeGuest ptr bytes) r g' → Q [⟨.inl (.writeGuest ptr bytes), r⟩] (.returned r) (g', t) := wp_inl

/-- `write_u32` on any memory. -/
theorem wp_writeU32_any {ptr : Int32} {value : UInt32}
    {Q : List (Event (GuestMem.sum H)) → Outcome (Except Errno Unit) → γ × τ → Prop} :
    wp (G.sum N) (writeU32 ptr value) Q (g, t) ↔
      ∀ r g', G g (.writeGuest ptr (leBytes 4 value.toNat)) r g' →
        Q [⟨.inl (.writeGuest ptr (leBytes 4 value.toNat)), r⟩] (.returned r) (g', t) := wp_inl

/-- `read_cstr` on any memory. -/
theorem wp_readCstr_any {ptr : Int32}
    {Q : List (Event (GuestMem.sum H)) → Outcome (Except Errno (List Char)) → γ × τ → Prop} :
    wp (G.sum N) (readCstr ptr) Q (g, t) ↔
      ∀ r g', G g (.readCstr ptr) r g' → Q [⟨.inl (.readCstr ptr), r⟩] (.returned r) (g', t) := wp_inl

/-- An allocation on any memory. -/
theorem wp_alloc_any {n : Nat} {Q : List (Event (GuestMem.sum H)) → Outcome Unit → γ × τ → Prop} :
    wp (G.sum N) (alloc n) Q (g, t) ↔ ∀ r g', G g (.alloc n) r g' → Q [⟨.inl (.alloc n), r⟩] (.returned r) (g', t) := wp_inl

/-- `read_u32` on any memory. -/
theorem wp_readU32_any {ptr : Int32}
    {Q : List (Event (GuestMem.sum H)) → Outcome (Except Errno UInt32) → γ × τ → Prop} :
    wp (G.sum N) (readU32 ptr) Q (g, t) ↔
      ∀ r g', G g (.readGuest ptr 4) r g' →
        Q [⟨.inl (.readGuest ptr 4), r⟩] (.returned (r.map fun bytes => UInt32.ofNat (ofLeBytes bytes))) (g', t) := by
  unfold readU32
  rw [wp_bind, wp_readGuest_any]
  refine forall_congr' fun r => forall_congr' fun g' => imp_congr_right fun _ => ?_
  cases r <;> rfl

end

/-! ## The sockets -/

/-- The socket imports that hand out descriptors. -/
def SocketImport.Opens : SocketImport → Prop
  | .socket .. => True
  | .accept .. => True
  | _ => False

section
variable {E U : Type} {Net : Sig} {γ κ : Type}

/-- The machine of a socket module over a machine for guest memory and one for its calls to the host. -/
abbrev socketMachine (G : Machine GuestMem γ) (apply : U → E → E) (K : Machine Net κ) :
    Machine (GuestMem.sum (SocketSig E U Net)) (γ × (AppState E × κ)) :=
  G.sum ((AppState.machine apply).sum K)

variable {G : Machine GuestMem γ} {apply : U → E → E} {K : Machine Net κ} {g : γ} {a : AppState E} {k : κ}

/-- A command on the application state. -/
theorem wp_appState {c : AppState.Cmd E U}
    {Q : List (Event (GuestMem.sum (SocketSig E U Net))) → Outcome c.Resp → γ × (AppState E × κ) → Prop} :
    wp (socketMachine G apply K) (host (H := SocketSig E U Net) (.inl c)) Q (g, a, k) ↔
      Q [⟨.inr (.inl c), (a.handle apply c).1⟩] (.returned (a.handle apply c).1) (g, (a.handle apply c).2, k) := by
  refine wp_inr.trans ?_
  constructor
  · intro h
    exact h _ ((a.handle apply c).2, k) ⟨rfl, rfl⟩
  · rintro h r ⟨a', k'⟩ ⟨hm, hk⟩
    cases hk
    obtain ⟨hr, ha⟩ := Machine.eq_of_det (S := AppState.Sig E U) hm
    subst hr ha
    exact h

/-- A call to the host leaves guest memory and the table alone. -/
@[simp] theorem wp_call {c : Net.Cmd}
    {Q : List (Event (GuestMem.sum (SocketSig E U Net))) → Outcome (Net.Resp c) → γ × (AppState E × κ) → Prop} :
    wp (socketMachine G apply K) (call c) Q (g, a, k) ↔
      ∀ r k', K k c r k' → Q [⟨.inr (.inr c), r⟩] (.returned r) (g, a, k') := by
  refine wp_inr.trans ?_
  constructor
  · intro h r k' hm
    exact h r (a, k') ⟨hm, rfl⟩
  · rintro h r ⟨a', k'⟩ ⟨hm, ha⟩
    cases ha
    exact h r k' hm

/-- The flag of the store is answered. -/
@[simp] theorem wp_networkAllowed
    {Q : List (Event (GuestMem.sum (SocketSig E U Net))) → Outcome Bool → γ × (AppState E × κ) → Prop} :
    wp (socketMachine G apply K) networkAllowed Q (g, a, k) ↔
      Q [⟨.inr (.inl .networkAllowed), a.networkAllowed⟩] (.returned a.networkAllowed) (g, a, k) := wp_appState

/-- An insertion answers the next fd, whatever stood there. -/
@[simp] theorem wp_insertSocket {x : E}
    {Q : List (Event (GuestMem.sum (SocketSig E U Net))) → Outcome Int32 → γ × (AppState E × κ) → Prop} :
    wp (socketMachine G apply K) (insertSocket x) Q (g, a, k) ↔
      Q [⟨.inr (.inl (.sockets (.insert x))), (a.sockets.next, a.sockets.find a.sockets.next)⟩] (.returned a.sockets.next)
        (g, { a with sockets := (a.sockets.insert x).2 }, k) := by
  unfold insertSocket
  exact wp_bind.trans wp_appState

/-- A lookup answers the entry or `EBADF`. -/
@[simp] theorem wp_getSocket {fd : Int32}
    {Q : List (Event (GuestMem.sum (SocketSig E U Net))) → Outcome (Except Errno E) → γ × (AppState E × κ) → Prop} :
    wp (socketMachine G apply K) (getSocket fd) Q (g, a, k) ↔
      Q [⟨.inr (.inl (.sockets (.get fd))), a.sockets.find fd⟩] (.returned (okOrEbadf (a.sockets.find fd))) (g, a, k) := by
  unfold getSocket
  exact wp_bind.trans wp_appState

/-- A removal answers the entry or `EBADF`. -/
@[simp] theorem wp_removeSocket {fd : Int32}
    {Q : List (Event (GuestMem.sum (SocketSig E U Net))) → Outcome (Except Errno E) → γ × (AppState E × κ) → Prop} :
    wp (socketMachine G apply K) (removeSocket fd) Q (g, a, k) ↔
      Q [⟨.inr (.inl (.sockets (.remove fd))), a.sockets.find fd⟩] (.returned (okOrEbadf (a.sockets.find fd)))
        (g, { a with sockets := a.sockets.remove fd }, k) := by
  unfold removeSocket
  exact wp_bind.trans wp_appState

end

/-! ## The results on Unix -/

namespace Unix

variable {γ κ : Type} {G : Machine GuestMem γ} {K : Machine Net κ} {g : γ} {a : AppState HostSocket} {k : κ} {lc : Libc}

/-- The machine of the Unix socket module over any machine for guest memory. -/
abbrev machineOver (G : Machine GuestMem γ) (K : Machine Net κ) : Machine Sockets (γ × (AppState HostSocket × κ)) :=
  socketMachine G Empty.elim K

/-- The machine of the Unix socket module. -/
abbrev machine (K : Machine Net κ) : Machine Sockets (Export × (AppState HostSocket × κ)) := machineOver guestMachine K

/-- `last_errno` of an answer of the host. -/
def errnoOf (lc : Libc) : Option Int32 → Errno
  | some code => fromHostErrno lc code
  | none => .eio

/-- A call of libc. -/
@[simp] theorem wp_libc {c : Net.Cmd}
    {Q : List (Event Sockets) → Outcome (Net.Resp c) → γ × (AppState HostSocket × κ) → Prop} :
    wp (α := no_index (Net.Resp c)) (machineOver G K) (libc c) Q (g, a, k) ↔
      ∀ r k', K k c r k' → Q [⟨.inr (.inr c), r⟩] (.returned r) (g, a, k') :=
    wp_call

/-- A call with a fixed answer. -/
theorem wp_libc_oracle {net : (c : Net.Cmd) → c.Resp} {c : Net.Cmd} {u : Unit}
    {Q : List (Event Sockets) → Outcome (Net.Resp c) → γ × (AppState HostSocket × Unit) → Prop} :
    wp (α := no_index (Net.Resp c)) (machineOver G (.oracle net)) (libc c) Q (g, a, u) ↔
      Q [⟨.inr (.inr c), net c⟩] (.returned (net c)) (g, a, ()) :=
  wp_libc.trans Machine.forall_oracle

/-- The errno of a failed call is asked for once. -/
@[simp] theorem wp_lastErrno
    {Q : List (Event Sockets) → Outcome Errno → γ × (AppState HostSocket × κ) → Prop} :
    wp (machineOver G K) (lastErrno lc) Q (g, a, k) ↔
      ∀ r k', K k .lastOsError r k' → Q [⟨.inr (.inr .lastOsError), r⟩] (.returned (errnoOf lc r)) (g, a, k') := by
  unfold lastErrno
  rw [wp_bind, wp_libc]
  refine forall_congr' fun r => forall_congr' fun k' => imp_congr_right fun _ => ?_
  cases r <;> rfl

/-- Its negation is asked for once. -/
@[simp] theorem wp_negLastErrno
    {Q : List (Event Sockets) → Outcome Int32 → γ × (AppState HostSocket × κ) → Prop} :
    wp (machineOver G K) (negLastErrno lc) Q (g, a, k) ↔
      ∀ r k', K k .lastOsError r k' →
        Q [⟨.inr (.inr .lastOsError), r⟩] (.returned (negErrno (errnoOf lc r))) (g, a, k') := by
  unfold negLastErrno
  rw [wp_bind, wp_lastErrno]
  rfl

/-- A lookup of a socket. -/
@[simp] theorem wp_get {fd : Int32}
    {Q : List (Event Sockets) → Outcome (Except Errno HostSocket) → γ × (AppState HostSocket × κ) → Prop} :
    wp (machineOver G K) (get fd) Q (g, a, k) ↔
      Q [⟨.inr (.inl (.sockets (.get fd))), a.sockets.find fd⟩] (.returned (okOrEbadf (a.sockets.find fd))) (g, a, k) :=
  wp_getSocket

/-- A removal of a socket. -/
@[simp] theorem wp_remove {fd : Int32}
    {Q : List (Event Sockets) → Outcome (Except Errno HostSocket) → γ × (AppState HostSocket × κ) → Prop} :
    wp (machineOver G K) (remove fd) Q (g, a, k) ↔
      Q [⟨.inr (.inl (.sockets (.remove fd))), a.sockets.find fd⟩] (.returned (okOrEbadf (a.sockets.find fd)))
        (g, { a with sockets := a.sockets.remove fd }, k) := wp_removeSocket

/-- An insertion of a socket. -/
@[simp] theorem wp_insert {rawFd guestDomain hostDomain : Int32}
    {Q : List (Event Sockets) → Outcome Int32 → γ × (AppState HostSocket × κ) → Prop} :
    wp (machineOver G K) (insert rawFd guestDomain hostDomain) Q (g, a, k) ↔
      Q [⟨.inr (.inl (.sockets (.insert ⟨rawFd, guestDomain, hostDomain⟩))), (a.sockets.next, a.sockets.find a.sockets.next)⟩]
        (.returned a.sockets.next) (g, { a with sockets := (a.sockets.insert ⟨rawFd, guestDomain, hostDomain⟩).2 }, k) := wp_insertSocket

/-! A small world that witnesses run in. -/

/-- A kernel that refuses every call. -/
def refusing : (c : Net.Cmd) → c.Resp
  | .socket .. => -1
  | .bind .. => -1
  | .listen .. => -1
  | .accept .. => ⟨-1, [], 0⟩
  | .connect .. => -1
  | .getsockname .. => ⟨-1, [], 0⟩
  | .getpeername .. => ⟨-1, [], 0⟩
  | .setsockopt .. => -1
  | .getsockopt .. => ⟨-1, [], 0⟩
  | .send .. => -1
  | .recv .. => ⟨-1, []⟩
  | .sendto .. => -1
  | .recvfrom .. => ⟨-1, [], [], 0⟩
  | .shutdown .. => -1
  | .close .. => -1
  | .fcntl .. => -1
  | .poll .. => ⟨-1, []⟩
  | .lastOsError => some 9

/-- A table with one socket, of the domain `AF_INET`, behind the guest fd 10000. -/
def oneSocket : AppState HostSocket := ⟨true, ((FdTable.empty socketFdBase HostSocket).insert ⟨3, 2, 2⟩).2⟩

end Unix

/-! ## The results on Windows -/

namespace Windows

variable {γ κ : Type} {G : Machine GuestMem γ} {K : Machine Net κ} {g : γ} {a : AppState HostSocket} {k : κ}

/-- The machine of the Windows socket module over any machine for guest memory. -/
abbrev machineOver (G : Machine GuestMem γ) (K : Machine Net κ) : Machine Sockets (γ × (AppState HostSocket × κ)) :=
  socketMachine G HostSocket.setStatusFlags K

/-- The machine of the Windows socket module. -/
abbrev machine (K : Machine Net κ) : Machine Sockets (Export × (AppState HostSocket × κ)) := machineOver guestMachine K

/-- A call of WinSock. -/
@[simp] theorem wp_ws {c : Net.Cmd}
    {Q : List (Event Sockets) → Outcome (Net.Resp c) → γ × (AppState HostSocket × κ) → Prop} :
    wp (α := no_index (Net.Resp c)) (machineOver G K) (ws c) Q (g, a, k) ↔
      ∀ r k', K k c r k' → Q [⟨.inr (.inr c), r⟩] (.returned r) (g, a, k') := wp_call

/-- A call with a fixed answer. -/
theorem wp_ws_oracle {net : (c : Net.Cmd) → c.Resp} {c : Net.Cmd} {u : Unit}
    {Q : List (Event Sockets) → Outcome (Net.Resp c) → γ × (AppState HostSocket × Unit) → Prop} :
    wp (α := no_index (Net.Resp c)) (machineOver G (.oracle net)) (ws c) Q (g, a, u) ↔
      Q [⟨.inr (.inr c), net c⟩] (.returned (net c)) (g, a, ()) :=
  wp_ws.trans Machine.forall_oracle

/-- The error of a failed call is asked for once. -/
@[simp] theorem wp_negLastSocketErrno
    {Q : List (Event Sockets) → Outcome Int32 → γ × (AppState HostSocket × κ) → Prop} :
    wp (machineOver G K) negLastSocketErrno Q (g, a, k) ↔
      ∀ r k', K k .wsaGetLastError r k' →
        Q [⟨.inr (.inr .wsaGetLastError), r⟩] (.returned (-socketErrno r)) (g, a, k') := by
  unfold negLastSocketErrno
  rw [wp_bind, wp_ws]
  rfl

/-- A lookup of a socket. -/
@[simp] theorem wp_get {fd : Int32}
    {Q : List (Event Sockets) → Outcome (Except Errno HostSocket) → γ × (AppState HostSocket × κ) → Prop} :
    wp (machineOver G K) (get fd) Q (g, a, k) ↔
      Q [⟨.inr (.inl (.sockets (.get fd))), a.sockets.find fd⟩] (.returned (okOrEbadf (a.sockets.find fd))) (g, a, k) :=
  wp_getSocket

/-- An insertion of a socket. -/
@[simp] theorem wp_insert {rawSocket : Socket} {guestDomain hostDomain statusFlags : Int32}
    {Q : List (Event Sockets) → Outcome Int32 → γ × (AppState HostSocket × κ) → Prop} :
    wp (machineOver G K) (insert rawSocket guestDomain hostDomain statusFlags) Q (g, a, k) ↔
      Q [⟨.inr (.inl (.sockets (.insert ⟨rawSocket, guestDomain, hostDomain, statusFlags⟩))),
          (a.sockets.next, a.sockets.find a.sockets.next)⟩]
        (.returned a.sockets.next)
        (g, { a with sockets := (a.sockets.insert ⟨rawSocket, guestDomain, hostDomain, statusFlags⟩).2 }, k) := wp_insertSocket

/-- WinSock is started, or the error of its start is returned. -/
@[simp] theorem wp_ensureWinsock
    {Q : List (Event Sockets) → Outcome (Except Int32 Unit) → γ × (AppState HostSocket × κ) → Prop} :
    wp (machineOver G K) ensureWinsock Q (g, a, k) ↔
      ∀ r k', K k .wsaStartup r k' →
        Q [⟨.inr (.inr .wsaStartup), r⟩] (.returned (if r = 0 then .ok () else .error (socketErrno r))) (g, a, k') := by
  unfold ensureWinsock
  rw [wp_bind, wp_ws]
  refine forall_congr' fun r => forall_congr' fun k' => imp_congr_right fun _ => ?_
  rw [wpNext_returned]
  split <;> rfl

/-- The length word of an address on any memory, with its check. -/
theorem wp_readSockaddrLen_any {ptr : Int32}
    {Q : List (Event Sockets) → Outcome (Except Errno Nat) → γ × (AppState HostSocket × κ) → Prop} :
    wp (machineOver G K) (readSockaddrLen ptr) Q (g, a, k) ↔
      ∀ r g', G g (.readGuest ptr 4) r g' →
        Q [⟨.inl (.readGuest ptr 4), r⟩]
          (.returned ((r.map fun bytes => UInt32.ofNat (ofLeBytes bytes)).bind checkedSockaddrLen)) (g', a, k) := by
  unfold readSockaddrLen
  rw [wp_bind, wp_readU32_any]
  refine forall_congr' fun r => forall_congr' fun g' => imp_congr_right fun _ => ?_
  cases r <;> rfl

/-- The length word of an address, with its check. -/
@[simp] theorem wp_readSockaddrLen {ptr : Int32}
    {e : Export} {Q : List (Event Sockets) → Outcome (Except Errno Nat) → Export × (AppState HostSocket × κ) → Prop} :
    wp (machine K) (readSockaddrLen ptr) Q (e, a, k) ↔
      Q [⟨.inl (.readGuest ptr 4), e.readGuest ptr 4⟩] (.returned ((e.readU32 ptr).bind checkedSockaddrLen)) (e, a, k) := by
  unfold readSockaddrLen
  rw [wp_bind, wp_readU32, wpNext_returned]
  cases e.readU32 ptr <;> rfl

/-! ### The last error -/

/-- WinSock with the last error of the thread: a call that fails leaves an error, a call that succeeds leaves it as it was or resets it. -/
def lastError : Machine Net Int32
  | err, .wsaGetLastError, code, err' => code = err ∧ err' = err
  | _, .wsaStartup, _, _ => True
  | err, c, r, err' => if failed c r then err' ≠ 0 else err' = err ∨ err' = 0

/-- An error makes a negative result. -/
theorem neg_socketErrno_lt_zero {code : Int32} (h : code ≠ 0) : -socketErrno code < 0 := by
  obtain ⟨errno, herrno⟩ := socketErrno_of_ne_zero h
  rw [herrno]
  exact negErrno_lt_zero errno

end Windows

end WasmtimeMysql
