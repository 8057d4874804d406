import WasmtimeMysql.Lemmas.Ownership
import WasmtimeMysql.Lib.Pool

/-!
# The mode of a socket on Windows, and the flags kept for it

WinSock does not say whether a socket is nonblocking, so the Windows module keeps the flags of each socket in its table. `F_SETFL` looks
the socket up, switches its mode and writes its flags, in three steps, and `accept` copies the flags of the listener before it waits for
a connection. The threads are a pool over one table and over the modes that WinSock keeps.

An import goes through phases (`mirroring`), and every phase says what the import relies on: what it copied is current, or what it
switched is still to be written. `Inv.step` keeps all of this only while no other thread comes between (`NoOverlap`).
-/

namespace WasmtimeMysql.Windows

open Effects

/-! ## WinSock -/

/-- The open sockets, each with whether it is nonblocking. -/
abbrev Modes : Type := Socket → Option Bool

/-- What WinSock may answer. A new socket is blocking and has a handle that is not open, an accepted one has the mode that the listener
has at that moment, and `FIONBIO` sets the mode. `closesocket` frees the handle, unless it fails. -/
def winsock : Machine Net Modes := fun k c r k' =>
  match c, r with
  | .socket .., raw => if raw = invalidSocket then k' = k else k raw = none ∧ k' = Function.update k raw (some false)
  | .accept listener _, answer =>
    if answer.accepted = invalidSocket then k' = k
    else k listener ≠ none ∧ k answer.accepted = none ∧ k' = Function.update k answer.accepted (k listener)
  | .ioctlsocketFionbio raw enabled, rc =>
    if rc = socketError then k' = k else k raw ≠ none ∧ k' = Function.update k raw (some (enabled != 0))
  | .closesocket raw, rc => k' = Function.update k raw none ∨ rc = socketError ∧ k' = k
  | _, _ => k' = k

/-! ## The threads -/

/-- The table, and the modes. -/
abbrev World : Type := Unit × (AppState HostSocket × Modes)

namespace World

def sockets (w : World) : FdTable socketFdBase HostSocket := w.2.1.sockets

def mode (w : World) (raw : Socket) : Option Bool := w.2.2 raw

/-- No socket, and no guest fd. -/
def start (allowed : Bool) : World := ((), ⟨allowed, .empty socketFdBase HostSocket⟩, fun _ => none)

end World

/-- The bit `O_NONBLOCK`. -/
def nonblocking (statusFlags : Int32) : Bool := statusFlags &&& wasiONonblock != 0

/-- The flags of every live guest fd, which `F_GETFL` returns, say which mode its socket is in. -/
def FlagsTrue (w : World) : Prop :=
  ∀ fd socket, w.sockets.find fd = some socket → w.mode socket.rawSocket = some (nonblocking socket.statusFlags)

/-- One step of an import: guest memory may answer anything, the table is under its mutex, and WinSock answers as it may. -/
def threads : Machine Sockets World := machineOver .any winsock

/-- A call that a thread has begun. -/
abbrev ThreadJob : Type := Job Sockets SocketImport Int32 World

section
variable {ι : Type}

/-- The threads at work. -/
abbrev Threads (ι : Type) : Type := Pool Sockets ι SocketImport Int32 World

/-- A step of the threads. -/
abbrev ThreadMove (ι : Type) : Type := Move Sockets ι SocketImport Int32 World

/-- The runs of the threads. -/
abbrev ThreadRun [DecidableEq ι] (allowed : Bool) : List (ThreadMove ι) → Threads ι → Prop :=
  Pool.Run prog threads (World.start allowed)

end

/-! ## Threads that come between -/

def IsAccept : SocketImport → Prop
  | .accept .. => True
  | _ => False

def IsFcntl : SocketImport → Prop
  | .fcntl .. => True
  | _ => False

/-- A command that switches the mode of a socket or copies it to a new one. -/
def Uses (raw : Socket) : Sockets.Cmd → Prop
  | .inr (.inr (.ioctlsocketFionbio x _)) => x = raw
  | .inr (.inr (.accept x _)) => x = raw
  | _ => False

/-- The job copied the entry of a guest fd out of the table. -/
def Copied (j : ThreadJob) (fd : Int32) (socket : HostSocket) : Prop :=
  ∃ w, ⟨w, .inr (.inl (.sockets (.get fd))), some socket⟩ ∈ j.past

/-- The job copied the entry, and may still switch the mode of the socket or accept on it. -/
def Busy (j : ThreadJob) (fd : Int32) (socket : HostSocket) : Prop :=
  Copied j fd socket ∧ ¬j.rest.Only fun c => ¬Uses socket.rawSocket c

/-- The job has switched the mode of the socket, and is about to write the flags. -/
def Switched (j : ThreadJob) (fd : Int32) : Prop :=
  ∃ statusFlags k, j.rest = .call (.inr (.inl (.sockets (.modify fd statusFlags)))) k

/-- No other thread is in the way of a step that switches a mode or relies on one. -/
structure NoOverlap {ι : Type} (m : ThreadMove ι) : Prop where
  /-- `F_SETFL` switches the mode while no other thread has yet to write the flags of the guest fd. -/
  switch : ∀ raw enabled rc, m.action = .issue (.inr (.inr (.ioctlsocketFionbio raw enabled))) rc →
    ∀ j fd socket, m.before.job m.who = some j → Copied j fd socket →
      ∀ i j', i ≠ m.who → m.before.job i = some j' → ¬Switched j' fd
  /-- The mode is switched while no other thread is going to accept on the socket. -/
  accepting : ∀ raw enabled rc, m.action = .issue (.inr (.inr (.ioctlsocketFionbio raw enabled))) rc →
    ∀ i j fd socket, i ≠ m.who → m.before.job i = some j → IsAccept j.call → socket.rawSocket = raw → ¬Busy j fd socket
  /-- `accept` copies the flags while no other thread has yet to write them. -/
  copy : ∀ fd r, m.action = .issue (.inr (.inl (.sockets (.get fd)))) r →
    ∀ j, m.before.job m.who = some j → IsAccept j.call →
      ∀ i j', i ≠ m.who → m.before.job i = some j' → ¬Switched j' fd
  /-- A new socket gets no handle that another thread may still use. -/
  handle : ∀ c r raw, m.action = .issue (.inr (.inr c)) r → handles.made c r = some raw →
    ∀ i j fd socket, i ≠ m.who → m.before.job i = some j → socket.rawSocket = raw → ¬Busy j fd socket
  /-- It gets no guest fd whose flags another thread has yet to write. -/
  fd : ∀ e r, m.action = .issue (.inr (.inl (.sockets (.insert e)))) r →
    ∀ i j, i ≠ m.who → m.before.job i = some j → ¬Switched j m.before.state.sockets.next ∧
      ∀ socket, IsFcntl j.call → ¬Busy j m.before.state.sockets.next socket

/-! ## The phases -/

/-- How far an import is with the mode of a socket. -/
inductive ModePhase where
  | idle
  /-- It has copied an entry. -/
  | looked (fd : Int32) (socket : HostSocket)
  /-- It has switched the mode of the guest fd's socket, and not written the flags. -/
  | switched (fd : Int32) (mode : Bool)
  /-- It has a socket that is not in the table yet. -/
  | made (raw : Socket) (mode : Bool)
  /-- It has taken a socket out of the table. -/
  | taken (raw : Socket)

namespace ModePhase

/-- Nothing is half done. -/
def Whole : ModePhase → Prop
  | .switched .. => False
  | _ => True

/-- Nothing is half done, and no socket belongs to the import. -/
def Free : ModePhase → Prop
  | .idle => True
  | .looked .. => True
  | _ => False

/-- What is free is whole. -/
theorem Free.whole {f : ModePhase} (h : f.Free) : f.Whole := by
  cases f <;> first | exact trivial | exact h.elim

/-- The socket belongs to the import. -/
def Owns (raw : Socket) : ModePhase → Prop
  | .made x _ => raw = x
  | .taken x => raw = x
  | _ => False

end ModePhase

/-- The phases of a call. It looks sockets up; `fcntl` may switch the mode of one and then writes the flags; `accept` may get a new one
from it; `socket` and `accept` insert what they made with its mode, or close it, and `close` closes what it took out. -/
def mirroring (call : SocketImport) : Discipline Sockets ModePhase where
  allows f
    | .inr (.inl (.sockets (.get _))) => f.Free
    | .inr (.inl (.sockets (.remove _))) => f = .idle
    | .inr (.inl (.sockets (.insert e))) => f = .made e.rawSocket (nonblocking e.statusFlags)
    | .inr (.inl (.sockets (.modify fd statusFlags))) => f = .switched fd (nonblocking statusFlags)
    | .inr (.inr (.socket ..)) => f = .idle
    | .inr (.inr (.accept raw _)) => IsAccept call ∧ ∃ fd socket, f = .looked fd socket ∧ socket.rawSocket = raw
    | .inr (.inr (.ioctlsocketFionbio raw _)) =>
      (∃ mode, f = .made raw mode) ∨ IsFcntl call ∧ ∃ fd socket, f = .looked fd socket ∧ socket.rawSocket = raw
    | .inr (.inr (.closesocket raw)) => f.Owns raw
    | _ => f.Whole
  relies _ _ := True
  next f
    | .inr (.inl (.sockets (.get fd))), some socket => .looked fd socket
    | .inr (.inl (.sockets (.remove _))), some socket => .taken socket.rawSocket
    | .inr (.inl (.sockets (.insert _))), _ => .idle
    | .inr (.inl (.sockets (.modify ..))), _ => .idle
    | .inr (.inr (.socket ..)), raw => if raw = invalidSocket then f else .made raw false
    | .inr (.inr (.accept ..)), answer =>
      match f with
      | .looked _ socket =>
        if answer.accepted = invalidSocket then f else .made answer.accepted (nonblocking socket.statusFlags)
      | f => f
    | .inr (.inr (.ioctlsocketFionbio _ enabled)), rc =>
      if rc = socketError then f
      else match f with
        | .looked fd _ => .switched fd (enabled != 0)
        | .made raw _ => .made raw (enabled != 0)
        | f => f
    | .inr (.inr (.closesocket _)), _ => .idle
    | _, _ => f

namespace ModesAux

open OwnershipAux

/-- The program keeps to the phases of the call, and leaves nothing half done. -/
def Mirrors {α : Type} (call : SocketImport) (p : Import α) (Q : α → ModePhase → Prop) (f : ModePhase) : Prop :=
  p.Settles (mirroring call) ModePhase.Whole Q f

section
variable {α β : Type} {call : SocketImport} {f : ModePhase}

/-- A program keeps to the phases if its parts do. -/
theorem mirrors_bind {p : Import α} {g : α → Import β} {Q : β → ModePhase → Prop} :
    Mirrors call (p >>= g) Q f ↔ Mirrors call p (fun a f' => Mirrors call (g a) Q f') f := Prog.settles_bind

/-- Commands that are still keep the phase. -/
theorem mirrors_of_still {p : Import α} (hp : p.Only Still) (hf : f.Whole) {Q : α → ModePhase → Prop} (hQ : ∀ a, Q a f) :
    Mirrors call p Q f := by
  refine hp.settles (I := (· = f)) ?_ ?_ ?_ rfl
  · rintro _ (c | (_ | (e | fd | fd | ⟨fd, u⟩)) | c) rfl hstill
    · exact ⟨hf, fun _ => rfl⟩
    · exact ⟨hf, fun _ => rfl⟩
    · exact hstill.elim
    · exact hstill.elim
    · exact hstill.elim
    · exact hstill.elim
    · cases c <;> first | exact hstill.elim | exact ⟨hf, fun _ => rfl⟩
  · rintro _ rfl
    exact hf
  · rintro a _ rfl
    exact hQ a

/-- Commands that are calm look sockets up at most. -/
theorem mirrors_of_calm {p : Import α} (hp : p.Only Calm) (hf : f.Free) {Q : α → ModePhase → Prop}
    (hQ : ∀ a f', f'.Free → Q a f') : Mirrors call p Q f := by
  refine hp.settles (I := ModePhase.Free) ?_ (fun _ => ModePhase.Free.whole) hQ hf
  rintro f (c | (_ | (e | fd | fd | ⟨fd, u⟩)) | c) hf hcalm
  · exact ⟨hf.whole, fun _ => hf⟩
  · exact ⟨hf.whole, fun _ => hf⟩
  · exact hcalm.elim
  · refine ⟨hf, ?_⟩
    rintro (_ | socket)
    · exact hf
    · trivial
  · exact hcalm.elim
  · exact hcalm.elim
  · cases c <;> first | exact hcalm.elim | exact ⟨hf.whole, fun _ => hf⟩

/-- A lookup leads from a free phase to one with the socket. -/
theorem mirrors_get {fd : Int32} {Q : Except Errno HostSocket → ModePhase → Prop} (hf : f.Free) (herr : Q (.error .ebadf) f)
    (hok : ∀ socket, Q (.ok socket) (.looked fd socket)) : Mirrors call (get fd) Q f := by
  refine ⟨hf, ?_⟩
  rintro (_ | socket) _
  · exact herr
  · exact hok socket

/-- An import that closes its socket and goes on. -/
theorem mirrors_closesocket {raw : Socket} {k : Int32 → Import α} {Q : α → ModePhase → Prop} (hf : f.Owns raw)
    (hk : ∀ rc, Mirrors call (k rc) Q .idle) : Mirrors call (ws (.closesocket raw) >>= k) Q f :=
  mirrors_bind.mpr ⟨hf, fun rc _ => hk rc⟩

/-- An import that inserts its socket, with flags that tell its mode. -/
theorem mirrors_insert {raw : Socket} {guestDomain hostDomain statusFlags : Int32} {mode : Bool}
    (hmode : nonblocking statusFlags = mode) :
    Mirrors call (insert raw guestDomain hostDomain statusFlags) (fun _ f => f.Whole) (.made raw mode) := by
  subst hmode
  exact ⟨rfl, fun _ _ => trivial⟩

/-- The last error is asked for in any whole phase. -/
theorem mirrors_negLastSocketErrno (hf : f.Whole) : Mirrors call negLastSocketErrno (fun _ f => f.Whole) f :=
  mirrors_of_still still_negLastSocketErrno hf fun _ => hf

end

/-- `socket` keeps to its phases. -/
theorem mirrors_socket {call : SocketImport} (domain ty protocol : Int32) :
    Mirrors call (socket domain ty protocol) (fun _ f => f.Whole) .idle := by
  refine mirrors_bind.mpr ⟨trivial, fun allowed _ => ?_⟩
  show Mirrors call (if !allowed then _ else _) _ .idle
  split
  · exact trivial
  · refine mirrors_bind.mpr (mirrors_of_still still_ensureWinsock (by trivial) ?_)
    rintro (errno | _)
    · exact trivial
    · simp only
      cases normalizeSocketType ty with
      | error errno => exact trivial
      | ok socketType =>
        simp only [Prog.pure_eq, Prog.ret_bind]
        refine mirrors_bind.mpr ⟨rfl, fun (raw : Socket) _ => ?_⟩
        show Mirrors call (if raw = invalidSocket then _ else _) _ (if raw = invalidSocket then .idle else .made raw false)
        by_cases hraw : raw = invalidSocket
        · rw [if_pos hraw, if_pos hraw]
          exact mirrors_negLastSocketErrno trivial
        · rw [if_neg hraw, if_neg hraw]
          split
          · refine mirrors_bind.mpr ⟨.inl ⟨false, rfl⟩, fun (rc : Int32) _ => ?_⟩
            show Mirrors call (if rc = socketError then _ else _) _ (if rc = socketError then .made raw false else .made raw true)
            by_cases hrc : rc = socketError
            · rw [if_pos hrc, if_pos hrc]
              exact mirrors_closesocket rfl fun _ => mirrors_negLastSocketErrno trivial
            · rw [if_neg hrc, if_neg hrc]
              exact mirrors_insert rfl
          · exact mirrors_insert rfl

/-- `accept` keeps to its phases. -/
theorem mirrors_accept (fd addrPtr addrLenPtr : Int32) :
    Mirrors (.accept fd addrPtr addrLenPtr) (accept fd addrPtr addrLenPtr) (fun _ f => f.Whole) .idle := by
  refine mirrors_bind.mpr (mirrors_get trivial trivial fun socket => ?_)
  simp only [Prog.pure_eq, Prog.ret_bind]
  refine mirrors_bind.mpr (mirrors_of_still (still_readSockaddrLen addrLenPtr) (by trivial) ?_)
  rintro (errno | requestedLen)
  · exact trivial
  · refine mirrors_bind.mpr ⟨trivial, fun _ _ => ?_⟩
    refine mirrors_bind.mpr ⟨⟨trivial, fd, socket, rfl, rfl⟩, fun (answer : AcceptAnswer) _ => ?_⟩
    show Mirrors _ (if answer.accepted = invalidSocket then _ else _) _
      (if answer.accepted = invalidSocket then .looked fd socket else .made answer.accepted (nonblocking socket.statusFlags))
    by_cases hraw : answer.accepted = invalidSocket
    · rw [if_pos hraw, if_pos hraw]
      exact mirrors_negLastSocketErrno trivial
    · rw [if_neg hraw, if_neg hraw]
      split
      · exact mirrors_closesocket rfl fun _ => trivial
      · refine mirrors_bind.mpr (mirrors_of_still (still_sliceTo _ _) (by trivial) fun reported => ?_)
        refine mirrors_bind.mpr (mirrors_of_still (still_writeGuest _ _) (by trivial) ?_)
        rintro (errno | _)
        · exact mirrors_closesocket rfl fun _ => trivial
        · refine mirrors_bind.mpr (mirrors_of_still (still_writeU32 _ _) (by trivial) ?_)
          rintro (errno | _)
          · exact mirrors_closesocket rfl fun _ => trivial
          · exact mirrors_insert rfl

/-- `close` keeps to its phases. -/
theorem mirrors_close {call : SocketImport} (fd : Int32) : Mirrors call (close fd) (fun _ f => f.Whole) .idle := by
  refine mirrors_bind.mpr ⟨rfl, ?_⟩
  rintro (_ | socket) _
  · exact trivial
  · refine mirrors_closesocket rfl fun rc => ?_
    exact mirrors_of_still (still_cvtSocketI32 rc) (by trivial) fun _ => trivial

/-- The value that `F_SETFL` passes to `FIONBIO` is the bit it stores. -/
theorem enabled_eq_nonblocking (arg : Int32) :
    ((if arg &&& wasiONonblock ≠ 0 then 1 else 0 : UInt32) != 0) = nonblocking (arg &&& wasiONonblock) := by
  have hand : arg &&& wasiONonblock &&& wasiONonblock = arg &&& wasiONonblock := by
    rw [Int32.and_assoc, Int32.and_self]
  unfold nonblocking
  rw [hand]
  by_cases hzero : arg &&& wasiONonblock = 0
  · rw [if_neg (not_not_intro hzero), hzero]
    rfl
  · rw [if_pos hzero]
    exact (bne_iff_ne.mpr hzero).symm

/-- `fcntl` keeps to its phases: it writes the flags after it has switched the mode. -/
theorem mirrors_fcntl (fd cmd arg : Int32) : Mirrors (.fcntl fd cmd arg) (fcntl fd cmd arg) (fun _ f => f.Whole) .idle := by
  refine mirrors_bind.mpr (mirrors_get trivial trivial fun socket => ?_)
  simp only [Prog.pure_eq, Prog.ret_bind]
  split
  · exact trivial
  · split
    · refine mirrors_bind.mpr ⟨.inr ⟨trivial, fd, socket, rfl, rfl⟩, fun (rc : Int32) _ => ?_⟩
      show Mirrors _ (if rc = socketError then _ else _) _ (if rc = socketError then _ else _)
      by_cases hrc : rc = socketError
      · rw [if_pos hrc, if_pos hrc]
        exact mirrors_negLastSocketErrno trivial
      · rw [if_neg hrc, if_neg hrc]
        refine ⟨congrArg (ModePhase.switched fd) (enabled_eq_nonblocking arg), ?_⟩
        rintro (_ | _) _ <;> exact trivial
    · exact trivial

/-- Every import keeps to its phases. -/
theorem mirrors_prog (call : SocketImport) : Mirrors call (prog call) (fun _ f => f.Whole) .idle := by
  have hcalm {p : Import Int32} (hp : p.Only Calm) : Mirrors call p (fun _ f => f.Whole) .idle :=
    mirrors_of_calm hp (by trivial) fun _ _ hf => hf.whole
  cases call with
  | socket => exact mirrors_socket _ _ _
  | bind => exact hcalm (calm_bind _ _ _)
  | listen => exact hcalm (calm_listen _ _)
  | accept => exact mirrors_accept _ _ _
  | connect => exact hcalm (calm_connect _ _ _)
  | getsockname => exact hcalm (calm_socketName _ _ _ _)
  | getpeername => exact hcalm (calm_socketName _ _ _ _)
  | setsockopt => exact hcalm (calm_setsockopt _ _ _ _ _)
  | getsockopt => exact hcalm (calm_getsockopt _ _ _ _ _)
  | send => exact hcalm (calm_send _ _ _ _)
  | recv => exact hcalm (calm_recv _ _ _ _)
  | sendto => exact hcalm (calm_sendto _ _ _ _ _ _)
  | recvfrom => exact hcalm (calm_recvfrom _ _ _ _ _ _)
  | shutdown => exact hcalm (calm_shutdown _ _)
  | close => exact mirrors_close _
  | fcntl => exact mirrors_fcntl _ _ _
  | poll => exact hcalm (calm_poll _ _ _)

/-! ### What a step does to the world -/

section
variable {w w' : World}

/-- A step that changes neither the table nor the modes changes nothing. -/
theorem world_eq (hsockets : w'.2.1 = w.2.1) (hmode : w'.2.2 = w.2.2) : w' = w := Prod.ext rfl (Prod.ext hsockets hmode)

/-- An access to guest memory changes nothing, ... -/
theorem step_memory {c : GuestMem.Cmd} {r : c.Resp} (h : threads w (.inl c) r w') : w' = w := Prod.ext rfl h.2

/-- A command on the table or on the flag. -/
theorem step_appState {c : AppState.Cmd HostSocket Int32} {r : c.Resp} (h : threads w (.inr (.inl c)) r w') :
    r = (w.2.1.handle HostSocket.setStatusFlags c).1 ∧ w'.2.1 = (w.2.1.handle HostSocket.setStatusFlags c).2 ∧
      w'.mode = w.mode := by
  obtain ⟨⟨hdet, hmode⟩, -⟩ := h
  obtain ⟨hr, ha⟩ := Machine.eq_of_det (S := AppState.Sig HostSocket Int32) hdet
  exact ⟨hr, ha, hmode⟩

/-- ... nor does a look at the flag ... -/
theorem step_networkAllowed {r : Bool} (h : threads w (.inr (.inl .networkAllowed)) r w') : w' = w := by
  obtain ⟨-, ha, hmode⟩ := step_appState h
  exact world_eq ha hmode

/-- ... or a lookup. -/
theorem step_get {fd : Int32} {r : Option HostSocket} (h : threads w (.inr (.inl (.sockets (.get fd)))) r w') :
    r = w.sockets.find fd ∧ w' = w := by
  obtain ⟨hr, ha, hmode⟩ := step_appState h
  exact ⟨hr, world_eq ha hmode⟩

/-- A removal changes the table only. -/
theorem step_remove {fd : Int32} {r : Option HostSocket} (h : threads w (.inr (.inl (.sockets (.remove fd)))) r w') :
    r = w.sockets.find fd ∧ w'.sockets = w.sockets.remove fd ∧ w'.mode = w.mode := by
  obtain ⟨hr, ha, hmode⟩ := step_appState h
  exact ⟨hr, congrArg AppState.sockets ha, hmode⟩

/-- An insertion changes the table only. -/
theorem step_insert {e : HostSocket} {r : Int32 × Option HostSocket}
    (h : threads w (.inr (.inl (.sockets (.insert e)))) r w') :
    w'.sockets = (w.sockets.insert e).2 ∧ w'.mode = w.mode := by
  obtain ⟨-, ha, hmode⟩ := step_appState h
  exact ⟨congrArg AppState.sockets ha, hmode⟩

/-- A write of the flags changes the table only. -/
theorem step_modify {fd statusFlags : Int32} {r : Option Unit}
    (h : threads w (.inr (.inl (.sockets (.modify fd statusFlags)))) r w') :
    w'.sockets = w.sockets.modify fd (HostSocket.setStatusFlags statusFlags) ∧ w'.mode = w.mode := by
  obtain ⟨-, ha, hmode⟩ := step_appState h
  exact ⟨congrArg AppState.sockets ha, hmode⟩

/-- A call of WinSock changes the modes only, ... -/
theorem step_ws {c : Net.Cmd} {r : c.Resp} (h : threads w (.inr (.inr c)) r w') :
    winsock w.mode c r w'.mode ∧ w'.sockets = w.sockets := by
  obtain ⟨⟨hwinsock, ha⟩, -⟩ := h
  exact ⟨hwinsock, congrArg AppState.sockets ha⟩

/-- ... and nothing if it leaves them. -/
theorem step_ws_of_mode_eq {c : Net.Cmd} {r : c.Resp} (h : threads w (.inr (.inr c)) r w') (hmode : w'.mode = w.mode) :
    w' = w := world_eq h.1.2 hmode

/-- What is in the table was there before, up to its flags. -/
def Shrinks (w w' : World) : Prop :=
  ∀ fd socket', w'.sockets.find fd = some socket' →
    ∃ socket, w.sockets.find fd = some socket ∧ socket.rawSocket = socket'.rawSocket

/-- A table that stays has no new entry, ... -/
theorem Shrinks.of_eq (h : w'.sockets = w.sockets) : Shrinks w w' := by
  intro fd socket hfind
  rw [h] at hfind
  exact ⟨socket, hfind, rfl⟩

/-- ... nor has one after a removal ... -/
theorem Shrinks.of_remove {fd : Int32} (h : w'.sockets = w.sockets.remove fd) : Shrinks w w' := by
  intro gd socket hfind
  rw [h, FdTable.find_remove] at hfind
  split at hfind
  · cases hfind
  · exact ⟨socket, hfind, rfl⟩

/-- ... or a write of the flags. -/
theorem Shrinks.of_modify {fd statusFlags : Int32} (h : w'.sockets = w.sockets.modify fd (HostSocket.setStatusFlags statusFlags)) :
    Shrinks w w' := by
  intro gd socket' hfind
  rw [h, FdTable.find_modify] at hfind
  split at hfind
  · obtain ⟨socket, hsocket, rfl⟩ := Option.map_eq_some_iff.mp hfind
    exact ⟨socket, hsocket, rfl⟩
  · exact ⟨socket', hfind, rfl⟩

end

/-! ### The invariant -/

/-- What an import relies on that copied an entry. -/
structure Looks (w : World) (call : SocketImport) (fd : Int32) (socket : HostSocket) : Prop where
  /-- No other guest fd has the socket. -/
  alone : ∀ gd other, w.sockets.find gd = some other → other.rawSocket = socket.rawSocket → gd = fd
  /-- The flags it is going to write are of this socket. -/
  entry : IsFcntl call → ∀ other, w.sockets.find fd = some other → other.rawSocket = socket.rawSocket
  /-- A socket it accepts has the mode that the copied flags tell. -/
  current : IsAccept call →
    w.mode socket.rawSocket = none ∨ w.mode socket.rawSocket = some (nonblocking socket.statusFlags)

/-- What a job relies on in each phase. -/
def Relies (w : World) (j : ThreadJob) : ModePhase → Prop
  | .idle => True
  | .looked fd socket => Copied j fd socket ∧ (Busy j fd socket → Looks w j.call fd socket)
  | .switched fd mode => ∀ socket, w.sockets.find fd = some socket → w.mode socket.rawSocket = some mode
  | .made raw mode => w.mode raw = some mode
  | .taken raw => w.mode raw ≠ none

/-- The invariant of the threads, with the phase of each. -/
structure Inv {ι : Type} (phase : ι → ModePhase) (P : Threads ι) : Prop where
  mirrors : ∀ i j, P.job i = some j → Mirrors j.call j.rest (fun _ f => f.Whole) (phase i)
  relies : ∀ i j, P.job i = some j → Relies P.state j (phase i)
  /-- No two guest fds have one socket. -/
  rawInj : ∀ fd gd socket other, P.state.sockets.find fd = some socket → P.state.sockets.find gd = some other →
    socket.rawSocket = other.rawSocket → fd = gd
  /-- The flags are true, or a thread is about to write them. -/
  flags : ∀ fd socket, P.state.sockets.find fd = some socket →
    P.state.mode socket.rawSocket = some (nonblocking socket.statusFlags) ∨
      ∃ i j mode, P.job i = some j ∧ phase i = .switched fd mode
  /-- A socket that belongs to an import is not in the table. -/
  notInTable : ∀ i j raw, P.job i = some j → (phase i).Owns raw →
    ∀ fd socket, P.state.sockets.find fd = some socket → socket.rawSocket ≠ raw
  /-- It belongs to no other import. -/
  notOthers : ∀ i j raw, P.job i = some j → (phase i).Owns raw →
    ∀ i' j', P.job i' = some j' → (phase i').Owns raw → i' = i
  /-- No import may still use a socket that is not in the table yet. -/
  notMade : ∀ i j fd socket, P.job i = some j → phase i = .looked fd socket → Busy j fd socket →
    ∀ i' j' mode, P.job i' = some j' → phase i' ≠ .made socket.rawSocket mode

section
variable {w w' : World} {j : ThreadJob} {f : ModePhase}

/-- A step that leaves the modes, and only takes entries out of the table or changes their flags. -/
theorem Relies.of_shrinks (h : Relies w j f) (hmode : w'.mode = w.mode) (htable : Shrinks w w') : Relies w' j f := by
  cases f with
  | idle => trivial
  | looked fd socket =>
    refine ⟨h.1, fun hbusy => ?_⟩
    obtain ⟨halone, hentry, hcurrent⟩ := h.2 hbusy
    refine ⟨?_, ?_, ?_⟩
    · intro gd other hfind hraw
      obtain ⟨old, hold, hsame⟩ := htable gd other hfind
      exact halone gd old hold (hsame.trans hraw)
    · intro hcall other hfind
      obtain ⟨old, hold, hsame⟩ := htable fd other hfind
      exact hsame.symm.trans (hentry hcall old hold)
    · rw [hmode]
      exact hcurrent
  | switched fd mode =>
    intro other hfind
    obtain ⟨old, hold, hsame⟩ := htable fd other hfind
    rw [hmode, ← hsame]
    exact h old hold
  | made raw mode =>
    show w'.mode raw = some mode
    rw [hmode]
    exact h
  | taken raw =>
    show w'.mode raw ≠ none
    rw [hmode]
    exact h

/-- A step that changes the mode of one socket, on which the job does not rely. -/
theorem Relies.of_mode {raw : Socket} (h : Relies w j f) (htable : w'.sockets = w.sockets)
    (hmode : ∀ x, x ≠ raw → w'.mode x = w.mode x)
    (hlooked : ∀ fd socket, f = .looked fd socket → Busy j fd socket → IsAccept j.call → socket.rawSocket = raw → w'.mode raw = none)
    (hswitched : ∀ fd mode socket, f = .switched fd mode → w.sockets.find fd = some socket → socket.rawSocket ≠ raw)
    (hmade : ∀ mode, f ≠ .made raw mode) (htaken : f = .taken raw → w'.mode raw ≠ none) : Relies w' j f := by
  cases f with
  | idle => trivial
  | looked fd socket =>
    refine ⟨h.1, fun hbusy => ?_⟩
    obtain ⟨halone, hentry, hcurrent⟩ := h.2 hbusy
    refine ⟨?_, ?_, ?_⟩
    · rw [htable]
      exact halone
    · rw [htable]
      exact hentry
    · intro hcall
      by_cases hraw : socket.rawSocket = raw
      · left
        rw [hraw]
        exact hlooked fd socket rfl hbusy hcall hraw
      · rw [hmode _ hraw]
        exact hcurrent hcall
  | switched fd mode =>
    intro socket hfind
    rw [htable] at hfind
    rw [hmode _ (hswitched fd mode socket rfl hfind)]
    exact h socket hfind
  | made x mode =>
    show w'.mode x = some mode
    rw [hmode x fun hx => hmade mode (by rw [hx])]
    exact h
  | taken x =>
    show w'.mode x ≠ none
    by_cases hx : x = raw
    · subst hx
      exact htaken rfl
    · rw [hmode x hx]
      exact h

/-- Another thread inserts a socket. -/
theorem Relies.of_insert {e : HostSocket} (h : Relies w j f)
    (hsockets : w'.sockets = (w.sockets.insert e).2) (hmode : w'.mode = w.mode)
    (hnotMade : ∀ fd socket, f = .looked fd socket → Busy j fd socket → socket.rawSocket ≠ e.rawSocket)
    (hswitched : ∀ mode, f ≠ .switched w.sockets.next mode)
    (hlooked : ∀ socket, f = .looked w.sockets.next socket → IsFcntl j.call → ¬Busy j w.sockets.next socket) : Relies w' j f := by
  have hfind (fd : Int32) : w'.sockets.find fd = if fd = w.sockets.next then some e else w.sockets.find fd := by
    rw [hsockets, FdTable.find_insert]
  cases f with
  | idle => trivial
  | looked fd socket =>
    refine ⟨h.1, fun hbusy => ?_⟩
    obtain ⟨halone, hentry, hcurrent⟩ := h.2 hbusy
    refine ⟨?_, ?_, ?_⟩
    · intro gd other hgd hraw
      rw [hfind] at hgd
      split at hgd
      · cases hgd
        exact absurd hraw.symm (hnotMade fd socket rfl hbusy)
      · exact halone gd other hgd hraw
    · intro hcall other hgd
      rw [hfind] at hgd
      split at hgd
      · rename_i hnext
        subst hnext
        exact absurd hbusy (hlooked socket rfl hcall)
      · exact hentry hcall other hgd
    · rw [hmode]
      exact hcurrent
  | switched fd mode =>
    intro socket hgd
    rw [hfind] at hgd
    split at hgd
    · rename_i hnext
      subst hnext
      exact absurd rfl (hswitched mode)
    · rw [hmode]
      exact h socket hgd
  | made raw mode =>
    show w'.mode raw = some mode
    rw [hmode]
    exact h
  | taken raw =>
    show w'.mode raw ≠ none
    rw [hmode]
    exact h

/-- The job takes a step that leaves its phase and the world. -/
theorem Relies.next {call : SocketImport} {past : List (Issued Sockets World)} {c : Sockets.Cmd}
    {k : Sockets.Resp c → Prog Sockets Int32} {r : Sockets.Resp c} {x : Issued Sockets World}
    (h : Relies w ⟨call, past, .call c k⟩ f) : Relies w ⟨call, past ++ [x], k r⟩ f := by
  cases f with
  | looked fd socket =>
    obtain ⟨⟨v, hv⟩, hlooks⟩ := h
    refine ⟨⟨v, List.mem_append_left _ hv⟩, fun hbusy => ?_⟩
    exact hlooks ⟨⟨v, hv⟩, fun honly => hbusy.2 (honly.2 r)⟩
  | _ => exact h

/-- A job that has switched a mode is about to write the flags. -/
theorem switched_of_mirrors {fd : Int32} {mode : Bool} (h : Mirrors j.call j.rest (fun _ f => f.Whole) (.switched fd mode)) :
    Switched j fd := by
  obtain ⟨call, past, rest⟩ := j
  cases rest with
  | ret a => exact h.elim
  | panic => exact h.elim
  | call c k =>
    obtain ⟨hallows, -⟩ := h
    rcases c with c | (_ | (e | gd | gd | ⟨gd, statusFlags⟩)) | c
    · exact hallows.elim
    · exact hallows.elim
    · cases hallows
    · exact hallows.elim
    · cases hallows
    · cases hallows
      exact ⟨statusFlags, k, rfl⟩
    · cases c with
      | socket => cases hallows
      | accept =>
        obtain ⟨-, _, _, hf, -⟩ := hallows
        cases hf
      | ioctlsocketFionbio =>
        rcases hallows with ⟨_, hf⟩ | ⟨-, _, _, hf, -⟩ <;> cases hf
      | _ => exact hallows.elim

end

/-! ### The steps -/

section
variable {ι : Type} {phase : ι → ModePhase} {P : Threads ι} {i : ι}

/-- The socket of a live guest fd is open. -/
theorem Inv.live (h : Inv phase P) {fd : Int32} {socket : HostSocket} (hfind : P.state.sockets.find fd = some socket) :
    P.state.mode socket.rawSocket ≠ none := by
  rcases h.flags fd socket hfind with hflags | ⟨i, j, mode, hj, hphase⟩
  · rw [hflags]
    nofun
  · have hrelies := h.relies i j hj
    rw [hphase] at hrelies
    rw [hrelies socket hfind]
    nofun

/-- A socket that belongs to an import is open. -/
theorem Inv.owned (h : Inv phase P) {j : ThreadJob} (hj : P.job i = some j) {raw : Socket} (hown : (phase i).Owns raw) :
    P.state.mode raw ≠ none := by
  have hrelies := h.relies i j hj
  cases hphase : phase i with
  | idle => rw [hphase] at hown; exact hown.elim
  | looked => rw [hphase] at hown; exact hown.elim
  | switched => rw [hphase] at hown; exact hown.elim
  | made x mode =>
    rw [hphase] at hown hrelies
    obtain rfl : raw = x := hown
    rw [show P.state.mode raw = some mode from hrelies]
    nofun
  | taken x =>
    rw [hphase] at hown hrelies
    obtain rfl : raw = x := hown
    exact hrelies

variable {call : SocketImport} {past : List (Issued Sockets World)}

/-- After each answer the rest of a call keeps to its phases. -/
theorem Inv.mirrors_next {c : Sockets.Cmd} {k : Sockets.Resp c → Prog Sockets Int32} (h : Inv phase P)
    (hj : P.job i = some ⟨call, past, .call c k⟩) (r : Sockets.Resp c) :
    Mirrors call (k r) (fun _ f => f.Whole) ((mirroring call).next (phase i) c r) := (h.mirrors i _ hj).2 r trivial

variable [DecidableEq ι] {w' : World}

/-- The invariant after a step of one thread. What is in the table was there before or belonged to the thread. -/
theorem Inv.advance {j' : ThreadJob} {f' : ModePhase} (h : Inv phase P)
    (hmirrors : Mirrors j'.call j'.rest (fun _ f => f.Whole) f') (hrelies : Relies w' j' f')
    (hothers : ∀ i' j, i' ≠ i → P.job i' = some j → Relies w' j (phase i'))
    (htable : ∀ fd socket', w'.sockets.find fd = some socket' →
      (∃ socket, P.state.sockets.find fd = some socket ∧ socket.rawSocket = socket'.rawSocket) ∨
        fd = P.state.sockets.next ∧ ∃ j, P.job i = some j ∧ (phase i).Owns socket'.rawSocket)
    (hflags : ∀ fd socket, w'.sockets.find fd = some socket →
      w'.mode socket.rawSocket = some (nonblocking socket.statusFlags) ∨ (∃ mode, f' = .switched fd mode) ∨
        ∃ i' j mode, i' ≠ i ∧ P.job i' = some j ∧ phase i' = .switched fd mode)
    (hown : ∀ raw, f'.Owns raw → (∀ fd socket, w'.sockets.find fd = some socket → socket.rawSocket ≠ raw) ∧
      ∀ i' j, i' ≠ i → P.job i' = some j → ¬(phase i').Owns raw)
    (hmade : ∀ raw mode, f' = .made raw mode → ∀ i' j fd socket, i' ≠ i → P.job i' = some j →
      phase i' = .looked fd socket → Busy j fd socket → socket.rawSocket ≠ raw)
    (hlooked : ∀ fd socket, f' = .looked fd socket → Busy j' fd socket → ∀ i' j mode, i' ≠ i → P.job i' = some j →
      phase i' ≠ .made socket.rawSocket mode) :
    Inv (Function.update phase i f') { P.setJob i (some j') with state := w' } := by
  have hafter {x : ι} {j : ThreadJob} (hj : (P.setJob i (some j')).job x = some j) :
      x = i ∧ j = j' ∧ Function.update phase i f' x = f' ∨ x ≠ i ∧ P.job x = some j ∧ Function.update phase i f' x = phase x :=
    Pool.setJob_update_cases hj
  refine ⟨?_, ?_, ?_, ?_, ?_, ?_, ?_⟩
  · intro x j hj
    rcases hafter hj with ⟨-, rfl, hf⟩ | ⟨-, hold, hf⟩
    · rw [hf]
      exact hmirrors
    · rw [hf]
      exact h.mirrors x j hold
  · intro x j hj
    rcases hafter hj with ⟨-, rfl, hf⟩ | ⟨hx, hold, hf⟩
    · rw [hf]
      exact hrelies
    · rw [hf]
      exact hothers x j hx hold
  · intro fd gd socket other hfd hgd hraw
    rcases htable fd socket hfd with ⟨old, hold, hsame⟩ | ⟨hnext, j, hj, howned⟩
    · rcases htable gd other hgd with ⟨old', hold', hsame'⟩ | ⟨-, j, hj, howned⟩
      · exact h.rawInj fd gd old old' hold hold' (hsame.trans (hraw.trans hsame'.symm))
      · exact absurd (hsame.trans hraw) (h.notInTable i j _ hj howned fd old hold)
    · rcases htable gd other hgd with ⟨old', hold', hsame'⟩ | ⟨hnext', -⟩
      · exact absurd (hsame'.trans hraw.symm) (h.notInTable i j _ hj howned gd old' hold')
      · exact hnext.trans hnext'.symm
  · intro fd socket hfind
    rcases hflags fd socket hfind with htrue | ⟨mode, hf⟩ | ⟨x, j, mode, hx, hj, hf⟩
    · exact .inl htrue
    · exact .inr ⟨i, j', mode, Pool.setJob_self .., (Function.update_self ..).trans hf⟩
    · exact .inr ⟨x, j, mode, (Pool.setJob_of_ne hx).trans hj, (Function.update_of_ne hx ..).trans hf⟩
  · intro x j raw hj howns fd socket hfind
    rcases hafter hj with ⟨-, -, hf⟩ | ⟨hx, hold, hf⟩
    · rw [hf] at howns
      exact (hown raw howns).1 fd socket hfind
    · rw [hf] at howns
      rcases htable fd socket hfind with ⟨old, hfd, hsame⟩ | ⟨-, j', hj', howned⟩
      · rw [← hsame]
        exact h.notInTable x j raw hold howns fd old hfd
      · rintro rfl
        exact hx (h.notOthers i j' _ hj' howned x j hold howns)
  · intro x j raw hj howns x' j'' hj'' howns'
    rcases hafter hj with ⟨rfl, -, hf⟩ | ⟨hx, hold, hf⟩
    · rcases hafter hj'' with ⟨rfl, -, -⟩ | ⟨hx', hold', hf'⟩
      · rfl
      · rw [hf] at howns
        rw [hf'] at howns'
        exact absurd howns' ((hown raw howns).2 x' j'' hx' hold')
    · rw [hf] at howns
      rcases hafter hj'' with ⟨rfl, -, hf'⟩ | ⟨hx', hold', hf'⟩
      · rw [hf'] at howns'
        exact absurd howns ((hown raw howns').2 x j hx hold)
      · rw [hf'] at howns'
        exact h.notOthers x j raw hold howns x' j'' hold' howns'
  · intro x j fd socket hj hphase hbusy x' j'' mode hj'' hphase'
    rcases hafter hj with ⟨rfl, rfl, hf⟩ | ⟨hx, hold, hf⟩
    · rcases hafter hj'' with ⟨rfl, -, -⟩ | ⟨hx', hold', hf'⟩
      · cases hphase.symm.trans hphase'
      · exact hlooked fd socket (hf.symm.trans hphase) hbusy x' j'' mode hx' hold' (hf'.symm.trans hphase')
    · rcases hafter hj'' with ⟨rfl, -, hf'⟩ | ⟨-, hold', hf'⟩
      · exact hmade _ mode (hf'.symm.trans hphase') x j fd socket hx hold (hf.symm.trans hphase) hbusy rfl
      · exact h.notMade x j fd socket hold (hf.symm.trans hphase) hbusy x' j'' mode hold' (hf'.symm.trans hphase')

/-- The flags are true, or this thread is about to write them, or another one is. -/
theorem Inv.flags_cases (h : Inv phase P) (i : ι) {fd : Int32} {socket : HostSocket}
    (hfind : P.state.sockets.find fd = some socket) :
    P.state.mode socket.rawSocket = some (nonblocking socket.statusFlags) ∨ (∃ mode, phase i = .switched fd mode) ∨
      ∃ i' j mode, i' ≠ i ∧ P.job i' = some j ∧ phase i' = .switched fd mode := by
  rcases h.flags fd socket hfind with htrue | ⟨x, j, mode, hj, hphase⟩
  · exact .inl htrue
  · by_cases hx : x = i
    · subst hx
      exact .inr (.inl ⟨mode, hphase⟩)
    · exact .inr (.inr ⟨x, j, mode, hx, hj, hphase⟩)

/-- A step that leaves the phase and the world. -/
theorem Inv.idle {c : Sockets.Cmd} {k : Sockets.Resp c → Prog Sockets Int32} {r : Sockets.Resp c} (h : Inv phase P)
    (hj : P.job i = some ⟨call, past, .call c k⟩) (hw : w' = P.state) (hnext : (mirroring call).next (phase i) c r = phase i) :
    ∃ f', Inv (Function.update phase i f') { P.setJob i (some ⟨call, past ++ [⟨P.state, c, r⟩], k r⟩) with state := w' } := by
  subst hw
  have hmirrors := h.mirrors_next hj r
  rw [hnext] at hmirrors
  refine ⟨phase i, h.advance hmirrors (h.relies i _ hj).next (fun i' j _ hj' => h.relies i' j hj')
    (fun fd socket hfind => .inl ⟨socket, hfind, rfl⟩) (fun fd socket hfind => h.flags_cases i hfind) ?_ ?_ ?_⟩
  · intro raw hown
    refine ⟨h.notInTable i _ raw hj hown, ?_⟩
    intro i' j hi hj' hown'
    exact hi (h.notOthers i _ raw hj hown i' j hj' hown')
  · rintro _ mode hmade i' j fd socket hi hj' hlooked hbusy rfl
    exact h.notMade i' j fd socket hj' hlooked hbusy i _ mode hj hmade
  · intro fd socket hlooked hbusy i' j mode _ hj'
    have hrelies := h.relies i _ hj
    rw [hlooked] at hrelies
    exact h.notMade i _ fd socket hj hlooked ⟨hrelies.1, fun honly => hbusy.2 (honly.2 r)⟩ i' j mode hj'

/-- An import copies an entry. `accept` does so while the flags are true. -/
theorem Inv.get {fd : Int32} {k : Option HostSocket → Prog Sockets Int32} {r : Option HostSocket} (h : Inv phase P)
    (hj : P.job i = some ⟨call, past, .call (.inr (.inl (.sockets (.get fd)))) k⟩)
    (hstep : threads P.state (.inr (.inl (.sockets (.get fd)))) r w')
    (hguard : IsAccept call → ∀ i' j', i' ≠ i → P.job i' = some j' → ¬Switched j' fd) :
    ∃ f', Inv (Function.update phase i f')
      { P.setJob i (some ⟨call, past ++ [⟨P.state, .inr (.inl (.sockets (.get fd))), r⟩], k r⟩) with state := w' } := by
  obtain ⟨hr, rfl⟩ := step_get hstep
  cases r with
  | none => exact h.idle hj rfl rfl
  | some socket =>
    have hfree : (phase i).Free := (h.mirrors i _ hj).1
    have hflags {gd : Int32} {other : HostSocket} (hfind : P.state.sockets.find gd = some other) :
        P.state.mode other.rawSocket = some (nonblocking other.statusFlags) ∨
          ∃ i' j mode, i' ≠ i ∧ P.job i' = some j ∧ phase i' = .switched gd mode := by
      rcases h.flags_cases i hfind with htrue | ⟨mode, hphase⟩ | hothers
      · exact .inl htrue
      · rw [hphase] at hfree
        exact hfree.elim
      · exact .inr hothers
    have hlooks : Looks P.state call fd socket := by
      refine ⟨?_, ?_, ?_⟩
      · intro gd other hfind hraw
        exact h.rawInj gd fd other socket hfind hr.symm hraw
      · intro _ other hfind
        rw [Option.some.inj (hfind.symm.trans hr.symm)]
      · intro hcall
        rcases hflags hr.symm with htrue | ⟨i', j, mode, hi, hj', hphase⟩
        · exact .inr htrue
        · have hmirrors := h.mirrors i' j hj'
          rw [hphase] at hmirrors
          exact absurd (switched_of_mirrors hmirrors) (hguard hcall i' j hi hj')
    refine ⟨.looked fd socket, h.advance (h.mirrors_next hj (some socket))
      ⟨⟨P.state, List.mem_append_right _ List.mem_cons_self⟩, fun _ => hlooks⟩ (fun i' j _ hj' => h.relies i' j hj')
      (fun gd other hfind => .inl ⟨other, hfind, rfl⟩) (fun gd other hfind => (hflags hfind).imp_right .inr) nofun nofun ?_⟩
    rintro _ _ hf - i' j mode - hj' hphase
    cases hf
    exact h.notInTable i' j _ hj' (by rw [hphase]; exact rfl) fd socket hr.symm rfl

/-- An import takes an entry out of the table. -/
theorem Inv.remove {fd : Int32} {k : Option HostSocket → Prog Sockets Int32} {r : Option HostSocket} (h : Inv phase P)
    (hj : P.job i = some ⟨call, past, .call (.inr (.inl (.sockets (.remove fd)))) k⟩)
    (hstep : threads P.state (.inr (.inl (.sockets (.remove fd)))) r w') :
    ∃ f', Inv (Function.update phase i f')
      { P.setJob i (some ⟨call, past ++ [⟨P.state, .inr (.inl (.sockets (.remove fd))), r⟩], k r⟩) with state := w' } := by
  obtain ⟨hr, hsockets, hmode⟩ := step_remove hstep
  cases r with
  | none =>
    have hsame : w' = P.state := by
      obtain ⟨-, ha, -⟩ := step_appState hstep
      have hnone : P.state.2.1.sockets.remove fd = P.state.2.1.sockets := FdTable.remove_of_find_none hr.symm
      refine world_eq ?_ hmode
      rw [ha]
      simp only [AppState.handle, FdTable.handle, hnone]
    exact h.idle hj hsame rfl
  | some socket =>
    have hidle : phase i = .idle := (h.mirrors i _ hj).1
    have hfind : P.state.sockets.find fd = some socket := hr.symm
    -- what is still in the table was there before, under another guest fd
    have hleft {gd : Int32} {other : HostSocket} (hgd : w'.sockets.find gd = some other) :
        gd ≠ fd ∧ P.state.sockets.find gd = some other := by
      rw [hsockets, FdTable.find_remove] at hgd
      split at hgd
      · cases hgd
      · rename_i hne
        exact ⟨hne, hgd⟩
    have htaken : w'.mode socket.rawSocket ≠ none := by
      rw [hmode]
      exact h.live hfind
    refine ⟨.taken socket.rawSocket, h.advance (h.mirrors_next hj (some socket)) htaken
      (fun i' j _ hj' => (h.relies i' j hj').of_shrinks hmode (.of_remove hsockets))
      (fun gd other hgd => .inl (Shrinks.of_remove hsockets gd other hgd)) ?_ ?_ nofun nofun⟩
    · intro gd other hgd
      rw [hmode]
      rcases h.flags_cases i (hleft hgd).2 with htrue | ⟨mode, hphase⟩ | hothers
      · exact .inl htrue
      · cases hidle.symm.trans hphase
      · exact .inr (.inr hothers)
    · intro raw hraw
      obtain rfl : raw = socket.rawSocket := hraw
      refine ⟨?_, ?_⟩
      · intro gd other hgd hsame
        obtain ⟨hne, hgd⟩ := hleft hgd
        exact hne (h.rawInj gd fd other socket hgd hfind hsame)
      · intro i' j _ hj' hown
        exact h.notInTable i' j _ hj' hown fd socket hfind rfl

/-- An import writes the flags of the socket whose mode it has switched. -/
theorem Inv.modify {fd statusFlags : Int32} {k : Option Unit → Prog Sockets Int32} {r : Option Unit} (h : Inv phase P)
    (hj : P.job i = some ⟨call, past, .call (.inr (.inl (.sockets (.modify fd statusFlags)))) k⟩)
    (hstep : threads P.state (.inr (.inl (.sockets (.modify fd statusFlags)))) r w') :
    ∃ f', Inv (Function.update phase i f')
      { P.setJob i (some ⟨call, past ++ [⟨P.state, .inr (.inl (.sockets (.modify fd statusFlags))), r⟩], k r⟩) with state := w' } := by
  obtain ⟨hsockets, hmode⟩ := step_modify hstep
  have hphase : phase i = .switched fd (nonblocking statusFlags) := (h.mirrors i _ hj).1
  have hrelies := h.relies i _ hj
  rw [hphase] at hrelies
  refine ⟨.idle, h.advance (h.mirrors_next hj r) trivial
    (fun i' j _ hj' => (h.relies i' j hj').of_shrinks hmode (.of_modify hsockets))
    (fun gd other hgd => .inl (Shrinks.of_modify hsockets gd other hgd)) ?_ nofun nofun nofun⟩
  intro gd other hgd
  rw [hmode]
  rw [hsockets, FdTable.find_modify] at hgd
  split at hgd
  · rename_i hfd
    subst hfd
    obtain ⟨socket, hsocket, rfl⟩ := Option.map_eq_some_iff.mp hgd
    exact .inl (hrelies socket hsocket)
  · rename_i hne
    rcases h.flags_cases i hgd with htrue | ⟨mode, hother⟩ | hothers
    · exact .inl htrue
    · cases hphase.symm.trans hother
      exact absurd rfl hne
    · exact .inr (.inr hothers)

/-- An import inserts its socket, under a guest fd whose flags no other thread is going to write. -/
theorem Inv.insert {e : HostSocket} {k : Int32 × Option HostSocket → Prog Sockets Int32} {r : Int32 × Option HostSocket}
    (h : Inv phase P) (hj : P.job i = some ⟨call, past, .call (.inr (.inl (.sockets (.insert e)))) k⟩)
    (hstep : threads P.state (.inr (.inl (.sockets (.insert e)))) r w')
    (hguard : ∀ i' j, i' ≠ i → P.job i' = some j → ¬Switched j P.state.sockets.next ∧
      ∀ socket, IsFcntl j.call → ¬Busy j P.state.sockets.next socket) :
    ∃ f', Inv (Function.update phase i f')
      { P.setJob i (some ⟨call, past ++ [⟨P.state, .inr (.inl (.sockets (.insert e))), r⟩], k r⟩) with state := w' } := by
  obtain ⟨hsockets, hmode⟩ := step_insert hstep
  have hphase : phase i = .made e.rawSocket (nonblocking e.statusFlags) := (h.mirrors i _ hj).1
  have hown : (phase i).Owns e.rawSocket := by
    rw [hphase]
    exact rfl
  have hrelies := h.relies i _ hj
  rw [hphase] at hrelies
  refine ⟨.idle, h.advance (h.mirrors_next hj r) trivial ?_ ?_ ?_ nofun nofun nofun⟩
  · intro i' j hi hj'
    obtain ⟨hswitched, hbusy⟩ := hguard i' j hi hj'
    refine (h.relies i' j hj').of_insert hsockets hmode ?_ ?_ ?_
    · intro fd socket hlooked hbusy hraw
      exact h.notMade i' j fd socket hj' hlooked hbusy i _ _ hj (by rw [hraw]; exact hphase)
    · intro mode hf
      have hmirrors := h.mirrors i' j hj'
      rw [hf] at hmirrors
      exact hswitched (switched_of_mirrors hmirrors)
    · intro socket _ hcall
      exact hbusy socket hcall
  · intro fd socket hfind
    rw [hsockets, FdTable.find_insert] at hfind
    split at hfind
    · rename_i hnext
      cases hfind
      exact .inr ⟨hnext, _, hj, hown⟩
    · exact .inl ⟨socket, hfind, rfl⟩
  · intro fd socket hfind
    rw [hmode]
    rw [hsockets, FdTable.find_insert] at hfind
    split at hfind
    · cases hfind
      exact .inl hrelies
    · rcases h.flags_cases i hfind with htrue | ⟨mode, hother⟩ | hothers
      · exact .inl htrue
      · cases hphase.symm.trans hother
      · exact .inr (.inr hothers)

/-- WinSock makes a socket, under a handle that no other thread may still use. -/
theorem Inv.make {c : Net.Cmd} {k : c.Resp → Prog Sockets Int32} {r : c.Resp} {raw : Socket} {mode : Bool} (h : Inv phase P)
    (hj : P.job i = some ⟨call, past, .call (.inr (.inr c)) k⟩) (hsockets : w'.sockets = P.state.sockets)
    (hmode : w'.mode = Function.update P.state.mode raw (some mode)) (hfree : P.state.mode raw = none) (hphase : (phase i).Free)
    (hnext : (mirroring call).next (phase i) (.inr (.inr c)) r = .made raw mode)
    (hguard : ∀ i' j fd socket, i' ≠ i → P.job i' = some j → socket.rawSocket = raw → ¬Busy j fd socket) :
    ∃ f', Inv (Function.update phase i f')
      { P.setJob i (some ⟨call, past ++ [⟨P.state, .inr (.inr c), r⟩], k r⟩) with state := w' } := by
  have hself : w'.mode raw = some mode := by rw [hmode, Function.update_self]
  have hsame (x : Socket) (hx : x ≠ raw) : w'.mode x = P.state.mode x := by rw [hmode, Function.update_of_ne hx]
  have hlive {fd : Int32} {socket : HostSocket} (hfind : P.state.sockets.find fd = some socket) : socket.rawSocket ≠ raw := by
    rintro rfl
    exact h.live hfind hfree
  have hnotOwned {i' : ι} {j : ThreadJob} (hj' : P.job i' = some j) : ¬(phase i').Owns raw :=
    fun hown => h.owned hj' hown hfree
  have hmirrors := h.mirrors_next hj r
  rw [hnext] at hmirrors
  refine ⟨.made raw mode, h.advance hmirrors hself ?_ (fun fd socket hfind => .inl (Shrinks.of_eq hsockets fd socket hfind))
    ?_ ?_ ?_ nofun⟩
  · intro i' j hi hj'
    refine (h.relies i' j hj').of_mode hsockets hsame ?_ ?_ ?_ ?_
    · intro fd socket _ hbusy _ hraw
      exact absurd hbusy (hguard i' j fd socket hi hj' hraw)
    · intro fd mode' socket _ hfind
      exact hlive hfind
    · intro mode' hf
      exact hnotOwned hj' (by rw [hf]; exact rfl)
    · intro hf
      exact absurd (by rw [hf]; exact rfl) (hnotOwned hj')
  · intro fd socket hfind
    rw [hsockets] at hfind
    rw [hsame _ (hlive hfind)]
    rcases h.flags_cases i hfind with htrue | ⟨mode', hother⟩ | hothers
    · exact .inl htrue
    · rw [hother] at hphase
      exact hphase.elim
    · exact .inr (.inr hothers)
  · intro x hx
    obtain rfl : x = raw := hx
    refine ⟨?_, fun i' j _ hj' => hnotOwned hj'⟩
    intro fd socket hfind
    rw [hsockets] at hfind
    exact hlive hfind
  · rintro x mode' hf i' j fd socket hi hj' - hbusy hraw
    cases hf
    exact hguard i' j fd socket hi hj' hraw hbusy

/-- `F_SETFL` switches the mode of the socket it looked up. -/
theorem Inv.switch {fd : Int32} {socket : HostSocket} {enabled : UInt32} {k : Int32 → Prog Sockets Int32} {rc : Int32}
    (h : Inv phase P) (hj : P.job i = some ⟨call, past, .call (.inr (.inr (.ioctlsocketFionbio socket.rawSocket enabled))) k⟩)
    (hsockets : w'.sockets = P.state.sockets)
    (hmode : w'.mode = Function.update P.state.mode socket.rawSocket (some (enabled != 0))) (hrc : rc ≠ socketError)
    (hphase : phase i = .looked fd socket) (hcall : IsFcntl call)
    (hguard : ∀ i' j, i' ≠ i → P.job i' = some j → ¬Switched j fd)
    (hguard' : ∀ i' j gd other, i' ≠ i → P.job i' = some j → IsAccept j.call → other.rawSocket = socket.rawSocket → ¬Busy j gd other) :
    ∃ f', Inv (Function.update phase i f') { P.setJob i (some ⟨call,
      past ++ [⟨P.state, .inr (.inr (.ioctlsocketFionbio socket.rawSocket enabled)), rc⟩], k rc⟩) with state := w' } := by
  have hself : w'.mode socket.rawSocket = some (enabled != 0) := by rw [hmode, Function.update_self]
  have hsame (x : Socket) (hx : x ≠ socket.rawSocket) : w'.mode x = P.state.mode x := by rw [hmode, Function.update_of_ne hx]
  have hrelies := h.relies i _ hj
  rw [hphase] at hrelies
  have hbusy : Busy ⟨call, past, .call (.inr (.inr (.ioctlsocketFionbio socket.rawSocket enabled))) k⟩ fd socket :=
    ⟨hrelies.1, fun honly => honly.1 rfl⟩
  obtain ⟨halone, hentry, -⟩ := hrelies.2 hbusy
  have hmirrors := h.mirrors_next hj rc
  rw [hphase, show (mirroring call).next (.looked fd socket) (.inr (.inr (.ioctlsocketFionbio socket.rawSocket enabled))) rc =
    .switched fd (enabled != 0) from if_neg hrc] at hmirrors
  refine ⟨.switched fd (enabled != 0), h.advance hmirrors ?_ ?_
    (fun gd other hfind => .inl (Shrinks.of_eq hsockets gd other hfind)) ?_ nofun nofun nofun⟩
  · intro other hfind
    rw [hsockets] at hfind
    rw [hentry hcall other hfind]
    exact hself
  · intro i' j hi hj'
    refine (h.relies i' j hj').of_mode hsockets hsame ?_ ?_ ?_ ?_
    · intro gd other _ hbusy' hcall' hraw
      exact absurd hbusy' (hguard' i' j gd other hi hj' hcall' hraw)
    · intro gd mode other hf hfind hraw
      obtain rfl := halone gd other hfind hraw
      have hmirrors' := h.mirrors i' j hj'
      rw [hf] at hmirrors'
      exact hguard i' j hi hj' (switched_of_mirrors hmirrors')
    · intro mode
      exact h.notMade i _ fd socket hj hphase hbusy i' j mode hj'
    · intro _
      rw [hself]
      nofun
  · intro gd other hfind
    rw [hsockets] at hfind
    by_cases hraw : other.rawSocket = socket.rawSocket
    · obtain rfl := halone gd other hfind hraw
      exact .inr (.inl ⟨_, rfl⟩)
    · rw [hsame _ hraw]
      rcases h.flags_cases i hfind with htrue | ⟨mode, hother⟩ | hothers
      · exact .inl htrue
      · cases hphase.symm.trans hother
      · exact .inr (.inr hothers)

/-- A thread changes the mode of its own socket, or closes it. No flags in the table are about it. -/
theorem Inv.own {raw : Socket} {j j' : ThreadJob} {f' : ModePhase} (h : Inv phase P) (hj : P.job i = some j)
    (hown : (phase i).Owns raw) (hsockets : w'.sockets = P.state.sockets)
    (hsame : ∀ x, x ≠ raw → w'.mode x = P.state.mode x)
    (hlooked : ∀ i' j fd socket, P.job i' = some j → phase i' = .looked fd socket → Busy j fd socket →
      socket.rawSocket = raw → w'.mode raw = none)
    (hmirrors : Mirrors j'.call j'.rest (fun _ f => f.Whole) f') (hrelies : Relies w' j' f')
    (hf' : f' = .idle ∨ ∃ mode mode', f' = .made raw mode ∧ phase i = .made raw mode') :
    Inv (Function.update phase i f') { P.setJob i (some j') with state := w' } := by
  have hnotOthers {i' : ι} {j₁ : ThreadJob} (hi : i' ≠ i) (hj' : P.job i' = some j₁) : ¬(phase i').Owns raw :=
    fun hown' => hi (h.notOthers i j raw hj hown i' j₁ hj' hown')
  refine h.advance hmirrors hrelies ?_ (fun fd socket hfind => .inl (Shrinks.of_eq hsockets fd socket hfind)) ?_ ?_ ?_ ?_
  · intro i' j₁ hi hj'
    refine (h.relies i' j₁ hj').of_mode hsockets hsame ?_ ?_ ?_ ?_
    · intro fd socket hphase hbusy _ hraw
      exact hlooked i' j₁ fd socket hj' hphase hbusy hraw
    · intro fd mode socket _ hfind
      exact h.notInTable i j raw hj hown fd socket hfind
    · intro mode hphase
      exact hnotOthers hi hj' (by rw [hphase]; exact rfl)
    · intro hphase
      exact absurd (by rw [hphase]; exact rfl) (hnotOthers hi hj')
  · intro fd socket hfind
    rw [hsockets] at hfind
    rw [hsame _ (h.notInTable i j raw hj hown fd socket hfind)]
    rcases h.flags_cases i hfind with htrue | ⟨mode, hphase⟩ | hothers
    · exact .inl htrue
    · rw [hphase] at hown
      exact hown.elim
    · exact .inr (.inr hothers)
  · intro x hx
    obtain rfl : x = raw := by
      rcases hf' with rfl | ⟨_, _, rfl, -⟩
      · exact hx.elim
      · exact hx
    refine ⟨?_, fun i' j₁ hi hj' => hnotOthers hi hj'⟩
    intro fd socket hfind
    rw [hsockets] at hfind
    exact h.notInTable i j x hj hown fd socket hfind
  · rintro x mode rfl i' j₁ fd socket - hj' hphase' hbusy rfl
    rcases hf' with hf' | ⟨_, mode', hf', hphase⟩
    · cases hf'
    · cases hf'
      exact h.notMade i' j₁ fd socket hj' hphase' hbusy i j mode' hj hphase
  · rintro fd socket rfl
    rcases hf' with hf' | ⟨_, _, hf', -⟩ <;> cases hf'

/-- `FIONBIO`, on a socket that was looked up or on a new one. -/
theorem Inv.ioctlsocket {raw : Socket} {enabled : UInt32} {k : Int32 → Prog Sockets Int32} {rc : Int32} (h : Inv phase P)
    (hj : P.job i = some ⟨call, past, .call (.inr (.inr (.ioctlsocketFionbio raw enabled))) k⟩)
    (hstep : threads P.state (.inr (.inr (.ioctlsocketFionbio raw enabled))) rc w')
    (hguard : NoOverlap ⟨P, i, .issue (.inr (.inr (.ioctlsocketFionbio raw enabled))) rc,
      { P.setJob i (some ⟨call, past ++ [⟨P.state, .inr (.inr (.ioctlsocketFionbio raw enabled)), rc⟩], k rc⟩) with state := w' }⟩) :
    ∃ f', Inv (Function.update phase i f')
      { P.setJob i (some ⟨call, past ++ [⟨P.state, .inr (.inr (.ioctlsocketFionbio raw enabled)), rc⟩], k rc⟩) with state := w' } := by
  obtain ⟨hwinsock, hsockets⟩ := step_ws hstep
  have hallows : (∃ mode, phase i = .made raw mode) ∨
      IsFcntl call ∧ ∃ fd socket, phase i = .looked fd socket ∧ socket.rawSocket = raw := (h.mirrors i _ hj).1
  replace hwinsock : if rc = socketError then w'.mode = P.state.mode
      else P.state.mode raw ≠ none ∧ w'.mode = Function.update P.state.mode raw (some (enabled != 0)) := hwinsock
  split at hwinsock
  · rename_i hrc
    exact h.idle hj (step_ws_of_mode_eq hstep hwinsock) (if_pos hrc)
  · rename_i hrc
    rcases hallows with ⟨mode, hphase⟩ | ⟨hcall, fd, socket, hphase, rfl⟩
    · have hmirrors := h.mirrors_next hj rc
      rw [hphase, show (mirroring call).next (.made raw mode) (.inr (.inr (.ioctlsocketFionbio raw enabled))) rc =
        .made raw (enabled != 0) from if_neg hrc] at hmirrors
      have hself : w'.mode raw = some (enabled != 0) := by rw [hwinsock.2, Function.update_self]
      refine ⟨.made raw (enabled != 0), h.own hj (by rw [hphase]; exact rfl) hsockets ?_ ?_ hmirrors hself
        (.inr ⟨_, mode, rfl, hphase⟩)⟩
      · intro x hx
        rw [hwinsock.2, Function.update_of_ne hx]
      · rintro i' j fd socket hj' hlooked hbusy rfl
        exact absurd hphase (h.notMade i' j fd socket hj' hlooked hbusy i _ mode hj)
    · have hrelies := h.relies i _ hj
      rw [hphase] at hrelies
      exact h.switch hj hsockets hwinsock.2 hrc hphase hcall (hguard.switch _ _ _ rfl _ fd socket hj hrelies.1)
        (hguard.accepting _ _ _ rfl)

/-- The owner of a socket closes it. -/
theorem Inv.closesocket {raw : Socket} {k : Int32 → Prog Sockets Int32} {rc : Int32} (h : Inv phase P)
    (hj : P.job i = some ⟨call, past, .call (.inr (.inr (.closesocket raw))) k⟩)
    (hstep : threads P.state (.inr (.inr (.closesocket raw))) rc w') :
    ∃ f', Inv (Function.update phase i f')
      { P.setJob i (some ⟨call, past ++ [⟨P.state, .inr (.inr (.closesocket raw)), rc⟩], k rc⟩) with state := w' } := by
  obtain ⟨hwinsock, hsockets⟩ := step_ws hstep
  have hown : (phase i).Owns raw := (h.mirrors i _ hj).1
  replace hwinsock : w'.mode = Function.update P.state.mode raw none ∨ rc = socketError ∧ w'.mode = P.state.mode := hwinsock
  refine ⟨.idle, ?_⟩
  rcases hwinsock with hmode | ⟨-, hmode⟩
  · refine h.own hj hown hsockets ?_ ?_ (h.mirrors_next hj rc) trivial (.inl rfl)
    · intro x hx
      rw [hmode, Function.update_of_ne hx]
    · intro i' j fd socket _ _ _ _
      rw [hmode, Function.update_self]
  · -- the socket stays open, and nobody owns it any more
    refine h.advance (h.mirrors_next hj rc) trivial
      (fun i' j _ hj' => (h.relies i' j hj').of_shrinks hmode (.of_eq hsockets))
      (fun fd socket hfind => .inl (Shrinks.of_eq hsockets fd socket hfind)) ?_ nofun nofun nofun
    intro fd socket hfind
    rw [hsockets] at hfind
    rw [hmode]
    rcases h.flags_cases i hfind with htrue | ⟨mode, hphase⟩ | hothers
    · exact .inl htrue
    · rw [hphase] at hown
      exact hown.elim
    · exact .inr (.inr hothers)

/-- A new socket keeps the invariant, if its handle is used by nobody. -/
theorem Inv.socket {domain ty protocol : Int32} {k : Socket → Prog Sockets Int32} {raw : Socket} (h : Inv phase P)
    (hj : P.job i = some ⟨call, past, .call (.inr (.inr (.socket domain ty protocol))) k⟩)
    (hstep : threads P.state (.inr (.inr (.socket domain ty protocol))) raw w')
    (hguard : raw ≠ invalidSocket → ∀ i' j fd socket, i' ≠ i → P.job i' = some j → socket.rawSocket = raw → ¬Busy j fd socket) :
    ∃ f', Inv (Function.update phase i f')
      { P.setJob i (some ⟨call, past ++ [⟨P.state, .inr (.inr (.socket domain ty protocol)), raw⟩], k raw⟩) with state := w' } := by
  obtain ⟨hwinsock, hsockets⟩ := step_ws hstep
  have hidle : phase i = .idle := (h.mirrors i _ hj).1
  replace hwinsock : if raw = invalidSocket then w'.mode = P.state.mode
      else P.state.mode raw = none ∧ w'.mode = Function.update P.state.mode raw (some false) := hwinsock
  split at hwinsock
  · rename_i hraw
    exact h.idle hj (step_ws_of_mode_eq hstep hwinsock) (if_pos hraw)
  · rename_i hraw
    exact h.make hj hsockets hwinsock.2 hwinsock.1 (by rw [hidle]; trivial) (if_neg hraw) (hguard hraw)

/-- So does an accepted one. -/
theorem Inv.accept {listener : Socket} {addrLen : Int32} {k : AcceptAnswer → Prog Sockets Int32} {answer : AcceptAnswer}
    (h : Inv phase P) (hj : P.job i = some ⟨call, past, .call (.inr (.inr (.accept listener addrLen))) k⟩)
    (hstep : threads P.state (.inr (.inr (.accept listener addrLen))) answer w')
    (hguard : answer.accepted ≠ invalidSocket → ∀ i' j fd socket, i' ≠ i → P.job i' = some j →
      socket.rawSocket = answer.accepted → ¬Busy j fd socket) :
    ∃ f', Inv (Function.update phase i f')
      { P.setJob i (some ⟨call, past ++ [⟨P.state, .inr (.inr (.accept listener addrLen)), answer⟩], k answer⟩) with state := w' } := by
  obtain ⟨hwinsock, hsockets⟩ := step_ws hstep
  obtain ⟨hcall, fd, socket, hphase, rfl⟩ : IsAccept call ∧ ∃ fd socket, phase i = .looked fd socket ∧ socket.rawSocket = listener :=
    (h.mirrors i _ hj).1
  replace hwinsock : if answer.accepted = invalidSocket then w'.mode = P.state.mode
      else P.state.mode socket.rawSocket ≠ none ∧ P.state.mode answer.accepted = none ∧
        w'.mode = Function.update P.state.mode answer.accepted (P.state.mode socket.rawSocket) := hwinsock
  split at hwinsock
  · rename_i hraw
    refine h.idle hj (step_ws_of_mode_eq hstep hwinsock) ?_
    rw [hphase]
    exact if_pos hraw
  · rename_i hraw
    obtain ⟨hopen, hfree, hmode⟩ := hwinsock
    have hrelies := h.relies i _ hj
    rw [hphase] at hrelies
    -- the listener is open, so it has the mode that the copied flags tell
    have hlistener : P.state.mode socket.rawSocket = some (nonblocking socket.statusFlags) :=
      ((hrelies.2 ⟨hrelies.1, fun honly => honly.1 rfl⟩).current hcall).resolve_left hopen
    rw [hlistener] at hmode
    refine h.make hj hsockets hmode hfree (by rw [hphase]; trivial) ?_ (hguard hraw)
    rw [hphase]
    exact if_neg hraw

/-- A call ends, with nothing half done. -/
theorem Inv.finish (h : Inv phase P) (hwhole : (phase i).Whole) :
    Inv phase (P.setJob i none) := by
  have hold {x : ι} {j : ThreadJob} (hj : (P.setJob i none).job x = some j) : x ≠ i ∧ P.job x = some j := by
    rcases Pool.setJob_cases hj with ⟨-, hnone⟩ | hold
    · cases hnone
    · exact hold
  refine ⟨?_, ?_, h.rawInj, ?_, ?_, ?_, ?_⟩
  · intro x j hj
    exact h.mirrors x j (hold hj).2
  · intro x j hj
    exact h.relies x j (hold hj).2
  · intro fd socket hfind
    rcases h.flags_cases i hfind with htrue | ⟨mode, hphase⟩ | ⟨x, j, mode, hx, hj, hphase⟩
    · exact .inl htrue
    · rw [hphase] at hwhole
      exact hwhole.elim
    · exact .inr ⟨x, j, mode, (Pool.setJob_of_ne hx).trans hj, hphase⟩
  · intro x j raw hj
    exact h.notInTable x j raw (hold hj).2
  · intro x j raw hj hown x' j' hj'
    exact h.notOthers x j raw (hold hj).2 hown x' j' (hold hj').2
  · intro x j fd socket hj hlooked hbusy x' j' mode hj'
    exact h.notMade x j fd socket (hold hj).2 hlooked hbusy x' j' mode (hold hj').2

/-- A call to WinSock. -/
theorem Inv.ws {c : Net.Cmd} {k : c.Resp → Prog Sockets Int32} {r : c.Resp} (h : Inv phase P)
    (hj : P.job i = some ⟨call, past, .call (.inr (.inr c)) k⟩) (hstep : threads P.state (.inr (.inr c)) r w')
    (hguard : NoOverlap ⟨P, i, .issue (.inr (.inr c)) r,
      { P.setJob i (some ⟨call, past ++ [⟨P.state, .inr (.inr c), r⟩], k r⟩) with state := w' }⟩) :
    ∃ f', Inv (Function.update phase i f')
      { P.setJob i (some ⟨call, past ++ [⟨P.state, .inr (.inr c), r⟩], k r⟩) with state := w' } := by
  cases c with
  | socket => exact h.socket hj hstep fun hraw => hguard.handle _ _ _ rfl (if_neg hraw)
  | accept => exact h.accept hj hstep fun hraw => hguard.handle _ _ _ rfl (if_neg hraw)
  | ioctlsocketFionbio => exact h.ioctlsocket hj hstep hguard
  | closesocket => exact h.closesocket hj hstep
  | _ => exact h.idle hj (step_ws_of_mode_eq hstep (step_ws hstep).1) rfl

/-- Every step of the threads keeps the invariant, as long as no other thread is in its way. -/
theorem Inv.step {a : Action Sockets SocketImport} {P' : Threads ι} (h : Inv phase P) (hguard : NoOverlap ⟨P, i, a, P'⟩)
    (hstep : Pool.Step prog threads P i a P') : ∃ phase', Inv phase' P' := by
  cases hstep with
  | start call hnone =>
    refine ⟨Function.update phase i .idle, h.advance (mirrors_prog call) trivial (fun i' j _ hj' => h.relies i' j hj')
      (fun fd socket hfind => .inl ⟨socket, hfind, rfl⟩) ?_ nofun nofun nofun⟩
    intro fd socket hfind
    rcases h.flags fd socket hfind with htrue | ⟨x, j, mode, hj, hphase⟩
    · exact .inl htrue
    · refine .inr (.inr ⟨x, j, mode, ?_, hj, hphase⟩)
      rintro rfl
      cases hnone.symm.trans hj
  | @issue call past c k r w' hj hmachine =>
    have hissue : ∃ f', Inv (Function.update phase i f')
        { P.setJob i (some ⟨call, past ++ [⟨P.state, c, r⟩], k r⟩) with state := w' } := by
      match c, k, r, hj, hmachine, hguard with
      | .inl c, k, r, hj, hmachine, _ => exact h.idle hj (step_memory hmachine) rfl
      | .inr (.inl .networkAllowed), k, r, hj, hmachine, _ => exact h.idle hj (step_networkAllowed hmachine) rfl
      | .inr (.inl (.sockets (.get fd))), k, r, hj, hmachine, hguard =>
        exact h.get hj hmachine (hguard.copy fd r rfl _ hj)
      | .inr (.inl (.sockets (.remove fd))), k, r, hj, hmachine, _ => exact h.remove hj hmachine
      | .inr (.inl (.sockets (.insert e))), k, r, hj, hmachine, hguard => exact h.insert hj hmachine (hguard.fd e r rfl)
      | .inr (.inl (.sockets (.modify fd statusFlags))), k, r, hj, hmachine, _ => exact h.modify hj hmachine
      | .inr (.inr c), k, r, hj, hmachine, hguard => exact h.ws hj hmachine hguard
    obtain ⟨f', hinv⟩ := hissue
    exact ⟨_, hinv⟩
  | finish hj => exact ⟨phase, h.finish (h.mirrors i _ hj)⟩
  | abort hj => exact ⟨phase, h.finish (h.mirrors i _ hj)⟩

end

end ModesAux

end WasmtimeMysql.Windows
