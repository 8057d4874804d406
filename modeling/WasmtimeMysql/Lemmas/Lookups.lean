import WasmtimeMysql.Runner

/-!
# Guest fds that are not in the table

What an import does with a guest fd that its table does not have. Every socket import that is called with an fd looks it up before anything
else and returns `-EBADF` if it is not there; `socket` asks for the network first; and `poll` looks up every entry that is not negative
before it calls the host (`SocketsWired`). A file import makes no call to the host for an fd that is not in its table (`FilesWired`).

Which fds are sure not to be in the table is a parameter: all of them when the network is off, the other module's when it is about the two
tables.
-/

namespace WasmtimeMysql

open Effects

/-- The guest fd a socket import is called with. `poll` has a whole array of them. -/
def SocketImport.fd : SocketImport → Option Int32
  | .socket .. => none
  | .bind fd .. => some fd
  | .listen fd _ => some fd
  | .accept fd .. => some fd
  | .connect fd .. => some fd
  | .getsockname fd .. => some fd
  | .getpeername fd .. => some fd
  | .setsockopt fd .. => some fd
  | .getsockopt fd .. => some fd
  | .send fd .. => some fd
  | .recv fd .. => some fd
  | .sendto fd .. => some fd
  | .recvfrom fd .. => some fd
  | .shutdown fd _ => some fd
  | .close fd => some fd
  | .fcntl fd .. => some fd
  | .poll .. => none

/-- The guest fd a file import is called with. -/
def FileImport.fd : FileImport → Option Int32
  | .openFile .. => none
  | .close fd => some fd
  | .pread fd .. => some fd
  | .pwrite fd .. => some fd
  | .seek fd .. => some fd
  | .truncate fd _ => some fd
  | .sync fd _ => some fd
  | .syncParent _ => none
  | .lockExclusive fd => some fd

/-- The guest fds of the array that `poll` has read. -/
def polledFds (nfds : Int32) (bytes : List UInt8) : List Int32 :=
  match checkedPollCount nfds with
  | .ok n => (chunksExact8 n bytes).map fun chunk => (guestPollFd chunk).1
  | .error _ => []

/-- What an import has seen of guest memory: the bytes it has read, and whether a read has failed. -/
structure Seen where
  reads : List (List UInt8)
  failed : Bool

/-- Nothing yet. -/
def Seen.nothing : Seen := ⟨[], false⟩

/-- One more access. -/
def Seen.note (f : Seen) : (c : GuestMem.Cmd) → c.Resp → Seen
  | .readGuest .., .ok bytes => { f with reads := bytes :: f.reads }
  | .readGuest .., .error _ => { f with failed := true }
  | _, _ => f

/-! ## The socket imports -/

section
variable (B : Build)

/-- A socket import that only looks fds up, in a table that has none of `F`. `calls` are the calls to the host that it may make. -/
def lookups (F : Int32 → Prop) (network : Bool → Prop) (calls : Seen → B.Net.Cmd → Prop) : Discipline B.Sockets Seen where
  allows f
    | .inl _ => True
    | .inr (.inl .networkAllowed) => True
    | .inr (.inl (.sockets (.get _))) => True
    | .inr (.inl (.sockets (.remove fd))) => F fd
    | .inr (.inl (.sockets _)) => False
    | .inr (.inr c) => calls f c
  relies
    | .inr (.inl .networkAllowed), allowed => network allowed
    | .inr (.inl (.sockets (.get fd))), found => F fd → found = none
    | .inr (.inl (.sockets (.remove fd))), found => F fd → found = none
    | _, _ => True
  next f
    | .inl c, r => f.note c r
    | _, _ => f

/-- The calls of `poll` to the host: no entry it has read is of `F`, and if all are negative the host ignores them. -/
def PollCalls (F : Int32 → Prop) (ignored : B.Net.Cmd → Prop) (nfds : Int32) (f : Seen) (c : B.Net.Cmd) : Prop :=
  (∀ bytes ∈ f.reads, ∀ fd ∈ polledFds nfds bytes, 0 ≤ fd → ¬F fd) ∧
  ((∀ bytes ∈ f.reads, ∀ fd ∈ polledFds nfds bytes, fd < 0) → ignored c)

/-- The calls of an import to the host, when `F` are sure not to be in the table. -/
def SocketCalls (F : Int32 → Prop) (ignored : B.Net.Cmd → Prop) : SocketImport → Seen → B.Net.Cmd → Prop
  | .poll _ nfds _ => PollCalls B F ignored nfds
  | _ => fun _ _ => False

/-- `poll` returns `-EBADF` if an entry is of `F`. -/
def PollEnds (F : Int32 → Prop) (nfds v : Int32) (f : Seen) : Prop :=
  (∃ bytes ∈ f.reads, ∃ fd ∈ polledFds nfds bytes, 0 ≤ fd ∧ F fd) → v = negErrno .ebadf

/-- The socket imports of a build look their fds up first. `ignored` are the calls that `poll` makes when it polls nothing. -/
structure SocketsWired (ignored : B.Net.Cmd → Prop) : Prop where
  lookup : ∀ c fd, c.fd = some fd →
    (∃ k, B.socketProg c = .call (.inr (.inl (.sockets (.get fd)))) k ∧ k none = .ret (negErrno .ebadf)) ∨
    (∃ k, B.socketProg c = .call (.inr (.inl (.sockets (.remove fd)))) k ∧ k none = .ret (negErrno .ebadf))
  socket : ∀ domain ty protocol, ∃ k, B.socketProg (.socket domain ty protocol) = .call (.inr (.inl .networkAllowed)) k ∧
    k false = .ret (negErrno .enetdown)
  poll : ∀ F network fdsPtr nfds timeout, (B.socketProg (.poll fdsPtr nfds timeout)).Delivers
    (lookups B F network (PollCalls B F ignored nfds)) (PollEnds F nfds) .nothing

end

section
variable {B : Build} {ignored : B.Net.Cmd → Prop} {F : Int32 → Prop} {network : Bool → Prop} {calls : Seen → B.Net.Cmd → Prop}

/-- An import that is called with an fd of `F` makes no call to the host and returns `-EBADF`. -/
theorem SocketsWired.delivers_fd (h : SocketsWired B ignored) {c : SocketImport} {fd : Int32} (hc : c.fd = some fd) (hF : F fd) (f : Seen) :
    (B.socketProg c).Delivers (lookups B F network calls) (fun v _ => v = negErrno .ebadf) f := by
  rcases h.lookup c fd hc with ⟨k, hprog, hk⟩ | ⟨k, hprog, hk⟩
  · rw [hprog]
    refine ⟨trivial, ?_⟩
    intro found hfound
    rw [hfound hF, hk]
    rfl
  · rw [hprog]
    refine ⟨hF, ?_⟩
    intro found hfound
    rw [hfound hF, hk]
    rfl

/-- Without the network `socket` makes no call to the host and returns `-ENETDOWN`. -/
theorem SocketsWired.delivers_socket (h : SocketsWired B ignored) (hnetwork : ∀ allowed, network allowed → allowed = false)
    (domain ty protocol : Int32) (f : Seen) :
    (B.socketProg (.socket domain ty protocol)).Delivers (lookups B F network calls) (fun v _ => v = negErrno .enetdown) f := by
  obtain ⟨k, hprog, hk⟩ := h.socket domain ty protocol
  rw [hprog]
  refine ⟨trivial, ?_⟩
  intro allowed hallowed
  rw [hnetwork allowed hallowed, hk]
  rfl

end

/-- The call has read these bytes from guest memory. -/
def HasRead {B : Build} (task : Task B.Runner GuestCall Int64) (bytes : List UInt8) : Prop :=
  ∃ ptr len, (⟨.inl (.inl (.readGuest ptr len)), .ok bytes⟩ : Event B.Runner) ∈ task.past

/-- What a call has read is what its phase has kept. -/
theorem mem_reads_of_hasRead {B : Build} {F : Int32 → Prop} {network : Bool → Prop} {calls : Seen → B.Net.Cmd → Prop} {call : GuestCall}
    {past : List (Event B.Runner)} {rest : Prog B.Runner Int64} {bytes : List UInt8} (h : HasRead ⟨call, past, rest⟩ bytes) :
    bytes ∈ ((lookups B F network calls).inl.after .nothing past).reads := by
  obtain ⟨ptr, len, hmem⟩ := h
  induction past using List.reverseRecOn with
  | nil => cases hmem
  | append_singleton past ev ih =>
    rw [Discipline.after_snoc]
    rcases List.mem_append.mp hmem with hmem | hmem
    · have hbefore := ih hmem
      obtain ⟨(c | c) | c, r⟩ := ev
      · cases c with
        | readGuest ptr' len' =>
          cases r with
          | ok bytes' => exact List.mem_cons_of_mem _ hbefore
          | error errno => exact hbefore
        | _ => exact hbefore
      · exact hbefore
      · exact hbefore
    · cases List.mem_singleton.mp hmem
      exact List.mem_cons_self

namespace LookupsAux

section
variable {B : Build} {F : Int32 → Prop} {network : Bool → Prop} {calls : Seen → B.Net.Cmd → Prop} {f : Seen}

/-- A read is kept, or the call has failed. -/
theorem delivers_readGuest {ptr len : Int32} {Q : Except Errno (List UInt8) → Seen → Prop}
    (herr : ∀ errno, Q (.error errno) { f with failed := true }) (hok : ∀ bytes, Q (.ok bytes) { f with reads := bytes :: f.reads }) :
    (readGuest ptr len : Prog B.Sockets _).Delivers (lookups B F network calls) Q f := by
  refine ⟨trivial, ?_⟩
  intro r _
  cases r with
  | error errno => exact herr errno
  | ok bytes => exact hok bytes

/-- A write is not noted. -/
theorem delivers_writeGuest {ptr : Int32} {bytes : List UInt8} {Q : Except Errno Unit → Seen → Prop} (h : ∀ r, Q r f) :
    (writeGuest ptr bytes : Prog B.Sockets _).Delivers (lookups B F network calls) Q f := ⟨trivial, fun r _ => h r⟩

/-- The second loop of `poll` only writes. -/
theorem delivers_writeRevents (fdsPtr : Int32) (revents : List UInt16) {index : Nat}
    {Q : Except Errno Unit → Seen → Prop} (h : ∀ r, Q r f) :
    (writeRevents fdsPtr index revents : Prog B.Sockets _).Delivers (lookups B F network calls) Q f := by
  induction revents generalizing index with
  | nil => exact h _
  | cons revent revents ih =>
    refine Prog.delivers_bind.mpr (delivers_writeGuest ?_)
    rintro (errno | _)
    · exact h _
    · exact ih

/-- A lookup that fails answers `EBADF`; of an fd of `F` it does. -/
theorem delivers_getSocket {fd : Int32} {Q : Except Errno B.Entry → Seen → Prop} (herr : Q (.error .ebadf) f)
    (hok : ¬F fd → ∀ socket, Q (.ok socket) f) : (getSocket fd : Prog B.Sockets _).Delivers (lookups B F network calls) Q f := by
  refine ⟨trivial, ?_⟩
  intro found hfound
  cases found with
  | none => exact herr
  | some socket => exact hok (fun hF => nomatch hfound hF) socket

/-- The array of `poll` was read, and every entry that is not negative was found. -/
theorem pollCalls_of_chunks {ignored : B.Net.Cmd → Prop} {nfds : Int32} {n : Nat} {bytes : List UInt8}
    (hn : checkedPollCount nfds = .ok n)
    (hfds : ∀ chunk ∈ chunksExact8 n bytes, 0 ≤ (guestPollFd chunk).1 → ¬F (guestPollFd chunk).1) {c : B.Net.Cmd}
    (hignored : (∀ chunk ∈ chunksExact8 n bytes, (guestPollFd chunk).1 < 0) → ignored c) :
    PollCalls B F ignored nfds ⟨[bytes], false⟩ c := by
  have hpolled : polledFds nfds bytes = (chunksExact8 n bytes).map fun chunk => (guestPollFd chunk).1 := by
    unfold polledFds
    rw [hn]
  constructor
  · intro bs hbs fd hfd
    cases List.mem_singleton.mp hbs
    rw [hpolled] at hfd
    obtain ⟨chunk, hchunk, rfl⟩ := List.mem_map.mp hfd
    exact hfds chunk hchunk
  · intro hall
    refine hignored fun chunk hchunk => hall bytes List.mem_cons_self _ ?_
    rw [hpolled]
    exact List.mem_map_of_mem hchunk

/-- ... so that it may return anything. -/
theorem pollEnds_of_calls {ignored : B.Net.Cmd → Prop} {nfds : Int32} {c : B.Net.Cmd} (h : PollCalls B F ignored nfds f c) (v : Int32) :
    PollEnds F nfds v f := by
  rintro ⟨bs, hbs, fd, hfd, hpos, hF⟩
  exact absurd hF (h.1 bs hbs fd hfd hpos)

/-- A call to the host that is allowed is not noted. -/
theorem delivers_call {c : B.Net.Cmd} {Q : B.Net.Resp c → Seen → Prop} (hc : calls f c) (h : ∀ r, Q r f) :
    (call c : Prog B.Sockets _).Delivers (lookups B F network calls) Q f := ⟨hc, fun r _ => h r⟩

end

end LookupsAux

/-! ### Unix -/

/-- A `poll` whose entries are all negative, which the kernel ignores, or a look at the error of one that failed. -/
def Unix.Ignored : Unix.Net.Cmd → Prop
  | .poll fds _ => ∀ entry ∈ fds, entry.fd < 0
  | .lastOsError => True
  | _ => False

/-- The same on Windows: a negative entry is passed on as an invalid socket. -/
def Windows.Ignored : Windows.Net.Cmd → Prop
  | .wsaPoll fds _ => ∀ entry ∈ fds, entry.fd = Windows.invalidSocket
  | .wsaGetLastError => True
  | _ => False

namespace LookupsAux

section
variable {F : Int32 → Prop} {network : Bool → Prop} {f : Seen} (lc : Libc)

/-- The first loop of `poll` on Unix finds every fd that is not negative, or ends with `EBADF`. -/
theorem delivers_unix_hostPollFds {calls : Seen → Unix.Net.Cmd → Prop} (chunks : List (List UInt8))
    {Q : Except Errno (List Unix.PollFd) → Seen → Prop} (herr : Q (.error .ebadf) f)
    (hok : ∀ fds, (∀ chunk ∈ chunks, 0 ≤ (guestPollFd chunk).1 → ¬F (guestPollFd chunk).1) →
      ((∀ chunk ∈ chunks, (guestPollFd chunk).1 < 0) → ∀ entry ∈ fds, entry.fd < 0) → Q (.ok fds) f) :
    (Unix.hostPollFds chunks).Delivers (lookups (unixBuild lc) F network calls) Q f := by
  induction chunks generalizing Q with
  | nil => exact hok [] (List.forall_mem_nil _) fun _ => List.forall_mem_nil _
  | cons chunk chunks ih =>
    -- after the entry: it is negative, or not of `F`
    have hrest (raw : Int32) (hentry : 0 ≤ (guestPollFd chunk).1 → ¬F (guestPollFd chunk).1)
        (hneg : (guestPollFd chunk).1 < 0 → raw < 0) :
        (Unix.pushEntry ⟨raw, (guestPollFd chunk).2⟩ (Unix.hostPollFds chunks)).Delivers (lookups (unixBuild lc) F network calls) Q f := by
      refine Prog.delivers_bind.mpr (ih herr ?_)
      intro fds hfds hignored
      refine hok _ (List.forall_mem_cons.mpr ⟨hentry, hfds⟩) ?_
      intro hall
      obtain ⟨hfirst, hothers⟩ := List.forall_mem_cons.mp hall
      exact List.forall_mem_cons.mpr ⟨hneg hfirst, hignored hothers⟩
    unfold Unix.hostPollFds
    by_cases hneg : (guestPollFd chunk).1 < 0
    · simp only [hneg, if_true, Prog.pure_eq, Prog.ret_bind]
      exact hrest (guestPollFd chunk).1 (fun hpos => absurd hneg (Int32.not_lt.mpr hpos)) fun h => h
    · simp only [hneg, if_false]
      refine Prog.delivers_bind.mpr (delivers_getSocket herr ?_)
      intro hF socket
      exact hrest socket.rawFd (fun _ => hF) fun h => absurd h hneg

/-- The errno may be asked for where calls may be made. -/
theorem delivers_unix_lastErrno {calls : Seen → Unix.Net.Cmd → Prop} (hcalls : calls f .lastOsError) {Q : Int32 → Seen → Prop}
    (h : ∀ r, Q r f) : (Unix.negLastErrno lc).Delivers (lookups (unixBuild lc) F network calls) Q f := by
  refine Prog.delivers_bind.mpr (Prog.delivers_bind.mpr (delivers_call hcalls ?_))
  intro r
  cases r <;> exact h _

end

end LookupsAux

open LookupsAux

/-- `poll` on Unix ends with `EBADF` if one of its fds is not there, and polls nothing if all are negative. -/
theorem unix_poll_delivers (lc : Libc) (F : Int32 → Prop) (network : Bool → Prop) (fdsPtr nfds timeout : Int32) :
    (Unix.poll lc fdsPtr nfds timeout).Delivers (lookups (unixBuild lc) F network (PollCalls (unixBuild lc) F Unix.Ignored nfds))
      (PollEnds F nfds) .nothing := by
  unfold Unix.poll
  simp only [Prog.pure_eq, Prog.ret_bind]
  cases hn : checkedPollCount nfds with
  | error errno => exact fun ⟨_, hbytes, _⟩ => nomatch hbytes
  | ok n =>
    refine Prog.delivers_bind.mpr (delivers_readGuest ?_ ?_)
    · intro errno
      exact fun ⟨_, hbytes, _⟩ => nomatch hbytes
    · intro bytes
      refine Prog.delivers_bind.mpr (delivers_unix_hostPollFds lc _ (fun _ => rfl) ?_)
      intro fds hfds hignored
      have hpoll : PollCalls (unixBuild lc) F Unix.Ignored nfds ⟨[bytes], false⟩ (.poll fds timeout) :=
        pollCalls_of_chunks hn hfds hignored
      refine Prog.delivers_bind.mpr (delivers_call hpoll ?_)
      intro answer
      split
      · exact delivers_unix_lastErrno lc ⟨hpoll.1, fun _ => trivial⟩ (pollEnds_of_calls hpoll)
      · refine Prog.delivers_bind.mpr (delivers_writeRevents _ _ ?_)
        rintro (errno | _) <;> exact pollEnds_of_calls hpoll _

/-- The Unix socket imports look their fds up first. -/
theorem unix_socketsWired (lc : Libc) : SocketsWired (unixBuild lc) Unix.Ignored where
  lookup := by
    intro c fd hc
    cases c with
    | socket => cases hc
    | poll => cases hc
    | close =>
      cases hc
      exact .inr ⟨_, rfl, rfl⟩
    | _ =>
      cases hc
      exact .inl ⟨_, rfl, rfl⟩
  socket _ _ _ := ⟨_, rfl, rfl⟩
  poll F network fdsPtr nfds timeout := unix_poll_delivers lc F network fdsPtr nfds timeout

/-! ### Windows -/

namespace LookupsAux

section
variable {F : Int32 → Prop} {network : Bool → Prop} {f : Seen} (toUppercase : Str → Str)

/-- The first loop of `poll` on Windows finds every fd that is not negative, or ends with `EBADF`. -/
theorem delivers_windows_hostPollFds {calls : Seen → Windows.Net.Cmd → Prop} (chunks : List (List UInt8))
    {Q : Except Errno (List (Bool × Windows.WsaPollFd)) → Seen → Prop} (herr : Q (.error .ebadf) f)
    (hok : ∀ entries, (∀ chunk ∈ chunks, 0 ≤ (guestPollFd chunk).1 → ¬F (guestPollFd chunk).1) →
      ((∀ chunk ∈ chunks, (guestPollFd chunk).1 < 0) → ∀ entry ∈ entries, entry.2.fd = Windows.invalidSocket) → Q (.ok entries) f) :
    (Windows.hostPollFds chunks).Delivers (lookups (windowsBuild toUppercase) F network calls) Q f := by
  induction chunks generalizing Q with
  | nil => exact hok [] (List.forall_mem_nil _) fun _ => List.forall_mem_nil _
  | cons chunk chunks ih =>
    have hrest (entry : Bool × Windows.WsaPollFd) (hentry : 0 ≤ (guestPollFd chunk).1 → ¬F (guestPollFd chunk).1)
        (hneg : (guestPollFd chunk).1 < 0 → entry.2.fd = Windows.invalidSocket) :
        (Windows.pushEntry entry (Windows.hostPollFds chunks)).Delivers (lookups (windowsBuild toUppercase) F network calls) Q f := by
      refine Prog.delivers_bind.mpr (ih herr ?_)
      intro entries hentries hignored
      refine hok _ (List.forall_mem_cons.mpr ⟨hentry, hentries⟩) ?_
      intro hall
      obtain ⟨hfirst, hothers⟩ := List.forall_mem_cons.mp hall
      exact List.forall_mem_cons.mpr ⟨hneg hfirst, hignored hothers⟩
    unfold Windows.hostPollFds
    by_cases hneg : (guestPollFd chunk).1 < 0
    · simp only [hneg, if_true, Prog.pure_eq, Prog.ret_bind]
      exact hrest (true, ⟨Windows.invalidSocket, 0⟩) (fun hpos => absurd hneg (Int32.not_lt.mpr hpos)) fun _ => rfl
    · simp only [hneg, if_false]
      refine Prog.delivers_bind.mpr (delivers_getSocket herr ?_)
      intro hF socket
      exact hrest (false, ⟨socket.rawSocket, Windows.guestPollEventsToWindows (guestPollFd chunk).2⟩) (fun _ => hF) fun h => absurd h hneg

end

end LookupsAux

/-- `poll` on Windows ends with `EBADF` if one of its fds is not there, and polls nothing if all are negative. -/
theorem windows_poll_delivers (toUppercase : Str → Str) (F : Int32 → Prop) (network : Bool → Prop) (fdsPtr nfds timeout : Int32) :
    (Windows.poll fdsPtr nfds timeout).Delivers
      (lookups (windowsBuild toUppercase) F network (PollCalls (windowsBuild toUppercase) F Windows.Ignored nfds))
      (PollEnds F nfds) .nothing := by
  unfold Windows.poll
  simp only [Prog.pure_eq, Prog.ret_bind]
  cases hn : checkedPollCount nfds with
  | error errno => exact fun ⟨_, hbytes, _⟩ => nomatch hbytes
  | ok n =>
    refine Prog.delivers_bind.mpr (delivers_readGuest ?_ ?_)
    · intro errno
      exact fun ⟨_, hbytes, _⟩ => nomatch hbytes
    · intro bytes
      refine Prog.delivers_bind.mpr (delivers_windows_hostPollFds toUppercase _ (fun _ => rfl) ?_)
      intro entries hentries hignored
      have hpoll : PollCalls (windowsBuild toUppercase) F Windows.Ignored nfds ⟨[bytes], false⟩
          (.wsaPoll (entries.map Prod.snd) timeout) := by
        refine pollCalls_of_chunks hn hentries ?_
        intro hall entry hentry
        obtain ⟨e, he, rfl⟩ := List.mem_map.mp hentry
        exact hignored hall e he
      refine Prog.delivers_bind.mpr (delivers_call hpoll ?_)
      intro answer
      split
      · exact Prog.delivers_bind.mpr (delivers_call ⟨hpoll.1, fun _ => trivial⟩ fun _ => pollEnds_of_calls hpoll _)
      · refine Prog.delivers_bind.mpr (delivers_writeRevents _ _ ?_)
        rintro (errno | _) <;> exact pollEnds_of_calls hpoll _

/-- The Windows socket imports look their fds up first. -/
theorem windows_socketsWired (toUppercase : Str → Str) : SocketsWired (windowsBuild toUppercase) Windows.Ignored where
  lookup := by
    intro c fd hc
    cases c with
    | socket => cases hc
    | poll => cases hc
    | close =>
      cases hc
      exact .inr ⟨_, rfl, rfl⟩
    | _ =>
      cases hc
      exact .inl ⟨_, rfl, rfl⟩
  socket _ _ _ := ⟨_, rfl, rfl⟩
  poll F network fdsPtr nfds timeout := windows_poll_delivers toUppercase F network fdsPtr nfds timeout

/-! ## The file imports -/

/-- What a build keeps by fd beside its table of files: the fds it has something of, the commands that look one up and that enter one, and
the answers that say it was not there. -/
structure OwnFds (B : Build) where
  live : B.FileState → Int32 → Prop
  looks : Int32 → B.FileHost.Cmd → Prop
  missed : (c : B.FileHost.Cmd) → B.FileHost.Resp c → Prop
  enters : Int32 → B.FileHost.Cmd → Prop

/-- What `pread` and `truncate` check before they look the fd up. -/
def FileImport.ArgsOk : FileImport → Prop
  | .pread _ _ len _ => ∃ n, checkedLen len = .ok n
  | .truncate _ size => 0 ≤ size
  | _ => True

section
variable (B : Build) (O : OwnFds B)

/-- A file import that only looks fds up, in tables that have none of `F`. -/
def fileLookups (F : Int32 → Prop) : Discipline B.Files Seen where
  allows _
    | .inl _ => True
    | .inr (.inl (.files (.get _))) => True
    | .inr (.inl (.files (.remove fd))) => F fd
    | .inr (.inr (.inr c)) => ∃ fd, F fd ∧ O.looks fd c
    | _ => False
  relies
    | .inr (.inl (.files (.get fd))), found => F fd → found = none
    | .inr (.inl (.files (.remove fd))), found => F fd → found = none
    | .inr (.inr (.inr c)), r => ∀ fd, F fd → O.looks fd c → O.missed c r
    | _, _ => True
  next f
    | .inl c, r => f.note c r
    | _, _ => f

variable {B O} in
/-- A call whose reads have not failed is in a phase that says so. -/
theorem not_failed_of_past {F : Int32 → Prop} {past : List (Event B.Runner)}
    (h : ∀ ptr len errno, (⟨.inr (.inl (.inl (.readGuest ptr len))), .error errno⟩ : Event B.Runner) ∉ past) :
    ((fileLookups B O F).inl.inr.after Seen.nothing past).failed = false := by
  induction past using List.reverseRecOn with
  | nil => rfl
  | append_singleton past ev ih =>
    rw [Discipline.after_snoc]
    have hbefore := ih fun ptr len errno hmem => h ptr len errno (List.mem_append_left _ hmem)
    obtain ⟨c | (c | c) | c, r⟩ := ev
    · exact hbefore
    · cases c with
      | readGuest ptr len =>
        cases r with
        | ok bytes => exact hbefore
        | error errno => exact absurd (List.mem_append_right _ List.mem_cons_self) (h ptr len errno)
      | _ => exact hbefore
    · exact hbefore
    · exact hbefore

/-- A file import that enters only fds that the table can have given it. -/
def fileEnters : Discipline B.Files Seen where
  allows _
    | .inr (.inr (.inr c)) => ∀ fd, O.enters fd c → fileFdBase ≤ fd
    | _ => True
  relies
    | .inr (.inl (.files (.insert _))), r => fileFdBase ≤ r.1
    | _, _ => True
  next f _ _ := f

/-- The file imports of a build look their fds up before they call the host. -/
structure FilesWired : Prop where
  start : ∀ fd, ¬O.live B.fileStart fd
  missed : ∀ s s' fd c r, ¬O.live s fd → O.looks fd c → B.fileHost s c r s' → O.missed c r
  entered : ∀ s s' fd c r, B.fileHost s c r s' → O.live s' fd → O.live s fd ∨ O.enters fd c
  lookup : ∀ F c fd, c.fd = some fd → F fd → (B.fileProg c).Delivers (fileLookups B O F)
    (fun v f => c.ArgsOk → f.failed = false → v = (negErrno .ebadf).toInt64) .nothing
  enter : ∀ c, (B.fileProg c).Obeys (fileEnters B O) (fun _ _ => True) .nothing

end

namespace LookupsAux

section
variable {B : Build} {O : OwnFds B} {F : Int32 → Prop} {f : Seen} {fd : Int32}

/-- A file that is not there is not there. -/
theorem delivers_filesGet (hF : F fd) {Q : Option File → Seen → Prop} (h : Q none f) :
    (files (.get fd) : FileProg B.Path B.FileHost _).Delivers (fileLookups B O F) Q f := by
  refine ⟨trivial, ?_⟩
  intro found hfound
  rw [hfound hF]
  exact h

/-- A file that is not there is not removed. -/
theorem delivers_filesRemove (hF : F fd) {Q : Option File → Seen → Prop} (h : Q none f) :
    (files (.remove fd) : FileProg B.Path B.FileHost _).Delivers (fileLookups B O F) Q f := by
  refine ⟨hF, ?_⟩
  intro found hfound
  rw [hfound hF]
  exact h

variable (ioErrno : IoError → Errno)

/-- `pread` on an fd that is not there, once its length is checked, ... -/
theorem delivers_pread (hF : F fd) (bufPtr len : Int32) (offset : Int64) :
    (HostFiles.pread ioErrno fd bufPtr len offset : FileProg B.Path B.FileHost _).Delivers (fileLookups B O F)
      (fun v _ => (∃ n, checkedLen len = .ok n) → v = negErrno .ebadf) f := by
  unfold HostFiles.pread
  cases hlen : checkedLen len with
  | error errno => exact fun ⟨n, hn⟩ => nomatch hn
  | ok n =>
    refine Prog.delivers_bind.mpr ⟨trivial, fun _ _ => ?_⟩
    exact Prog.delivers_bind.mpr (Prog.delivers_bind.mpr (delivers_filesGet hF fun _ => rfl))

/-- ... `pwrite`, once its buffer is read, ... -/
theorem delivers_pwrite (hF : F fd) (bufPtr len : Int32) (offset : Int64) :
    (HostFiles.pwrite ioErrno fd bufPtr len offset : FileProg B.Path B.FileHost _).Delivers (fileLookups B O F)
      (fun v f => f.failed = false → v = negErrno .ebadf) f := by
  refine Prog.delivers_bind.mpr ⟨trivial, ?_⟩
  rintro (errno | buf) _
  · exact fun hfailed => nomatch hfailed
  · exact Prog.delivers_bind.mpr (delivers_filesGet hF fun _ => rfl)

/-- ... `seek`, ... -/
theorem delivers_seek (hF : F fd) (offset : Int64) (whence : Int32) :
    (HostFiles.seek ioErrno fd offset whence : FileProg B.Path B.FileHost _).Delivers (fileLookups B O F)
      (fun v _ => v = (negErrno .ebadf).toInt64) f := Prog.delivers_bind.mpr (delivers_filesGet hF rfl)

/-- ... `truncate`, once its size is checked, ... -/
theorem delivers_truncate (hF : F fd) (size : Int64) :
    (HostFiles.truncate ioErrno fd size : FileProg B.Path B.FileHost _).Delivers (fileLookups B O F)
      (fun v _ => 0 ≤ size → v = negErrno .ebadf) f := by
  unfold HostFiles.truncate
  by_cases hsize : size < 0
  · rw [if_pos hsize]
    exact fun hle => absurd hsize (Int64.not_lt.mpr hle)
  · rw [if_neg hsize]
    exact Prog.delivers_bind.mpr (delivers_filesGet hF fun _ => rfl)

/-- ... and `sync` return `EBADF`. -/
theorem delivers_sync (hF : F fd) (dataOnly : Int32) :
    (HostFiles.sync ioErrno fd dataOnly : FileProg B.Path B.FileHost _).Delivers (fileLookups B O F)
      (fun v _ => v = negErrno .ebadf) f := Prog.delivers_bind.mpr (delivers_filesGet hF rfl)

end

end LookupsAux

/-! ### Unix -/

/-- The Unix module keeps nothing by fd but its table. -/
def Unix.ownFds (lc : Libc) : OwnFds (unixBuild lc) where
  live _ _ := False
  looks _ _ := False
  missed _ _ := True
  enters _ _ := False

/-- The Unix file imports look their fds up before they call the host. -/
theorem unix_filesWired (lc : Libc) : FilesWired (unixBuild lc) (Unix.ownFds lc) where
  start _ h := h
  missed _ _ _ _ _ _ h _ := h.elim
  entered _ _ _ _ _ _ h := h.elim
  lookup := by
    intro F c fd hc hF
    cases c with
    | openFile => cases hc
    | syncParent => cases hc
    | close =>
      cases hc
      exact Prog.delivers_map.mpr (Prog.delivers_bind.mpr (delivers_filesRemove hF fun _ _ => rfl))
    | pread _ bufPtr len offset =>
      cases hc
      exact Prog.delivers_map.mpr ((delivers_pread _ hF bufPtr len offset).mono fun v f h hargs _ => congrArg Int32.toInt64 (h hargs))
    | pwrite _ bufPtr len offset =>
      cases hc
      exact Prog.delivers_map.mpr ((delivers_pwrite _ hF bufPtr len offset).mono fun v f h _ hread => congrArg Int32.toInt64 (h hread))
    | seek _ offset whence =>
      cases hc
      exact (delivers_seek _ hF offset whence).mono fun v f h _ _ => h
    | truncate _ size =>
      cases hc
      exact Prog.delivers_map.mpr ((delivers_truncate _ hF size).mono fun v f h hargs _ => congrArg Int32.toInt64 (h hargs))
    | sync _ dataOnly =>
      cases hc
      exact Prog.delivers_map.mpr ((delivers_sync _ hF dataOnly).mono fun v f h _ _ => congrArg Int32.toInt64 h)
    | lockExclusive =>
      cases hc
      exact Prog.delivers_map.mpr (Prog.delivers_bind.mpr (delivers_filesGet hF fun _ _ => rfl))
  enter c := by
    refine (Prog.only_true _).obeys ?_ _
    rintro f (c | c | c | c) _
    · trivial
    · trivial
    · trivial
    · exact fun fd h => h.elim

/-! ### Windows -/

/-- The Windows module also keeps the path each file was opened by. -/
def Windows.ownFds (toUppercase : Str → Str) : OwnFds (windowsBuild toUppercase) where
  live s fd := s.1.lockPaths fd ≠ none
  looks fd c := c = .inl (.lockPathsGet fd)
  missed
    | .inl (.lockPathsGet _), found => found = none
    | _, _ => True
  enters fd c := ∃ path, c = .inl (.lockPathsInsert fd path)

namespace LookupsAux

/-- No path is entered. -/
def NoLockPath : Windows.Files.Cmd → Prop
  | .inr (.inr (.inr (.inl (.lockPathsInsert ..)))) => False
  | _ => True

section
variable (ioErrno : IoError → Errno)

/-- `pread` under the mutex enters no path. -/
theorem noLockPath_preadFile (fd : Int32) (len : Nat) (offset : UInt64) :
    (HostFiles.preadFile ioErrno fd len offset : FileProg WinPath Windows.FileHost _).Only NoLockPath := by
  refine .step trivial fun found => ?_
  cases found with
  | none => trivial
  | some file =>
    refine .step trivial fun answer => ?_
    cases answer with
    | error err => trivial
    | ok answer =>
      simp only
      split <;> trivial

/-- `pread` enters no path. -/
theorem noLockPath_pread (fd bufPtr len : Int32) (offset : Int64) :
    (HostFiles.pread ioErrno fd bufPtr len offset : FileProg WinPath Windows.FileHost _).Only NoLockPath := by
  unfold HostFiles.pread
  cases checkedLen len with
  | error errno => trivial
  | ok n =>
    refine .step trivial fun _ => .bind (noLockPath_preadFile ioErrno fd n _) fun answer => ?_
    obtain ⟨rc, data⟩ := answer
    simp only [sliceTo]
    split
    · trivial
    · split
      · refine .step trivial fun written => ?_
        cases written <;> trivial
      · trivial

/-- `pwrite` enters no path. -/
theorem noLockPath_pwrite (fd bufPtr len : Int32) (offset : Int64) :
    (HostFiles.pwrite ioErrno fd bufPtr len offset : FileProg WinPath Windows.FileHost _).Only NoLockPath := by
  refine .step trivial fun read => ?_
  cases read with
  | error errno => trivial
  | ok buf =>
    refine .step trivial fun found => ?_
    cases found with
    | none => trivial
    | some file =>
      refine .step trivial fun written => ?_
      cases written with
      | error err => trivial
      | ok n =>
        simp only
        split <;> trivial

/-- `seek` enters no path. -/
theorem noLockPath_seek (fd : Int32) (offset : Int64) (whence : Int32) :
    (HostFiles.seek ioErrno fd offset whence : FileProg WinPath Windows.FileHost _).Only NoLockPath := by
  refine .step trivial fun found => ?_
  cases found with
  | none => trivial
  | some file =>
    simp only
    split
    · trivial
    · refine .step trivial fun answer => ?_
      cases answer with
      | error err => trivial
      | ok pos =>
        simp only
        split <;> trivial

/-- `truncate` enters no path. -/
theorem noLockPath_truncate (fd : Int32) (size : Int64) :
    (HostFiles.truncate ioErrno fd size : FileProg WinPath Windows.FileHost _).Only NoLockPath := by
  unfold HostFiles.truncate
  split
  · trivial
  · refine .step trivial fun found => ?_
    cases found with
    | none => trivial
    | some file => exact .step trivial fun _ => trivial

/-- `sync` enters no path. -/
theorem noLockPath_sync (fd dataOnly : Int32) :
    (HostFiles.sync ioErrno fd dataOnly : FileProg WinPath Windows.FileHost _).Only NoLockPath := by
  refine .step trivial fun found => ?_
  cases found with
  | none => trivial
  | some file =>
    simp only
    split <;> exact .step trivial fun _ => trivial

end

/-- `close` enters no path. -/
theorem noLockPath_closeFile (fd : Int32) : (Windows.closeFile fd).Only NoLockPath := by
  refine .step trivial fun found => ?_
  cases found with
  | none => trivial
  | some file => exact .step trivial fun _ => .step trivial fun _ => trivial

/-- A directory is synced without a path being entered. -/
theorem noLockPath_syncDirectory (path : WinPath) : (Windows.syncDirectory path).Only NoLockPath := by
  refine .step trivial fun handle => ?_
  cases handle with
  | none => exact .step trivial fun _ => trivial
  | some handle =>
    refine .step trivial fun flushed => ?_
    split
    · exact .step trivial fun _ => trivial
    · exact .step trivial fun _ => .step trivial fun _ => trivial

/-- `sync_parent` enters no path. -/
theorem noLockPath_syncParent (pathPtr : Int32) : (Windows.syncParent pathPtr).Only NoLockPath := by
  refine .step trivial fun path => ?_
  cases path with
  | error errno => trivial
  | ok path =>
    refine .bind (.step trivial fun preopens => ?_) fun parent => ?_
    · cases WasmtimeMysql.resolveParent windowsPaths preopens path <;> trivial
    · cases parent with
      | error errno => trivial
      | ok parent => exact .bind (noLockPath_syncDirectory parent) fun _ => trivial

/-- A lock is kept under its own path, not under that of a file. -/
theorem noLockPath_insertLock (path : WinParts) (handle : Windows.Handle) : (Windows.insertLock path handle).Only NoLockPath := by
  refine .step trivial fun old => ?_
  cases old with
  | none => trivial
  | some old => exact ⟨trivial, fun _ => trivial⟩

/-- `lock_exclusive` enters no path. -/
theorem noLockPath_lockExclusive (toUppercase : Str → Str) (fd : Int32) : (Windows.lockExclusive toUppercase fd).Only NoLockPath := by
  refine .step trivial fun lockPath => ?_
  cases lockPath with
  | none => trivial
  | some lockPath =>
    refine .step trivial fun held => ?_
    cases held with
    | true => trivial
    | false =>
      refine .step trivial fun found => ?_
      cases found with
      | none => trivial
      | some file =>
        refine .step trivial fun handle => ?_
        cases handle with
        | none => exact .step trivial fun _ => trivial
        | some handle =>
          refine .step trivial fun err => ?_
          split
          · exact .step trivial fun _ => trivial
          · exact .bind (noLockPath_insertLock lockPath handle) fun _ => trivial

section
variable (toUppercase : Str → Str)

/-- A program that enters no path enters no fd. -/
theorem fileEnters_of_noLockPath {α : Type} {p : FileProg WinPath Windows.FileHost α} (h : p.Only NoLockPath) (f : Seen) :
    p.Obeys (fileEnters (windowsBuild toUppercase) (Windows.ownFds toUppercase)) (fun _ _ => True) f := by
  refine h.obeys ?_ f
  rintro f (c | c | c | c) hc
  · trivial
  · trivial
  · trivial
  · rintro fd ⟨path, rfl⟩
    exact hc.elim

/-- `open` enters the fd that the table has given it. -/
theorem fileEnters_openFile (pathPtr flags : Int32) (f : Seen) :
    (Windows.openFile pathPtr flags).Obeys (fileEnters (windowsBuild toUppercase) (Windows.ownFds toUppercase)) (fun _ _ => True) f := by
  have hlockPath (fd : Int32) (path : WinParts) (hfd : fileFdBase ≤ fd) : (do
      Windows.lockMaps (.lockPathsInsert fd path)
      return fd : FileProg WinPath Windows.FileHost Int32).Obeys (fileEnters (windowsBuild toUppercase) (Windows.ownFds toUppercase))
        (fun _ _ => True) f := by
    refine ⟨?_, fun _ _ => trivial⟩
    rintro fd' ⟨path', hcmd⟩
    cases hcmd
    exact hfd
  refine .step trivial fun path _ => ?_
  cases path with
  | error errno => trivial
  | ok path =>
    refine Prog.obeys_bind.mpr (Prog.obeys_bind.mpr (.step trivial fun preopens _ => ?_))
    cases WasmtimeMysql.resolve windowsPaths preopens path with
    | panicked => trivial
    | returned hostPath =>
      cases hostPath with
      | error errno => trivial
      | ok hostPath =>
        simp only [ofOutcome, Prog.pure_eq, Prog.Obeys]
        split
        · trivial
        · refine .step trivial fun opened _ => ?_
          cases opened with
          | error err => trivial
          | ok file =>
            refine .step ?_ fun canonical _ => Prog.obeys_bind.mpr (.step trivial fun inserted hinserted => ?_)
            · rintro fd ⟨path, hcmd⟩
              cases hcmd
            · obtain ⟨fd, replaced⟩ := inserted
              cases replaced with
              | none => exact hlockPath fd _ hinserted
              | some old => exact .step trivial fun _ _ => hlockPath fd _ hinserted

end

end LookupsAux

/-- The Windows file imports look their fds up before they call the host. -/
theorem windows_filesWired (toUppercase : Str → Str) : FilesWired (windowsBuild toUppercase) (Windows.ownFds toUppercase) where
  start fd h := h rfl
  missed := by
    rintro ⟨maps, u⟩ s' fd c r hlive rfl hm
    obtain ⟨hr, -⟩ := Machine.eq_of_det hm.1
    rw [hr]
    exact not_not.mp hlive
  entered := by
    rintro ⟨maps, u⟩ ⟨maps', u'⟩ fd (c | c) r hm hlive
    · obtain ⟨-, hmaps⟩ := Machine.eq_of_det hm.1
      have hlive : ((maps.handle c).2).lockPaths fd ≠ none := fun hnone => hlive ((congrArg (·.lockPaths fd) hmaps).trans hnone)
      cases c with
      | lockPathsInsert fd' path =>
        by_cases hfd : fd = fd'
        · exact .inr ⟨path, hfd ▸ rfl⟩
        · exact .inl fun hnone => hlive ((if_neg hfd).trans hnone)
      | lockPathsRemove fd' =>
        by_cases hfd : fd = fd'
        · exact absurd (if_pos hfd) hlive
        · exact .inl fun hnone => hlive ((if_neg hfd).trans hnone)
      | _ => exact .inl hlive
    · have hmaps : maps' = maps := hm.2
      cases hmaps
      exact .inl hlive
  lookup := by
    intro F c fd hc hF
    cases c with
    | openFile => cases hc
    | syncParent => cases hc
    | close =>
      cases hc
      exact Prog.delivers_map.mpr (Prog.delivers_bind.mpr (delivers_filesRemove hF fun _ _ => rfl))
    | pread _ bufPtr len offset =>
      cases hc
      exact Prog.delivers_map.mpr ((delivers_pread _ hF bufPtr len offset).mono fun v f h hargs _ => congrArg Int32.toInt64 (h hargs))
    | pwrite _ bufPtr len offset =>
      cases hc
      exact Prog.delivers_map.mpr ((delivers_pwrite _ hF bufPtr len offset).mono fun v f h _ hread => congrArg Int32.toInt64 (h hread))
    | seek _ offset whence =>
      cases hc
      exact (delivers_seek _ hF offset whence).mono fun v f h _ _ => h
    | truncate _ size =>
      cases hc
      exact Prog.delivers_map.mpr ((delivers_truncate _ hF size).mono fun v f h hargs _ => congrArg Int32.toInt64 (h hargs))
    | sync _ dataOnly =>
      cases hc
      exact Prog.delivers_map.mpr ((delivers_sync _ hF dataOnly).mono fun v f h _ _ => congrArg Int32.toInt64 h)
    | lockExclusive =>
      cases hc
      refine Prog.delivers_map.mpr ⟨⟨fd, hF, rfl⟩, fun found hfound => ?_⟩
      cases hfound fd hF rfl
      exact fun _ _ => rfl
  enter := by
    intro c
    cases c with
    | openFile pathPtr flags mode => exact Prog.obeys_map.mpr (fileEnters_openFile toUppercase pathPtr flags _)
    | close fd => exact Prog.obeys_map.mpr (fileEnters_of_noLockPath toUppercase (noLockPath_closeFile fd) _)
    | pread fd bufPtr len offset =>
      exact Prog.obeys_map.mpr (fileEnters_of_noLockPath toUppercase (noLockPath_pread _ fd bufPtr len offset) _)
    | pwrite fd bufPtr len offset =>
      exact Prog.obeys_map.mpr (fileEnters_of_noLockPath toUppercase (noLockPath_pwrite _ fd bufPtr len offset) _)
    | seek fd offset whence => exact fileEnters_of_noLockPath toUppercase (noLockPath_seek _ fd offset whence) _
    | truncate fd size => exact Prog.obeys_map.mpr (fileEnters_of_noLockPath toUppercase (noLockPath_truncate _ fd size) _)
    | sync fd dataOnly => exact Prog.obeys_map.mpr (fileEnters_of_noLockPath toUppercase (noLockPath_sync _ fd dataOnly) _)
    | syncParent pathPtr => exact Prog.obeys_map.mpr (fileEnters_of_noLockPath toUppercase (noLockPath_syncParent pathPtr) _)
    | lockExclusive fd => exact Prog.obeys_map.mpr (fileEnters_of_noLockPath toUppercase (noLockPath_lockExclusive toUppercase fd) _)

end WasmtimeMysql
