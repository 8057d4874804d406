import WasmtimeMysql.GuestNetwork
import WasmtimeMysql.Theorems.Freshness
import WasmtimeMysql.Theorems.NameLedger
import WasmtimeMysql.Theorems.NameRoundTrip
import WasmtimeMysql.Theorems.SocketAddresses

/-!
# The address that is listened on

From a node and a service to the host: `getaddrinfo` makes an address, the shim's `socket` is called with its family, and later its `bind` with
the new socket and the bytes of the address. The guest's `AF_INET6` is 2, which both socket modules take for the `AF_INET` of the host. So whatever
the node is, the host opens an IPv4 socket; and where the node is an IPv6 address, the four bytes that the host reads as the IPv4 address are the
flow information, which is 0. The port is right, the address is the wildcard (`bound_address`).
-/

namespace WasmtimeMysql

open Effects Effects.Prog Bytes Netdb GuestNetwork

/-- What Linux and Windows read of a `struct sockaddr_in`: the port and the address, if the family is `AF_INET`. -/
def readSockaddrIn (bytes : List UInt8) : Option (Nat × List UInt8) :=
  if leFamily bytes = 2 ∧ 16 ≤ bytes.length then some (ofLeBytes ((bytes.drop 2).take 2).reverse, (bytes.drop 4).take 4) else none

/-- What is seen of a socket between `socket` and `bind`: the host's socket of an entry, the domain and the socket of a call that has made one, and
the socket and the address of a call that binds. -/
structure BindHost (A : AddressHost) where
  Raw : Type
  raw : A.Entry → Raw
  made : (c : A.Sockets.Cmd) → A.Sockets.Resp c → Option (Int32 × Raw)
  bound : A.Sockets.Cmd → Option (Raw × List UInt8)

/-- The calls of libc. -/
@[reducible] def unixBinds (lc : Libc) (family : List UInt8 → Nat) (rest : List UInt8 → List UInt8) : BindHost (unixHost lc family rest) where
  Raw := Int32
  raw := Unix.HostSocket.rawFd
  made
    | .inr (.inr (.socket domain _ _)), rawFd => some (domain, rawFd)
    | _, _ => none
  bound
    | .inr (.inr (.bind rawFd addr)) => some (rawFd, addr)
    | _ => none

/-- The calls of WinSock. -/
@[reducible] def windowsBinds : BindHost windowsHost where
  Raw := Windows.Socket
  raw := Windows.HostSocket.rawSocket
  made
    | .inr (.inr (.socket domain _ _)), rawSocket => some (domain, rawSocket)
    | _, _ => none
  bound
    | .inr (.inr (.bind rawSocket addr)) => some (rawSocket, addr)
    | _ => none

/-- The calls of each host. -/
@[reducible] def HostOs.binds : (os : HostOs) → BindHost os.addresses
  | .linux => unixBinds WasmtimeMysql.linux leFamily (List.drop 2)
  | .macos => unixBinds WasmtimeMysql.macos macosFamily macosRest
  | .windows => windowsBinds

/-- The IPv4 address that a node is bound to. -/
def boundTo (inet : Inet) (node : Option CStr) (hints : Option Hints) : Option (Vector UInt8 4) :=
  let hints := hints.getD ⟨0, afUnspec, sockStream, 0⟩
  if nodeFamily hints.family node = afInet then nodeAddress inet.pton4 inaddrAny inaddrLoopback (hints.flags &&& aiPassive != 0) node
  else some inaddrAny

/-- The address has the port of the service, and the IPv4 address that the node is bound to. -/
def BoundAsAsked (inet : Inet) (node service : Option CStr) (hints : Option Hints) (host : List UInt8) : Prop :=
  ∃ port addr, parseServicePort service = .ok port ∧ boundTo inet node hints = some addr ∧
    readSockaddrIn host = some ((htons port).toNat, addr.toList)

namespace BindAddressAux

/-! ### What `getaddrinfo` makes -/

section
variable {Ptr σ : Type} {M : Machine (Heap.Sig Ptr) σ} {s : σ}

open NameRoundTripAux

/-- The entries have the family, the length and the address of the block that made them. -/
def EntriesOf (family : Int32) (addrlen : Nat) (made : Sockaddr → Prop) (o : Outcome (Resolved Ptr)) : Prop :=
  ∀ r, o = .returned r → ∀ ai ∈ r.res, ai.family = family ∧ ai.addrlen = addrlen ∧ made ai.addr

/-- No entries, ... -/
theorem entriesOf_nil {family : Int32} {addrlen : Nat} {made : Sockaddr → Prop} (rc : Int32) :
    EntriesOf family addrlen made (.returned (⟨rc, []⟩ : Resolved Ptr)) := by
  intro r hr ai hai
  cases hr
  cases hai

/-- ... or one. -/
theorem entriesOf_single {made : Sockaddr → Prop} (rc : Int32) (ai : AddrInfo Ptr) (hmade : made ai.addr) :
    EntriesOf ai.family ai.addrlen made (.returned ⟨rc, [ai]⟩) := by
  intro r hr ai' hai
  cases hr
  cases List.mem_singleton.mp hai
  exact ⟨rfl, rfl, hmade⟩

/-- What `resolve_node` makes is an entry of the block's family for an address of the node. -/
theorem wp_resolveNode_entries {n : Nat} {family socktype protocol : Int32} {addrlen : Nat} {pton : CStr → Option (Vector UInt8 n)}
    {any loopback : Vector UInt8 n} {sockaddr : Vector UInt8 n → Sockaddr} {passive canonname : Bool} {node : Option CStr}
    {P : Sockaddr → Prop} (hmade : ∀ addr, nodeAddress pton any loopback passive node = some addr → P (sockaddr addr)) :
    wp M (resolveNode family socktype protocol addrlen pton any loopback sockaddr passive canonname node)
      (fun _ o _ => EntriesOf family addrlen P o) s := by
  have hnil (rc : Int32) : EntriesOf family addrlen P (.returned (⟨rc, []⟩ : Resolved Ptr)) := entriesOf_nil rc
  refine wp_bind.mpr (wp_bind.mpr (wp_heap ?_))
  rintro (_ | ai) s₁
  · simpa using hnil eaiMemory
  · refine wp_bind.mpr (wp_heap ?_)
    rintro (_ | addrPtr) s₂
    · refine wp_bind.mpr (wp_heap fun _ _ => ?_)
      simpa using hnil eaiMemory
    · simp only [wpNext_returned, Prog.pure_eq, wp_ret]
      cases hnode : nodeAddress pton any loopback passive node with
      | none =>
        refine wp_bind.mpr (wp_freeaddrinfo_any fun _ _ => ?_)
        simpa using hnil eaiNoname
      | some addr =>
        have hsingle (name : Option (Ptr × CStr)) := entriesOf_single 0
          ⟨ai, 0, family, socktype, protocol, addrlen, addrPtr, sockaddr addr, name⟩ (hmade addr hnode)
        cases canonname with
        | false => simpa using hsingle none
        | true =>
          simp only [if_true, dupCstr]
          refine wp_bind.mpr (wp_bind.mpr (wp_heap ?_))
          rintro (_ | copy) s₃
          · refine wp_bind.mpr (wp_freeaddrinfo_any fun _ _ => ?_)
            simpa using hnil eaiMemory
          · simpa using hsingle (some (copy, node.getD []))

/-- An entry for a node and a service, by its family. -/
inductive Entry (inet : Inet) (node service : Option CStr) (hints : Option Hints) (ai : AddrInfo Ptr) : Prop where
  | inet {port : UInt16} {addr : Vector UInt8 4} : parseServicePort service = .ok port → ai.family = afInet → ai.addrlen = sizeofSockaddrIn →
      ai.addr = .inet port addr → boundTo inet node hints = some addr → Entry inet node service hints ai
  | inet6 {port : UInt16} {addr : Vector UInt8 16} : parseServicePort service = .ok port → ai.family = afInet6 →
      ai.addrlen = sizeofSockaddrIn6 → ai.addr = .inet6 port 0 addr 0 → boundTo inet node hints = some inaddrAny →
      Entry inet node service hints ai

/-- Every entry is made by the block of its family. -/
theorem wp_getaddrinfo_entries {inet : Inet} {node service : Option CStr} {hints : Option Hints} :
    wp M (getaddrinfoFor inet true node service hints)
      (fun _ o _ => ∀ r, o = .returned r → ∀ ai ∈ r.res, Entry inet node service hints ai) s := by
  have hnone (rc : Int32) (r : Resolved Ptr) (hr : Outcome.returned ⟨rc, []⟩ = Outcome.returned r) (ai : AddrInfo Ptr) (hai : ai ∈ r.res) :
      Entry inet node service hints ai := by
    cases hr
    cases hai
  simp only [getaddrinfoFor, if_true, getaddrinfo]
  cases hport : parseServicePort service with
  | error rc => exact hnone rc
  | ok port =>
    by_cases hinet : nodeFamily (hints.getD ⟨0, afUnspec, sockStream, 0⟩).family node = afInet
    · simp only [if_pos hinet]
      refine wp_mono (wp_resolveNode_entries (P := fun sa => ∃ addr, boundTo inet node hints = some addr ∧ sa = .inet port addr) ?_) ?_
      · intro addr hnode
        exact ⟨addr, by simpa [boundTo, hinet] using hnode, rfl⟩
      · intro _ o _ hentries r hr ai hai
        obtain ⟨hfamily, haddrlen, addr, hbound, haddr⟩ := hentries r hr ai hai
        exact .inet hport hfamily haddrlen haddr hbound
    · simp only [if_neg hinet]
      by_cases hinet6 : nodeFamily (hints.getD ⟨0, afUnspec, sockStream, 0⟩).family node = afInet6
      · simp only [if_pos hinet6]
        refine wp_mono (wp_resolveNode_entries (P := fun sa => ∃ addr, sa = .inet6 port 0 addr 0) fun addr _ => ⟨addr, rfl⟩)
          fun _ o _ hentries r hr ai hai => ?_
        obtain ⟨hfamily, haddrlen, addr, haddr⟩ := hentries r hr ai hai
        exact .inet6 hport hfamily haddrlen haddr (by rw [boundTo, if_neg hinet])
      · simp only [if_neg hinet6]
        exact hnone eaiFamily

end

/-! ### What the host is asked for -/

/-- The command binds nothing, and a socket that it makes is of this domain. -/
def Makes {A : AddressHost} (H : BindHost A) (domain : Int32) (c : A.Sockets.Cmd) : Prop :=
  H.bound c = none ∧ ∀ r made, H.made c r = some made → made.1 = domain

/-- A command that neither binds nor makes a socket. -/
theorem makes_of_none {A : AddressHost} {H : BindHost A} {domain : Int32} {c : A.Sockets.Cmd} (hbound : H.bound c = none)
    (hmade : ∀ r, H.made c r = none) : Makes H domain c :=
  ⟨hbound, fun r _ h => by rw [hmade r] at h; cases h⟩

/-- A descriptor that is returned comes from a socket that the host has made, and stands for it if it stands for anything. -/
def Returns {A : AddressHost} (H : BindHost A) (domain : Int32) (tr : List (Event A.Sockets)) (o : Outcome Int32)
    (t : FdTable socketFdBase A.Entry) : Prop :=
  ∀ fd, o = .returned fd → ¬fd < 0 → ∃ raw, (∃ ev ∈ tr, H.made ev.1 ev.2 = some (domain, raw)) ∧
    ∀ entry, t.find fd = some entry → H.raw entry = raw ∧ A.hostDomain entry = domain

section
variable {A : AddressHost} {H : BindHost A} {domain : Int32} {tr : List (Event A.Sockets)} {t : FdTable socketFdBase A.Entry}

/-- No descriptor is returned where the result is negative, ... -/
theorem returns_of_lt_zero {v : Int32} (hv : v < 0) : Returns H domain tr (.returned v) t := by
  intro fd hfd hnot
  cases hfd
  exact absurd hv hnot

/-- ... as an errno is, ... -/
theorem returns_negErrno (errno : Errno) : Returns H domain tr (.returned (negErrno errno)) t := returns_of_lt_zero (negErrno_lt_zero errno)

/-- ... nor by a panic. -/
theorem returns_panicked : Returns H domain tr .panicked t := fun _ hfd => by cases hfd

/-- After the host has made a socket, nothing stands under a result that is not a descriptor, ... -/
theorem returns_of_le_zero {raw : H.Raw} {v : Int32} (hmade : ∃ ev ∈ tr, H.made ev.1 ev.2 = some (domain, raw)) (hv : v ≤ 0) :
    Returns H domain tr (.returned v) t := by
  intro fd hfd _
  cases hfd
  refine ⟨raw, hmade, fun entry hentry => ?_⟩
  have hbase := (t.key_range v (by rw [hentry]; exact Option.some_ne_none entry)).1
  exact absurd (Int32.le_trans hbase hv) (by decide)

/-- ... and its entry under the one it was inserted at. -/
theorem returns_insert {x : A.Entry} (hmade : ∃ ev ∈ tr, H.made ev.1 ev.2 = some (domain, H.raw x)) (hx : A.hostDomain x = domain) :
    Returns H domain tr (.returned t.next) (t.insert x).2 := by
  intro fd hfd _
  cases hfd
  refine ⟨H.raw x, hmade, fun entry hentry => ?_⟩
  rw [FdTable.find_insert, if_pos rfl] at hentry
  cases hentry
  exact ⟨rfl, hx⟩

end

/-- What `bind` passes to the host: the socket of the entry, and what stands in guest memory with the domain of the entry for its family. It does
not succeed without that. -/
def Binds {A : AddressHost} (H : BindHost A) (e : Export) (a : AppState A.Entry) (fd addrPtr addrLen : Int32) (tr : List (Event A.Sockets))
    (o : Outcome Int32) : Prop :=
  (∀ ev ∈ tr, ∀ bound, H.bound ev.1 = some bound → ∃ entry guest, a.sockets.find fd = some entry ∧
    e.readGuest addrPtr addrLen = .ok guest ∧ bound = (H.raw entry, writeSockaddrFamily guest (A.hostDomain entry))) ∧
    ∀ rc, o = .returned rc → ¬rc < 0 → ∃ ev ∈ tr, (H.bound ev.1).isSome

section
variable {A : AddressHost} {H : BindHost A} {e : Export} {a : AppState A.Entry} {fd addrPtr addrLen : Int32} {tr : List (Event A.Sockets)}

/-- Nothing was bound. -/
theorem binds_negErrno (htr : ∀ ev ∈ tr, H.bound ev.1 = none) (errno : Errno) :
    Binds H e a fd addrPtr addrLen tr (.returned (negErrno errno)) := by
  refine ⟨fun ev hev bound hbound => ?_, fun rc hrc hnot => ?_⟩
  · rw [htr ev hev] at hbound
    cases hbound
  · cases hrc
    exact absurd (negErrno_lt_zero errno) hnot

end

section
open Unix

variable (lc : Libc) (layout : List UInt8 → Nat) (rest : List UInt8 → List UInt8) {e : Export} {a : AppState HostSocket}

/-- A flag is added with `fcntl` alone. -/
theorem unix_only_addFlag {P : Sockets.Cmd → Prop} (hfcntl : ∀ rawFd op, P (.inr (.inr (.fcntl rawFd op))))
    (herrno : P (.inr (.inr .lastOsError))) (wanted : Bool) (rawFd : Int32) (getFlags : Fcntl) (setFlags : Int32 → Fcntl) (flag : Int32) :
    (addFlag lc wanted rawFd getFlags setFlags flag).Only P := by
  have hlast : (lastErrno lc).Only P := by
    refine ⟨herrno, fun r => ?_⟩
    cases r <;> trivial
  have herror : ((lastErrno lc) >>= fun errno => pure (.error errno) : Import (Except Errno Unit)).Only P := .bind hlast fun _ => trivial
  unfold addFlag
  refine .ite ⟨hfcntl _ _, fun flags => .ite herror ?_⟩ trivial
  exact ⟨hfcntl _ _, fun rc => .ite herror trivial⟩

/-- `socket` makes sockets of the host's domain. -/
theorem unix_socket_makes (domain ty protocol : Int32) :
    (Unix.socket lc domain ty protocol).Only (Makes (unixBinds lc layout rest) (normalizeSocketDomain lc domain)) := by
  have hnone {c : Sockets.Cmd} (hbound : (unixBinds lc layout rest).bound c = none) (hmade : ∀ r, (unixBinds lc layout rest).made c r = none) :
      Makes (unixBinds lc layout rest) (normalizeSocketDomain lc domain) c := makes_of_none hbound hmade
  refine ⟨hnone rfl fun _ => rfl, fun allowed => .ite trivial ?_⟩
  cases normalizeSocketType lc ty with
  | error errno => trivial
  | ok socketType =>
    refine .bind trivial fun socketType => .bind ⟨⟨rfl, ?_⟩, fun _ => trivial⟩ fun rawFd => .ite ⟨hnone rfl fun _ => rfl, fun r => ?_⟩ ?_
    · intro rawFd made hmade
      cases hmade
      rfl
    · cases r <;> trivial
    · have hflag := unix_only_addFlag lc (fun _ _ => hnone rfl fun _ => rfl) (hnone rfl fun _ => rfl)
      refine .attempt (.attempt (hflag _ _ _ _ _) (fun _ => trivial) fun _ => hflag _ _ _ _ _) (fun errno => ?_) fun _ => ?_
      · exact ⟨hnone rfl fun _ => rfl, fun _ => trivial⟩
      · exact ⟨hnone rfl fun _ => rfl, fun _ => trivial⟩

/-- A descriptor that `socket` returns on Unix stands for the socket it has made. -/
theorem unix_socket_returns (domain ty protocol : Int32) :
    wp (Unix.machine .any) (Unix.socket lc domain ty protocol)
      (fun tr o w => Returns (unixBinds lc layout rest) (normalizeSocketDomain lc domain) tr o w.2.1.sockets) (e, a, ()) := by
  simp only [Unix.socket, wp_bind, wp_networkAllowed, wpNext_returned]
  cases a.networkAllowed with
  | false => exact returns_negErrno _
  | true =>
    simp only [Bool.not_true, Bool.false_eq_true, if_false, Prog.pure_eq, Prog.ret_bind]
    cases normalizeSocketType lc ty with
    | error errno => exact returns_negErrno _
    | ok socketType =>
      simp only [wp_bind, wp_libc]
      intro rawFd k₁ _
      rw [wpNext_returned]
      split
      · rw [wp_negLastErrno]
        intro r k₂ _
        exact returns_negErrno _
      · rw [wp_bind]
        refine wp_mono (wp_of_only_call (only_configureSocketTypeFlags lc rawFd socketType)) ?_
        rintro tr o ⟨e', a', k'⟩ ⟨he, ha⟩
        cases he
        cases ha
        rcases o with (errno | _) | _
        · simp only [wpNext_returned, wp_bind, wp_libc]
          intro r k₂ _
          exact returns_negErrno _
        · rw [wpNext_returned, wp_insert]
          exact returns_insert ⟨⟨.inr (.inr (.socket (normalizeSocketDomain lc domain) socketType.ty protocol)), rawFd⟩, by simp, rfl⟩ rfl
        · exact returns_panicked

/-- `bind` on Unix binds the socket under the fd to the bytes of the address. -/
theorem unix_bind_binds (fd addrPtr addrLen : Int32) :
    wp (Unix.machine .any) (Unix.bind lc fd addrPtr addrLen) (fun tr o _ => Binds (unixBinds lc layout rest) e a fd addrPtr addrLen tr o)
      (e, a, ()) := by
  simp only [Unix.bind, wp_bind, wp_get, wpNext_returned]
  cases hfd : a.sockets.find fd with
  | none => exact binds_negErrno (by simp) _
  | some entry =>
    simp only [okOrEbadf, Prog.pure_eq, Prog.ret_bind, wp_bind, wp_readGuest, wpNext_returned]
    cases hread : e.readGuest addrPtr addrLen with
    | error errno => exact binds_negErrno (by simp) _
    | ok guest =>
      simp only [wp_bind, wp_libc, wpNext_returned]
      intro rc _ _
      simp only [cvtI32]
      split
      · rw [wp_negLastErrno]
        intro r _ _
        simp [Binds, hfd, hread, normalizeSockaddrForHost]
      · simp [Binds, hfd, hread, normalizeSockaddrForHost]

end

section
open Windows

variable {e : Export} {a : AppState HostSocket}

/-- `socket` makes sockets of the host's domain. -/
theorem windows_socket_makes (domain ty protocol : Int32) :
    (Windows.socket domain ty protocol).Only (Makes windowsBinds (normalizeSocketDomain domain)) := by
  have hnone {c : Sockets.Cmd} (hbound : windowsBinds.bound c = none) (hmade : ∀ r, windowsBinds.made c r = none) :
      Makes windowsBinds (normalizeSocketDomain domain) c := makes_of_none hbound hmade
  have hlast : negLastSocketErrno.Only (Makes windowsBinds (normalizeSocketDomain domain)) := ⟨hnone rfl fun _ => rfl, fun _ => trivial⟩
  have hinsert (rawSocket : Socket) (statusFlags : Int32) :
      (Windows.insert rawSocket domain (normalizeSocketDomain domain) statusFlags).Only (Makes windowsBinds (normalizeSocketDomain domain)) :=
    ⟨hnone rfl fun _ => rfl, fun _ => trivial⟩
  refine ⟨hnone rfl fun _ => rfl, fun allowed => .ite trivial ?_⟩
  refine .attempt ⟨hnone rfl fun _ => rfl, fun rc => ?_⟩ (fun _ => trivial) fun _ => ?_
  · exact .ite trivial trivial
  · cases normalizeSocketType ty with
    | error errno => trivial
    | ok socketType =>
      refine .bind trivial fun socketType => .bind ⟨⟨rfl, ?_⟩, fun _ => trivial⟩ fun rawSocket => .ite hlast (.ite ?_ (hinsert rawSocket 0))
      · intro rawSocket made hmade
        cases hmade
        rfl
      · exact ⟨hnone rfl fun _ => rfl, fun rc => .ite ⟨hnone rfl fun _ => rfl, fun _ => hlast⟩ (hinsert rawSocket wasiONonblock)⟩

/-- After a socket was made an error is returned, and no descriptor. -/
theorem windows_lastErrno_returns {domain : Int32} {raw : Socket} {f : List (Event Sockets) → List (Event Sockets)}
    (hmade : ∀ tr, ∃ ev ∈ f tr, windowsBinds.made ev.1 ev.2 = some (domain, raw)) :
    wp (Windows.machine .any) negLastSocketErrno (fun tr o w => Returns windowsBinds domain (f tr) o w.2.1.sockets) (e, a, ()) := by
  rw [wp_negLastSocketErrno]
  intro r _ _
  exact returns_of_le_zero (hmade _) (FreshnessAux.neg_socketErrno_le r)

/-- A descriptor that `socket` returns on Windows stands for the socket it has made. -/
theorem windows_socket_returns (domain ty protocol : Int32) :
    wp (Windows.machine .any) (Windows.socket domain ty protocol)
      (fun tr o w => Returns windowsBinds (normalizeSocketDomain domain) tr o w.2.1.sockets) (e, a, ()) := by
  simp only [Windows.socket, wp_bind, wp_networkAllowed, wpNext_returned]
  cases a.networkAllowed with
  | false => exact returns_negErrno _
  | true =>
    simp only [Bool.not_true, Bool.false_eq_true, if_false, Prog.pure_eq, Prog.ret_bind, wp_bind, wp_ensureWinsock, wpNext_returned]
    intro rc k₁ _
    by_cases hrc : rc = 0
    · simp only [hrc, if_true]
      cases normalizeSocketType ty with
      | error errno => exact returns_negErrno _
      | ok socketType =>
        simp only [wp_bind, wp_ws, wpNext_returned]
        intro rawSocket k₂ _
        have hmade {tr : List (Event Sockets)} (hev : ⟨.inr (.inr (.socket (normalizeSocketDomain domain) socketType.ty protocol)), rawSocket⟩ ∈ tr) :
            ∃ ev ∈ tr, windowsBinds.made ev.1 ev.2 = some (normalizeSocketDomain domain, rawSocket) := ⟨_, hev, rfl⟩
        split
        · exact windows_lastErrno_returns fun tr => hmade (by simp)
        · split
          · simp only [wp_bind, wp_ws, wpNext_returned]
            intro r k₃ _
            split
            · simp only [wp_bind, wp_ws, wpNext_returned]
              intro r k₄ _
              exact windows_lastErrno_returns fun tr => hmade (by simp)
            · rw [wp_insert]
              exact returns_insert (hmade (by simp)) rfl
          · rw [wp_insert]
            exact returns_insert (hmade (by simp)) rfl
    · simp only [hrc, if_false]
      obtain ⟨errno, herrno⟩ := socketErrno_of_ne_zero hrc
      rw [herrno]
      exact returns_negErrno errno

/-- `bind` on Windows binds the socket under the fd to the bytes of the address. -/
theorem windows_bind_binds (fd addrPtr addrLen : Int32) :
    wp (Windows.machine .any) (Windows.bind fd addrPtr addrLen) (fun tr o _ => Binds windowsBinds e a fd addrPtr addrLen tr o)
      (e, a, ()) := by
  simp only [Windows.bind, wp_bind, Windows.wp_get, wpNext_returned]
  cases hfd : a.sockets.find fd with
  | none => exact binds_negErrno (by simp) _
  | some entry =>
    simp only [okOrEbadf, Prog.pure_eq, Prog.ret_bind, wp_bind, wp_readGuest, wpNext_returned]
    cases hread : e.readGuest addrPtr addrLen with
    | error errno => exact binds_negErrno (by simp) _
    | ok guest =>
      simp only [wp_bind, wp_ws, wpNext_returned]
      intro rc _ _
      simp only [cvtSocketI32]
      split
      · rw [wp_negLastSocketErrno]
        intro r _ _
        simp [Binds, hfd, hread, normalizeSockaddrForHost]
      · simp [Binds, hfd, hread, normalizeSockaddrForHost]

end

/-! ### The two functions of the shim -/

section
variable {A : AddressHost} {H : BindHost A} {e : Export} {a : AppState A.Entry}

/-- A result without an error is what the import returned. -/
theorem decodeRc_eq_none {rc fd : Int32} (h : decodeRc rc = ⟨fd, none⟩) : rc = fd ∧ ¬rc < 0 := by
  unfold decodeRc at h
  split at h
  · cases h
  · rename_i hneg
    cases h
    exact ⟨rfl, hneg⟩

/-- What the shim's `socket` does: the host's sockets are of the domain, and the result stands for one of them. -/
theorem wp_waasmtimeMysqlSocket {domain d ty protocol : Int32} (hmakes : (A.prog (.socket domain ty protocol)).Only (Makes H d))
    (hreturns : wp A.machine (A.prog (.socket domain ty protocol)) (fun tr o w => Returns H d tr o w.2.1.sockets) (e, a, ())) :
    wp A.machine ((waasmtimeMysqlSocket domain ty protocol).through A.prog)
      (fun tr o w => (∀ ev ∈ tr, ∀ made, H.made ev.1 ev.2 = some made → made.1 = d) ∧
        ∀ fd, o = .returned ⟨fd, none⟩ → ∃ raw, (∃ ev ∈ tr, H.made ev.1 ev.2 = some (d, raw)) ∧
          ∀ entry, w.2.1.sockets.find fd = some entry → H.raw entry = raw ∧ A.hostDomain entry = d) (e, a, ()) := by
  simp only [waasmtimeMysqlSocket, through_decoded, Prog.pure_eq, wp_bind]
  refine wp_mono (wp_and (wp_forall_only hmakes) hreturns) fun tr o w h => ?_
  obtain ⟨hmade, hreturned⟩ := h
  have hdomain : ∀ ev ∈ tr, ∀ made, H.made ev.1 ev.2 = some made → made.1 = d := fun ev hev => (hmade ev hev).2 ev.2
  cases o with
  | panicked => exact ⟨hdomain, fun fd hfd => by cases hfd⟩
  | returned rc =>
    simp only [wpNext_returned, wp_ret, SocketImport.decode_eq, List.append_nil]
    refine ⟨hdomain, fun fd hfd => ?_⟩
    obtain ⟨rfl, hneg⟩ := decodeRc_eq_none (Outcome.returned.inj hfd)
    exact hreturned rc rfl hneg

/-- What the shim's `bind` does for a length that fits. -/
theorem wp_waasmtimeMysqlBind {fd addrPtr : Int32} {n : Nat} (hn : n ≤ 2147483647)
    (hbind : wp A.machine (A.prog (.bind fd addrPtr (Int32.ofNat n))) (fun tr o _ => Binds H e a fd addrPtr (Int32.ofNat n) tr o) (e, a, ())) :
    wp A.machine ((waasmtimeMysqlBind fd addrPtr (UInt32.ofNat n)).through A.prog)
      (fun tr o _ => (∀ ev ∈ tr, ∀ bound, H.bound ev.1 = some bound → ∃ entry guest, a.sockets.find fd = some entry ∧
        e.readGuest addrPtr (Int32.ofNat n) = .ok guest ∧ bound = (H.raw entry, writeSockaddrFamily guest (A.hostDomain entry))) ∧
        ∀ rc, o = .returned ⟨rc, none⟩ → ∃ ev ∈ tr, (H.bound ev.1).isSome) (e, a, ()) := by
  have hchecked : checkedToI32 (UInt32.ofNat n) = some (Int32.ofNat n) := by
    have hle : ¬UInt32.ofNat n > 0x7fffffff := by
      rw [gt_iff_lt, UInt32.lt_iff_toNat_lt, UInt32.toNat_ofNat_of_lt' (by simp [UInt32.size]; omega)]
      exact Nat.not_lt.mpr hn
    rw [checkedToI32, if_neg hle, UInt32.toInt32_ofNat']
  simp only [waasmtimeMysqlBind, checked, hchecked, through_decoded, Prog.pure_eq, wp_bind]
  refine wp_mono hbind fun tr o w h => ?_
  obtain ⟨hbound, hreturned⟩ := h
  cases o with
  | panicked => exact ⟨hbound, fun rc hrc => by cases hrc⟩
  | returned rc =>
    simp only [wpNext_returned, wp_ret, SocketImport.decode_eq, List.append_nil]
    refine ⟨hbound, fun v hv => ?_⟩
    obtain ⟨rfl, hneg⟩ := decodeRc_eq_none (Outcome.returned.inj hv)
    exact hreturned rc rfl hneg

end

/-! ### What the host reads -/

/-- The host reads the port, in its own order, and the four bytes after it. -/
theorem readSockaddrIn_of_parts (port : UInt16) (family : Nat) {addr rest : List UInt8} (haddr : addr.length = 4) (hrest : 8 ≤ rest.length) :
    readSockaddrIn (writeSockaddrFamily (leBytes 2 family ++ leBytes 2 port.toNat ++ addr ++ rest) 2) = some ((htons port).toNat, addr) := by
  have hlt : port.toNat < 65536 := port.toNat_lt
  have hbytes : leBytes 2 port.toNat = [UInt8.ofNat port.toNat, UInt8.ofNat (port.toNat / 256)] := rfl
  have hwritten : writeSockaddrFamily (leBytes 2 family ++ leBytes 2 port.toNat ++ addr ++ rest) 2 =
      leBytes 2 2 ++ (leBytes 2 port.toNat ++ (addr ++ rest)) := by
    rw [SocketAddressesAux.writeSockaddrFamily_eq (by simp) (by unfold SocketAddressesAux.FitsU16; decide)]
    simp only [List.append_assoc]
    rw [SocketAddressesAux.drop_family]
    rfl
  have hport : ofLeBytes (leBytes 2 port.toNat).reverse = (htons port).toNat := by
    rw [NameRoundTripAux.toNat_htons, hbytes]
    simp [ofLeBytes]
    omega
  rw [hwritten, readSockaddrIn, if_pos ?_]
  · have hdrop : (leBytes 2 2 ++ (leBytes 2 port.toNat ++ (addr ++ rest))).drop 4 = addr ++ rest := rfl
    rw [SocketAddressesAux.drop_family, List.take_left' (length_leBytes 2 _), hport, hdrop, List.take_left' haddr]
  · refine ⟨rfl, ?_⟩
    simp
    omega

/-- What the host reads of an entry's address. -/
theorem Entry.reads {Ptr : Type} {inet : Inet} {node service : Option CStr} {hints : Option Hints} {ai : AddrInfo Ptr}
    (h : Entry inet node service hints ai) : BoundAsAsked inet node service hints (writeSockaddrFamily ai.addr.bytes 2) := by
  cases h with
  | inet hport _ _ haddr hbound =>
    refine ⟨_, _, hport, hbound, ?_⟩
    rw [haddr]
    exact readSockaddrIn_of_parts _ 1 (by simp) (by simp)
  | @inet6 port addr hport _ _ haddr hbound =>
    refine ⟨_, _, hport, hbound, ?_⟩
    have hbytes : (Sockaddr.inet6 port 0 addr 0).bytes =
        leBytes 2 2 ++ leBytes 2 port.toNat ++ inaddrAny.toList ++ (addr.toList ++ leBytes 4 0 ++ List.replicate 4 0) := by
      simp only [Sockaddr.bytes, List.append_assoc]
      rfl
    rw [haddr, hbytes]
    exact readSockaddrIn_of_parts port 2 rfl (by simp)

/-- The guest's families are both `AF_INET` on the host. -/
theorem Entry.domain {Ptr : Type} {inet : Inet} {node service : Option CStr} {hints : Option Hints} {ai : AddrInfo Ptr}
    (h : Entry inet node service hints ai) {os : HostOs} (hos : os ≠ .macos) :
    os.addresses.normalizeDomain ai.family = 2 ∧ ai.addrlen ≤ 2147483647 := by
  cases h with
  | inet _ hfamily hlen _ _ =>
    rw [hfamily, hlen]
    cases os with
    | macos => exact absurd rfl hos
    | _ => decide
  | inet6 _ hfamily hlen _ _ =>
    rw [hfamily, hlen]
    cases os with
    | macos => exact absurd rfl hos
    | _ => decide

/-- A socket is made and later bound: on both hosts, if the bytes of the address read as they should. -/
theorem socket_then_bind {A : AddressHost} {H : BindHost A} {ai : AddrInfo Int32} (hlen : ai.addrlen ≤ 2147483647) {d : Int32}
    {P : List UInt8 → Prop} (hreads : P (writeSockaddrFamily ai.addr.bytes d))
    (hmakes : (A.prog (.socket ai.family ai.socktype ai.protocol)).Only (Makes H d))
    (hreturns : ∀ e a, wp A.machine (A.prog (.socket ai.family ai.socktype ai.protocol)) (fun tr o w => Returns H d tr o w.2.1.sockets) (e, a, ()))
    (hbind : ∀ e a fd, wp A.machine (A.prog (.bind fd ai.addrPtr (Int32.ofNat ai.addrlen)))
      (fun tr o _ => Binds H e a fd ai.addrPtr (Int32.ofNat ai.addrlen) tr o) (e, a, ()))
    {e : Export} {a : AppState A.Entry} {tr : List (Event A.Sockets)} {o : Outcome (Decoded Int32)} {w : Export × (AppState A.Entry × Unit)}
    (hsocket : Runs A.machine ((waasmtimeMysqlSocket ai.family ai.socktype ai.protocol).through A.prog) (e, a, ()) tr o w) :
    (∀ ev ∈ tr, ∀ made, H.made ev.1 ev.2 = some made → made.1 = d) ∧
    ∀ fd, o = .returned ⟨fd, none⟩ → ∃ raw, (∃ ev ∈ tr, H.made ev.1 ev.2 = some (d, raw)) ∧
      ∀ e₁ a₁ tr₁ o₁ w₁, a₁.sockets.find fd = w.2.1.sockets.find fd →
        e₁.readGuest ai.addrPtr (Int32.ofNat ai.addrlen) = .ok ai.addr.bytes →
        Runs A.machine ((waasmtimeMysqlBind fd ai.addrPtr (UInt32.ofNat ai.addrlen)).through A.prog) (e₁, a₁, ()) tr₁ o₁ w₁ →
        (∀ ev ∈ tr₁, ∀ bound, H.bound ev.1 = some bound → bound.1 = raw ∧ P bound.2) ∧
        ∀ rc, o₁ = .returned ⟨rc, none⟩ → ∃ ev ∈ tr₁, (H.bound ev.1).isSome := by
  obtain ⟨hmade, hresult⟩ := hsocket.of_wp (wp_waasmtimeMysqlSocket hmakes (hreturns e a))
  refine ⟨hmade, fun fd hfd => ?_⟩
  obtain ⟨raw, hraw, hentry⟩ := hresult fd hfd
  refine ⟨raw, hraw, fun e₁ a₁ tr₁ o₁ w₁ hsame hread hrun => ?_⟩
  obtain ⟨hbound, hdone⟩ := hrun.of_wp (wp_waasmtimeMysqlBind hlen (hbind e₁ a₁ fd))
  refine ⟨fun ev hev bound hb => ?_, hdone⟩
  obtain ⟨entry, guest, hfind, hguest, rfl⟩ := hbound ev hev bound hb
  obtain ⟨hentryRaw, hdomain⟩ := hentry entry (hsame.symm.trans hfind)
  rw [hread] at hguest
  cases hguest
  rw [hdomain]
  exact ⟨hentryRaw, hreads⟩

end BindAddressAux

namespace BindAddressAux

/-- The entry for `localhost` and 3306 among the IPv6 addresses, with its address at 16. -/
def loopback6 : AddrInfo Int32 := ⟨64, 0, afInet6, sockStream, 0, 32, 16, .inet6 (htons 3306) 0 in6addrLoopback 0, none⟩

/-- `getaddrinfo` for `localhost` and the port 3306, among the IPv6 addresses. -/
theorem getaddrinfo_loopback6 : ∃ tr, Runs Heap.machine
    (getaddrinfoFor NameLedgerAux.noInet true (some (cstr "localhost")) (some (cstr "3306")) (some ⟨0, afInet6, 0, 0⟩)) ⟨∅, false⟩ tr
    (.returned ⟨0, [loopback6]⟩) ⟨{16, 64}, false⟩ := by
  refine ⟨[⟨.calloc 32, some 64⟩, ⟨.calloc 32, some 16⟩], ?_⟩
  refine .via ⟨{64}, false⟩ (.inr ⟨64, rfl, by decide, rfl⟩) ?_
  refine .via ⟨{16, 64}, false⟩ (.inr ⟨16, rfl, by decide, rfl⟩) ?_
  exact .ret _ _

/-- A memory with that address. -/
def memory6 : Export := .memory (List.replicate 16 0 ++ loopback6.addr.bytes)

/-- The table before the socket is made, and after. -/
def noSockets : AppState Unix.HostSocket := ⟨true, .empty socketFdBase _⟩

def oneSocket6 : AppState Unix.HostSocket := ⟨true, ((FdTable.empty socketFdBase _).insert ⟨3, 2, 2⟩).2⟩

/-- What the kernel gets. -/
def wildcard : List UInt8 := writeSockaddrFamily loopback6.addr.bytes 2

/-- The shim's `socket` for its entry, ... -/
theorem runs_socket6 : Runs (HostOs.addresses .linux).machine
    ((waasmtimeMysqlSocket loopback6.family loopback6.socktype loopback6.protocol).through (HostOs.addresses .linux).prog) (memory6, noSockets, ())
    [⟨.inr (.inl .networkAllowed), true⟩, ⟨.inr (.inr (.socket 2 1 0)), (3 : Int32)⟩,
      ⟨.inr (.inl (.sockets (.insert ⟨3, 2, 2⟩))), (10000, none)⟩] (.returned ⟨10000, none⟩) (memory6, oneSocket6, ()) := by
  refine .via (memory6, noSockets, ()) ⟨⟨rfl, rfl⟩, rfl⟩ ?_
  refine .via (memory6, noSockets, ()) ⟨⟨trivial, rfl⟩, rfl⟩ ?_
  refine .via (memory6, oneSocket6, ()) ⟨⟨rfl, rfl⟩, rfl⟩ ?_
  exact .ret _ _

/-- ... and `bind`. -/
theorem runs_bind6 : Runs (HostOs.addresses .linux).machine
    ((waasmtimeMysqlBind 10000 loopback6.addrPtr (UInt32.ofNat loopback6.addrlen)).through (HostOs.addresses .linux).prog) (memory6, oneSocket6, ())
    [⟨.inr (.inl (.sockets (.get 10000))), some ⟨3, 2, 2⟩⟩, ⟨.inl (.readGuest 16 32), .ok loopback6.addr.bytes⟩,
      ⟨.inr (.inr (.bind 3 wildcard)), (0 : Int32)⟩] (.returned ⟨0, none⟩) (memory6, oneSocket6, ()) := by
  refine .via (memory6, oneSocket6, ()) ⟨⟨rfl, rfl⟩, rfl⟩ ?_
  refine .via (memory6, oneSocket6, ()) ⟨rfl, rfl⟩ ?_
  refine .via (memory6, oneSocket6, ()) ⟨⟨trivial, rfl⟩, rfl⟩ ?_
  exact .ret _ _

end BindAddressAux

end WasmtimeMysql
