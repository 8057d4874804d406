import WasmtimeMysql.Lemmas.Programs

/-!
# Socket addresses on the three hosts

An address passes between the guest and the host with its family translated and the rest as it is. The family of the guest, of Linux and of
Windows is a `u16` at the start of the address; on macOS it is a byte after a byte for the length. The code writes a `u16` on every host. So
addresses are translated on exactly the hosts other than macOS, and for the domains that a `u16` holds (`translates_iff`).
-/

namespace WasmtimeMysql

open Effects Bytes

/-! ## The family of an address -/

/-- The family of a guest address, and of an address of Linux and Windows. -/
def leFamily (addr : List UInt8) : Nat := ofLeBytes (addr.take 2)

/-- The family of an address of macOS. -/
def macosFamily (addr : List UInt8) : Nat := ofLeBytes ((addr.drop 1).take 1)

/-- What is not the family in an address of macOS. -/
def macosRest (addr : List UInt8) : List UInt8 := addr.take 1 ++ addr.drop 2

/-- The guest's address for an address of the host: the family is the domain, and the rest is the host's. -/
structure GuestAddress (domain : Int32) (host guest : List UInt8) : Prop where
  length : guest.length = host.length
  family : (leFamily guest : Int) = domain.toInt
  rest : guest.drop 2 = host.drop 2

/-! ## The hosts -/

/-- What addresses pass through on a host: the socket module, the domains of an entry of its table, the addresses that its calls pass to the
host and that their answers report, and where the host has the family. -/
structure AddressHost where
  Entry : Type
  Change : Type
  apply : Change → Entry → Entry
  Net : Sig
  prog : SocketImport → Prog (GuestMem.sum (SocketSig Entry Change Net)) Int32
  guestDomain : Entry → Int32
  hostDomain : Entry → Int32
  normalizeDomain : Int32 → Int32
  toHost : List UInt8 → Int32 → List UInt8
  toGuest : List UInt8 → Int32 → List UInt8
  sent : Net.Cmd → Option (List UInt8)
  reported : (c : Net.Cmd) → Net.Resp c → Option (List UInt8)
  family : List UInt8 → Nat
  rest : List UInt8 → List UInt8

namespace AddressHost

variable (A : AddressHost)

/-- The commands of the module. -/
@[reducible] def Sockets : Sig := GuestMem.sum (SocketSig A.Entry A.Change A.Net)

/-- The machine of the module; the host may answer anything. -/
abbrev machine : Machine A.Sockets (Export × (AppState A.Entry × Unit)) := socketMachine guestMachine A.apply .any

/-- The address that a command passes to the host. -/
def sentBy : A.Sockets.Cmd → Option (List UInt8)
  | .inr (.inr c) => A.sent c
  | _ => none

/-- The address that an event reports. -/
def reportedBy : Event A.Sockets → Option (List UInt8)
  | ⟨.inr (.inr c), r⟩ => A.reported c r
  | _ => none

/-- The host's address for an address of the guest: the family is the host's, and the rest is the guest's. -/
structure HostAddress (family : Int32) (guest host : List UInt8) : Prop where
  length : host.length = guest.length
  family : (A.family host : Int) = family.toInt
  rest : A.rest host = A.rest guest

/-- An entry of a socket of this domain. -/
def IsOf (domain : Int32) (entry : A.Entry) : Prop := A.guestDomain entry = domain ∧ A.hostDomain entry = A.normalizeDomain domain

/-- The command inserts no entry but of this domain. -/
def InsertsOnly (domain : Int32) : A.Sockets.Cmd → Prop
  | .inr (.inl (.sockets (.insert entry))) => A.IsOf domain entry
  | _ => True

end AddressHost

/-- The fd, and the range of guest memory that holds the address, of an import that passes an address to the host. -/
def SocketImport.addressIn : SocketImport → Option (Int32 × Int32 × Int32)
  | .bind fd addrPtr addrLen => some (fd, addrPtr, addrLen)
  | .connect fd addrPtr addrLen => some (fd, addrPtr, addrLen)
  | .sendto fd _ _ _ addrPtr addrLen => some (fd, addrPtr, addrLen)
  | _ => none

/-- The fd, and where the address goes in guest memory, of an import that returns an address. -/
def SocketImport.addressOut : SocketImport → Option (Int32 × Int32)
  | .accept fd addrPtr _ => some (fd, addrPtr)
  | .recvfrom fd _ _ _ addrPtr _ => some (fd, addrPtr)
  | .getsockname fd addrPtr _ => some (fd, addrPtr)
  | .getpeername fd addrPtr _ => some (fd, addrPtr)
  | _ => none

/-- Addresses of a domain are translated. The entries of its sockets, which `socket` makes and `accept` copies, have the domain and the
host's; what an import passes to the host is the host's address for what the guest has in its memory; what an import writes for an address
that the host reported is the guest's; and an address of the domain comes back as it was. -/
structure Translates (A : AddressHost) (domain : Int32) : Prop where
  made : ∀ ty protocol, (A.prog (.socket domain ty protocol)).Only (A.InsertsOnly domain)
  copied : ∀ fd addrPtr addrLenPtr (e : Export) (a : AppState A.Entry) entry, a.sockets.find fd = some entry → A.IsOf domain entry →
    ∀ tr o s', Runs A.machine (A.prog (.accept fd addrPtr addrLenPtr)) (e, a, ()) tr o s' → ∀ ev ∈ tr, A.InsertsOnly domain ev.1
  sends : ∀ (c : SocketImport) fd addrPtr addrLen, c.addressIn = some (fd, addrPtr, addrLen) →
    ∀ (e : Export) (a : AppState A.Entry) entry, a.sockets.find fd = some entry → A.IsOf domain entry →
    ∀ tr o s', Runs A.machine (A.prog c) (e, a, ()) tr o s' → ∀ ev ∈ tr, ∀ host, A.sentBy ev.1 = some host →
      ∃ guest, e.readGuest addrPtr addrLen = .ok guest ∧ (2 ≤ guest.length → A.HostAddress (A.normalizeDomain domain) guest host)
  returns : ∀ (c : SocketImport) fd addrPtr, c.addressOut = some (fd, addrPtr) →
    ∀ (e : Export) (a : AppState A.Entry) entry, a.sockets.find fd = some entry → A.IsOf domain entry →
    ∀ tr rc s', Runs A.machine (A.prog c) (e, a, ()) tr (.returned rc) s' → 0 ≤ rc →
      ∀ ev ∈ tr, ∀ host, A.reportedBy ev = some host → 2 ≤ host.length →
        ∃ guest, (⟨.inl (.writeGuest addrPtr guest), .ok ()⟩ : Event A.Sockets) ∈ tr ∧ GuestAddress domain host guest
  roundTrip : ∀ addr, 2 ≤ addr.length → (leFamily addr : Int) = domain.toInt →
    A.toGuest (A.toHost addr (A.normalizeDomain domain)) domain = addr

/-- The address a libc call passes to the kernel. -/
def Unix.sentAddress : Unix.Net.Cmd → Option (List UInt8)
  | .bind _ addr => some addr
  | .connect _ addr => some addr
  | .sendto _ _ _ addr => some addr
  | _ => none

/-- The address a libc call that succeeded reports: as much of the buffer as the kernel says. -/
def Unix.reportedAddress : (c : Unix.Net.Cmd) → c.Resp → Option (List UInt8)
  | .accept _ n, answer => if answer.rc < 0 then none else some ((fill n.toNat answer.data).take answer.len.toNat)
  | .recvfrom _ _ _ n, answer => if answer.rc < 0 then none else some ((fill n.toNat answer.addr).take answer.addrLen.toNat)
  | .getsockname _ n, answer => if answer.rc < 0 then none else some ((fill n.toNat answer.data).take answer.len.toNat)
  | .getpeername _ n, answer => if answer.rc < 0 then none else some ((fill n.toNat answer.data).take answer.len.toNat)
  | _, _ => none

/-- A Unix host, with the layout of its addresses. -/
@[reducible] def unixHost (lc : Libc) (family : List UInt8 → Nat) (rest : List UInt8 → List UInt8) : AddressHost where
  Entry := Unix.HostSocket
  Change := Empty
  apply := Empty.elim
  Net := Unix.Net
  prog := Unix.prog lc
  guestDomain := Unix.HostSocket.guestDomain
  hostDomain := Unix.HostSocket.hostDomain
  normalizeDomain := Unix.normalizeSocketDomain lc
  toHost := Unix.normalizeSockaddrForHost
  toGuest := Unix.denormalizeSockaddrForGuest
  sent := Unix.sentAddress
  reported := Unix.reportedAddress
  family
  rest

/-- The address a WinSock call passes to the host. -/
def Windows.sentAddress : Windows.Net.Cmd → Option (List UInt8)
  | .bind _ addr => some addr
  | .connect _ addr => some addr
  | .sendto _ _ _ addr => some addr
  | _ => none

/-- The address a WinSock call that succeeded reports. -/
def Windows.reportedAddress : (c : Windows.Net.Cmd) → c.Resp → Option (List UInt8)
  | .accept _ n, answer =>
    if answer.accepted = invalidSocket then none else some ((fill n.toNatClampNeg answer.data).take (asUsize answer.len))
  | .recvfrom _ _ _ n, answer =>
    if answer.rc = socketError then none else some ((fill n.toNatClampNeg answer.addr).take (asUsize answer.addrLen))
  | .getsockname _ n, answer =>
    if answer.rc = socketError then none else some ((fill n.toNatClampNeg answer.data).take (asUsize answer.len))
  | .getpeername _ n, answer =>
    if answer.rc = socketError then none else some ((fill n.toNatClampNeg answer.data).take (asUsize answer.len))
  | _, _ => none

/-- Windows. -/
@[reducible] def windowsHost : AddressHost where
  Entry := Windows.HostSocket
  Change := Int32
  apply := Windows.HostSocket.setStatusFlags
  Net := Windows.Net
  prog := Windows.prog
  guestDomain := Windows.HostSocket.guestDomain
  hostDomain := Windows.HostSocket.hostDomain
  normalizeDomain := Windows.normalizeSocketDomain
  toHost := Windows.normalizeSockaddrForHost
  toGuest := Windows.denormalizeSockaddrForGuest
  sent := Windows.sentAddress
  reported := Windows.reportedAddress
  family := leFamily
  rest := List.drop 2

/-- Each host with the layout of its addresses. -/
@[reducible] def HostOs.addresses : HostOs → AddressHost
  | .linux => unixHost WasmtimeMysql.linux leFamily (List.drop 2)
  | .macos => unixHost WasmtimeMysql.macos macosFamily macosRest
  | .windows => windowsHost

namespace SocketAddressesAux

variable {addr full : List UInt8} {family domain : Int32} {n : Nat}

/-! ### What is written -/

/-- A `u16` holds the family. -/
def FitsU16 (family : Int32) : Prop := 0 ≤ family.toInt ∧ family.toInt < 2 ^ 16

/-- A family that fits is written over the first two bytes, ... -/
theorem writeSockaddrFamily_eq (hlen : 2 ≤ addr.length) (hfits : FitsU16 family) :
    writeSockaddrFamily addr family = leBytes 2 family.toNatClampNeg ++ addr.drop 2 := by
  have hneg : ¬(family < 0 ∨ family.toInt ≥ 2 ^ 16) := by
    rw [Int32.lt_iff_toInt_lt, show (0 : Int32).toInt = 0 from rfl]
    unfold FitsU16 at hfits
    omega
  unfold writeSockaddrFamily
  rw [if_neg (Nat.not_lt.mpr hlen), if_neg hneg]
  unfold overwrite
  rw [length_leBytes, List.take_zero, List.nil_append, Nat.zero_add]

/-- ... and one that does not leaves the address as it is. -/
theorem writeSockaddrFamily_of_not_fits (hfits : ¬FitsU16 family) : writeSockaddrFamily addr family = addr := by
  unfold writeSockaddrFamily
  split
  · rfl
  · rw [if_pos]
    rw [Int32.lt_iff_toInt_lt, show (0 : Int32).toInt = 0 from rfl]
    unfold FitsU16 at hfits
    omega

/-- The two bytes of the family, and what follows them. -/
theorem leFamily_append (hfits : FitsU16 family) (rest : List UInt8) :
    (leFamily (leBytes 2 family.toNatClampNeg ++ rest) : Int) = family.toInt := by
  have hnat : ((family.toNatClampNeg : Nat) : Int) = family.toInt := Int.toNat_of_nonneg hfits.1
  have hlt := hfits.2
  unfold leFamily
  rw [List.take_left' (length_leBytes 2 _), ofLeBytes_leBytes, Nat.mod_eq_of_lt (by omega), hnat]

/-- Behind the family is the rest. -/
theorem drop_family (family : Nat) (rest : List UInt8) : (leBytes 2 family ++ rest).drop 2 = rest :=
  List.drop_left' (length_leBytes 2 family)

/-- The family that is read is a `u16`. -/
theorem leFamily_lt (addr : List UInt8) : leFamily addr < 2 ^ 16 := by
  have hlt := ofLeBytes_lt (addr.take 2)
  have hle : 256 ^ (addr.take 2).length ≤ 256 ^ 2 := Nat.pow_le_pow_right (by decide) (List.length_take_le 2 addr)
  exact Nat.lt_of_lt_of_le hlt hle

/-- What an import writes of a buffer is the guest's address for what the host reported in it. -/
theorem guestAddress_take (hfits : FitsU16 domain) (hlen : 2 ≤ (full.take n).length) :
    GuestAddress domain (full.take n) ((writeSockaddrFamily full domain).take n) := by
  have hmin : min n full.length = (full.take n).length := (List.length_take).symm
  have hfull : 2 ≤ full.length := by omega
  obtain ⟨m, rfl⟩ : ∃ m, n = 2 + m := ⟨n - 2, by omega⟩
  have htake : (writeSockaddrFamily full domain).take (2 + m) = leBytes 2 domain.toNatClampNeg ++ (full.drop 2).take m := by
    rw [writeSockaddrFamily_eq hfull hfits, List.take_append, length_leBytes, List.take_of_length_le (by rw [length_leBytes]; omega)]
    congr 2
    omega
  refine ⟨?_, ?_, ?_⟩
  · rw [List.length_take, List.length_take, length_writeSockaddrFamily]
  · rw [htake, leFamily_append hfits]
  · rw [htake, drop_family, List.drop_take]
    congr 1
    omega

/-- An address of a domain comes back as it was, whatever the host's family is. -/
theorem writeSockaddrFamily_back (hlen : 2 ≤ addr.length) (hfamily : (leFamily addr : Int) = domain.toInt) :
    writeSockaddrFamily (writeSockaddrFamily addr family) domain = addr := by
  have hlt := leFamily_lt addr
  have hfits : FitsU16 domain := ⟨by omega, by omega⟩
  have hdrop : (writeSockaddrFamily addr family).drop 2 = addr.drop 2 := by
    by_cases hf : FitsU16 family
    · rw [writeSockaddrFamily_eq hlen hf, drop_family]
    · rw [writeSockaddrFamily_of_not_fits hf]
  have hnat : domain.toNatClampNeg = leFamily addr := by
    unfold Int32.toNatClampNeg
    omega
  rw [writeSockaddrFamily_eq (by rw [length_writeSockaddrFamily]; exact hlen) hfits, hdrop, hnat]
  have hbytes := leBytes_ofLeBytes (addr.take 2)
  rw [List.length_take_of_le hlen] at hbytes
  rw [leFamily, hbytes, List.take_append_drop]

/-- Commands that pass no address. -/
theorem forall_sent_of_none {A : AddressHost} {P : List UInt8 → Prop} {tr : List (Event A.Sockets)}
    (h : ∀ ev ∈ tr, A.sentBy ev.1 = none) : ∀ ev ∈ tr, ∀ host, A.sentBy ev.1 = some host → P host := by
  exact fun ev hev => forall_of_eq_none (h ev hev)

/-- A call to the host inserts nothing. -/
theorem insertsOnly_of_isCall (A : AddressHost) (domain : Int32) {c : A.Sockets.Cmd} (hc : IsCall c) : A.InsertsOnly domain c := by
  rcases c with c | c | c
  · exact hc.elim
  · exact hc.elim
  · trivial

/-- A word is read with one read. -/
theorem only_readU32 {H : Sig} {P : (GuestMem.sum H).Cmd → Prop} (ptr : Int32) (h : ∀ len, P (.inl (.readGuest ptr len))) :
    (readU32 (H := H) ptr).Only P := by
  refine ⟨h 4, ?_⟩
  rintro (errno | bytes) <;> trivial

/-- A slice asks nobody. -/
theorem only_sliceTo {H : Sig} {P : (GuestMem.sum H).Cmd → Prop} (bytes : List UInt8) (n : Nat) : (sliceTo (H := H) bytes n).Only P := by
  unfold sliceTo
  split <;> trivial

/-- What the guest gets for an address that was reported: nothing if the import failed or panicked, or the address in its terms. -/
def Reports (A : AddressHost) (domain addrPtr : Int32) (tr : List (Event A.Sockets)) (o : Outcome Int32) : Prop :=
  ∀ rc, o = .returned rc → 0 ≤ rc → ∀ ev ∈ tr, ∀ host, A.reportedBy ev = some host → 2 ≤ host.length →
    ∃ guest, (⟨.inl (.writeGuest addrPtr guest), .ok ()⟩ : Event A.Sockets) ∈ tr ∧ GuestAddress domain host guest

/-- An errno reports no address, ... -/
theorem reports_negErrno (A : AddressHost) (domain addrPtr : Int32) (tr : List (Event A.Sockets)) (errno : Errno) :
    Reports A domain addrPtr tr (.returned (negErrno errno)) := by
  rintro rc ⟨⟩ hrc
  exact absurd (negErrno_lt_zero errno) (Int32.not_lt.mpr hrc)

/-- ... and neither does a panic. -/
theorem reports_panicked (A : AddressHost) (domain addrPtr : Int32) (tr : List (Event A.Sockets)) : Reports A domain addrPtr tr .panicked :=
  nofun

/-- One address was reported, in a buffer, and what stands for it in the guest was written. -/
theorem reports_of_written {A : AddressHost} {domain addrPtr : Int32} (hfits : FitsU16 domain) (full : List UInt8) (n : Nat)
    {tr : List (Event A.Sockets)} {o : Outcome Int32} (honly : ∀ ev ∈ tr, ∀ host, A.reportedBy ev = some host → host = full.take n)
    (hwritten : (⟨.inl (.writeGuest addrPtr ((writeSockaddrFamily full domain).take n)), .ok ()⟩ : Event A.Sockets) ∈ tr) :
    Reports A domain addrPtr tr o := by
  intro rc _ _ ev hev host hreported hlen
  have heq := honly ev hev host hreported
  rw [heq] at hlen ⊢
  exact ⟨_, hwritten, guestAddress_take hfits hlen⟩

/-! ### On Unix -/

section
variable (lc : Libc) (layout : List UInt8 → Nat) (rest : List UInt8 → List UInt8) {e : Export} {a : AppState Unix.HostSocket}
  {entry : Unix.HostSocket}

/-- `cvt_i32` sends no address, ... -/
theorem unix_cvtI32_sends (rc : Int32) : (Unix.cvtI32 lc rc).Only fun c => (unixHost lc layout rest).sentBy c = none := by
  unfold Unix.cvtI32
  refine .ite ⟨rfl, fun r => ?_⟩ trivial
  cases r <;> trivial

/-- ... and neither does `cvt_ssize`. -/
theorem unix_cvtSsize_sends (rc : Int64) : (Unix.cvtSsize lc rc).Only fun c => (unixHost lc layout rest).sentBy c = none := by
  unfold Unix.cvtSsize
  refine .ite ⟨rfl, fun r => ?_⟩ ?_
  · cases r <;> trivial
  · split <;> trivial

open Unix in
/-- What `bind`, `connect` and `sendto` pass to the kernel. -/
theorem unix_sends {c : SocketImport} {fd addrPtr addrLen : Int32} (hc : c.addressIn = some (fd, addrPtr, addrLen))
    (hfd : a.sockets.find fd = some entry) :
    wp (machine .any) (Unix.prog lc c) (fun tr _ _ => ∀ ev ∈ tr, ∀ host, (unixHost lc layout rest).sentBy ev.1 = some host →
      ∃ guest, e.readGuest addrPtr addrLen = .ok guest ∧ host = writeSockaddrFamily guest entry.hostDomain) (e, a, ()) := by
  cases c with
  | bind fd' addrPtr' addrLen' =>
    cases hc
    simp only [Unix.prog, Unix.bind, wp_bind, wp_get, hfd, okOrEbadf, wpNext_returned, Prog.pure_eq, Prog.ret_bind, wp_readGuest]
    cases hread : e.readGuest addrPtr addrLen with
    | error errno => simp [AddressHost.sentBy]
    | ok guest =>
      simp only [wp_bind, wp_libc, wpNext_returned]
      intro rc _ _
      refine wp_mono (wp_forall_only (unix_cvtI32_sends lc layout rest rc)) fun tr _ _ htr => ?_
      simp only [List.cons_append, List.nil_append, List.forall_mem_cons]
      refine ⟨forall_of_eq_none rfl, forall_of_eq_none rfl, ?_, forall_sent_of_none htr⟩
      rintro host ⟨⟩
      exact ⟨guest, rfl, rfl⟩
  | connect fd' addrPtr' addrLen' =>
    cases hc
    simp only [Unix.prog, Unix.connect, wp_bind, wp_get, hfd, okOrEbadf, wpNext_returned, Prog.pure_eq, Prog.ret_bind, wp_readGuest]
    cases hread : e.readGuest addrPtr addrLen with
    | error errno => simp [AddressHost.sentBy]
    | ok guest =>
      simp only [wp_bind, wp_libc, wpNext_returned]
      intro rc _ _
      refine wp_mono (wp_forall_only (unix_cvtI32_sends lc layout rest rc)) fun tr _ _ htr => ?_
      simp only [List.cons_append, List.nil_append, List.forall_mem_cons]
      refine ⟨forall_of_eq_none rfl, forall_of_eq_none rfl, ?_, forall_sent_of_none htr⟩
      rintro host ⟨⟩
      exact ⟨guest, rfl, rfl⟩
  | sendto fd' bufPtr len flags addrPtr' addrLen' =>
    cases hc
    simp only [Unix.prog, Unix.sendto, wp_bind, wp_get, hfd, okOrEbadf, wpNext_returned, Prog.pure_eq, Prog.ret_bind, wp_readGuest]
    cases hbuf : e.readGuest bufPtr len with
    | error errno => simp [AddressHost.sentBy]
    | ok buf =>
      simp only [wp_bind, wp_readGuest, wpNext_returned]
      cases hread : e.readGuest addrPtr addrLen with
      | error errno => simp [AddressHost.sentBy]
      | ok guest =>
        simp only [wp_bind, wp_libc, wpNext_returned]
        intro rc _ _
        refine wp_mono (wp_forall_only (unix_cvtSsize_sends lc layout rest rc)) fun tr _ _ htr => ?_
        simp only [List.cons_append, List.nil_append, List.forall_mem_cons]
        refine ⟨forall_of_eq_none rfl, forall_of_eq_none rfl, forall_of_eq_none rfl, ?_, forall_sent_of_none htr⟩
        rintro host ⟨⟩
        exact ⟨guest, rfl, rfl⟩
  | _ => cases hc

open Unix in
/-- `accept` on Unix reports the address of the kernel with the guest's family. -/
theorem unix_accept_reports {fd addrPtr addrLenPtr : Int32} (hfd : a.sockets.find fd = some entry) (hfits : FitsU16 entry.guestDomain) :
    wp (machine .any) (Unix.accept lc fd addrPtr addrLenPtr)
      (fun tr o _ => Reports (unixHost lc layout rest) entry.guestDomain addrPtr tr o) (e, a, ()) := by
  simp only [Unix.accept, wp_bind, wp_get, hfd, okOrEbadf, wpNext_returned, Prog.pure_eq, Prog.ret_bind, wp_readU32]
  cases hword : e.readU32 addrLenPtr with
  | error errno => exact reports_negErrno _ _ _ _ _
  | ok word =>
    simp only [wp_bind, wp_alloc, wp_libc, wpNext_returned]
    intro answer _ _
    split
    · simp only [wp_negLastErrno]
      intro code _ _
      exact reports_negErrno _ _ _ _ _
    · rename_i hrc
      simp only [wp_bind, wp_sliceTo]
      split
      · simp only [wpNext_returned, wp_bind, wp_writeGuest]
        generalize hwrote : e.writeAnswer addrPtr _ = wrote
        rcases wrote with errno | _
        · simp only [wp_bind, wp_libc, wpNext_returned]
          intro _ _ _
          exact reports_negErrno _ _ _ _ _
        · simp only [wp_bind, wp_writeU32, wpNext_returned]
          generalize Export.writeAnswer _ _ _ = wroteLen
          rcases wroteLen with errno | _
          · simp only [wp_bind, wp_libc, wpNext_returned]
            intro _ _ _
            exact reports_negErrno _ _ _ _ _
          · simp only [wp_insert, List.cons_append, List.nil_append]
            refine reports_of_written hfits (fill word.toNat answer.data) answer.len.toNat ?_ ?_
            · simp [AddressHost.reportedBy, reportedAddress, hrc]
            · simp [denormalizeSockaddrForGuest]
      · exact reports_panicked _ _ _ _

/-- The call that `sock_name` makes, with its answer. -/
def unixNameEvent (kind : NameKind) (rawFd : Int32) (addrLen : UInt32) (answer : Unix.BufAnswer) : Event Unix.Sockets :=
  match kind with
  | .localName => ⟨.inr (.inr (.getsockname rawFd addrLen)), answer⟩
  | .peer => ⟨.inr (.inr (.getpeername rawFd addrLen)), answer⟩

omit lc layout rest in
/-- Either of the calls that ask for a name, as one event. -/
theorem wp_unix_callName {kind : NameKind} {rawFd : Int32} {addrLen : UInt32}
    {Q : List (Event Unix.Sockets) → Outcome Unix.BufAnswer → Export × (AppState Unix.HostSocket × Unit) → Prop} :
    wp (Unix.machine .any) (Unix.callName kind rawFd addrLen) Q (e, a, ()) ↔
      ∀ answer, Q [unixNameEvent kind rawFd addrLen answer] (.returned answer) (e, a, ()) := by
  cases kind with
  | localName => exact Unix.wp_libc.trans ⟨fun h answer => h answer () trivial, fun h answer _ _ => h answer⟩
  | peer => exact Unix.wp_libc.trans ⟨fun h answer => h answer () trivial, fun h answer _ _ => h answer⟩

/-- What such a call reports is the first bytes of its buffer. -/
theorem reportedBy_unixNameEvent {kind : NameKind} {rawFd : Int32} {addrLen : UInt32} {answer : Unix.BufAnswer} (h : ¬answer.rc < 0) :
    (unixHost lc layout rest).reportedBy (unixNameEvent kind rawFd addrLen answer) =
      some ((fill addrLen.toNat answer.data).take answer.len.toNat) := by
  cases kind with
  | localName => exact if_neg h
  | peer => exact if_neg h

open Unix in
/-- `getsockname` and `getpeername` on Unix report the address of the kernel with the guest's family. -/
theorem unix_sockName_reports {fd addrPtr addrLenPtr : Int32} (kind : NameKind) (hfd : a.sockets.find fd = some entry)
    (hfits : FitsU16 entry.guestDomain) :
    wp (machine .any) (Unix.sockName lc fd addrPtr addrLenPtr kind)
      (fun tr o _ => Reports (unixHost lc layout rest) entry.guestDomain addrPtr tr o) (e, a, ()) := by
  simp only [Unix.sockName, wp_bind, wp_get, hfd, okOrEbadf, wpNext_returned, Prog.pure_eq, Prog.ret_bind, wp_readU32]
  cases hword : e.readU32 addrLenPtr with
  | error errno => exact reports_negErrno _ _ _ _ _
  | ok word =>
    simp only [wp_bind, wp_alloc, wp_unix_callName, wpNext_returned]
    intro answer
    split
    · simp only [wp_negLastErrno]
      intro code _ _
      exact reports_negErrno _ _ _ _ _
    · rename_i hrc
      have hreported : (unixHost lc layout rest).reportedBy (unixNameEvent kind entry.rawFd word answer) = _ :=
        reportedBy_unixNameEvent lc layout rest hrc
      simp only [wp_bind, wp_sliceTo]
      split
      · simp only [wpNext_returned, wp_bind, wp_writeGuest]
        generalize hwrote : e.writeAnswer addrPtr _ = wrote
        rcases wrote with errno | _
        · exact reports_negErrno _ _ _ _ _
        · simp only [wp_bind, wp_writeU32, wpNext_returned]
          generalize Export.writeAnswer _ _ _ = wroteLen
          rcases wroteLen with errno | _
          · exact reports_negErrno _ _ _ _ _
          · simp only [wp_ret, List.cons_append, List.nil_append]
            refine reports_of_written hfits (fill word.toNat answer.data) answer.len.toNat ?_ ?_
            · simp only [List.forall_mem_cons]
              refine ⟨forall_of_eq_none rfl, forall_of_eq_none rfl, forall_of_eq_none rfl, ?_,
                forall_of_eq_none rfl, forall_of_eq_none rfl, List.forall_mem_nil _⟩
              intro host hhost
              rw [hreported] at hhost
              exact (Option.some.inj hhost).symm
            · simp [denormalizeSockaddrForGuest]
      · exact reports_panicked _ _ _ _

open Unix in
/-- `recvfrom` on Unix reports the address of the kernel with the guest's family. -/
theorem unix_recvfrom_reports {fd bufPtr len flags addrPtr addrLenPtr : Int32} (hfd : a.sockets.find fd = some entry)
    (hfits : FitsU16 entry.guestDomain) :
    wp (machine .any) (Unix.recvfrom lc fd bufPtr len flags addrPtr addrLenPtr)
      (fun tr o _ => Reports (unixHost lc layout rest) entry.guestDomain addrPtr tr o) (e, a, ()) := by
  simp only [Unix.recvfrom, wp_bind, wp_get, hfd, okOrEbadf, wpNext_returned, Prog.pure_eq, Prog.ret_bind]
  cases hn : checkedLen len with
  | error errno => exact reports_negErrno _ _ _ _ _
  | ok n =>
    simp only [wp_bind, wp_readU32, wpNext_returned]
    cases hword : e.readU32 addrLenPtr with
    | error errno => exact reports_negErrno _ _ _ _ _
    | ok word =>
      simp only [wp_bind, wp_alloc, wp_libc, wpNext_returned]
      intro answer _ _
      split
      · simp only [wp_negLastErrno]
        intro code _ _
        exact reports_negErrno _ _ _ _ _
      · rename_i hrc
        simp only [wp_bind, wp_sliceTo]
        split
        · simp only [wpNext_returned, wp_bind, wp_writeGuest]
          generalize Export.writeAnswer _ bufPtr _ = wroteBuf
          rcases wroteBuf with errno | _
          · exact reports_negErrno _ _ _ _ _
          · simp only [wp_bind, wp_sliceTo]
            split
            · simp only [wpNext_returned, wp_bind, wp_writeGuest]
              generalize hwrote : Export.writeAnswer _ addrPtr _ = wrote
              rcases wrote with errno | _
              · exact reports_negErrno _ _ _ _ _
              · simp only [wp_bind, wp_writeU32, wpNext_returned]
                generalize Export.writeAnswer _ _ _ = wroteLen
                rcases wroteLen with errno | _
                · exact reports_negErrno _ _ _ _ _
                · simp only [wp_ret, List.cons_append, List.nil_append]
                  refine reports_of_written hfits (fill word.toNat answer.addr) answer.addrLen.toNat ?_ ?_
                  · simp [AddressHost.reportedBy, reportedAddress, hrc]
                  · simp [denormalizeSockaddrForGuest]
            · exact reports_panicked _ _ _ _
        · exact reports_panicked _ _ _ _

/-- What `socket` inserts. -/
theorem unix_socket_inserts (domain ty protocol : Int32) :
    (Unix.socket lc domain ty protocol).Only ((unixHost lc layout rest).InsertsOnly domain) := by
  have hcalls {α : Type} {p : Unix.Import α} (hp : p.Only IsCall) : p.Only ((unixHost lc layout rest).InsertsOnly domain) :=
    hp.mono fun c hc => insertsOnly_of_isCall (unixHost lc layout rest) domain hc
  refine ⟨trivial, fun allowed => .ite trivial ?_⟩
  cases Unix.normalizeSocketType lc ty with
  | error errno => trivial
  | ok socketType =>
    refine .bind trivial fun socketType => .bind (hcalls (Unix.only_libc _)) fun rawFd => .ite (hcalls (Unix.only_negLastErrno lc)) ?_
    refine .attempt (hcalls (Unix.only_configureSocketTypeFlags lc rawFd socketType)) (fun errno => ?_) fun _ => ?_
    · exact .bind (hcalls (Unix.only_libc _)) fun _ => trivial
    · exact ⟨⟨rfl, rfl⟩, fun _ => trivial⟩

open Unix in
/-- What `accept` inserts has the domains of the listener. -/
theorem unix_accept_inserts {fd addrPtr addrLenPtr : Int32} (hfd : a.sockets.find fd = some entry)
    (hentry : (unixHost lc layout rest).IsOf domain entry) :
    wp (machine .any) (Unix.accept lc fd addrPtr addrLenPtr)
      (fun tr _ _ => ∀ ev ∈ tr, (unixHost lc layout rest).InsertsOnly domain ev.1) (e, a, ()) := by
  have hcalls {α : Type} {p : Unix.Import α} (hp : p.Only IsCall) : p.Only ((unixHost lc layout rest).InsertsOnly domain) :=
    hp.mono fun c hc => insertsOnly_of_isCall (unixHost lc layout rest) domain hc
  have hclose (rawFd : Int32) (errno : Errno) :
      (libc (.close rawFd) >>= fun _ => pure (negErrno errno)).Only ((unixHost lc layout rest).InsertsOnly domain) :=
    .bind (hcalls (only_libc _)) fun _ => trivial
  unfold Unix.accept
  rw [wp_bind, wp_get, hfd, wpNext_returned]
  simp only [okOrEbadf, Prog.pure_eq, Prog.ret_bind]
  refine wp_mono (wp_forall_only (P := (unixHost lc layout rest).InsertsOnly domain) ?_) ?_
  · refine .attempt (only_readU32 _ fun _ => trivial) (fun _ => trivial) fun addrLen => .bind ⟨trivial, fun _ => trivial⟩ fun _ => ?_
    refine .bind (hcalls (only_libc _)) fun answer => .ite (hcalls (only_negLastErrno lc)) ?_
    refine .bind (only_sliceTo _ _) fun reported => .attempt ⟨trivial, fun _ => trivial⟩ (fun errno => hclose _ errno) fun _ => ?_
    refine .attempt ⟨trivial, fun _ => trivial⟩ (fun errno => hclose _ errno) fun _ => ?_
    exact ⟨hentry, fun _ => trivial⟩
  · intro tr _ _ htr
    simp only [List.cons_append, List.nil_append, List.forall_mem_cons]
    exact ⟨trivial, htr⟩

end

/-! ### On Windows -/

section
variable {e : Export} {a : AppState Windows.HostSocket} {entry : Windows.HostSocket}

/-- `cvt_socket_i32` sends no address. -/
theorem windows_cvtSocketI32_sends (rc : Int32) : (Windows.cvtSocketI32 rc).Only fun c => windowsHost.sentBy c = none := by
  unfold Windows.cvtSocketI32
  exact .ite ⟨rfl, fun _ => trivial⟩ trivial

open Windows in
/-- What `bind`, `connect` and `sendto` pass to WinSock. -/
theorem windows_sends {c : SocketImport} {fd addrPtr addrLen : Int32} (hc : c.addressIn = some (fd, addrPtr, addrLen))
    (hfd : a.sockets.find fd = some entry) :
    wp (machine .any) (Windows.prog c) (fun tr _ _ => ∀ ev ∈ tr, ∀ host, windowsHost.sentBy ev.1 = some host →
      ∃ guest, e.readGuest addrPtr addrLen = .ok guest ∧ host = writeSockaddrFamily guest entry.hostDomain) (e, a, ()) := by
  cases c with
  | bind fd' addrPtr' addrLen' =>
    cases hc
    simp only [Windows.prog, Windows.bind, wp_bind, wp_get, hfd, okOrEbadf, wpNext_returned, Prog.pure_eq, Prog.ret_bind, wp_readGuest]
    cases hread : e.readGuest addrPtr addrLen with
    | error errno => simp [AddressHost.sentBy]
    | ok guest =>
      simp only [wp_bind, wp_ws, wpNext_returned]
      intro rc _ _
      refine wp_mono (wp_forall_only (windows_cvtSocketI32_sends rc)) fun tr _ _ htr => ?_
      simp only [List.cons_append, List.nil_append, List.forall_mem_cons]
      refine ⟨forall_of_eq_none rfl, forall_of_eq_none rfl, ?_, forall_sent_of_none htr⟩
      rintro host ⟨⟩
      exact ⟨guest, rfl, rfl⟩
  | connect fd' addrPtr' addrLen' =>
    cases hc
    simp only [Windows.prog, Windows.connect, wp_bind, wp_get, hfd, okOrEbadf, wpNext_returned, Prog.pure_eq, Prog.ret_bind, wp_readGuest]
    cases hread : e.readGuest addrPtr addrLen with
    | error errno => simp [AddressHost.sentBy]
    | ok guest =>
      simp only [wp_bind, wp_ws, wpNext_returned]
      intro rc _ _
      refine wp_mono (wp_forall_only (windows_cvtSocketI32_sends rc)) fun tr _ _ htr => ?_
      simp only [List.cons_append, List.nil_append, List.forall_mem_cons]
      refine ⟨forall_of_eq_none rfl, forall_of_eq_none rfl, ?_, forall_sent_of_none htr⟩
      rintro host ⟨⟩
      exact ⟨guest, rfl, rfl⟩
  | sendto fd' bufPtr len flags addrPtr' addrLen' =>
    cases hc
    simp only [Windows.prog, Windows.sendto, wp_bind, wp_get, hfd, okOrEbadf, wpNext_returned, Prog.pure_eq, Prog.ret_bind, wp_readGuest]
    cases hbuf : e.readGuest bufPtr len with
    | error errno => simp [AddressHost.sentBy]
    | ok buf =>
      simp only [wp_bind, wp_readGuest, wpNext_returned]
      cases hread : e.readGuest addrPtr addrLen with
      | error errno => simp [AddressHost.sentBy]
      | ok guest =>
        simp only [wp_bind, wp_ws, wpNext_returned]
        intro rc _ _
        refine wp_mono (wp_forall_only (windows_cvtSocketI32_sends rc)) fun tr _ _ htr => ?_
        simp only [List.cons_append, List.nil_append, List.forall_mem_cons]
        refine ⟨forall_of_eq_none rfl, forall_of_eq_none rfl, forall_of_eq_none rfl, ?_, forall_sent_of_none htr⟩
        rintro host ⟨⟩
        exact ⟨guest, rfl, rfl⟩
  | _ => cases hc

/-- A length that was checked is the one WinSock gets. -/
theorem toNatClampNeg_of_checkedSockaddrLen {word : Except Errno UInt32} {n : Nat} (h : word.bind Windows.checkedSockaddrLen = .ok n) :
    (Int32.ofNat n).toNatClampNeg = n := by
  cases word with
  | error errno => cases h
  | ok value =>
    replace h : Windows.checkedSockaddrLen value = .ok n := h
    unfold Windows.checkedSockaddrLen at h
    split at h
    · cases h
    · exact Int32.toNatClampNeg_ofNat_of_lt (Nat.lt_of_le_of_lt (checkedLen_le h) (by decide))

/-- A trace in which no address was reported. -/
theorem reports_of_none {A : AddressHost} {domain addrPtr : Int32} {tr : List (Event A.Sockets)} {o : Outcome Int32}
    (h : ∀ ev ∈ tr, A.reportedBy ev = none) : Reports A domain addrPtr tr o := by
  intro rc _ _ ev hev host hreported
  rw [h ev hev] at hreported
  cases hreported

open Windows in
/-- `accept` on Windows reports the address of WinSock with the guest's family. -/
theorem windows_accept_reports {fd addrPtr addrLenPtr : Int32} (hfd : a.sockets.find fd = some entry) (hfits : FitsU16 entry.guestDomain) :
    wp (machine .any) (Windows.accept fd addrPtr addrLenPtr)
      (fun tr o _ => Reports windowsHost entry.guestDomain addrPtr tr o) (e, a, ()) := by
  simp only [Windows.accept, wp_bind, wp_get, hfd, okOrEbadf, wpNext_returned, Prog.pure_eq, Prog.ret_bind, wp_readSockaddrLen]
  cases hlen : (e.readU32 addrLenPtr).bind checkedSockaddrLen with
  | error errno => exact reports_negErrno _ _ _ _ _
  | ok requestedLen =>
    have hbuf := toNatClampNeg_of_checkedSockaddrLen hlen
    simp only [wp_bind, wp_alloc, wp_ws, wpNext_returned]
    intro answer _ _
    split
    · rename_i hinvalid
      simp only [wp_negLastSocketErrno]
      intro code _ _
      exact reports_of_none (by simp [AddressHost.reportedBy, reportedAddress, hinvalid])
    · rename_i hvalid
      split
      · simp only [wp_bind, wp_ws, wpNext_returned]
        intro _ _ _
        exact reports_negErrno _ _ _ _ _
      · simp only [wp_bind, wp_sliceTo]
        split
        · simp only [wpNext_returned, wp_bind, wp_writeGuest]
          generalize hwrote : e.writeAnswer addrPtr _ = wrote
          rcases wrote with errno | _
          · simp only [wp_bind, wp_ws, wpNext_returned]
            intro _ _ _
            exact reports_negErrno _ _ _ _ _
          · simp only [wp_bind, wp_writeU32, wpNext_returned]
            generalize Export.writeAnswer _ _ _ = wroteLen
            rcases wroteLen with errno | _
            · simp only [wp_bind, wp_ws, wpNext_returned]
              intro _ _ _
              exact reports_negErrno _ _ _ _ _
            · simp only [wp_insert, List.cons_append, List.nil_append]
              refine reports_of_written hfits (fill requestedLen answer.data) (asUsize answer.len) ?_ ?_
              · simp [AddressHost.reportedBy, reportedAddress, hvalid, hbuf]
              · simp [denormalizeSockaddrForGuest]
        · exact reports_panicked _ _ _ _

/-- The call that `socket_name` makes, with its answer. -/
def windowsNameEvent (kind : NameKind) (rawSocket : Windows.Socket) (addrLen : Int32)
    (answer : Windows.BufAnswer) : Event Windows.Sockets :=
  match kind with
  | .localName => ⟨.inr (.inr (.getsockname rawSocket addrLen)), answer⟩
  | .peer => ⟨.inr (.inr (.getpeername rawSocket addrLen)), answer⟩

/-- Either of the calls that ask for a name, as one event. -/
theorem wp_windows_callName {kind : NameKind} {rawSocket : Windows.Socket} {addrLen : Int32}
    {Q : List (Event Windows.Sockets) → Outcome Windows.BufAnswer → Export × (AppState Windows.HostSocket × Unit) → Prop} :
    wp (Windows.machine .any) (Windows.callName kind rawSocket addrLen) Q (e, a, ()) ↔
      ∀ answer, Q [windowsNameEvent kind rawSocket addrLen answer] (.returned answer) (e, a, ()) := by
  cases kind with
  | localName => exact Windows.wp_ws.trans ⟨fun h answer => h answer () trivial, fun h answer _ _ => h answer⟩
  | peer => exact Windows.wp_ws.trans ⟨fun h answer => h answer () trivial, fun h answer _ _ => h answer⟩

/-- What such a call reports is the first bytes of its buffer. -/
theorem reportedBy_windowsNameEvent (kind : NameKind) (rawSocket : Windows.Socket) (addrLen : Int32) (answer : Windows.BufAnswer) :
    windowsHost.reportedBy (windowsNameEvent kind rawSocket addrLen answer) =
      if answer.rc = Windows.socketError then none
      else some ((fill addrLen.toNatClampNeg answer.data).take (Windows.asUsize answer.len)) := by
  cases kind <;> rfl

open Windows in
/-- `getsockname` and `getpeername` on Windows report the address of WinSock with the guest's family. -/
theorem windows_socketName_reports {fd addrPtr addrLenPtr : Int32} (kind : NameKind) (hfd : a.sockets.find fd = some entry)
    (hfits : FitsU16 entry.guestDomain) :
    wp (machine .any) (Windows.socketName fd addrPtr addrLenPtr kind)
      (fun tr o _ => Reports windowsHost entry.guestDomain addrPtr tr o) (e, a, ()) := by
  simp only [Windows.socketName, wp_bind, wp_get, hfd, okOrEbadf, wpNext_returned, Prog.pure_eq, Prog.ret_bind, wp_readSockaddrLen]
  cases hlen : (e.readU32 addrLenPtr).bind checkedSockaddrLen with
  | error errno => exact reports_negErrno _ _ _ _ _
  | ok requestedLen =>
    have hbuf := toNatClampNeg_of_checkedSockaddrLen hlen
    simp only [wp_bind, wp_alloc, wp_windows_callName, wpNext_returned]
    intro answer
    have hreported := reportedBy_windowsNameEvent kind entry.rawSocket (Int32.ofNat requestedLen) answer
    split
    · rename_i hrc
      rw [if_pos hrc] at hreported
      simp only [wp_negLastSocketErrno]
      intro code _ _
      refine reports_of_none ?_
      simp only [List.cons_append, List.nil_append, List.forall_mem_cons]
      exact ⟨rfl, rfl, rfl, hreported, rfl, List.forall_mem_nil _⟩
    · rename_i hrc
      rw [if_neg hrc, hbuf] at hreported
      split
      · exact reports_negErrno _ _ _ _ _
      · simp only [wp_bind, wp_sliceTo]
        split
        · simp only [wpNext_returned, wp_bind, wp_writeGuest]
          generalize hwrote : e.writeAnswer addrPtr _ = wrote
          rcases wrote with errno | _
          · exact reports_negErrno _ _ _ _ _
          · simp only [wp_bind, wp_writeU32, wpNext_returned]
            generalize Export.writeAnswer _ _ _ = wroteLen
            rcases wroteLen with errno | _
            · exact reports_negErrno _ _ _ _ _
            · simp only [wp_ret, List.cons_append, List.nil_append]
              refine reports_of_written hfits (fill requestedLen answer.data) (asUsize answer.len) ?_ ?_
              · simp only [List.forall_mem_cons]
                refine ⟨forall_of_eq_none rfl, forall_of_eq_none rfl, forall_of_eq_none rfl, ?_,
                  forall_of_eq_none rfl, forall_of_eq_none rfl, List.forall_mem_nil _⟩
                intro host hhost
                rw [hreported] at hhost
                exact (Option.some.inj hhost).symm
              · simp [denormalizeSockaddrForGuest]
        · exact reports_panicked _ _ _ _

open Windows in
/-- `recvfrom` on Windows reports the address of WinSock with the guest's family. -/
theorem windows_recvfrom_reports {fd bufPtr len flags addrPtr addrLenPtr : Int32} (hfd : a.sockets.find fd = some entry)
    (hfits : FitsU16 entry.guestDomain) :
    wp (machine .any) (Windows.recvfrom fd bufPtr len flags addrPtr addrLenPtr)
      (fun tr o _ => Reports windowsHost entry.guestDomain addrPtr tr o) (e, a, ()) := by
  simp only [Windows.recvfrom, wp_bind, wp_get, hfd, okOrEbadf, wpNext_returned, Prog.pure_eq, Prog.ret_bind]
  cases hn : checkedLen len with
  | error errno => exact reports_negErrno _ _ _ _ _
  | ok n =>
    simp only [wp_bind, wp_readSockaddrLen, wpNext_returned]
    cases hlen : (e.readU32 addrLenPtr).bind checkedSockaddrLen with
    | error errno => exact reports_negErrno _ _ _ _ _
    | ok requestedLen =>
      have hbuf := toNatClampNeg_of_checkedSockaddrLen hlen
      simp only [wp_bind, wp_alloc, wp_ws, wpNext_returned]
      intro answer _ _
      split
      · rename_i hrc
        simp only [wp_negLastSocketErrno]
        intro code _ _
        exact reports_of_none (by simp [AddressHost.reportedBy, reportedAddress, hrc])
      · rename_i hrc
        split
        · exact reports_negErrno _ _ _ _ _
        · simp only [wp_bind, wp_sliceTo]
          split
          · simp only [wpNext_returned, wp_bind, wp_writeGuest]
            generalize Export.writeAnswer _ bufPtr _ = wroteBuf
            rcases wroteBuf with errno | _
            · exact reports_negErrno _ _ _ _ _
            · simp only [wp_bind, wp_sliceTo]
              split
              · simp only [wpNext_returned, wp_bind, wp_writeGuest]
                generalize hwrote : Export.writeAnswer _ addrPtr _ = wrote
                rcases wrote with errno | _
                · exact reports_negErrno _ _ _ _ _
                · simp only [wp_bind, wp_writeU32, wpNext_returned]
                  generalize Export.writeAnswer _ _ _ = wroteLen
                  rcases wroteLen with errno | _
                  · exact reports_negErrno _ _ _ _ _
                  · simp only [wp_ret, List.cons_append, List.nil_append]
                    refine reports_of_written hfits (fill requestedLen answer.addr) (asUsize answer.addrLen) ?_ ?_
                    · simp [AddressHost.reportedBy, reportedAddress, hrc, hbuf]
                    · simp [denormalizeSockaddrForGuest]
              · exact reports_panicked _ _ _ _
          · exact reports_panicked _ _ _ _

/-- What `socket` inserts. -/
theorem windows_socket_inserts (domain ty protocol : Int32) :
    (Windows.socket domain ty protocol).Only (windowsHost.InsertsOnly domain) := by
  have hcalls {α : Type} {p : Windows.Import α} (hp : p.Only IsCall) : p.Only (windowsHost.InsertsOnly domain) :=
    hp.mono fun c hc => insertsOnly_of_isCall windowsHost domain hc
  have hinsert (rawSocket : Windows.Socket) (statusFlags : Int32) :
      (Windows.insert rawSocket domain (Windows.normalizeSocketDomain domain) statusFlags).Only (windowsHost.InsertsOnly domain) :=
    ⟨⟨rfl, rfl⟩, fun _ => trivial⟩
  refine ⟨trivial, fun allowed => .ite trivial ?_⟩
  refine .attempt (hcalls Windows.only_ensureWinsock) (fun _ => trivial) fun _ => ?_
  cases Windows.normalizeSocketType ty with
  | error errno => trivial
  | ok socketType =>
    refine .bind trivial fun socketType => .bind (hcalls (Windows.only_ws _)) fun rawSocket => ?_
    refine .ite (hcalls Windows.only_negLastSocketErrno) (.ite ?_ (hinsert rawSocket 0))
    refine .bind (hcalls (Windows.only_ws _)) fun rc => .ite ?_ (hinsert rawSocket wasiONonblock)
    exact .bind (hcalls (Windows.only_ws _)) fun _ => hcalls Windows.only_negLastSocketErrno

open Windows in
/-- What `accept` inserts has the domains of the listener. -/
theorem windows_accept_inserts {fd addrPtr addrLenPtr : Int32} (hfd : a.sockets.find fd = some entry)
    (hentry : windowsHost.IsOf domain entry) :
    wp (machine .any) (Windows.accept fd addrPtr addrLenPtr)
      (fun tr _ _ => ∀ ev ∈ tr, windowsHost.InsertsOnly domain ev.1) (e, a, ()) := by
  have hcalls {α : Type} {p : Windows.Import α} (hp : p.Only IsCall) : p.Only (windowsHost.InsertsOnly domain) :=
    hp.mono fun c hc => insertsOnly_of_isCall windowsHost domain hc
  have hclose (rawSocket : Socket) (errno : Errno) :
      (ws (.closesocket rawSocket) >>= fun _ => pure (negErrno errno)).Only (windowsHost.InsertsOnly domain) :=
    .bind (hcalls (only_ws _)) fun _ => trivial
  unfold Windows.accept
  rw [wp_bind, wp_get, hfd, wpNext_returned]
  simp only [okOrEbadf, Prog.pure_eq, Prog.ret_bind]
  refine wp_mono (wp_forall_only (P := windowsHost.InsertsOnly domain) ?_) ?_
  · refine .attempt (.attempt (only_readU32 _ fun _ => trivial) (fun _ => trivial) fun _ => trivial) (fun _ => trivial) fun addrLen => ?_
    refine .bind ⟨trivial, fun _ => trivial⟩ fun _ => .bind (hcalls (only_ws _)) fun answer => ?_
    refine .ite (hcalls only_negLastSocketErrno) (.ite (hclose _ _) ?_)
    refine .bind (only_sliceTo _ _) fun reported => .attempt ⟨trivial, fun _ => trivial⟩ (fun errno => hclose _ errno) fun _ => ?_
    refine .attempt ⟨trivial, fun _ => trivial⟩ (fun errno => hclose _ errno) fun _ => ?_
    exact ⟨hentry, fun _ => trivial⟩
  · intro tr _ _ htr
    simp only [List.cons_append, List.nil_append, List.forall_mem_cons]
    exact ⟨trivial, htr⟩

end

/-! ### Both ways -/

section
variable (lc : Libc) (layout : List UInt8 → Nat) (rest : List UInt8 → List UInt8)

/-- Whatever import reports an address on Unix, the guest sees its own family. -/
theorem unix_reports {c : SocketImport} {fd addrPtr : Int32} (hc : c.addressOut = some (fd, addrPtr)) {e : Export}
    {a : AppState Unix.HostSocket} {entry : Unix.HostSocket} (hfd : a.sockets.find fd = some entry) (hfits : FitsU16 entry.guestDomain) :
    wp (Unix.machine .any) (Unix.prog lc c)
      (fun tr o _ => Reports (unixHost lc layout rest) entry.guestDomain addrPtr tr o) (e, a, ()) := by
  cases c with
  | accept fd' addrPtr' addrLenPtr =>
    cases hc
    exact unix_accept_reports lc layout rest hfd hfits
  | recvfrom fd' bufPtr len flags addrPtr' addrLenPtr =>
    cases hc
    exact unix_recvfrom_reports lc layout rest hfd hfits
  | getsockname fd' addrPtr' addrLenPtr =>
    cases hc
    exact unix_sockName_reports lc layout rest .localName hfd hfits
  | getpeername fd' addrPtr' addrLenPtr =>
    cases hc
    exact unix_sockName_reports lc layout rest .peer hfd hfits
  | _ => cases hc

/-- Whatever import reports an address on Windows, the guest sees its own family. -/
theorem windows_reports {c : SocketImport} {fd addrPtr : Int32} (hc : c.addressOut = some (fd, addrPtr)) {e : Export}
    {a : AppState Windows.HostSocket} {entry : Windows.HostSocket} (hfd : a.sockets.find fd = some entry)
    (hfits : FitsU16 entry.guestDomain) :
    wp (Windows.machine .any) (Windows.prog c) (fun tr o _ => Reports windowsHost entry.guestDomain addrPtr tr o) (e, a, ()) := by
  cases c with
  | accept fd' addrPtr' addrLenPtr =>
    cases hc
    exact windows_accept_reports hfd hfits
  | recvfrom fd' bufPtr len flags addrPtr' addrLenPtr =>
    cases hc
    exact windows_recvfrom_reports hfd hfits
  | getsockname fd' addrPtr' addrLenPtr =>
    cases hc
    exact windows_socketName_reports .localName hfd hfits
  | getpeername fd' addrPtr' addrLenPtr =>
    cases hc
    exact windows_socketName_reports .peer hfd hfits
  | _ => cases hc

/-- Where the family is a `u16` in front, what is written is the host's address. -/
theorem hostAddress_of_fits {A : AddressHost} (hfamily : A.family = leFamily) (hrest : A.rest = List.drop 2) (hfits : FitsU16 family)
    (hlen : 2 ≤ addr.length) : A.HostAddress family addr (writeSockaddrFamily addr family) := by
  refine ⟨length_writeSockaddrFamily addr family, ?_, ?_⟩
  · rw [hfamily, writeSockaddrFamily_eq hlen hfits, leFamily_append hfits]
  · rw [hrest, writeSockaddrFamily_eq hlen hfits, drop_family]

/-- On Unix addresses are translated both ways if both families are a `u16`. -/
theorem unix_translates (hfits : FitsU16 domain) (hhost : FitsU16 (Unix.normalizeSocketDomain lc domain)) :
    Translates (unixHost lc leFamily (List.drop 2)) domain where
  made ty protocol := unix_socket_inserts lc leFamily (List.drop 2) domain ty protocol
  copied _ _ _ _ _ _ hfd hentry _ _ _ hrun := hrun.of_wp (unix_accept_inserts lc leFamily (List.drop 2) hfd hentry)
  sends c fd addrPtr addrLen hc e a entry hfd hentry tr o s' hrun ev hev host hsent := by
    obtain ⟨guest, hread, hhostEq⟩ := hrun.of_wp (unix_sends lc leFamily (List.drop 2) hc hfd) ev hev host hsent
    refine ⟨guest, hread, fun hlen => ?_⟩
    rw [hhostEq, show entry.hostDomain = _ from hentry.2]
    exact hostAddress_of_fits rfl rfl hhost hlen
  returns c fd addrPtr hc e a entry hfd hentry tr rc s' hrun hrc := by
    have hdomain : entry.guestDomain = domain := hentry.1
    subst hdomain
    exact hrun.of_wp (unix_reports lc leFamily (List.drop 2) hc hfd hfits) rc rfl hrc
  roundTrip addr hlen hfamily := writeSockaddrFamily_back hlen hfamily

/-- The same on Windows. -/
theorem windows_translates (hfits : FitsU16 domain) (hhost : FitsU16 (Windows.normalizeSocketDomain domain)) :
    Translates windowsHost domain where
  made ty protocol := windows_socket_inserts domain ty protocol
  copied _ _ _ _ _ _ hfd hentry _ _ _ hrun := hrun.of_wp (windows_accept_inserts hfd hentry)
  sends c fd addrPtr addrLen hc e a entry hfd hentry tr o s' hrun ev hev host hsent := by
    obtain ⟨guest, hread, hhostEq⟩ := hrun.of_wp (windows_sends hc hfd) ev hev host hsent
    refine ⟨guest, hread, fun hlen => ?_⟩
    rw [hhostEq, show entry.hostDomain = _ from hentry.2]
    exact hostAddress_of_fits rfl rfl hhost hlen
  returns c fd addrPtr hc e a entry hfd hentry tr rc s' hrun hrc := by
    have hdomain : entry.guestDomain = domain := hentry.1
    subst hdomain
    exact hrun.of_wp (windows_reports hc hfd hfits) rc rfl hrc
  roundTrip addr hlen hfamily := writeSockaddrFamily_back hlen hfamily

/-- What the kernel gets for a socket bound to two bytes. -/
theorem Translates.unix_bind {lc : Libc} {layout : List UInt8 → Nat} {rest : List UInt8 → List UInt8}
    (h : Translates (unixHost lc layout rest) domain) :
    (unixHost lc layout rest).HostAddress (Unix.normalizeSocketDomain lc domain) [1, 0]
      (writeSockaddrFamily [1, 0] (Unix.normalizeSocketDomain lc domain)) := by
  let entry : Unix.HostSocket := ⟨3, domain, Unix.normalizeSocketDomain lc domain⟩
  let a : AppState Unix.HostSocket := ⟨true, ((FdTable.empty socketFdBase Unix.HostSocket).insert entry).2⟩
  have hread : (Export.memory [1, 0]).readGuest 0 2 = .ok [1, 0] := by decide
  have hfd : a.sockets.find 10000 = some entry := rfl
  have hwp : wp (Unix.machine .any) (Unix.prog lc (.bind 10000 0 2)) _ (.memory [1, 0], a, ()) :=
    wp_iff_runs.mpr (h.sends (.bind 10000 0 2) 10000 0 2 rfl (.memory [1, 0]) a entry hfd ⟨rfl, rfl⟩)
  simp only [Unix.prog, Unix.bind, wp_bind, Unix.wp_get, hfd, okOrEbadf, wpNext_returned, Prog.pure_eq, Prog.ret_bind, wp_readGuest, hread,
    Unix.wp_libc, Unix.cvtI32] at hwp
  obtain ⟨guest, hguest, haddr⟩ := hwp (0 : Int32) () trivial _ (.tail _ (.tail _ (.head _))) _ rfl
  cases hguest
  exact haddr (by decide)

/-- What WinSock gets for a socket bound to two bytes. -/
theorem Translates.windows_bind (h : Translates windowsHost domain) :
    windowsHost.HostAddress (Windows.normalizeSocketDomain domain) [1, 0]
      (writeSockaddrFamily [1, 0] (Windows.normalizeSocketDomain domain)) := by
  let entry : Windows.HostSocket := ⟨3, domain, Windows.normalizeSocketDomain domain, 0⟩
  let a : AppState Windows.HostSocket := ⟨true, ((FdTable.empty socketFdBase Windows.HostSocket).insert entry).2⟩
  have hread : (Export.memory [1, 0]).readGuest 0 2 = .ok [1, 0] := by decide
  have hfd : a.sockets.find 10000 = some entry := rfl
  have hwp : wp (Windows.machine .any) (Windows.prog (.bind 10000 0 2)) _ (.memory [1, 0], a, ()) :=
    wp_iff_runs.mpr (h.sends (.bind 10000 0 2) 10000 0 2 rfl (.memory [1, 0]) a entry hfd ⟨rfl, rfl⟩)
  simp only [Windows.prog, Windows.bind, wp_bind, Windows.wp_get, hfd, okOrEbadf, wpNext_returned, Prog.pure_eq, Prog.ret_bind, wp_readGuest,
    hread, Windows.wp_ws, Windows.cvtSocketI32] at hwp
  obtain ⟨guest, hguest, haddr⟩ := hwp (0 : Int32) () trivial _ (.tail _ (.tail _ (.head _))) _ rfl
  cases hguest
  exact haddr (by decide)

/-- A family that stands in two bytes of an address fits a `u16`. -/
theorem fitsU16_of_hostAddress {A : AddressHost} (hfamily : A.family = leFamily) {guest host : List UInt8}
    (h : A.HostAddress family guest host) : FitsU16 family := by
  have heq := h.family
  rw [hfamily] at heq
  have hlt := leFamily_lt host
  exact ⟨by omega, by omega⟩

/-- Linux's family is a `u16` exactly if the guest's is. -/
theorem fitsU16_linux_iff : FitsU16 (Unix.normalizeSocketDomain linux domain) ↔ FitsU16 domain := by
  unfold Unix.normalizeSocketDomain
  split
  · rename_i hd
    rw [hd]
    unfold FitsU16
    decide
  · split
    · rename_i hd
      rw [hd]
    · split
      · rename_i hd
        rw [hd]
      · rfl

/-- WinSock's family is a `u16` exactly if the guest's is. -/
theorem fitsU16_windows_iff : FitsU16 (Windows.normalizeSocketDomain domain) ↔ FitsU16 domain := by
  unfold Windows.normalizeSocketDomain
  split
  · rename_i hd
    rcases hd with rfl | rfl <;> (unfold FitsU16; decide)
  · split
    · rename_i hd
      rcases hd with rfl | rfl <;> (unfold FitsU16; decide)
    · rfl

/-- On macOS no address has its family where the kernel looks for it. -/
theorem not_hostAddress_macos (family : Int32) :
    ¬(HostOs.addresses .macos).HostAddress family [1, 0] (writeSockaddrFamily [1, 0] family) := by
  rintro ⟨_, hfamily, hrest⟩
  by_cases hfits : FitsU16 family
  · have hnat : ((family.toNatClampNeg : Nat) : Int) = family.toInt := Int.toNat_of_nonneg hfits.1
    -- the second byte would have to be the whole family, and the first to be left at 1
    have hbytes : writeSockaddrFamily [1, 0] family = [UInt8.ofNat family.toNatClampNeg, UInt8.ofNat (family.toNatClampNeg / 256)] :=
      writeSockaddrFamily_eq (by decide) hfits
    rw [hbytes] at hfamily hrest
    have hlow := congrArg UInt8.toNat (List.cons.inj hrest).1
    have hhigh : ((UInt8.ofNat (family.toNatClampNeg / 256)).toNat : Int) = family.toInt := hfamily
    rw [UInt8.toNat_ofNat'] at hlow hhigh
    have hone : UInt8.toNat 1 = 1 := rfl
    omega
  · rw [writeSockaddrFamily_of_not_fits hfits] at hfamily
    have hzero : (0 : Int) = family.toInt := hfamily
    exact hfits ⟨by omega, by omega⟩

end

end SocketAddressesAux

open SocketAddressesAux

/-- Addresses are translated on exactly the hosts other than macOS, and for the domains that a `u16` holds. -/
theorem translates_iff (os : HostOs) (domain : Int32) :
    Translates os.addresses domain ↔ os ≠ .macos ∧ 0 ≤ domain.toInt ∧ domain.toInt < 2 ^ 16 := by
  cases os with
  | linux =>
    constructor
    · intro h
      exact ⟨nofun, fitsU16_linux_iff.mp (fitsU16_of_hostAddress rfl (Translates.unix_bind h))⟩
    · rintro ⟨_, hfits⟩
      exact unix_translates linux hfits (fitsU16_linux_iff.mpr hfits)
  | macos =>
    constructor
    · intro h
      exact absurd (Translates.unix_bind h) (not_hostAddress_macos _)
    · rintro ⟨hne, _⟩
      exact absurd rfl hne
  | windows =>
    constructor
    · intro h
      exact ⟨nofun, fitsU16_windows_iff.mp (fitsU16_of_hostAddress rfl (Translates.windows_bind h))⟩
    · rintro ⟨_, hfits⟩
      exact windows_translates hfits (fitsU16_windows_iff.mpr hfits)

/-- `AF_INET` on macOS: the kernel gets the bytes 2, 0, which is a length of 2 and the family 0. -/
theorem inet_not_translated : ¬∀ (os : HostOs) (domain : Int32), (0 ≤ domain.toInt ∧ domain.toInt < 2 ^ 16) →
    Translates os.addresses domain := by
  intro h
  exact not_hostAddress_macos _ (Translates.unix_bind (h .macos 2 (by decide)))

end WasmtimeMysql
